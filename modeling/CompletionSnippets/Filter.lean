import CompletionSnippets.Text

/-!
# Name filters

A filter keeps the names that hold its term, or one of its terms, ignoring the
case of ASCII letters, or the names in which its pattern occurs. Terms are given
with bars between them; blanks around them and blank terms count for nothing, but
one term there has to be. What a pattern is, and where it occurs, is left to an
engine for patterns.
-/
namespace CompletionSnippets

/-- An engine for patterns: it says in which texts a pattern occurs, or in its own words why
what was written is no pattern. -/
abbrev PatternEngine := Text → Except Text (Text → Bool)

/-- What a name has to hold. -/
inductive Filter where
  | literal (t : Text)
  | terms (ts : List Text)
  | pattern (written : Text) (occursIn : Text → Bool)

/-- Why a filter cannot be built. -/
inductive FilterFault where
  | noPattern (words : Text)
  | noTerm
deriving DecidableEq, Repr

namespace FilterFault

def message : FilterFault → Text
  | noPattern words => "Invalid regex: ".toList ++ words
  | noTerm => "Empty filter pattern".toList

end FilterFault

namespace Filter

def termsOf (written : Text) : List Text :=
  ((written.splitOn '|').map Text.trim).filter fun t => !t.isEmpty

/-- The filter with the given text: a pattern if it is meant as one, else terms if
there is a bar in it, else one term just as it is. -/
def build (engine : PatternEngine) (written : Text) (isPattern : Bool) :
    Except FilterFault Filter :=
  if isPattern then
    match engine written with
    | .ok occursIn => .ok (.pattern written occursIn)
    | .error words => .error (.noPattern words)
  else if written.contains '|' then
    let ts := termsOf written
    if ts.isEmpty then .error .noTerm else .ok (.terms ts)
  else .ok (.literal written)

/-- Whether the name holds the term, whatever the case of ASCII letters. -/
def holdsTerm (name term : Text) : Bool := term.lowerAscii.occursIn name.lowerAscii

def keeps (f : Filter) (name : Text) : Bool :=
  match f with
  | literal t => holdsTerm name t
  | terms ts => ts.any (holdsTerm name)
  | pattern _ occursIn => occursIn name

end Filter
end CompletionSnippets
