import CompletionSnippets.Notice
import CompletionSnippets.Outline
import CompletionSnippets.Signature.Basic

/-!
# Reading signatures

A text that has an outline is read as a signature, and so is the type of each of
its entries, down to a fixed number of levels below the outermost function type.
At the level after the last, a function type stays plain text, and each one that
does is worth a notice. All other texts are read as they are: an entry with
brackets out of balance is still an entry.
-/
namespace CompletionSnippets

namespace Entry

/-- The identifier and the type text of a trimmed entry. An entry that begins
like a function type is unnamed; otherwise the first top-level blank stands
between identifier and type, and without one the entry is unnamed. -/
def divide (raw : Text) : Text × Text :=
  if Outline.startsFunc raw then ([], raw)
  else match Text.breakAtBlank? {} [] raw with
    | some (identifier, rest) => (identifier, rest.trimStart)
    | none => ([], raw)

/-- The entry that a token denotes, when function types are read for the given
number of levels, the entry's own among them. -/
def ofToken (levels : Nat) (token : Text) : Entry :=
  let raw := token.trim
  let (identifier, type) := divide raw
  match Outline.of? type, levels with
  | some o, levels + 1 =>
    .func raw identifier
      { raw := o.whole
        params := o.paramTokens.map (ofToken levels)
        results := o.resultTokens.map (ofToken levels) }
  | _, _ => .plain raw identifier type

/-- How many function types in a token stay text because they stand too deep. -/
def keptAsText (levels : Nat) (token : Text) : Nat :=
  match Outline.of? (divide token.trim).2, levels with
  | none, _ => 0
  | some _, 0 => 1
  | some o, levels + 1 =>
    (o.paramTokens.map (keptAsText levels)).foldr (· + ·) 0 +
      (o.resultTokens.map (keptAsText levels)).foldr (· + ·) 0

end Entry

namespace Signature

/-- The number of levels below the outermost function type at which function
types are still read. -/
def nestingLimit : Nat := 256

/-- The signature with the given outline, its entries read for `levels` levels. -/
def ofOutline (levels : Nat) (o : Outline) : Signature where
  raw := o.whole
  params := o.paramTokens.map (Entry.ofToken levels)
  results := o.resultTokens.map (Entry.ofToken levels)

/-- The signature that a text denotes, if it is a function type. -/
def ofText? (t : Text) : Option Signature := (Outline.of? t).map (ofOutline nestingLimit)

/-- One notice for each function type that stands too deep to be read. -/
def notices (t : Text) : List Notice :=
  match Outline.of? t with
  | none => []
  | some o =>
    List.replicate
      (((o.paramTokens ++ o.resultTokens).map (Entry.keptAsText nestingLimit)).foldr (· + ·) 0)
      (.nestedDeeperThan nestingLimit)

end Signature

namespace Entry

/-- The entry that a token denotes when it stands in an outermost list. -/
def ofText (token : Text) : Entry := ofToken Signature.nestingLimit token

end Entry

structure NotFunctionType where
  text : Text
deriving DecidableEq, Repr

namespace NotFunctionType

def message (e : NotFunctionType) : Text := "not a function type: ".toList ++ e.text

end NotFunctionType

namespace Signature

/-- The signature of a text, or the trimmed text that is none. -/
def read (t : Text) : Except NotFunctionType Signature :=
  match ofText? t with
  | some s => .ok s
  | none => .error ⟨t.trim⟩

end Signature
end CompletionSnippets
