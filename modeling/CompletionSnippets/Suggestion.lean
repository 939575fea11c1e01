import CompletionSnippets.Candidate.Basic
import CompletionSnippets.Filter
import CompletionSnippets.Snippet.Basic

/-!
# Suggestions

A candidate that starts with what was typed, and whose name the filter keeps,
becomes a suggestion in the list of completions. A function is completed to a
call when its type can be read, with its results as the label on the left; every
other candidate is completed to its name.
-/
namespace CompletionSnippets

/-- What kind of thing a suggestion stands for. -/
inductive Kind where
  | function
  | var
  | const
  | type
  | package
  | other
deriving DecidableEq, Repr

namespace Kind

def ofCategory (category : Text) : Kind :=
  (categories.lookup category).getD .other
where
  /-- The categories that have a kind of their own. -/
  categories : List (Text × Kind) :=
    [("func".toList, .function), ("var".toList, .var), ("const".toList, .const),
      ("type".toList, .type), ("package".toList, .package)]

def label : Kind → Text
  | function => "function".toList
  | var => "variable".toList
  | const => "constant".toList
  | type => "type".toList
  | package => "import".toList
  | other => "value".toList

end Kind

/-- An entry of the list of completions. -/
structure Suggestion where
  text : Text
  displayText : Text
  /-- The template to insert, as it is written; without one the text is inserted. -/
  snippet : Option Text
  kind : Kind
  leftLabel : Text
  rightLabel : Text
  /-- What was typed and is replaced. -/
  replaced : Text
  package : Text
deriving DecidableEq, Repr

namespace Suggestion

/-- The suggestion that completes what was typed to a candidate. -/
def ofCandidate (detail : Detail) (typed : Text) (c : Candidate) : Suggestion :=
  let plain : Suggestion := {
    text := c.name, displayText := c.name, snippet := none, kind := .ofCategory c.category
    leftLabel := c.type, rightLabel := c.category, replaced := typed, package := c.package }
  match plain.kind with
  | .function =>
    match Signature.ofText? c.type with
    | some s =>
      let snippet := Snippet.ofSignature c.name s detail
      { plain with
        displayText := snippet.displayText, snippet := some snippet.template.render
        leftLabel := s.resultLabel }
    | none => plain
  | .package => { plain with leftLabel := [] }
  | _ => plain

/-- What is reported when a candidate becomes a suggestion. -/
def notices (c : Candidate) : List Notice :=
  match Kind.ofCategory c.category with
  | .function =>
    match Signature.read c.type with
    | .ok _ => Signature.notices c.type
    | .error fault => [.offeredAsText c.name fault.message]
  | _ => []

end Suggestion

/-- Which candidates are completed, and how. -/
structure Selection where
  detail : Detail
  typed : Text := []
  filter : Option Filter := none

namespace Selection

/-- Whether the bytes of the name begin with those of what was typed, whatever the
case of ASCII letters. -/
def startsWith (name typed : Text) : Bool :=
  (typed.utf8.map Text.lowerByte).isPrefixOf (name.utf8.map Text.lowerByte)

/-- The suggestion for a candidate that is kept. -/
def suggestion? (s : Selection) (c : Candidate) : Option Suggestion :=
  if startsWith c.name s.typed && s.filter.all fun f => f.keeps c.name then
    some (.ofCandidate s.detail s.typed c)
  else none

/-- The suggestions for the candidates that are kept, in their order. A run that
was cancelled before it began makes none. -/
def suggestions (s : Selection) (cancelled : Bool) (cs : List Candidate) : List Suggestion :=
  if cancelled then [] else cs.filterMap s.suggestion?

end Selection
end CompletionSnippets
