import CompletionSnippets.Candidate.Basic
import CompletionSnippets.Json.Reader

/-!
# Candidates as JSON values

A reply is an empty array, or an array of two: the length of what was typed and
the array of candidates. A candidate is an object with its fields by name, or an
array of its fields in order; the key of the category is `class`. All fields are
strings; category and name have to be there, and other keys of an object count
for nothing.
-/
namespace CompletionSnippets

namespace Candidate

/-- The string under a key. A key that is missing has none, and the outer result
is empty when the key stands there twice or holds no string. -/
def field? (members : List (Text × Json.Value)) (key : Text) : Option (Option Text) :=
  match members.filter fun m => m.1 == key with
  | [] => some none
  | [(_, .string t)] => some (some t)
  | _ => none

def ofValue? : Json.Value → Option Candidate
  | .array [.string category, .string name] => some { category, name }
  | .array [.string category, .string name, .string type] => some { category, name, type }
  | .array [.string category, .string name, .string type, .string package] =>
    some { category, name, type, package }
  | .object members => do
    let category ← field? members "class".toList
    let name ← field? members "name".toList
    let type ← field? members "type".toList
    let package ← field? members "package".toList
    return {
      category := ← category, name := ← name, type := type.getD [], package := package.getD [] }
  | _ => none

end Candidate

namespace Reply

def ofValue? : Json.Value → Option Reply
  | .array [] => some {}
  | .array [.number n, .array items] => do
    return { prefixLength := ← n.natural?, candidates := ← items.mapM Candidate.ofValue? }
  | _ => none

end Reply

/-- Why a text is no reply: it is no JSON, or JSON of another shape. -/
inductive ReplyFault where
  | notJson (fault : Json.Fault)
  | otherShape
deriving DecidableEq, Repr

namespace Reply

/-- The reply that a text denotes. A blank text is the empty reply. The first
value of the text has to be sound and then to have the right shape; only after
that it matters what stands behind it. -/
def ofJson (t : Text) : Except ReplyFault Reply :=
  if t.isAllBlank then .ok {}
  else match Json.Value.scan t with
    | .error fault => .error (.notJson fault)
    | .ok (v, rest) =>
      match ofValue? v with
      | none => .error .otherShape
      | some reply => if rest.isEmpty then .ok reply else .error (.notJson .malformed)

end Reply
end CompletionSnippets
