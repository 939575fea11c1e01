import CompletionSnippets.Text

/-!
# Signatures

A signature is a function type taken apart: its text and the entries of its
parameter and result lists. An entry has an identifier, empty when it has none,
and a type, which is plain text or again a signature. Every node keeps the text
that it was read from.
-/
namespace CompletionSnippets

mutual

/-- One entry of a parameter or result list. -/
inductive Entry where
  /-- An entry whose type is kept as text. -/
  | plain (raw identifier type : Text)
  /-- An entry whose type is a function type. -/
  | func (raw identifier : Text) (signature : Signature)

/-- A function type with its lists of entries. -/
structure Signature where
  raw : Text
  params : List Entry
  results : List Entry

end

namespace Entry

def raw : Entry → Text
  | plain raw _ _ => raw
  | func raw _ _ => raw

/-- The entry's identifier; an unnamed entry has the empty one. -/
def identifier : Entry → Text
  | plain _ identifier _ => identifier
  | func _ identifier _ => identifier

def type : Entry → Text
  | plain _ _ type => type
  | func _ _ signature => signature.raw

/-- The entry's type as a signature, when it is a function type. -/
def signature? : Entry → Option Signature
  | plain _ _ _ => none
  | func _ _ signature => some signature

/-- A variadic entry's type begins with three dots. -/
def isVariadic (e : Entry) : Bool := ['.', '.', '.'].isPrefixOf e.type

end Entry

namespace Signature

/-- The results as a label: nothing, the only result when it is unnamed, and
otherwise all of them in parentheses. -/
def resultLabel (s : Signature) : Text :=
  match s.results with
  | [] => []
  | [only] => if only.identifier.isEmpty then only.raw else listed [only]
  | results => listed results
where
  /-- The entries' texts in parentheses. -/
  listed (entries : List Entry) : Text :=
    '(' :: Text.joinWith Text.commaSpace (entries.map Entry.raw) ++ [')']

end Signature
end CompletionSnippets
