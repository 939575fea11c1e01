import CompletionSnippets.Json.Number

/-!
# JSON values

A value is the tree of a JSON text. An object is the list of its members in the
order in which they are written, so that a key may stand in it more than once;
numbers are kept as their literals.
-/
namespace CompletionSnippets.Json

inductive Value where
  | null
  | bool (b : Bool)
  | number (n : Number)
  | string (t : Text)
  | array (items : List Value)
  | object (members : List (Text × Value))
deriving Repr

namespace Value

def natural (n : Nat) : Value := .number (.ofNat n)

end Value
end CompletionSnippets.Json
