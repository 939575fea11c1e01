import CompletionSnippets.Json.Token

/-!
# Reading JSON

A value is read from tokens by a machine with a stack. The stack holds the arrays
and objects around the value that is being read, each with what it already
contains; the stage says what may come next. One token makes one step, and the
value that a text begins with is complete when it is delivered to an empty stack.

At most 127 arrays and objects may stand inside each other. The bracket that
would open one more is a fault.
-/
namespace CompletionSnippets.Json

/-- An array or object around the value that is being read. Items and members are
kept last first. -/
inductive Frame where
  | array (items : List Value)
  /-- The value being read belongs to the key. -/
  | object (members : List (Text × Value)) (key : Text)
deriving Repr

/-- What may come next. Items and members are kept last first. -/
inductive Stage where
  /-- A value. -/
  | value
  /-- The first item of an array, or its end. -/
  | firstItem
  /-- A comma and another item, or the end of the array. -/
  | afterItem (items : List Value)
  /-- The first key of an object, or its end. -/
  | firstKey
  /-- Another key. -/
  | key (members : List (Text × Value))
  /-- The colon behind a key. -/
  | colon (members : List (Text × Value)) (key : Text)
  /-- A comma and another key, or the end of the object. -/
  | afterMember (members : List (Text × Value))
deriving Repr

inductive Step where
  | fault (f : Fault)
  | complete (v : Value)
  | proceed (stage : Stage) (stack : List Frame)
deriving Repr

namespace Step

def nestingLimit : Nat := 127

/-- A value that was read goes to the innermost array or object around it. -/
def deliver (v : Value) : List Frame → Step
  | [] => .complete v
  | .array items :: stack => .proceed (.afterItem (v :: items)) stack
  | .object members key :: stack => .proceed (.afterMember ((key, v) :: members)) stack

def enter (stage : Stage) (stack : List Frame) : Step :=
  if stack.length < nestingLimit then .proceed stage stack else .fault .malformed

def value (stack : List Frame) : Token → Step
  | .openBracket => enter .firstItem stack
  | .openBrace => enter .firstKey stack
  | .string t => deliver (.string t) stack
  | .scalar v => deliver v stack
  | .broken _ f => .fault f
  | _ => .fault .malformed

def key (members : List (Text × Value)) (stack : List Frame) : Token → Step
  | .string t => .proceed (.colon members t) stack
  | .broken true f => .fault f
  | _ => .fault .malformed

def of : Stage → List Frame → Token → Step
  | .value, stack, token => value stack token
  | .firstItem, stack, .closeBracket => deliver (.array []) stack
  | .firstItem, stack, token => value (.array [] :: stack) token
  | .afterItem items, stack, .closeBracket => deliver (.array items.reverse) stack
  | .afterItem items, stack, .comma => .proceed .value (.array items :: stack)
  | .firstKey, stack, .closeBrace => deliver (.object []) stack
  | .firstKey, stack, token => key [] stack token
  | .key members, stack, token => key members stack token
  | .colon members key, stack, .colon => .proceed .value (.object members key :: stack)
  | .afterMember members, stack, .closeBrace => deliver (.object members.reverse) stack
  | .afterMember members, stack, .comma => .proceed (.key members) stack
  | _, _, _ => .fault .malformed

end Step

namespace Value

/-- The value that the tokens complete, and the tokens behind it. -/
def ofTokens (stage : Stage) (stack : List Frame) : List Token → Except Fault (Value × List Token)
  | [] => .error .ended
  | token :: rest =>
    match Step.of stage stack token with
    | .fault f => .error f
    | .complete v => .ok (v, rest)
    | .proceed stage stack => ofTokens stage stack rest

def scan (t : Text) : Except Fault (Value × List Token) := ofTokens .value [] (Token.tokens t)

/-- The value that a text is, with nothing but blanks around it. -/
def read (t : Text) : Except Fault Value := do
  let (v, rest) ← scan t
  if rest.isEmpty then return v else .error .malformed

end Value
end CompletionSnippets.Json
