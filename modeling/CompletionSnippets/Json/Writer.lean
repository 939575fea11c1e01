import CompletionSnippets.Json.Value

/-!
# Writing JSON

A value is written without blanks. In strings the quote, the backslash and the
characters below U+0020 are escaped, with a letter where JSON has one and else
with four hexadecimal digits in lower case; all other characters stay as they
are.
-/
namespace CompletionSnippets.Json

namespace Value

/-- A character as it stands in a string. -/
def escapeChar (c : Char) : Text :=
  match c with
  | '"' => ['\\', '"']
  | '\\' => ['\\', '\\']
  | '\x08' => ['\\', 'b']
  | '\x0c' => ['\\', 'f']
  | '\n' => ['\\', 'n']
  | '\r' => ['\\', 'r']
  | '\t' => ['\\', 't']
  | c =>
    if c.toNat < 0x20 then
      ['\\', 'u', '0', '0', Nat.digitChar (c.toNat / 16), Nat.digitChar (c.toNat % 16)]
    else [c]

def renderString (t : Text) : Text := '"' :: t.flatMap escapeChar ++ ['"']

mutual

def render : Value → Text
  | .null => ['n', 'u', 'l', 'l']
  | .bool true => ['t', 'r', 'u', 'e']
  | .bool false => ['f', 'a', 'l', 's', 'e']
  | .number n => n.render
  | .string t => renderString t
  | .array items => '[' :: renderItems items ++ [']']
  | .object members => '{' :: renderMembers members ++ ['}']

def renderItems : List Value → Text
  | [] => []
  | [item] => render item
  | item :: rest => render item ++ ',' :: renderItems rest

def renderMembers : List (Text × Value) → Text
  | [] => []
  | [(key, v)] => renderString key ++ ':' :: render v
  | (key, v) :: rest => renderString key ++ ':' :: render v ++ ',' :: renderMembers rest

end

end Value
end CompletionSnippets.Json
