import CompletionSnippets.Signature.Reading
import CompletionSnippets.Snippet.Detail
import CompletionSnippets.Snippet.Template

/-!
# Snippets

A snippet completes the name of a function to a call: a text to show, with every
parameter as it was declared, and a template to insert, with stops for the
parameters that a caller has to give. Variadic parameters may be left out, so
they have no stop. The stops are numbered from one in the order in which they
stand in the template; the cursor ends behind the call, at stop zero.

With the greatest detail a parameter of function type becomes a callback: its
own parameters are placeholders inside the parameter's placeholder, its results
are written by their types, and the last stop is in the body.
-/
namespace CompletionSnippets

/-- What a completion shows and what it inserts. -/
structure Snippet where
  displayText : Text
  template : Template
deriving Repr

namespace Snippet

/-- The types of a callback's results, as they stand behind its parameters. -/
def callbackResults (results : List Entry) : Text :=
  match results with
  | [] => []
  | [only] => ' ' :: only.type
  | many => [' ', '('] ++ Text.joinWith Text.commaSpace (many.map Entry.type) ++ [')']

/-- A parameter of a callback: a placeholder for its name, or for its type when
it has no name. -/
def callbackParam (number : Nat) (e : Entry) : Template :=
  if e.identifier.isEmpty then [.placeholder number [.text e.type]]
  else [.placeholder number [.text e.identifier], .text (' ' :: e.type)]

def commaSeparated (parts : List Template) : Template :=
  List.intercalate [.text Text.commaSpace] parts

/-- A callback of the given signature whose first stop has the given number. -/
def callback (first : Nat) (s : Signature) : Template :=
  [.text Outline.opening] ++
    commaSeparated (s.params.zipIdx first |>.map fun (e, number) => callbackParam number e) ++
    [.text (')' :: callbackResults s.results ++ [' ', '{', '\n', '\t']),
      .stop (first + s.params.length), .text ['\n', '}']]

/-- How many stops the placeholder of a parameter takes, its own among them. -/
def stopCount (detail : Detail) (e : Entry) : Nat :=
  match detail, e.signature? with
  | .nameAndType, some s => s.params.length + 2
  | _, _ => 1

/-- The placeholder of a parameter, with its own number. -/
def placeholder (detail : Detail) (number : Nat) (e : Entry) : Piece :=
  match detail, e.signature? with
  | .nameAndType, some s => .placeholder number (callback (number + 1) s)
  | .nameAndType, none => .placeholder number [.text e.raw]
  | _, _ => .placeholder number [.text e.identifier]

/-- The placeholders of parameters, numbered on from the given number. -/
def placeholders (detail : Detail) (first : Nat) : List Entry → List Piece
  | [] => []
  | e :: rest =>
    placeholder detail first e :: placeholders detail (first + stopCount detail e) rest

def arguments (detail : Detail) (params : List Entry) : Template :=
  match detail with
  | .bare => if params.isEmpty then [] else [.stop 1]
  | _ =>
    commaSeparated <|
      (placeholders detail 1 (params.filter fun e => !e.isVariadic)).map fun piece => [piece]

/-- The snippet that completes a name to a call of a function with the given
signature. -/
def ofSignature (name : Text) (s : Signature) (detail : Detail) : Snippet where
  displayText := name ++ '(' :: Text.joinWith Text.commaSpace (s.params.map Entry.raw) ++ [')']
  template := [.text (name ++ ['('])] ++ arguments detail s.params ++ [.text [')'], .stop 0]

/-- The snippet of a name with the given type. The name of anything but a
function stays alone. -/
def ofType (name type : Text) (detail : Detail) : Snippet :=
  match Signature.ofText? type with
  | some s => ofSignature name s detail
  | none => { displayText := name, template := [.text name] }

end Snippet
end CompletionSnippets
