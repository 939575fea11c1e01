import CompletionSnippets.Text

/-!
# Templates

A template is inserted text with tab stops: places that the cursor visits in the
order of their numbers, number zero last. A placeholder is a stop that already
holds content, which may itself hold stops. Written out, a bare stop is `$n` and
a placeholder is `${n:content}`. A closing brace in the content would end the
placeholder early, so text inside a placeholder is written with a backslash
before each closing brace; text outside is written as it is.
-/
namespace CompletionSnippets

/-- A part of a template. -/
inductive Piece where
  /-- Text to insert. -/
  | text (t : Text)
  /-- A bare stop. -/
  | stop (number : Nat)
  /-- A stop with content. -/
  | placeholder (number : Nat) (content : List Piece)
deriving Repr

/-- A template is the list of its parts. -/
abbrev Template := List Piece

namespace Template

/-- Text as it is written inside a placeholder. -/
def escape (t : Text) : Text := t.flatMap fun c => if c = '}' then ['\\', '}'] else [c]

mutual

/-- A part as it is written, inside a placeholder or outside. -/
def renderPiece (inside : Bool) : Piece → Text
  | .text t => if inside then escape t else t
  | .stop number => '$' :: Text.decimal number
  | .placeholder number content =>
    '$' :: '{' :: Text.decimal number ++ ':' :: renderPieces true content ++ ['}']

def renderPieces (inside : Bool) : List Piece → Text
  | [] => []
  | piece :: rest => renderPiece inside piece ++ renderPieces inside rest

end

def render (t : Template) : Text := renderPieces false t

end Template
end CompletionSnippets
