import CompletionSnippets.Nesting

/-!
# Outlines of function types

The outline of a function type is its text cut once: the text between the
parentheses that `func(` opens, and what stands after them. Only parentheses are
counted here. The text after the parameters is nothing, a list when it is one
pair of parentheses from its first to its last character, and a single result
otherwise.
-/
namespace CompletionSnippets

/-- The text after the parameter list. -/
inductive ResultText where
  /-- Nothing follows the parameters. -/
  | none
  /-- The inside of one pair of parentheses. -/
  | list (inside : Text)
  /-- One result without parentheses around it. -/
  | single (result : Text)
deriving DecidableEq, Repr

/-- A function type cut into its parameter text and its result text. -/
structure Outline where
  whole : Text
  params : Text
  results : ResultText
deriving DecidableEq, Repr

namespace Outline

/-- The keyword of a function type together with its opening parenthesis. -/
def opening : Text := ['f', 'u', 'n', 'c', '(']

/-- Whether the text, leading blanks apart, begins like a function type. -/
def startsFunc (t : Text) : Bool := opening.isPrefixOf t.trimStart

/-- The text before the first parenthesis that closes more than was opened, and
what follows that parenthesis. The text passed so far is carried in reverse, with
the number of parentheses open in it. -/
def closeParen? (inside : Text) (opened : Nat) : Text → Option (Text × Text)
  | [] => none
  | c :: rest =>
    if c = ')' then
      match opened with
      | 0 => some (inside.reverse, rest)
      | opened + 1 => closeParen? (c :: inside) opened rest
    else closeParen? (c :: inside) (if c = '(' then opened + 1 else opened) rest

/-- The trimmed text after the parameters, told apart by its parentheses. -/
def resultText (rest : Text) : ResultText :=
  match rest with
  | [] => .none
  | '(' :: inner =>
    match closeParen? [] 0 inner with
    | some (inside, []) => .list inside.trim
    | _ => .single rest
  | _ => .single rest

/-- The outline of a text that is a function type. -/
def of? (t : Text) : Option Outline := do
  let whole := t.trim
  let afterOpening ← Text.strip? opening whole
  let (inside, rest) ← closeParen? [] 0 afterOpening
  return { whole, params := Text.trim inside, results := resultText (Text.trim rest) }

/-- The entries of the parameter list, not yet taken apart. -/
def paramTokens (o : Outline) : List Text := o.params.splitTopLevel ','

def resultTokens (o : Outline) : List Text :=
  match o.results with
  | .none => []
  | .list inside => inside.splitTopLevel ','
  | .single result => [result]

theorem append_of_closeParen? {passed t inside rest : Text} {opened : Nat}
    (h : closeParen? passed opened t = some (inside, rest)) :
    inside ++ ')' :: rest = passed.reverse ++ t := by
  induction t generalizing passed opened with
  | nil => simp [closeParen?] at h
  | cons c t ih =>
    simp only [closeParen?] at h
    split at h
    · rename_i hc
      match opened with
      | 0 =>
        obtain ⟨rfl, rfl⟩ := Prod.mk.inj (Option.some.inj h)
        rw [hc]
      | opened + 1 => rw [ih h]; simp
    · rw [ih h]; simp

end Outline
end CompletionSnippets
