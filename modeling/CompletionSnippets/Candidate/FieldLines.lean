import CompletionSnippets.Candidate.Basic

/-!
# Candidates in lines of fields

A candidate takes one line. Its fields are category, name, type and package, with
two commas between neighbours; the package may be missing, and it may itself hold
two commas. Blanks around a line and blank lines count for nothing. The first
line that is no candidate spoils the whole text.
-/
namespace CompletionSnippets

namespace Candidate

/-- The text before its first two commas in a row, carried in reverse until then,
and the text behind them. -/
def breakAtCommas? (before : Text) : Text → Option (Text × Text)
  | [] => none
  | ',' :: ',' :: rest => some (before.reverse, rest)
  | c :: rest => breakAtCommas? (c :: before) rest

/-- The fields of a line, cut at most the given number of times. -/
def fields (cuts : Nat) (line : Text) : List Text :=
  match cuts, breakAtCommas? [] line with
  | cuts + 1, some (field, rest) => field :: fields cuts rest
  | _, _ => [line]

/-- The candidate that a trimmed line denotes. Category and name have to be there. -/
def ofLine? (line : Text) : Option Candidate :=
  let candidate? : Option Candidate := match fields 3 line with
    | [category, name, type] => some { category, name, type }
    | [category, name, type, package] => some { category, name, type, package }
    | _ => none
  candidate?.filter fun c => !c.category.isEmpty && !c.name.isEmpty

end Candidate

/-- A line that is no candidate, and its number. -/
structure BadLine where
  number : Nat
  text : Text
deriving DecidableEq, Repr

namespace Candidate

/-- The candidates in lines, of which the first has the given number. -/
def ofLines (number : Nat) : List Text → Except BadLine (List Candidate)
  | [] => .ok []
  | line :: rest =>
    let text := line.trim
    if text.isEmpty then ofLines (number + 1) rest
    else match ofLine? text with
      | none => .error { number, text }
      | some c => do return c :: (← ofLines (number + 1) rest)

end Candidate

namespace Reply

/-- The reply in a text of field lines. It does not tell the length of what was
typed. -/
def ofFieldLines (t : Text) : Except BadLine Reply := do
  return { candidates := ← Candidate.ofLines 1 (t.splitOn '\n') }

end Reply
end CompletionSnippets
