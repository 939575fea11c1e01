import CompletionSnippets.Text

/-!
# Nesting and top-level splitting

Parentheses and braces nest independently of each other: a depth counts the open
ones of each family, and a closer with nothing to close leaves its count at zero,
so a stray closer hides nothing that follows. A position is at top level when
both counts are zero. Texts are cut at separators, or at the first blank, only
where these stand at top level.
-/
namespace CompletionSnippets

/-- How many parentheses and how many braces are open. -/
structure Depth where
  parens : Nat := 0
  braces : Nat := 0
deriving DecidableEq, Repr

namespace Depth

/-- The depth after one more character. -/
def step (d : Depth) (c : Char) : Depth :=
  match c with
  | '(' => { d with parens := d.parens + 1 }
  | ')' => { d with parens := d.parens - 1 }
  | '{' => { d with braces := d.braces + 1 }
  | '}' => { d with braces := d.braces - 1 }
  | _ => d

def isTop (d : Depth) : Bool := d.parens == 0 && d.braces == 0

end Depth

namespace Text

/-- The segments of a text between its top-level separators. The current segment
is carried in reverse; a separator that cuts is not counted in the depth. -/
def segments (sep : Char) (d : Depth) (current : Text) : Text → List Text
  | [] => [current.reverse]
  | c :: rest =>
    if c == sep && d.isTop then current.reverse :: segments sep d [] rest
    else segments sep (d.step c) (c :: current) rest

/-- The text cut at its top-level separators, each piece trimmed. A blank text
has no pieces. -/
def splitTopLevel (sep : Char) (t : Text) : List Text :=
  if t.isAllBlank then [] else (segments sep {} [] t).map trim

/-- The text before its first top-level blank, carried in reverse until then,
and the rest of the text from that blank on. -/
def breakAtBlank? (d : Depth) (before : Text) : Text → Option (Text × Text)
  | [] => none
  | c :: rest =>
    if isBlank c && d.isTop then some (before.reverse, c :: rest)
    else breakAtBlank? (d.step c) (c :: before) rest

/-- Where the first top-level blank stands, as a number of bytes. -/
def firstTopLevelBlank? (t : Text) : Option Nat :=
  (breakAtBlank? {} [] t).map fun parts => parts.1.utf8Length

/-- The top-level pieces of a list that was cut at every comma: the fragments
are put together again and then cut at top-level commas only. -/
def regroup (fragments : List Text) : List Text :=
  splitTopLevel ',' (joinWith [','] fragments)

theorem segments_ne_nil (sep : Char) (d : Depth) (current t : Text) :
    segments sep d current t ≠ [] := by
  induction t generalizing d current with
  | nil => simp [segments]
  | cons c t ih =>
    rw [segments]
    split
    · simp
    · exact ih _ _

/-- Cutting loses nothing but the separators. -/
theorem joinWith_segments (sep : Char) (d : Depth) (current t : Text) :
    joinWith [sep] (segments sep d current t) = current.reverse ++ t := by
  induction t generalizing d current with
  | nil => simp [segments, joinWith]
  | cons c t ih =>
    rw [segments]
    split
    · rename_i h
      have hc : c = sep := by simp_all
      have hs := segments_ne_nil sep d [] t
      rw [joinWith, List.intercalate_cons_of_ne_nil hs]
      have := ih d []
      rw [joinWith] at this
      simp [this, hc]
    · rw [ih]; simp

/-- The two parts around the first top-level blank make up the text. -/
theorem append_of_breakAtBlank? {d : Depth} {before t first rest : Text}
    (h : breakAtBlank? d before t = some (first, rest)) : first ++ rest = before.reverse ++ t := by
  induction t generalizing d before with
  | nil => simp [breakAtBlank?] at h
  | cons c t ih =>
    rw [breakAtBlank?] at h
    split at h
    · obtain ⟨rfl, rfl⟩ := Prod.mk.inj (Option.some.inj h)
      rfl
    · rw [ih h]; simp

end Text
end CompletionSnippets
