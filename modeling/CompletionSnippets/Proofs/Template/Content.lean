import CompletionSnippets.Proofs.Numerals
import CompletionSnippets.Snippet.Template
import Mathlib.Data.List.Infix

/-!
# The content of placeholders

Someone who reads the content of a placeholder takes a backslash with a closing brace for
that brace, ends the content at the first other closing brace, and meets a stop where a
dollar sign stands before a digit or an opening brace. All else is content as it stands.

Text is written into a placeholder with its closing braces escaped and with nothing else
changed. So it is read back, and the placeholder ends where it should, exactly when the
text does not end in a backslash, which would take the closing brace of the placeholder
with it, and holds no stop of its own.
-/
namespace CompletionSnippets

namespace Text

/-- Behind a dollar sign the character begins a stop. -/
def beginsStop (c : Char) : Bool := isDigit c || c == '{'

/-- Somewhere in the text a dollar sign and what follows it begin a stop. -/
def HoldsStop (t : Text) : Prop := ∃ d, beginsStop d ∧ ['$', d] <:+: t

theorem holdsStop_cons {c : Char} {t : Text} :
    HoldsStop (c :: t) ↔ (c = '$' ∧ t.head?.any beginsStop) ∨ HoldsStop t := by
  have hfirst : ∀ d, ['$', d] <+: c :: t ↔ c = '$' ∧ t.head? = some d := by
    intro d
    cases t with
    | nil => simp [List.cons_prefix_cons]
    | cons a t => simp [List.cons_prefix_cons, eq_comm]
  simp only [HoldsStop, List.infix_cons_iff, hfirst, Option.any_eq_true]
  constructor
  · rintro ⟨d, hd, ⟨hc, ht⟩ | ht⟩
    · exact .inl ⟨hc, d, ht, hd⟩
    · exact .inr ⟨d, hd, ht⟩
  · rintro (⟨hc, d, ht, hd⟩ | ⟨d, hd, ht⟩)
    · exact ⟨d, hd, .inl ⟨hc, ht⟩⟩
    · exact ⟨d, hd, .inr ht⟩

end Text

open Text

namespace Template

inductive ContentFault where
  /-- No placeholder begins here. -/
  | noPlaceholder
  /-- A stop stands in the content. -/
  | stop
  /-- The text ends before the placeholder does. -/
  | unended
deriving DecidableEq, Repr

def prepend (c : Char) (read : Text × Text) : Text × Text := (c :: read.1, read.2)

/-- The content up to the end of a placeholder, and what follows that end. -/
def readContent : Text → Except ContentFault (Text × Text)
  | [] => .error .unended
  | '\\' :: '}' :: t => (readContent t).map (prepend '}')
  | c :: t =>
    if c = '}' then .ok ([], t)
    else if c = '$' ∧ t.head?.any beginsStop then .error .stop
    else (readContent t).map (prepend c)

/-- The number and the content of the placeholder that a text begins with, and what follows
its end. -/
def readPlaceholder : Text → Except ContentFault (Nat × Text × Text)
  | '$' :: '{' :: t =>
    match leadingNumber? t with
    | some (n, ':' :: rest) => (readContent rest).map fun read => (n, read)
    | _ => .error .noPlaceholder
  | _ => .error .noPlaceholder

theorem readContent_escaped (t : Text) :
    readContent ('\\' :: '}' :: t) = (readContent t).map (prepend '}') := by
  rw [readContent]

theorem readContent_brace (t : Text) : readContent ('}' :: t) = .ok ([], t) := by
  simp [readContent]

theorem readContent_stop {t : Text} (h : t.head?.any beginsStop) :
    readContent ('$' :: t) = .error .stop := by
  simp [readContent, h]

theorem readContent_char {c : Char} {t : Text} (hbrace : c ≠ '}')
    (hescape : ¬ (c = '\\' ∧ t.head? = some '}'))
    (hstop : ¬ (c = '$' ∧ t.head?.any beginsStop)) :
    readContent (c :: t) = (readContent t).map (prepend c) := by
  rw [readContent]
  · rw [if_neg hbrace, if_neg hstop]
  · rintro r rfl rfl
    exact hescape ⟨rfl, rfl⟩

theorem map_prepend_eq_ok_iff {c d : Char} {read : Except ContentFault (Text × Text)}
    {t s : Text} :
    read.map (prepend c) = .ok (d :: t, s) ↔ c = d ∧ read = .ok (t, s) := by
  cases read with
  | error fault => simp [Except.map]
  | ok r => simp [Except.map, prepend, Prod.ext_iff, and_assoc]

theorem escape_cons_brace (t : Text) : escape ('}' :: t) = '\\' :: '}' :: escape t := rfl

theorem escape_cons_of_ne {c : Char} (h : c ≠ '}') (t : Text) :
    escape (c :: t) = c :: escape t := by
  simp [escape, h]

theorem head?_escape_append (q : Char → Bool) (hbrace : q '}' = false)
    (hslash : q '\\' = false) (t s : Text) :
    (escape t ++ '}' :: s).head?.any q = t.head?.any q := by
  cases t with
  | nil => exact hbrace
  | cons c t =>
    by_cases hc : c = '}'
    · subst hc
      rw [escape_cons_brace]
      exact hslash.trans hbrace.symm
    · rw [escape_cons_of_ne hc]
      rfl

theorem head?_escape_append_eq_brace_iff {t s : Text} :
    (escape t ++ '}' :: s).head? = some '}' ↔ t = [] := by
  cases t with
  | nil => simp [escape]
  | cons c t =>
    by_cases hc : c = '}'
    · subst hc
      rw [escape_cons_brace]
      simp
    · rw [escape_cons_of_ne hc]
      simp [hc]

theorem getLast?_cons_ne_iff {c d : Char} {t : Text} (h : ¬ (c = d ∧ t = [])) :
    (c :: t).getLast? ≠ some d ↔ t.getLast? ≠ some d := by
  cases t with
  | nil => simpa using h
  | cons a t => simp [List.getLast?_cons]

/-- Escaped text is read back up to the brace behind it exactly when it does not end in a
backslash and holds no stop. -/
theorem readContent_escape_iff (t s : Text) :
    readContent (escape t ++ '}' :: s) = .ok (t, s) ↔
      t.getLast? ≠ some '\\' ∧ ¬ HoldsStop t := by
  induction t with
  | nil =>
    have hnil : ¬ HoldsStop [] := by simp [HoldsStop]
    simp [escape, readContent_brace, hnil]
  | cons c t ih =>
    by_cases hbrace : c = '}'
    · subst hbrace
      have hlast : ('}' :: t).getLast? ≠ some '\\' ↔ t.getLast? ≠ some '\\' :=
        getLast?_cons_ne_iff (by simp)
      rw [escape_cons_brace, List.cons_append, List.cons_append, readContent_escaped,
        map_prepend_eq_ok_iff, ih, holdsStop_cons, hlast]
      simp
    rw [escape_cons_of_ne hbrace, List.cons_append]
    by_cases hescape : c = '\\' ∧ t = []
    · -- the brace behind the text is taken for an escaped one
      obtain ⟨rfl, rfl⟩ := hescape
      rw [show escape [] = [] from rfl, List.nil_append, readContent_escaped,
        map_prepend_eq_ok_iff]
      simp
    have hhead := head?_escape_append beginsStop rfl rfl t s
    by_cases hstop : c = '$' ∧ t.head?.any beginsStop
    · have hholds : HoldsStop (c :: t) := holdsStop_cons.mpr (.inl hstop)
      obtain ⟨rfl, hfirst⟩ := hstop
      rw [readContent_stop (hhead.trans hfirst)]
      simp [hholds]
    · rw [readContent_char hbrace (by rwa [head?_escape_append_eq_brace_iff]) (by rwa [hhead]),
        map_prepend_eq_ok_iff, ih, holdsStop_cons, getLast?_cons_ne_iff hescape]
      simp [hstop]

/-- A placeholder that holds a text is read back from what is written, and ends where it is
ended, exactly when the text does not end in a backslash and holds no stop. -/
theorem readPlaceholder_render_iff (inside : Bool) (n : Nat) (t s : Text) :
    readPlaceholder (renderPiece inside (.placeholder n [.text t]) ++ s) = .ok (n, t, s) ↔
      t.getLast? ≠ some '\\' ∧ ¬ HoldsStop t := by
  have hcolon : ∀ r, NoDigitFirst (':' :: r) := by
    rintro r c ⟨⟩
    rfl
  have hwritten : renderPiece inside (.placeholder n [.text t]) ++ s =
      '$' :: '{' :: (decimal n ++ ':' :: (escape t ++ '}' :: s)) := by
    simp [renderPiece, renderPieces]
  have hread : readPlaceholder ('$' :: '{' :: (decimal n ++ ':' :: (escape t ++ '}' :: s))) =
      (readContent (escape t ++ '}' :: s)).map fun read => (n, read) := by
    simp only [readPlaceholder, leadingNumber?_decimal n (hcolon _)]
  rw [hwritten, hread, ← readContent_escape_iff]
  cases readContent (escape t ++ '}' :: s) with
  | error fault => simp [Except.map]
  | ok r => simp [Except.map]

/-- A backslash at the end takes the closing brace with it, and a dollar sign before a digit
is a stop. -/
theorem placeholder_misread :
    readPlaceholder (renderPiece false (.placeholder 1 [.text ['\\']]) ++ ['x', '}', 'y']) =
        .ok (1, ['}', 'x'], ['y']) ∧
      readPlaceholder (renderPiece false (.placeholder 1 [.text ['$', '2']]) ++ ['y']) =
        .error .stop ∧
      ¬ ∀ (n : Nat) (t s : Text),
        readPlaceholder (renderPiece false (.placeholder n [.text t]) ++ s) = .ok (n, t, s) := by
  have hslash : readPlaceholder
      (renderPiece false (.placeholder 1 [.text ['\\']]) ++ ['x', '}', 'y']) =
        .ok (1, ['}', 'x'], ['y']) := by rfl
  refine ⟨hslash, by rfl, fun h => ?_⟩
  rw [h 1 ['\\'] ['x', '}', 'y']] at hslash
  exact absurd hslash (by decide)

end Template
end CompletionSnippets
