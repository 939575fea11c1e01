import CompletionSnippets.Proofs.Numerals
import CompletionSnippets.Snippet.Template

/-!
# Reading written templates

An editor that inserts a template reads it from left to right and keeps the numbers
of the placeholders that are open, the innermost first. What it meets is a mark: a
character to show, a bare stop, the beginning of a placeholder, or its end. A dollar
sign has to begin a stop, and the text is well formed when nothing is open at its end.
A closing brace ends the innermost placeholder; it is plain text where none is open
and behind a backslash, which is then not shown.
-/
namespace CompletionSnippets
open Text

/-- What a reader of a written template meets. -/
inductive Mark where
  | char (c : Char)
  | stop (number : Nat)
  /-- The beginning of a placeholder. -/
  | enter (number : Nat)
  /-- The end of the placeholder with the given number. -/
  | leave (number : Nat)
deriving DecidableEq, Repr

namespace Mark

/-- The placeholders that are open behind a mark. -/
def openedAfter (opened : List Nat) : Mark → List Nat
  | char _ => opened
  | stop _ => opened
  | enter n => n :: opened
  | leave _ => opened.tail

def number? : Mark → Option Nat
  | stop n => some n
  | enter n => some n
  | char _ => none
  | leave _ => none

def char? : Mark → Option Char
  | char c => some c
  | _ => none

def numbers (ms : List Mark) : List Nat := ms.filterMap number?

/-- What remains to be seen without the stops. -/
def shown (ms : List Mark) : Text := ms.filterMap char?

/-- The first mark of a text and what follows it. -/
def first? (opened : List Nat) : Text → Option (Mark × Text)
  | [] => none
  | '\\' :: '}' :: t => some (char '}', t)
  | '$' :: '{' :: t =>
    match leadingNumber? t with
    | some (n, ':' :: rest) => some (enter n, rest)
    | _ => none
  | '$' :: t => (leadingNumber? t).map fun (n, rest) => (stop n, rest)
  | '}' :: t =>
    match opened with
    | [] => some (char '}', t)
    | n :: _ => some (leave n, t)
  | c :: t => some (char c, t)

theorem length_of_first? {opened : List Nat} {t rest : Text} {m : Mark}
    (h : first? opened t = some (m, rest)) : rest.length < t.length := by
  unfold first? at h
  split at h
  · contradiction
  · cases h
    simp only [List.length_cons]
    omega
  · split at h
    · rename_i hn
      cases h
      have hlt := length_of_leadingNumber? hn
      simp only [List.length_cons] at hlt ⊢
      omega
    · contradiction
  · obtain ⟨⟨n, rest'⟩, hn, hm⟩ := Option.map_eq_some_iff.mp h
    cases hm
    exact Nat.lt_succ_of_lt (length_of_leadingNumber? hn)
  · split at h
    · cases h
      exact Nat.lt_succ_self _
    · cases h
      exact Nat.lt_succ_self _
  · cases h
    exact Nat.lt_succ_self _

/-- The marks of a text, read while the given placeholders are open. -/
def read? (opened : List Nat) (t : Text) : Option (List Mark) :=
  if t = [] then
    if opened = [] then some [] else none
  else
    match _h : first? opened t with
    | none => none
    | some (m, rest) => (read? (m.openedAfter opened) rest).map (m :: ·)
termination_by t.length
decreasing_by exact length_of_first? _h

theorem read?_nil : read? [] [] = some [] := by
  rw [read?, if_pos rfl, if_pos rfl]

theorem read?_of_first {opened : List Nat} {t rest : Text} {m : Mark}
    (h : first? opened t = some (m, rest)) :
    read? opened t = (read? (m.openedAfter opened) rest).map (m :: ·) := by
  have hne : t ≠ [] := by
    rintro rfl
    contradiction
  rw [read?, if_neg hne]
  split
  · rename_i hnone
    rw [hnone] at h
    contradiction
  · rename_i hsome
    rw [hsome] at h
    cases h
    rfl

theorem first?_escaped (opened : List Nat) (t : Text) :
    first? opened ('\\' :: '}' :: t) = some (char '}', t) := rfl

theorem first?_brace (t : Text) : first? [] ('}' :: t) = some (char '}', t) := rfl

theorem first?_leave (n : Nat) (opened : List Nat) (t : Text) :
    first? (n :: opened) ('}' :: t) = some (leave n, t) := rfl

theorem first?_char {c : Char} (hc : c ≠ '$' ∧ c ≠ '\\' ∧ c ≠ '}') (opened : List Nat)
    (t : Text) : first? opened (c :: t) = some (char c, t) := by
  obtain ⟨hdollar, hslash, hbrace⟩ := hc
  simp [first?, hdollar, hslash]

theorem first?_stop (n : Nat) (opened : List Nat) {rest : Text} (h : NoDigitFirst rest) :
    first? opened ('$' :: (decimal n ++ rest)) = some (stop n, rest) := by
  have hread := leadingNumber?_decimal n h
  -- the numeral begins with a digit, so the stop is no placeholder
  cases hd : decimal n with
  | nil => exact absurd hd (decimal_ne_nil n)
  | cons d ds =>
    have hdigit : isDigit d := isDigit_of_mem_decimal (by rw [hd]; exact List.mem_cons_self)
    have hd' : d ≠ '{' := by
      rintro rfl
      contradiction
    rw [hd] at hread
    simp only [List.cons_append] at hread ⊢
    simp [first?, hd', hread]

theorem first?_enter (n : Nat) (opened : List Nat) (rest : Text) :
    first? opened ('$' :: '{' :: (decimal n ++ ':' :: rest)) = some (enter n, rest) := by
  have hcolon : NoDigitFirst (':' :: rest) := by
    intro c hc
    cases hc
    rfl
  simp only [first?, leadingNumber?_decimal n hcolon]

end Mark
end CompletionSnippets
