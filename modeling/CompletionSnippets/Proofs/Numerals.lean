import CompletionSnippets.Text

/-!
# Reading numerals

A decimal numeral consists of digits, is not empty, and denotes the number that it
was made of. A text that begins with a digit begins with a number, namely that of
all its leading digits, so a numeral is read back when no digit follows it.
-/
namespace CompletionSnippets.Text

theorem isDigit_of_mem_decimal {n : Nat} {c : Char} (h : c ∈ decimal n) : isDigit c := by
  have hc := Nat.isDigit_of_mem_toDigits (by decide) (by decide) h
  simp only [Char.isDigit, Bool.and_eq_true, decide_eq_true_eq] at hc
  simp only [isDigit, Bool.and_eq_true, decide_eq_true_eq]
  exact hc

theorem decimal_ne_nil (n : Nat) : decimal n ≠ [] := Nat.toDigits_ne_nil

theorem ofDecimal_decimal (n : Nat) : ofDecimal (decimal n) = n :=
  Nat.ofDigitChars_ten_toDigits

/-- The number that a text begins with, and what follows its digits. -/
def leadingNumber? (t : Text) : Option (Nat × Text) :=
  if t.takeWhile isDigit = [] then none
  else some (ofDecimal (t.takeWhile isDigit), t.dropWhile isDigit)

/-- The text does not begin with a digit. -/
def NoDigitFirst (t : Text) : Prop := ∀ c ∈ t.head?, isDigit c = false

theorem NoDigitFirst.append {s t : Text} (hs : NoDigitFirst s) (ht : NoDigitFirst t) :
    NoDigitFirst (s ++ t) := by
  cases s with
  | nil => exact ht
  | cons c s => exact hs

theorem length_of_leadingNumber? {n : Nat} {t rest : Text}
    (h : leadingNumber? t = some (n, rest)) : rest.length < t.length := by
  unfold leadingNumber? at h
  split at h
  · contradiction
  · rename_i hne
    obtain ⟨-, rfl⟩ := Prod.mk.inj (Option.some.inj h)
    have hsplit := congrArg List.length (List.takeWhile_append_dropWhile (p := isDigit) (l := t))
    have hpos := List.length_pos_iff.mpr hne
    rw [List.length_append] at hsplit
    omega

theorem span_digits {digits rest : Text} (hdigits : ∀ c ∈ digits, isDigit c)
    (h : NoDigitFirst rest) :
    (digits ++ rest).takeWhile isDigit = digits ∧ (digits ++ rest).dropWhile isDigit = rest := by
  have hrest : rest.takeWhile isDigit = [] ∧ rest.dropWhile isDigit = rest := by
    cases rest with
    | nil => exact ⟨rfl, rfl⟩
    | cons c rest => simp [h c rfl]
  rw [List.takeWhile_append_of_pos hdigits, List.dropWhile_append_of_pos hdigits, hrest.1, hrest.2,
    List.append_nil]
  exact ⟨rfl, rfl⟩

/-- A numeral is read back when no digit follows it. -/
theorem leadingNumber?_decimal (n : Nat) {rest : Text} (h : NoDigitFirst rest) :
    leadingNumber? (decimal n ++ rest) = some (n, rest) := by
  obtain ⟨htake, hdrop⟩ := span_digits (fun c hc => isDigit_of_mem_decimal (n := n) hc) h
  rw [leadingNumber?, htake, hdrop, if_neg (decimal_ne_nil n), ofDecimal_decimal]

end CompletionSnippets.Text
