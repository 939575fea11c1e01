import CompletionSnippets.Text
import Mathlib.Data.List.DropRight

/-!
# Trimmed texts

A text is trimmed when trimming leaves it as it is, that is, when it neither
begins nor ends with a blank. Only its two ends matter, so every beginning of a
text without leading blanks is again one, and so is every end of a text without
trailing blanks. Trimming always gives a trimmed text.
-/
namespace CompletionSnippets.Text

theorem trimEnd_eq_self_iff {t : Text} :
    trimEnd t = t ↔ ∀ c ∈ t.getLast?, isBlank c = false := by
  rw [show trimEnd t = t.rdropWhile isBlank from rfl, List.rdropWhile_eq_self_iff]
  constructor
  · intro h c hc
    have hne : t ≠ [] := by
      rintro rfl
      simp at hc
    rw [List.getLast?_eq_some_getLast hne, Option.mem_some_iff] at hc
    simpa [hc] using h hne
  · intro h hne
    simpa using h _ (List.getLast_mem_getLast? hne)

theorem trimStart_isSuffix (t : Text) : trimStart t <:+ t := List.dropWhile_suffix _

theorem trimEnd_isPrefix (t : Text) : trimEnd t <+: t := List.rdropWhile_prefix _ _

theorem trim_isInfix (t : Text) : trim t <:+: t :=
  (trimEnd_isPrefix _).isInfix.trans (trimStart_isSuffix t).isInfix

theorem trimStart_eq_self_of_isPrefix {s t : Text} (h : s <+: t) (ht : trimStart t = t) :
    trimStart s = s := by
  obtain ⟨r, rfl⟩ := h
  rw [trimStart_eq_self_iff] at ht ⊢
  intro c hc
  cases s with
  | nil => simp at hc
  | cons a s => exact ht c hc

theorem trimEnd_eq_self_of_isSuffix {s t : Text} (h : s <:+ t) (ht : trimEnd t = t) :
    trimEnd s = s := by
  obtain ⟨r, rfl⟩ := h
  rw [trimEnd_eq_self_iff] at ht ⊢
  intro c hc
  apply ht c
  rw [List.getLast?_append, Option.mem_def.mp hc]
  rfl

theorem trimEnd_trimEnd (t : Text) : trimEnd (trimEnd t) = trimEnd t :=
  List.rdropWhile_idempotent _ _

theorem trimStart_trim (t : Text) : trimStart (trim t) = trim t :=
  trimStart_eq_self_of_isPrefix (trimEnd_isPrefix _) (trimStart_trimStart t)

theorem trimEnd_trim (t : Text) : trimEnd (trim t) = trim t := trimEnd_trimEnd _

theorem trim_eq_self_iff {t : Text} : trim t = t ↔ trimStart t = t ∧ trimEnd t = t := by
  constructor
  · intro h
    rw [← h]
    exact ⟨trimStart_trim t, trimEnd_trim t⟩
  · rintro ⟨hs, he⟩
    rw [trim, hs, he]

theorem trim_trim (t : Text) : trim (trim t) = trim t :=
  trim_eq_self_iff.mpr ⟨trimStart_trim t, trimEnd_trim t⟩

theorem length_trim_le (t : Text) : (trim t).length ≤ t.length := (trim_isInfix t).length_le

/-- Leading blanks do not show in a trimmed text. -/
theorem trimStart_append_of_isAllBlank {b : Text} (hb : b.isAllBlank) (t : Text) :
    trimStart (b ++ t) = trimStart t :=
  List.dropWhile_append_of_pos (List.all_eq_true.mp hb)

theorem isAllBlank_append {s t : Text} :
    (s ++ t).isAllBlank ↔ s.isAllBlank ∧ t.isAllBlank := by
  simp [isAllBlank]

theorem exists_pad (t : Text) :
    ∃ b a : Text, b.isAllBlank ∧ a.isAllBlank ∧ t = b ++ trim t ++ a := by
  obtain ⟨b, hb, ht⟩ := exists_append_trimStart t
  obtain ⟨a, ha, hs⟩ := exists_trimEnd_append (trimStart t)
  exact ⟨b, a, hb, ha, by rw [trim, List.append_assoc, ← hs, ← ht]⟩

theorem trim_append_of_isAllBlank {b : Text} (hb : b.isAllBlank) (t : Text) :
    trim (b ++ t) = trim t := by
  rw [trim, trimStart_append_of_isAllBlank hb, trim]

theorem trimEnd_append_of_isAllBlank {a : Text} (ha : a.isAllBlank) (t : Text) :
    trimEnd (t ++ a) = trimEnd t := by
  have hrev : ∀ c ∈ a.reverse, isBlank c := fun c hc =>
    List.all_eq_true.mp ha c (List.mem_reverse.mp hc)
  rw [trimEnd, trimEnd, List.reverse_append, List.dropWhile_append_of_pos hrev]

theorem trim_append_blanks {a : Text} (ha : a.isAllBlank) (t : Text) : trim (t ++ a) = trim t := by
  rw [trim, trim, trimStart, trimStart, List.dropWhile_append]
  split
  · rename_i hempty
    rw [List.isEmpty_iff.mp hempty, ← trimStart, isAllBlank_iff_trimStart.mp ha]
  · exact trimEnd_append_of_isAllBlank ha _

/-- What stands before the trailing blanks is not touched by trimming. -/
theorem trimEnd_append_right {s : Text} (hs : trimEnd s = s) (t : Text) :
    trimEnd (s ++ t) = s ++ trimEnd t := by
  obtain ⟨b, hb, ht⟩ := exists_trimEnd_append t
  have hself : trimEnd (s ++ trimEnd t) = s ++ trimEnd t := by
    by_cases hne : trimEnd t = []
    · rw [hne, List.append_nil, hs]
    · rw [trimEnd_eq_self_iff, List.getLast?_append_of_ne_nil _ hne, ← trimEnd_eq_self_iff]
      exact trimEnd_trimEnd t
  conv_lhs => rw [ht, ← List.append_assoc]
  rw [trimEnd_append_of_isAllBlank hb, hself]

theorem trimStart_append {s : Text} (hne : s ≠ []) (hs : trimStart s = s) (t : Text) :
    trimStart (s ++ t) = s ++ t := by
  rw [trimStart_eq_self_iff] at hs ⊢
  rwa [List.head?_append_of_ne_nil _ hne]

theorem trimEnd_append {t : Text} (hne : t ≠ []) (ht : trimEnd t = t) (s : Text) :
    trimEnd (s ++ t) = s ++ t := by
  rw [trimEnd_eq_self_iff] at ht ⊢
  rwa [List.getLast?_append_of_ne_nil _ hne]

theorem trim_space_cons (t : Text) : trim (' ' :: t) = trim t := by
  rw [trim, trim, show ' ' :: t = [' '] ++ t from rfl, trimStart_append_of_isAllBlank rfl]

theorem trim_eq_self_of_ends {first last : Char} {t : Text} (hf : isBlank first = false)
    (hl : isBlank last = false) (hhead : t.head? = some first)
    (hlast : t.getLast? = some last) : trim t = t := by
  rw [trim_eq_self_iff, trimStart_eq_self_iff, trimEnd_eq_self_iff, hhead, hlast]
  constructor
  · rintro c ⟨⟩
    exact hf
  · rintro c ⟨⟩
    exact hl

end CompletionSnippets.Text
