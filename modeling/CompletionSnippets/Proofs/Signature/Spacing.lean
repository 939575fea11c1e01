import CompletionSnippets.Proofs.Nesting.Pieces
import CompletionSnippets.Proofs.Signature.KeptText

/-!
# Entries with other blanks

An entry is its identifier and its type with blanks between them, and nothing is open
behind the identifier. So a scan for commas sees the same in the entry whatever these blanks
are, and with a single space there it is divided at the same place.

A type alone is divided no further when it begins like a function type or shows no blank.
-/
namespace CompletionSnippets.Entry
open Text Outline

section Respaced
variable {raw identifier type : Text}

/-- An entry's text is its identifier and its type with blanks between them, and nothing is
open behind the identifier. -/
theorem Divided.exists_gap (h : Divided raw identifier type) :
    (∃ gap : Text, gap.isAllBlank ∧ raw = identifier ++ gap ++ type) ∧
      Unbroken isBlank {} identifier ∧ Depth.after {} identifier = {} := by
  cases h with
  | unnamed => exact ⟨⟨[], rfl, rfl⟩, trivial, rfl⟩
  | @named identifier gap type _ noBlank outside _ blank =>
    rw [← isTop_after_iff, Depth.isTop_iff_eq] at outside
    exact ⟨⟨gap, blank, rfl⟩, unbroken_iff_noneExposed.mpr noBlank, outside⟩

theorem Divided.type_ne_nil (h : Divided raw identifier type) (htrim : trim raw = raw)
    (hne : raw ≠ []) : type ≠ [] := by
  rintro rfl
  cases h with
  | unnamed => contradiction
  | @named identifier gap _ _ _ _ gap_ne_nil blank =>
    -- the blanks behind the identifier would be at the end of the text
    rw [List.append_nil] at htrim
    have hlast : (identifier ++ gap).getLast? = some (gap.getLast gap_ne_nil) := by
      rw [List.getLast?_append_of_ne_nil _ gap_ne_nil, List.getLast?_eq_some_getLast gap_ne_nil]
    have hfalse := trimEnd_eq_self_iff.mp (trim_eq_self_iff.mp htrim).2 _ hlast
    rw [List.all_eq_true.mp blank _ (List.getLast_mem gap_ne_nil)] at hfalse
    contradiction

variable {gap : Text}

theorem unbroken_spaced (hgap : gap.isAllBlank) (hafter : Depth.after {} identifier = {}) :
    Unbroken (· == ',') {} (identifier ++ gap ++ type) ↔
      Unbroken (· == ',') {} identifier ∧ Unbroken (· == ',') {} type := by
  have hpass := unbroken_of_isAllBlank (d := {}) hgap comma_ne_blank
  simp only [unbroken_append, Depth.after_append, hafter, after_of_isAllBlank hgap, hpass, and_true]

theorem after_spaced (hgap : gap.isAllBlank) (hafter : Depth.after {} identifier = {}) :
    Depth.after {} (identifier ++ gap ++ type) = Depth.after {} type := by
  rw [Depth.after_append, Depth.after_append, hafter, after_of_isAllBlank hgap]

theorem balanced_spaced (hgap : gap.isAllBlank) (hafter : Depth.after {} identifier = {}) :
    Balanced '(' ')' (identifier ++ gap ++ type) ↔
      Balanced '(' ')' identifier ∧ Balanced '(' ')' type := by
  have hblank := balanced_of_isAllBlank hgap
  constructor
  · intro h
    have hcovered := (h.1.of_isPrefix (List.prefix_append _ _)).of_isPrefix
      (List.prefix_append identifier gap)
    have hlevel : level '(' ')' 0 identifier = 0 := by
      rw [← Depth.after_parens {} identifier, hafter]
    have hidentifier := hcovered.balanced_of_level (by decide) hlevel
    rw [List.append_assoc, hidentifier.append_left_iff, hblank.append_left_iff] at h
    exact ⟨hidentifier, h⟩
  · rintro ⟨hidentifier, htype⟩
    exact (hidentifier.append hblank).append htype

end Respaced

theorem divide_unnamed {t : Text} (ht : trimStart t = t)
    (h : opening <+: t ∨ NoneExposed isBlank t) : divide t = ([], t) := by
  unfold divide
  split
  · rfl
  · rename_i hfunc
    have hstarts : ¬ opening <+: t := by
      rwa [startsFunc, ht, List.isPrefixOf_iff_prefix] at hfunc
    have hnone := breakAtBlank?_none_iff.mpr (h.resolve_left hstarts)
    rw [hnone]

/-- Only a text that does not begin like a function type has an identifier. -/
theorem not_opening_of_named {t : Text} (ht : trimStart t = t) (hne : (divide t).1 ≠ []) :
    ¬ opening <+: t := by
  intro h
  rw [divide_unnamed ht (.inl h)] at hne
  contradiction

theorem not_opening_spaced {identifier type : Text} (h : ¬ opening <+: identifier) :
    ¬ opening <+: identifier ++ ' ' :: type := by
  rw [prefix_append_iff]
  rintro (hp | ⟨q, hq, hopen⟩)
  · exact h hp
  rcases List.prefix_cons_iff.mp hq with rfl | ⟨r, rfl, -⟩
  · exact h (by rw [hopen, List.append_nil])
  · have hmem : ' ' ∈ opening := by rw [hopen]; simp
    exact absurd hmem (by decide)

theorem divide_spaced {identifier type : Text} (hne : identifier ≠ [])
    (hfunc : ¬ opening <+: identifier) (hblank : Unbroken isBlank {} identifier)
    (hafter : Depth.after {} identifier = {}) (htype : trimStart type = type)
    (hstart : trimStart identifier = identifier) :
    divide (identifier ++ ' ' :: type) = (identifier, type) := by
  have hstarts : startsFunc (identifier ++ ' ' :: type) = false := by
    rw [← Bool.not_eq_true, startsFunc, trimStart_append hne hstart, List.isPrefixOf_iff_prefix]
    exact not_opening_spaced hfunc
  have hbreak : breakAtBlank? {} [] (identifier ++ ' ' :: type) = some (identifier, ' ' :: type) :=
    breakAtBlank?_eq_some_iff.mpr
      ⟨identifier, rfl, rfl, hblank, Depth.isTop_iff_eq.mpr hafter, ' ', rfl, rfl⟩
  have hspace : trimStart (' ' :: type) = type := htype
  simp only [divide, hstarts, hbreak, hspace, Bool.false_eq_true, if_false]

section Read
variable (levels : Nat) (token : Text)

theorem trim_type : trim (ofToken levels token).type = (ofToken levels token).type := by
  rw [type_ofToken]
  exact trim_divide (trim_trim token)

theorem trimStart_identifier :
    trimStart (ofToken levels token).identifier = (ofToken levels token).identifier := by
  obtain ⟨⟨gap, -, hraw⟩, -⟩ := (divided_ofToken levels token).exists_gap
  rw [raw_ofToken, List.append_assoc] at hraw
  exact trimStart_eq_self_of_isPrefix ⟨_, hraw.symm⟩ (trimStart_trim token)

theorem after_identifier : Depth.after {} (ofToken levels token).identifier = {} :=
  (divided_ofToken levels token).exists_gap.2.2

variable {token}

/-- What a scan for commas sees of an entry. -/
theorem scan_parts (h : Unbroken (· == ',') {} token) :
    Unbroken (· == ',') {} (ofToken levels token).identifier ∧
      Unbroken (· == ',') {} (ofToken levels token).type ∧
      Depth.after {} (ofToken levels token).type = Depth.after {} token := by
  obtain ⟨⟨gap, hgap, hraw⟩, -, hafter⟩ := (divided_ofToken levels token).exists_gap
  rw [raw_ofToken] at hraw
  have htrim := h.trim
  rw [hraw, unbroken_spaced hgap hafter] at htrim
  refine ⟨htrim.1, htrim.2, ?_⟩
  rw [← after_trim token, hraw, after_spaced hgap hafter]

theorem balanced_parts (h : Balanced '(' ')' token) :
    Balanced '(' ')' (ofToken levels token).identifier ∧
      Balanced '(' ')' (ofToken levels token).type := by
  obtain ⟨⟨gap, hgap, hraw⟩, -, hafter⟩ := (divided_ofToken levels token).exists_gap
  rw [raw_ofToken] at hraw
  rwa [← balanced_trim_iff, hraw, balanced_spaced hgap hafter] at h

theorem type_ne_nil (hne : trim token ≠ []) : (ofToken levels token).type ≠ [] := by
  have hdivided := divided_ofToken levels token
  rw [raw_ofToken] at hdivided
  exact hdivided.type_ne_nil (trim_trim token) hne

theorem not_opening_identifier (hne : (ofToken levels token).identifier ≠ []) :
    ¬ opening <+: (ofToken levels token).identifier := by
  intro hp
  obtain ⟨⟨gap, -, hraw⟩, -⟩ := (divided_ofToken levels token).exists_gap
  rw [identifier_ofToken] at hne
  rw [raw_ofToken, List.append_assoc] at hraw
  exact not_opening_of_named (trimStart_trim token) hne (hp.trans ⟨_, hraw.symm⟩)

theorem trim_eq_type_of_unnamed (hnil : (ofToken levels token).identifier = []) :
    trim token = (ofToken levels token).type := by
  have hdivided := divided_ofToken levels token
  rw [raw_ofToken, hnil] at hdivided
  generalize trim token = raw at hdivided
  cases hdivided with
  | unnamed => rfl
  | named ne_nil => contradiction

end Read

end CompletionSnippets.Entry
