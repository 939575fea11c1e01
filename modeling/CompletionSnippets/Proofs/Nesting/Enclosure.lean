import CompletionSnippets.Proofs.Nesting.Scanning
import Mathlib.Data.List.Induction
import Mathlib.Data.List.Infix

/-!
# Standing inside brackets

In a text whose brackets need not match, a place stands inside brackets when a bracket
that was opened before it is still open: when some end of the text before it opens more
than it closes. A closer with nothing to close says nothing about what comes after it.
The count that forgets such closers is the largest surplus of openers over closers among
the ends of the text, so it is zero exactly outside brackets, and the first blank that a
scan finds is the first blank outside brackets.
-/
namespace CompletionSnippets

namespace Text

/-- An end of the text opens more than it closes. -/
def LeavesOpen (opener closer : Char) (t : Text) : Prop :=
  ∃ q ∈ t.tails, q.count closer < q.count opener

/-- What follows the text stands inside a pair of parentheses or of braces. -/
def Encloses (t : Text) : Prop := LeavesOpen '(' ')' t ∨ LeavesOpen '{' '}' t

/-- Every character of the class that the text holds stands inside brackets. -/
def NoneExposed (stop : Char → Bool) (t : Text) : Prop :=
  ∀ i : Fin t.length, stop (t.get i) → Encloses (t.take i)

instance (opener closer : Char) (t : Text) : Decidable (LeavesOpen opener closer t) :=
  inferInstanceAs (Decidable (∃ q ∈ t.tails, _))

instance (t : Text) : Decidable (Encloses t) := inferInstanceAs (Decidable (_ ∨ _))

instance (stop : Char → Bool) (t : Text) : Decidable (NoneExposed stop t) :=
  inferInstanceAs (Decidable (∀ _ : Fin t.length, _))

theorem noneExposed_iff {stop : Char → Bool} {t : Text} :
    NoneExposed stop t ↔ ∀ p c r, t = p ++ c :: r → stop c → Encloses p := by
  constructor
  · rintro h p c r rfl hc
    simpa [hc] using h ⟨p.length, by simp⟩
  · intro h i hi
    exact h _ (t.get i) (t.drop (i + 1)) (by simp) hi

section Family
variable {opener closer : Char} {n : Nat} {t : Text}

theorem level_concat (c : Char) :
    level opener closer n (t ++ [c]) =
      if c = opener then level opener closer n t + 1
      else if c = closer then level opener closer n t - 1
      else level opener closer n t := by
  simp [level, List.foldl_append]

theorem exists_suffix_concat_iff {c : Char} :
    (∃ q, q <:+ t ++ [c] ∧ q.count closer + n ≤ q.count opener) ↔
      n = 0 ∨ ∃ q, q <:+ t ∧ (q ++ [c]).count closer + n ≤ (q ++ [c]).count opener := by
  constructor
  · rintro ⟨q, hq, hn⟩
    rcases List.suffix_concat_iff.mp hq with rfl | ⟨r, rfl, hr⟩
    · exact .inl (by simpa using hn)
    · exact .inr ⟨r, hr, hn⟩
  · rintro (rfl | ⟨q, ⟨p, rfl⟩, hn⟩)
    · exact ⟨[], List.nil_suffix, by simp⟩
    · exact ⟨q ++ [c], ⟨p, by simp⟩, hn⟩

/-- At least so many brackets are open behind a text as some end of it opens more than
it closes. -/
theorem le_level_iff (hne : opener ≠ closer) (n : Nat) (t : Text) :
    n ≤ level opener closer 0 t ↔
      ∃ q, q <:+ t ∧ q.count closer + n ≤ q.count opener := by
  -- The last character is in every end but the empty one, so it moves `n` by one in all.
  induction t using List.reverseRecOn generalizing n with
  | nil => simp [level]
  | append_singleton t c ih =>
    rw [exists_suffix_concat_iff, level_concat]
    by_cases ho : c = opener
    · subst ho
      -- an end that was level now opens more, so the bound is met with one less before
      cases n with
      | zero => simp
      | succ n =>
        simp only [if_pos, Nat.add_le_add_iff_right, ih, List.count_append,
          List.count_singleton_self, List.count_cons_of_ne hne, List.count_nil]
        simp [← Nat.add_assoc]
    by_cases hc : c = closer
    · subst hc
      have hpred : n ≤ level opener c 0 t - 1 ↔ n = 0 ∨ n + 1 ≤ level opener c 0 t := by omega
      rw [if_neg ho, if_pos rfl, hpred, ih]
      simp [List.count_append, List.count_cons_of_ne ho, Nat.add_assoc, Nat.add_comm 1]
    · have hzero : n = 0 → n ≤ level opener closer 0 t := by omega
      rw [if_neg ho, if_neg hc]
      simp only [List.count_append, List.count_cons_of_ne ho, List.count_cons_of_ne hc,
        List.count_nil, Nat.add_zero, ← ih]
      tauto

theorem leavesOpen_iff (hne : opener ≠ closer) :
    LeavesOpen opener closer t ↔ level opener closer 0 t ≠ 0 := by
  rw [← Nat.one_le_iff_ne_zero, le_level_iff hne, LeavesOpen]
  simp only [List.mem_tails, Nat.add_one_le_iff]

end Family

theorem isTop_after_iff {t : Text} : (Depth.after {} t).isTop ↔ ¬ Encloses t := by
  rw [Depth.isTop_iff, Depth.after_parens, Depth.after_braces, Encloses,
    leavesOpen_iff (by decide), leavesOpen_iff (by decide)]
  simp

theorem unbroken_iff_noneExposed {stop : Char → Bool} {t : Text} :
    Unbroken stop {} t ↔ NoneExposed stop t := by
  rw [noneExposed_iff]
  constructor
  · rintro h p c r rfl hc
    rw [unbroken_append] at h
    have htop := h.2.1 hc
    by_contra hp
    rw [isTop_after_iff.mpr hp] at htop
    contradiction
  · intro h
    apply unbroken_of_forall
    intro p c r ht hc
    rw [← Bool.not_eq_true, isTop_after_iff, not_not]
    exact h p c r ht hc

/-- What is found is the first blank that a scan meets at top level. -/
theorem breakAtBlank?_eq_some_iff {d : Depth} {before t first rest : Text} :
    breakAtBlank? d before t = some (first, rest) ↔
      ∃ w, first = before.reverse ++ w ∧ t = w ++ rest ∧ Unbroken isBlank d w ∧
        (d.after w).isTop ∧ ∃ c ∈ rest.head?, isBlank c := by
  constructor
  · intro h
    induction t generalizing d before with
    | nil => simp [breakAtBlank?] at h
    | cons c t ih =>
      rw [breakAtBlank?] at h
      split at h
      · rename_i hc
        obtain ⟨rfl, rfl⟩ := Prod.mk.inj (Option.some.inj h)
        rw [Bool.and_eq_true] at hc
        exact ⟨[], by simp, rfl, trivial, hc.2, c, rfl, hc.1⟩
      · rename_i hc
        obtain ⟨w, rfl, rfl, hw, htop, hrest⟩ := ih h
        refine ⟨c :: w, by simp, rfl, ⟨?_, hw⟩, htop, hrest⟩
        intro hblank
        simpa [hblank] using hc
  · rintro ⟨w, rfl, rfl, hw, htop, c, hc, hblank⟩
    rw [breakAtBlank?_append hw]
    cases rest with
    | nil => simp at hc
    | cons x rest =>
      obtain rfl := Option.some.inj hc
      rw [breakAtBlank?, if_pos (by simp [hblank, htop])]
      simp

theorem breakAtBlank?_eq_none_iff {d : Depth} {before t : Text} :
    breakAtBlank? d before t = none ↔ Unbroken isBlank d t := by
  induction t generalizing d before with
  | nil => simp [breakAtBlank?, Unbroken]
  | cons c t ih =>
    rw [breakAtBlank?, Unbroken]
    split
    · rename_i hc
      rw [Bool.and_eq_true] at hc
      simp [hc]
    · rename_i hc
      rw [ih]
      simp_all

/-- A text is cut before its first blank outside brackets. -/
theorem breakAtBlank?_iff {t first rest : Text} :
    breakAtBlank? {} [] t = some (first, rest) ↔
      t = first ++ rest ∧ NoneExposed isBlank first ∧ ¬ Encloses first ∧
        ∃ c ∈ rest.head?, isBlank c := by
  rw [breakAtBlank?_eq_some_iff]
  constructor
  · rintro ⟨w, rfl, ht, hw, htop, hrest⟩
    exact ⟨ht, unbroken_iff_noneExposed.mp hw, isTop_after_iff.mp htop, hrest⟩
  · rintro ⟨ht, hw, htop, hrest⟩
    exact ⟨first, by simp, ht, unbroken_iff_noneExposed.mpr hw, isTop_after_iff.mpr htop, hrest⟩

theorem breakAtBlank?_none_iff {t : Text} :
    breakAtBlank? {} [] t = none ↔ NoneExposed isBlank t :=
  breakAtBlank?_eq_none_iff.trans unbroken_iff_noneExposed

end Text
end CompletionSnippets
