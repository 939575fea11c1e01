import CompletionSnippets.Proofs.Nesting.Balance

/-!
# Scanning balanced texts

A depth forgets a closer that has nothing to close, but a text that closes no more
than is open never comes to that, so the depth behind a closed text is the depth
before it. A text is unbroken, for a class of characters, when a scan of it from a
given depth meets none of them at top level. Splitting and searching pass over
unbroken texts as if they were single characters.
-/
namespace CompletionSnippets

namespace Text

section Family
variable {opener closer : Char} {n : Nat} {t : Text}

/-- How many brackets of one family are open behind a text, when a closer with
nothing to close is passed over. -/
def level (opener closer : Char) (n : Nat) (t : Text) : Nat :=
  t.foldl (fun n c => if c = opener then n + 1 else if c = closer then n - 1 else n) n

/-- No more brackets are open than characters were read. -/
theorem level_le (n : Nat) (t : Text) : level opener closer n t ≤ n + t.length := by
  induction t generalizing n with
  | nil => exact Nat.le_refl n
  | cons c t ih =>
    have hrest := ih (if c = opener then n + 1 else if c = closer then n - 1 else n)
    have hstep : (if c = opener then n + 1 else if c = closer then n - 1 else n) ≤ n + 1 := by
      split <;> [exact Nat.le_refl _; split] <;> omega
    rw [List.length_cons]
    exact hrest.trans (by omega)

/-- No closer of a covered text is passed over. -/
theorem Covered.level_add (hne : opener ≠ closer) (h : Covered opener closer n t) :
    level opener closer n t + t.count closer = n + t.count opener := by
  induction t generalizing n with
  | nil => simp [level]
  | cons c t ih =>
    by_cases ho : c = opener
    · subst ho
      have := ih ((covered_cons_opener hne).mp h)
      simp only [level, List.foldl_cons, if_pos] at this ⊢
      rw [List.count_cons_self, List.count_cons_of_ne hne]
      omega
    by_cases hc : c = closer
    · subst hc
      obtain ⟨m, rfl, hm⟩ := (covered_cons_closer hne).mp h
      have := ih hm
      simp only [level, List.foldl_cons, if_neg ho, if_pos, Nat.add_sub_cancel] at this ⊢
      rw [List.count_cons_self, List.count_cons_of_ne hne.symm]
      omega
    · have := ih ((covered_cons_of_ne ho hc).mp h)
      simp only [level, List.foldl_cons, if_neg ho, if_neg hc] at this ⊢
      rwa [List.count_cons_of_ne ho, List.count_cons_of_ne hc]

/-- A covered text that a scan leaves with nothing open is balanced. -/
theorem Covered.balanced_of_level (hne : opener ≠ closer) (h : Covered opener closer 0 t)
    (hlevel : level opener closer 0 t = 0) : Balanced opener closer t := by
  have hadd := h.level_add hne
  exact ⟨h, by omega⟩

end Family

end Text

namespace Depth
open Text

/-- The depth behind a text. -/
def after (d : Depth) (t : Text) : Depth := t.foldl step d

@[simp] theorem after_nil (d : Depth) : d.after [] = d := rfl

@[simp] theorem after_cons (d : Depth) (c : Char) (t : Text) :
    d.after (c :: t) = (d.step c).after t := rfl

theorem isTop_iff {d : Depth} : d.isTop ↔ d.parens = 0 ∧ d.braces = 0 := by
  simp [isTop]

theorem after_parens (d : Depth) (t : Text) : (d.after t).parens = level '(' ')' d.parens t := by
  induction t generalizing d with
  | nil => rfl
  | cons c t ih =>
    rw [after_cons, ih, level, level, List.foldl_cons]
    congr 1
    simp only [step]
    split <;> simp_all

theorem after_braces (d : Depth) (t : Text) : (d.after t).braces = level '{' '}' d.braces t := by
  induction t generalizing d with
  | nil => rfl
  | cons c t ih =>
    rw [after_cons, ih, level, level, List.foldl_cons]
    congr 1
    simp only [step]
    split <;> simp_all

/-- The counts of a scan are no greater than the number of characters read, so 32 bits hold them
for every text of fewer than 2^32 characters. -/
theorem after_le (d : Depth) (t : Text) :
    (d.after t).parens ≤ d.parens + t.length ∧ (d.after t).braces ≤ d.braces + t.length := by
  rw [after_parens, after_braces]
  exact ⟨level_le _ t, level_le _ t⟩

theorem parens_le_after {t p : Text} (h : Closed t) (hp : p <+: t) (d : Depth) :
    (d.after p).parens + p.count ')' = d.parens + p.count '(' ∧ p.count ')' ≤ p.count '(' := by
  have hc := h.parens.1.of_isPrefix hp
  rw [after_parens]
  exact ⟨(hc.mono (Nat.zero_le _)).level_add (by decide), by simpa using hc.count_le⟩

theorem braces_le_after {t p : Text} (h : Closed t) (hp : p <+: t) (d : Depth) :
    (d.after p).braces + p.count '}' = d.braces + p.count '{' ∧ p.count '}' ≤ p.count '{' := by
  have hc := h.braces.1.of_isPrefix hp
  rw [after_braces]
  exact ⟨(hc.mono (Nat.zero_le _)).level_add (by decide), by simpa using hc.count_le⟩

end Depth

namespace Text

/-- The depth behind a closed text is the depth before it. -/
theorem Closed.after_eq {t : Text} (h : Closed t) (d : Depth) : d.after t = d := by
  have hp := (Depth.parens_le_after h (List.prefix_refl t) d).1
  have hb := (Depth.braces_le_after h (List.prefix_refl t) d).1
  rw [h.parens.2, Nat.add_right_cancel_iff] at hp
  rw [h.braces.2, Nat.add_right_cancel_iff] at hb
  exact congrArg₂ Depth.mk hp hb

/-- A scan of the text from the given depth meets no character of the class at top
level. -/
def Unbroken (stop : Char → Bool) (d : Depth) : Text → Prop
  | [] => True
  | c :: t => (stop c → d.isTop = false) ∧ Unbroken stop (d.step c) t

section Unbroken
variable {stop : Char → Bool} {d : Depth} {s t : Text}

theorem unbroken_append :
    Unbroken stop d (s ++ t) ↔ Unbroken stop d s ∧ Unbroken stop (d.after s) t := by
  induction s generalizing d with
  | nil => simp [Unbroken]
  | cons c s ih => simp only [List.cons_append, Unbroken, ih, Depth.after_cons, and_assoc]

theorem unbroken_of_forall
    (h : ∀ p c r, t = p ++ c :: r → stop c → (d.after p).isTop = false) : Unbroken stop d t := by
  induction t generalizing d with
  | nil => trivial
  | cons c t ih =>
    refine ⟨h [] c t rfl, ih fun p x r hr => ?_⟩
    exact h (c :: p) x r (by rw [hr, List.cons_append])

theorem Closed.unbroken (h : Closed t) (hn : NoneOutside stop t) : Unbroken stop {} t := by
  apply unbroken_of_forall
  rintro p c r rfl hc
  by_contra htop
  rw [Bool.not_eq_false, Depth.isTop_iff] at htop
  have hp := Depth.parens_le_after h (List.prefix_append p _) {}
  have hb := Depth.braces_le_after h (List.prefix_append p _) {}
  have hi : p.length < (p ++ c :: r).length := by simp
  have hout : Outside ((p ++ c :: r).take p.length) := by
    rw [List.take_left]
    constructor
    · omega
    · omega
  have := hn ⟨p.length, hi⟩ hout
  simp [hc] at this

/-- Nothing in a closed text comes to top level when something is open before it. -/
theorem Closed.unbroken_inside (h : Closed t) (hd : d.isTop = false) : Unbroken stop d t := by
  apply unbroken_of_forall
  rintro p c r rfl -
  by_contra htop
  rw [Bool.not_eq_false, Depth.isTop_iff] at htop
  have hp := Depth.parens_le_after h (List.prefix_append p _) d
  have hb := Depth.braces_le_after h (List.prefix_append p _) d
  have hdt : d.isTop := by
    rw [Depth.isTop_iff]
    omega
  rw [hd] at hdt
  exact Bool.false_ne_true hdt

theorem segments_append {sep : Char} (h : Unbroken (· == sep) d s) (current rest : Text) :
    segments sep d current (s ++ rest) = segments sep (d.after s) (s.reverse ++ current) rest := by
  induction s generalizing d current with
  | nil => rfl
  | cons c s ih =>
    have hc : (c == sep && d.isTop) = false := by
      rw [Bool.and_eq_false_imp]
      exact h.1
    rw [List.cons_append, segments, if_neg (by simp [hc]), ih h.2, Depth.after_cons,
      List.reverse_cons, List.append_assoc, List.singleton_append]

/-- A text stays in one segment exactly when it is unbroken. -/
theorem segments_eq_singleton_iff {sep : Char} {current : Text} :
    segments sep d current t = [s] ↔ Unbroken (· == sep) d t ∧ current.reverse ++ t = s := by
  induction t generalizing d current with
  | nil => simp [segments, Unbroken]
  | cons c t ih =>
    rw [segments, Unbroken]
    split
    · rename_i hcut
      obtain ⟨hsep, htop⟩ := Bool.and_eq_true_iff.mp hcut
      -- what follows a cut is a segment too, if only an empty one
      simp [segments_ne_nil, hsep, htop]
    · rename_i hcut
      have hinside : c == sep → d.isTop = false := by simpa using hcut
      rw [ih, List.reverse_cons, List.append_assoc, List.singleton_append,
        and_iff_right hinside]

theorem breakAtBlank?_append (h : Unbroken isBlank d s) (before rest : Text) :
    breakAtBlank? d before (s ++ rest) =
      breakAtBlank? (d.after s) (s.reverse ++ before) rest := by
  induction s generalizing d before with
  | nil => rfl
  | cons c s ih =>
    have hc : (isBlank c && d.isTop) = false := by
      rw [Bool.and_eq_false_imp]
      exact h.1
    rw [List.cons_append, breakAtBlank?, if_neg (by simp [hc]), ih h.2, Depth.after_cons,
      List.reverse_cons, List.append_assoc, List.singleton_append]

end Unbroken
end Text
end CompletionSnippets
