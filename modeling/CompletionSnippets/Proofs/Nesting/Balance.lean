import CompletionSnippets.Nesting
import Mathlib.Data.List.Infix

/-!
# Balanced texts

One family of brackets is balanced in a text when no beginning of the text closes
more than it opens and the whole closes all that it opens. A text is closed when
parentheses and braces are each balanced; the families may cross each other. In a
closed text a position is outside brackets when as much was closed as opened
before it, in both families.

Nothing here refers to a scan of the text; the counts of openers and closers in
its beginnings are all that is used. All of it can be decided.
-/
namespace CompletionSnippets.Text

/-- The text closes no more than it opens, when `n` brackets are open before it. -/
def Covered (opener closer : Char) (n : Nat) (t : Text) : Prop :=
  ∀ p ∈ t.inits, p.count closer ≤ n + p.count opener

/-- Every beginning closes no more than it opens, and the whole as much. -/
def Balanced (opener closer : Char) (t : Text) : Prop :=
  Covered opener closer 0 t ∧ t.count closer = t.count opener

/-- Parentheses and braces are each balanced. -/
structure Closed (t : Text) : Prop where
  parens : Balanced '(' ')' t
  braces : Balanced '{' '}' t

/-- What follows the given beginning of a closed text is outside brackets. -/
def Outside (before : Text) : Prop :=
  before.count '(' = before.count ')' ∧ before.count '{' = before.count '}'

/-- No character of the class stands outside brackets. -/
def NoneOutside (stop : Char → Bool) (t : Text) : Prop :=
  ∀ i : Fin t.length, Outside (t.take i) → stop t[i] = false

instance (opener closer : Char) (n : Nat) (t : Text) : Decidable (Covered opener closer n t) :=
  inferInstanceAs (Decidable (∀ p ∈ t.inits, _))

instance (opener closer : Char) (t : Text) : Decidable (Balanced opener closer t) :=
  inferInstanceAs (Decidable (_ ∧ _))

instance (t : Text) : Decidable (Closed t) :=
  decidable_of_iff (Balanced '(' ')' t ∧ Balanced '{' '}' t)
    ⟨fun h => ⟨h.1, h.2⟩, fun h => ⟨h.parens, h.braces⟩⟩

instance (t : Text) : Decidable (Outside t) := inferInstanceAs (Decidable (_ ∧ _))

instance (stop : Char → Bool) (t : Text) : Decidable (NoneOutside stop t) :=
  inferInstanceAs (Decidable (∀ _ : Fin t.length, _))

theorem prefix_append_iff {p s t : Text} :
    p <+: s ++ t ↔ p <+: s ∨ ∃ q, q <+: t ∧ p = s ++ q := by
  constructor
  · intro h
    rcases List.prefix_or_prefix_of_prefix h (List.prefix_append s t) with hp | ⟨q, rfl⟩
    · exact .inl hp
    · exact .inr ⟨q, (List.prefix_append_right_inj s).mp h, rfl⟩
  · rintro (h | ⟨q, hq, rfl⟩)
    · exact List.prefix_append_of_prefix h
    · exact (List.prefix_append_right_inj s).mpr hq

section Family
variable {opener closer : Char} {n : Nat} {s t : Text}

theorem covered_iff :
    Covered opener closer n t ↔ ∀ p, p <+: t → p.count closer ≤ n + p.count opener := by
  simp only [Covered, List.mem_inits]

theorem Covered.count_le (h : Covered opener closer n t) :
    t.count closer ≤ n + t.count opener :=
  covered_iff.mp h t (List.prefix_refl t)

theorem covered_nil : Covered opener closer n [] := by
  rw [covered_iff]
  intro p hp
  rw [List.prefix_nil.mp hp]
  simp

theorem Covered.mono {m : Nat} (h : Covered opener closer n t) (hm : n ≤ m) :
    Covered opener closer m t := by
  rw [covered_iff] at h ⊢
  intro p hp
  have := h p hp
  omega

theorem Covered.of_isPrefix (h : Covered opener closer n t) (hs : s <+: t) :
    Covered opener closer n s := by
  rw [covered_iff] at h ⊢
  exact fun p hp => h p (hp.trans hs)

theorem covered_cons {c : Char} :
    Covered opener closer n (c :: t) ↔
      ∀ p, p <+: t → (c :: p).count closer ≤ n + (c :: p).count opener := by
  rw [covered_iff]
  constructor
  · intro h p hp
    exact h _ ((List.prefix_cons_inj c).mpr hp)
  · intro h p hp
    rcases List.prefix_cons_iff.mp hp with rfl | ⟨q, rfl, hq⟩
    · simp
    · exact h q hq

theorem covered_cons_opener (hne : opener ≠ closer) :
    Covered opener closer n (opener :: t) ↔ Covered opener closer (n + 1) t := by
  rw [covered_cons, covered_iff]
  simp only [List.count_cons_self, List.count_cons_of_ne hne]
  constructor
  · intro h p hp
    have := h p hp
    omega
  · intro h p hp
    have := h p hp
    omega

theorem covered_cons_closer (hne : opener ≠ closer) :
    Covered opener closer n (closer :: t) ↔ ∃ m, n = m + 1 ∧ Covered opener closer m t := by
  rw [covered_cons]
  simp only [covered_iff, List.count_cons_self, List.count_cons_of_ne hne.symm]
  constructor
  · intro h
    have hn := h [] List.nil_prefix
    simp only [List.count_nil] at hn
    refine ⟨n - 1, by omega, fun p hp => ?_⟩
    have := h p hp
    omega
  · rintro ⟨m, rfl, h⟩ p hp
    have := h p hp
    omega

theorem covered_cons_of_ne {c : Char} (ho : c ≠ opener) (hc : c ≠ closer) :
    Covered opener closer n (c :: t) ↔ Covered opener closer n t := by
  rw [covered_cons, covered_iff]
  simp only [List.count_cons_of_ne ho, List.count_cons_of_ne hc]

theorem balanced_of_not_mem (ho : opener ∉ t) (hc : closer ∉ t) : Balanced opener closer t := by
  constructor
  · rw [covered_iff]
    intro p hp
    rw [List.count_eq_zero_of_not_mem fun h => hc (hp.subset h)]
    exact Nat.zero_le _
  · rw [List.count_eq_zero_of_not_mem ho, List.count_eq_zero_of_not_mem hc]

/-- A balanced text behind a covered one closes nothing that was open before it. -/
theorem Covered.append_balanced (hs : Covered opener closer n s)
    (ht : Balanced opener closer t) : Covered opener closer n (s ++ t) := by
  rw [covered_iff]
  intro p hp
  rcases prefix_append_iff.mp hp with hp | ⟨q, hq, rfl⟩
  · exact covered_iff.mp hs p hp
  · have hfront := hs.count_le
    have hbehind := covered_iff.mp ht.1 q hq
    rw [List.count_append, List.count_append]
    omega

theorem Balanced.append (hs : Balanced opener closer s) (ht : Balanced opener closer t) :
    Balanced opener closer (s ++ t) := by
  refine ⟨hs.1.append_balanced ht, ?_⟩
  rw [List.count_append, List.count_append, hs.2, ht.2]

/-- A balanced text in front neither opens nor closes anything for what follows it. -/
theorem Balanced.append_left_iff (hs : Balanced opener closer s) :
    Balanced opener closer (s ++ t) ↔ Balanced opener closer t := by
  refine ⟨fun h => ⟨?_, ?_⟩, hs.append⟩
  · rw [covered_iff]
    intro p hp
    have hle := covered_iff.mp h.1 (s ++ p) ((List.prefix_append_right_inj s).mpr hp)
    rw [List.count_append, List.count_append, hs.2] at hle
    omega
  · have htotal := h.2
    rw [List.count_append, List.count_append, hs.2] at htotal
    omega

theorem Balanced.append_right_iff (ht : Balanced opener closer t) :
    Balanced opener closer (s ++ t) ↔ Balanced opener closer s := by
  refine ⟨fun h => ⟨h.1.of_isPrefix (List.prefix_append s t), ?_⟩, fun hs => hs.append ht⟩
  have htotal := h.2
  rw [List.count_append, List.count_append, ht.2] at htotal
  omega

theorem Balanced.enclose (h : Balanced opener closer t) (hne : opener ≠ closer) :
    Balanced opener closer (opener :: t ++ [closer]) := by
  have hc := h.2
  constructor
  · rw [List.cons_append, covered_cons_opener hne, covered_iff]
    intro p hp
    rcases prefix_append_iff.mp hp with hp | ⟨q, hq, rfl⟩
    · have := covered_iff.mp h.1 p hp
      omega
    · have hl := hq.length_le
      have := List.count_le_length (a := closer) (l := q)
      rw [List.length_singleton] at hl
      rw [List.count_append, List.count_append]
      omega
  · simp only [List.count_append, List.count_cons_self, List.count_cons_of_ne hne,
      List.count_cons_of_ne hne.symm, List.count_nil]
    omega

end Family

theorem closed_of_no_brackets {t : Text} (h : ∀ c ∈ t, c ∉ ['(', ')', '{', '}']) : Closed t where
  parens := balanced_of_not_mem (fun hm => h _ hm (by decide)) (fun hm => h _ hm (by decide))
  braces := balanced_of_not_mem (fun hm => h _ hm (by decide)) (fun hm => h _ hm (by decide))

theorem Closed.append {s t : Text} (hs : Closed s) (ht : Closed t) : Closed (s ++ t) where
  parens := hs.parens.append ht.parens
  braces := hs.braces.append ht.braces

theorem Closed.cons {c : Char} {t : Text} (hc : c ∉ ['(', ')', '{', '}']) (ht : Closed t) :
    Closed (c :: t) := by
  have hs : Closed [c] := closed_of_no_brackets fun x hx => by rwa [List.mem_singleton.mp hx]
  exact hs.append ht

theorem Closed.parenthesize {t : Text} (h : Closed t) : Closed ('(' :: t ++ [')']) where
  parens := h.parens.enclose (by decide)
  braces := by
    have ho : Balanced '{' '}' ['('] := by decide
    have hc : Balanced '{' '}' [')'] := by decide
    exact (ho.append h.braces).append hc

end CompletionSnippets.Text
