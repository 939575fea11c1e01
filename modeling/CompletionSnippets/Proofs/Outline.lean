import CompletionSnippets.Outline
import CompletionSnippets.Proofs.Nesting.Scanning
import CompletionSnippets.Proofs.Trimming

/-!
# What has an outline

The parenthesis that closes the parameters is the one before which the parentheses
are balanced; there is at most one such place in a text, and it is the one that is
found. So a text has an outline exactly when, trimmed, it is `func(`, a text with
balanced parentheses, a closing parenthesis and anything after it, and the outline
is determined by these parts. Every entry of an outline is strictly shorter than
the text that the outline was taken of.
-/
namespace CompletionSnippets.Outline
open Text

theorem of?_trim (t : Text) : of? t.trim = of? t := by
  simp only [of?, trim_trim]

/-- One pair of parentheses goes from the first to the last character. -/
def Enclosed (t : Text) : Prop :=
  ∃ inside, t = '(' :: inside ++ [')'] ∧ Balanced '(' ')' inside

theorem closeParen?_append {opened : Nat} {w : Text} (h : Covered '(' ')' opened w)
    (passed rest : Text) :
    closeParen? passed opened (w ++ rest) =
      closeParen? (w.reverse ++ passed) (level '(' ')' opened w) rest := by
  induction w generalizing opened passed with
  | nil => rfl
  | cons c w ih =>
    simp only [List.cons_append, closeParen?, List.reverse_cons, List.append_assoc,
      List.nil_append]
    by_cases hc : c = ')'
    · subst hc
      obtain ⟨m, rfl, hm⟩ := (covered_cons_closer (by decide)).mp h
      rw [if_pos rfl]
      exact ih hm _
    rw [if_neg hc]
    by_cases ho : c = '('
    · subst ho
      rw [if_pos rfl, ih ((covered_cons_opener (by decide)).mp h)]
      rfl
    · rw [if_neg ho, ih ((covered_cons_of_ne ho hc).mp h)]
      simp [level, ho, hc]

/-- The count of the search is no greater than the number of characters passed over, so 31 bits
hold it for every text of fewer than 2^31 characters. -/
theorem exists_closeParen?_append {opened : Nat} {w : Text} (h : Covered '(' ')' opened w)
    (passed rest : Text) :
    ∃ still ≤ opened + w.length,
      closeParen? passed opened (w ++ rest) = closeParen? (w.reverse ++ passed) still rest :=
  ⟨_, level_le opened w, closeParen?_append h passed rest⟩

theorem closeParen?_of_balanced {w : Text} (h : Balanced '(' ')' w) (rest : Text) :
    closeParen? [] 0 (w ++ ')' :: rest) = some (w, rest) := by
  have hl := h.1.level_add (by decide)
  rw [closeParen?_append h.1, show level '(' ')' 0 w = 0 by have := h.2; omega]
  simp [closeParen?]

/-- What the search passes over closes as much as was open. -/
theorem covered_of_closeParen? {opened : Nat} {passed t inside rest : Text}
    (h : closeParen? passed opened t = some (inside, rest)) :
    ∃ w, inside = passed.reverse ++ w ∧ t = w ++ ')' :: rest ∧
      Covered '(' ')' opened w ∧ w.count ')' = opened + w.count '(' := by
  induction t generalizing opened passed with
  | nil => simp [closeParen?] at h
  | cons c t ih =>
    simp only [closeParen?] at h
    by_cases hc : c = ')'
    · subst hc
      rw [if_pos rfl] at h
      cases opened with
      | zero =>
        obtain ⟨rfl, rfl⟩ := Prod.mk.inj (Option.some.inj h)
        exact ⟨[], by simp, rfl, covered_nil, rfl⟩
      | succ opened =>
        obtain ⟨w, rfl, rfl, hw, hn⟩ := ih h
        refine ⟨')' :: w, by simp, rfl, ?_, ?_⟩
        · exact (covered_cons_closer (by decide)).mpr ⟨opened, rfl, hw⟩
        · rw [List.count_cons_self, List.count_cons_of_ne (by decide), hn]
          omega
    rw [if_neg hc] at h
    obtain ⟨w, rfl, rfl, hw, hn⟩ := ih h
    refine ⟨c :: w, by simp, rfl, ?_⟩
    by_cases ho : c = '('
    · subst ho
      rw [if_pos rfl] at hw hn
      refine ⟨(covered_cons_opener (by decide)).mpr hw, ?_⟩
      rw [List.count_cons_self, List.count_cons_of_ne (by decide), hn]
      omega
    · rw [if_neg ho] at hw hn
      refine ⟨(covered_cons_of_ne ho hc).mpr hw, ?_⟩
      rwa [List.count_cons_of_ne ho, List.count_cons_of_ne hc]

/-- The parenthesis that is found is the one behind balanced parentheses. -/
theorem closeParen?_eq_some_iff {t w rest : Text} :
    closeParen? [] 0 t = some (w, rest) ↔ t = w ++ ')' :: rest ∧ Balanced '(' ')' w := by
  constructor
  · intro h
    obtain ⟨w, rfl, rfl, hw, hn⟩ := covered_of_closeParen? h
    rw [Nat.zero_add] at hn
    exact ⟨rfl, hw, hn⟩
  · rintro ⟨rfl, hw⟩
    exact closeParen?_of_balanced hw rest

/-- Nothing is found when no more is closed than was open. -/
theorem closeParen?_eq_none_iff {opened : Nat} {passed t : Text} :
    closeParen? passed opened t = none ↔ Covered '(' ')' opened t := by
  induction t generalizing opened passed with
  | nil => simp [closeParen?, covered_nil]
  | cons c t ih =>
    simp only [closeParen?]
    by_cases hc : c = ')'
    · subst hc
      rw [if_pos rfl, covered_cons_closer (by decide)]
      cases opened with
      | zero => simp
      | succ opened => simp [ih]
    rw [if_neg hc, ih]
    by_cases ho : c = '('
    · rw [if_pos ho, ho, covered_cons_opener (by decide)]
    · rw [if_neg ho, covered_cons_of_ne ho hc]

theorem resultText_of_enclosed {inside : Text} (h : Balanced '(' ')' inside) :
    resultText ('(' :: inside ++ [')']) = .list inside.trim := by
  simp only [resultText, List.cons_append, closeParen?_of_balanced h]

theorem resultText_of_not_enclosed {t : Text} (hne : t ≠ []) (h : ¬ Enclosed t) :
    resultText t = .single t := by
  unfold resultText
  split
  · contradiction
  · rename_i inner
    split
    · rename_i inside hi
      obtain ⟨rfl, hb⟩ := closeParen?_eq_some_iff.mp hi
      exact absurd ⟨inside, rfl, hb⟩ h
    · rfl
  · rfl

section Results
variable {t x : Text}

theorem resultText_cases (t : Text) :
    (t = [] ∧ resultText t = .none) ∨
      (∃ inside, t = '(' :: inside ++ [')'] ∧ Balanced '(' ')' inside ∧
        resultText t = .list (trim inside)) ∨
      (t ≠ [] ∧ ¬ Enclosed t ∧ resultText t = .single t) := by
  by_cases hne : t = []
  · subst hne
    exact .inl ⟨rfl, rfl⟩
  by_cases he : Enclosed t
  · obtain ⟨inside, rfl, hb⟩ := he
    exact .inr (.inl ⟨inside, rfl, hb, resultText_of_enclosed hb⟩)
  · exact .inr (.inr ⟨hne, he, resultText_of_not_enclosed hne he⟩)

theorem resultText_eq_none_iff : resultText t = .none ↔ t = [] := by
  rcases resultText_cases t with ⟨ht, hr⟩ | ⟨inside, ht, -, hr⟩ | ⟨hne, -, hr⟩
  · rw [hr]
    simp [ht]
  · rw [hr]
    simp [ht]
  · rw [hr]
    simp [hne]

theorem resultText_eq_list_iff :
    resultText t = .list x ↔
      ∃ inside, t = '(' :: inside ++ [')'] ∧ Balanced '(' ')' inside ∧ x = trim inside := by
  constructor
  · intro h
    rcases resultText_cases t with ⟨-, hr⟩ | ⟨inside, ht, hb, hr⟩ | ⟨-, -, hr⟩
    · rw [hr] at h
      contradiction
    · rw [hr] at h
      exact ⟨inside, ht, hb, (ResultText.list.inj h).symm⟩
    · rw [hr] at h
      contradiction
  · rintro ⟨inside, rfl, hb, rfl⟩
    exact resultText_of_enclosed hb

theorem resultText_eq_single_iff :
    resultText t = .single x ↔ x = t ∧ t ≠ [] ∧ ¬ Enclosed t := by
  constructor
  · intro h
    rcases resultText_cases t with ⟨-, hr⟩ | ⟨inside, -, -, hr⟩ | ⟨hne, he, hr⟩
    · rw [hr] at h
      contradiction
    · rw [hr] at h
      contradiction
    · rw [hr] at h
      exact ⟨(ResultText.single.inj h).symm, hne, he⟩
  · rintro ⟨rfl, hne, he⟩
    exact resultText_of_not_enclosed hne he

/-- Parentheses at both ends make a list only if they are a pair. -/
example : ["()", "(a)(b)", "(a) b", "(", "())("].map (fun s => resultText s.toList) =
    [.list [], .single "(a)(b)".toList, .single "(a) b".toList, .single ['('],
      .single "())(".toList] := by decide

end Results

/-- A text has an outline when its parameters are closed, and their parentheses
determine it. -/
theorem of?_eq_some_iff {t : Text} {o : Outline} :
    of? t = some o ↔ ∃ w rest : Text, t.trim = opening ++ w ++ ')' :: rest ∧ Balanced '(' ')' w ∧
      o = { whole := t.trim, params := w.trim, results := resultText (trim rest) } := by
  simp only [of?, Option.bind_eq_bind, Option.bind_eq_some_iff, strip?_eq_some_iff, Prod.exists,
    closeParen?_eq_some_iff, Option.pure_def, Option.some.injEq]
  constructor
  · rintro ⟨_, ht, w, rest, ⟨rfl, hw⟩, rfl⟩
    exact ⟨w, rest, by rw [ht, List.append_assoc], hw, rfl⟩
  · rintro ⟨w, rest, ht, hw, rfl⟩
    exact ⟨_, by rw [ht, List.append_assoc], w, rest, ⟨rfl, hw⟩, rfl⟩

theorem isInfix_of_mem_segments {sep : Char} {d : Depth} {t x : Text} (current : Text)
    (h : x ∈ segments sep d current t) : x <:+: current.reverse ++ t := by
  induction t generalizing d current with
  | nil =>
    rw [segments, List.mem_singleton] at h
    rw [h, List.append_nil]
  | cons c t ih =>
    rw [segments] at h
    split at h
    · rcases List.mem_cons.mp h with rfl | h
      · exact (List.prefix_append _ _).isInfix
      · exact (ih [] h).trans ⟨current.reverse ++ [c], [], by simp⟩
    · have hx := ih (c :: current) h
      rwa [List.reverse_cons, List.append_assoc] at hx

theorem isInfix_of_mem_splitTopLevel {sep : Char} {t x : Text}
    (h : x ∈ splitTopLevel sep t) : x <:+: t := by
  unfold splitTopLevel at h
  split at h
  · simp at h
  · obtain ⟨s, hs, rfl⟩ := List.mem_map.mp h
    exact (trim_isInfix s).trans (isInfix_of_mem_segments [] hs)

theorem isInfix_of_mem_resultTokens {o : Outline} {t x : Text} (ho : o.results = resultText t)
    (h : x ∈ o.resultTokens) : x <:+: t := by
  rw [resultTokens, ho] at h
  rcases resultText_cases t with ⟨-, hr⟩ | ⟨inside, rfl, -, hr⟩ | ⟨-, -, hr⟩
  · rw [hr] at h
    contradiction
  · rw [hr] at h
    exact ((isInfix_of_mem_splitTopLevel h).trans (trim_isInfix inside)).trans ⟨['('], [')'], rfl⟩
  · rw [hr, List.mem_singleton] at h
    rw [h]

/-- An entry is strictly shorter than the function type that it stands in. -/
theorem length_lt_of_mem_tokens {t x : Text} {o : Outline} (h : of? t = some o)
    (hx : x ∈ o.paramTokens ∨ x ∈ o.resultTokens) : x.length < t.length := by
  obtain ⟨w, rest, ht, -, rfl⟩ := of?_eq_some_iff.mp h
  have hlen := congrArg List.length ht
  have htrim := length_trim_le t
  simp only [opening, List.length_append, List.length_cons, List.length_nil] at hlen
  rcases hx with hx | hx
  · have := ((isInfix_of_mem_splitTopLevel hx).trans (trim_isInfix w)).length_le
    omega
  · have := ((isInfix_of_mem_resultTokens rfl hx).trans (trim_isInfix rest)).length_le
    omega

theorem isInfix_of_mem_tokens {t x : Text} {o : Outline} (h : of? t = some o)
    (hx : x ∈ o.paramTokens ∨ x ∈ o.resultTokens) : x <:+: t := by
  obtain ⟨w, rest, ht, -, rfl⟩ := of?_eq_some_iff.mp h
  refine List.IsInfix.trans ?_ (trim_isInfix t)
  rw [ht]
  rcases hx with hx | hx
  · refine ((isInfix_of_mem_splitTopLevel hx).trans (trim_isInfix w)).trans ?_
    exact ⟨opening, ')' :: rest, rfl⟩
  · refine ((isInfix_of_mem_resultTokens rfl hx).trans (trim_isInfix rest)).trans ?_
    exact ⟨opening ++ w ++ [')'], [], by simp⟩

end CompletionSnippets.Outline
