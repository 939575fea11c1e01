import CompletionSnippets.Proofs.Nesting.Pieces
import CompletionSnippets.Proofs.Outline

/-!
# The parts of an outline

A function type, trimmed, is the keyword with its parenthesis, a text with balanced
parentheses, the closing parenthesis, and a rest. There is only one way to part a text so,
and a text has an outline exactly when there is one. The rest alone decides on the results:
they are a list when it is one pair of parentheses around a balanced text, and a single
result when it is neither that nor blank.

A text that begins like a function type and has no outline never closes the parenthesis of
its keyword.
-/
namespace CompletionSnippets

namespace Text

theorem covered_trimEnd_iff {n : Nat} {t : Text} :
    Covered '(' ')' n (trimEnd t) ↔ Covered '(' ')' n t := by
  obtain ⟨b, hb, ht⟩ := exists_trimEnd_append t
  constructor
  · intro h
    rw [ht]
    exact h.append_balanced (balanced_of_isAllBlank hb)
  · intro h
    exact h.of_isPrefix (trimEnd_isPrefix t)

end Text

namespace Outline
open Text

/-- The trimmed text is the keyword, the parameters in parentheses that close where they do,
and the rest. -/
structure Parts (t params rest : Text) : Prop where
  text : trim t = opening ++ params ++ ')' :: rest
  balanced : Balanced '(' ')' params

theorem exists_outline_iff {t : Text} :
    (∃ o, of? t = some o) ↔ ∃ params rest, Parts t params rest := by
  constructor
  · rintro ⟨o, ho⟩
    obtain ⟨params, rest, ht, hparams, -⟩ := of?_eq_some_iff.mp ho
    exact ⟨params, rest, ht, hparams⟩
  · rintro ⟨params, rest, h⟩
    exact ⟨_, of?_eq_some_iff.mpr ⟨params, rest, h.text, h.balanced, rfl⟩⟩

section Parts
variable {t params rest : Text}

theorem Parts.closeParen? (h : Parts t params rest) {u : Text} (hu : trim t = opening ++ u) :
    closeParen? [] 0 u = some (params, rest) := by
  have happend : opening ++ u = opening ++ (params ++ ')' :: rest) := by
    rw [← hu, h.text, List.append_assoc]
  exact closeParen?_eq_some_iff.mpr ⟨List.append_cancel_left happend, h.balanced⟩

/-- A text is parted in one way only: the search finds the parenthesis of every way. -/
theorem Parts.unique (h : Parts t params rest) {params' rest' : Text}
    (h' : Parts t params' rest') : params' = params ∧ rest' = rest := by
  have hu : trim t = opening ++ (params ++ ')' :: rest) := by rw [h.text, List.append_assoc]
  have hfound := h'.closeParen? hu
  rw [h.closeParen? hu] at hfound
  obtain ⟨hparams, hrest⟩ := Prod.mk.inj (Option.some.inj hfound)
  exact ⟨hparams.symm, hrest.symm⟩

theorem Parts.outline_eq (h : Parts t params rest) {o : Outline} (ho : of? t = some o) :
    o = { whole := trim t, params := trim params, results := resultText (trim rest) } := by
  obtain ⟨params', rest', ht, hparams, rfl⟩ := of?_eq_some_iff.mp ho
  obtain ⟨rfl, rfl⟩ := h.unique ⟨ht, hparams⟩
  rfl

end Parts

theorem of?_eq_none_iff_of_opening {t u : Text} (h : trim t = opening ++ u) :
    of? t = none ↔ Covered '(' ')' 0 u := by
  have hstrip : strip? opening (trim t) = some u := strip?_eq_some_iff.mpr h
  rw [← @closeParen?_eq_none_iff 0 [] u]
  cases hclose : closeParen? [] 0 u <;> simp [of?, hstrip, hclose]

theorem trim_of_trimStart {t u : Text} (h : trimStart t = opening ++ u) :
    trim t = opening ++ trimEnd u := by
  have hopening : trimEnd opening = opening := by decide
  rw [trim, h, trimEnd_append_right hopening]

theorem startsFunc_and_none_iff {t : Text} :
    (startsFunc t ∧ of? t = none) ↔
      ∃ u, trimStart t = opening ++ u ∧ Covered '(' ')' 0 u := by
  rw [startsFunc, List.isPrefixOf_iff_prefix]
  constructor
  · rintro ⟨⟨u, hu⟩, hnone⟩
    have htrim := trim_of_trimStart hu.symm
    rw [of?_eq_none_iff_of_opening htrim, covered_trimEnd_iff] at hnone
    exact ⟨u, hu.symm, hnone⟩
  · rintro ⟨u, hu, hcovered⟩
    have htrim := trim_of_trimStart hu
    refine ⟨⟨u, hu.symm⟩, ?_⟩
    rwa [of?_eq_none_iff_of_opening htrim, covered_trimEnd_iff]

/-- A text has an outline exactly when it can be parted, which it can in one way at most, and
the parts say what the outline is. Of the texts that begin like a function type just those
have none that never close the first parenthesis. -/
theorem of?_grammar (t : Text) :
    ((∃ o, of? t = some o) ↔ ∃ params rest, Parts t params rest) ∧
      (∀ params rest, Parts t params rest →
        (∀ params' rest', Parts t params' rest' → params' = params ∧ rest' = rest) ∧
          ∀ o, of? t = some o →
            o.whole = trim t ∧ o.params = trim params ∧
              (o.results = .none ↔ trim rest = []) ∧
              (∀ x, o.results = .list x ↔ ∃ inside,
                trim rest = '(' :: inside ++ [')'] ∧ Balanced '(' ')' inside ∧ x = trim inside) ∧
              (∀ x, o.results = .single x ↔
                x = trim rest ∧ trim rest ≠ [] ∧ ¬ ∃ inside,
                  trim rest = '(' :: inside ++ [')'] ∧ Balanced '(' ')' inside)) ∧
      ((startsFunc t ∧ of? t = none) ↔
        ∃ u, trimStart t = opening ++ u ∧ ∀ p, p <+: u → p.count ')' ≤ p.count '(') := by
  refine ⟨exists_outline_iff, fun params rest h => ⟨fun _ _ h' => h.unique h', ?_⟩, ?_⟩
  · intro o ho
    rw [h.outline_eq ho]
    exact ⟨rfl, rfl, resultText_eq_none_iff, fun _ => resultText_eq_list_iff,
      fun _ => resultText_eq_single_iff⟩
  · rw [startsFunc_and_none_iff]
    simp only [covered_iff, Nat.zero_add]

end Outline
end CompletionSnippets
