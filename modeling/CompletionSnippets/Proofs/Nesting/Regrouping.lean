import CompletionSnippets.Proofs.Nesting.Cuts

/-!
# Regrouping fragments

A list may have been cut at commas that stand inside its entries. Whatever commas it was
cut at, all of them, some or none, the fragments joined again are the list as it was, so
regrouping them gives its pieces at top level.

The pieces that regrouping leaves are found again when they are regrouped. They have lost
the blanks around them, and a single empty piece is never left, so that joining them gives
another text but no other pieces.
-/
namespace CompletionSnippets.Text

/-- All places of a character in the text, in their order. -/
def placesOf (c : Char) (t : Text) : List Nat :=
  (List.range t.length).filter fun i => t[i]? = some c

section Cut
variable {sep : Char} {t : Text} {places : List Nat} {start i : Nat}

theorem getElem?_of_mem_placesOf (h : i ∈ placesOf sep t) : t[i]? = some sep := by
  simpa using (List.mem_filter.mp h).2

theorem placesOf_pairwise (sep : Char) (t : Text) : (placesOf sep t).Pairwise (· < ·) :=
  List.pairwise_lt_range.filter _

/-- Cutting at places of the separator, whichever they are, loses nothing else. -/
theorem joinWith_cutAt (hordered : places.Pairwise (· < ·))
    (hplaces : ∀ i ∈ places, start ≤ i ∧ t[i]? = some sep) :
    joinWith [sep] (cutAt start places t) = t.drop start := by
  induction places generalizing start with
  | nil => exact joinWith_singleton _ _
  | cons i places ih =>
    obtain ⟨hlater, hrest⟩ := List.pairwise_cons.mp hordered
    obtain ⟨⟨hstart, hi⟩, hplaces⟩ := List.forall_mem_cons.mp hplaces
    have hbehind : ∀ k ∈ places, i + 1 ≤ k ∧ t[k]? = some sep := by
      intro k hk
      exact ⟨hlater k hk, (hplaces k hk).2⟩
    have hne : cutAt (i + 1) places t ≠ [] := by
      rw [← List.length_pos_iff, length_cutAt]
      omega
    rw [cutAt, joinWith, List.intercalate_cons_of_ne_nil hne, ← joinWith, ih hrest hbehind,
      drop_eq_append_cons hstart hi, List.append_assoc, List.singleton_append]

theorem joinWith_cutAt_of_sublist (h : places.Sublist (placesOf sep t)) :
    joinWith [sep] (cutAt 0 places t) = t := by
  have hordered := (placesOf_pairwise sep t).sublist h
  have hplaces : ∀ i ∈ places, 0 ≤ i ∧ t[i]? = some sep := by
    intro i hi
    exact ⟨Nat.zero_le i, getElem?_of_mem_placesOf (h.subset hi)⟩
  rw [joinWith_cutAt hordered hplaces, List.drop_zero]

end Cut

/-- The pieces of a text are found from its fragments, at whichever of its commas it was
cut, and regrouping any fragments a second time changes nothing. -/
theorem regroup_fragments {t : Text} {places : List Nat}
    (h : places.Sublist (placesOf ',' t)) (fragments : List Text) :
    regroup (cutAt 0 places t) = splitTopLevel ',' t ∧
      regroup (regroup fragments) = regroup fragments := by
  constructor
  · rw [regroup, joinWith_cutAt_of_sublist h]
  · have hpieces := pieces_splitTopLevel ',' (joinWith [','] fragments)
    exact hpieces.splitTopLevel_joinWith [] rfl

/-- The text `crossed`, cut inside its brackets and at one of its other commas; and fragments
with brackets that nothing matches, an empty one and blanks. -/
theorem regroup_fragments_crossed :
    [9, 21].Sublist (placesOf ',' crossed) ∧
      cutAt 0 [9, 21] crossed =
        ["\x7da) , f(b".toList, " \x7bc),x\x7d, d ".toList, ",e".toList] ∧
      regroup (cutAt 0 [9, 21] crossed) = splitTopLevel ',' crossed ∧
      regroup [") ".toList, [], "\u3000(".toList, ['x']] = [[')'], [], "(,x".toList] ∧
      regroup (regroup [") ".toList, [], "\u3000(".toList, ['x']]) =
        regroup [") ".toList, [], "\u3000(".toList, ['x']] := by
  have hplaces : [9, 21].Sublist (placesOf ',' crossed) := by decide
  obtain ⟨hcut, hagain⟩ := regroup_fragments hplaces [") ".toList, [], "\u3000(".toList, ['x']]
  exact ⟨hplaces, by decide, hcut, by decide, hagain⟩

end CompletionSnippets.Text
