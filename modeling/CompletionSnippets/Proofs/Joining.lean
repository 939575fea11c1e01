import CompletionSnippets.Text

/-!
# Joined lists

Lists joined by a separator, for texts as well as for the parts of templates. What is
computed from a list piece by piece is computed from a joined list part by part.
-/
namespace CompletionSnippets
variable {α β : Type}

theorem mem_of_mem_intercalate {sep : List α} {parts : List (List α)} {a : α}
    (h : a ∈ sep.intercalate parts) : a ∈ sep ∨ ∃ part ∈ parts, a ∈ part := by
  induction parts with
  | nil => cases h
  | cons part parts ih =>
    by_cases hne : parts = []
    · subst hne
      rw [List.intercalate_singleton] at h
      exact .inr ⟨part, List.mem_cons_self, h⟩
    · rw [List.intercalate_cons_of_ne_nil hne, List.mem_append, List.mem_append] at h
      obtain (hpart | hsep) | hrest := h
      · exact .inr ⟨part, List.mem_cons_self, hpart⟩
      · exact .inl hsep
      · obtain hsep | ⟨p, hp, ha⟩ := ih hrest
        · exact .inl hsep
        · exact .inr ⟨p, List.mem_cons_of_mem _ hp, ha⟩

theorem mem_intercalate_of_mem (sep : List α) {part : List α} {parts : List (List α)} {a : α}
    (h : part ∈ parts) (ha : a ∈ part) : a ∈ sep.intercalate parts := by
  induction parts with
  | nil => cases h
  | cons p parts ih =>
    by_cases hne : parts = []
    · subst hne
      rw [List.intercalate_singleton, ← List.mem_singleton.mp h]
      exact ha
    · rw [List.intercalate_cons_of_ne_nil hne, List.mem_append, List.mem_append]
      cases h with
      | head => exact .inl (.inl ha)
      | tail _ hrest => exact .inr (ih hrest)

theorem intercalate_of_append {f : List α → List β} (hnil : f [] = [])
    (happend : ∀ a b, f (a ++ b) = f a ++ f b) (sep : List α) (parts : List (List α)) :
    f (sep.intercalate parts) = (f sep).intercalate (parts.map f) := by
  induction parts with
  | nil => exact hnil
  | cons part parts ih =>
    by_cases hne : parts = []
    · subst hne
      rw [List.map_singleton, List.intercalate_singleton, List.intercalate_singleton]
    · have hmap : parts.map f ≠ [] := by rwa [Ne, List.map_eq_nil_iff]
      rw [List.intercalate_cons_of_ne_nil hne, happend, happend, ih, List.map_cons,
        List.intercalate_cons_of_ne_nil hmap]

theorem intercalate_nil_eq_flatten (parts : List (List α)) :
    List.intercalate [] parts = parts.flatten := by
  induction parts with
  | nil => rfl
  | cons part parts ih =>
    by_cases hne : parts = []
    · simp [hne]
    · rw [List.intercalate_cons_of_ne_nil hne, List.append_nil, ih, List.flatten_cons]

namespace Text

theorem joinWith_singleton (sep t : Text) : joinWith sep [t] = t := List.intercalate_singleton

theorem joinWith_cons_cons (sep t u : Text) (ts : List Text) :
    joinWith sep (t :: u :: ts) = t ++ (sep ++ joinWith sep (u :: ts)) := by
  rw [joinWith, List.intercalate_cons_cons, List.append_assoc]
  rfl

end Text
end CompletionSnippets
