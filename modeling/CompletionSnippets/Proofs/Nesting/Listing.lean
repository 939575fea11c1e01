import CompletionSnippets.Proofs.Nesting.Pieces

/-!
# Lists and their entries

An entry may stand in a list when it is not empty, trimmed and closed, and holds no
comma at top level. Such entries, joined by a comma and a space, are the pieces into
which the joined text is cut again.
-/
namespace CompletionSnippets.Text

/-- The text may stand as an entry in a comma separated list. -/
structure Listable (t : Text) : Prop where
  ne_nil : t ≠ []
  trimmed : trim t = t
  closed : Closed t
  unbroken : Unbroken (· == ',') {} t

theorem Closed.unbroken_parenthesize {stop : Char → Bool} {t : Text} (h : Closed t)
    (ho : stop '(' = false) (hc : stop ')' = false) : Unbroken stop {} ('(' :: t ++ [')']) := by
  rw [List.cons_append]
  refine ⟨by simp [ho], ?_⟩
  rw [unbroken_append]
  exact ⟨h.unbroken_inside rfl, by simp [Unbroken, hc]⟩

theorem closed_joinWith {ts : List Text} (h : ∀ t ∈ ts, Closed t) :
    Closed (joinWith commaSpace ts) := by
  induction ts with
  | nil => exact closed_of_no_brackets (by simp [joinWith])
  | cons t ts ih =>
    cases ts with
    | nil =>
      rw [joinWith_singleton]
      exact h t (by simp)
    | cons u ts =>
      have hsep : Closed commaSpace := by decide
      rw [joinWith_cons_cons]
      exact (h t (by simp)).append (hsep.append (ih fun x hx => h x (by simp [hx])))

theorem joinWith_ne_nil {sep t : Text} {ts : List Text} (h : t ≠ []) :
    joinWith sep (t :: ts) ≠ [] := by
  cases ts with
  | nil => rwa [joinWith_singleton]
  | cons u ts =>
    rw [joinWith_cons_cons]
    exact List.append_ne_nil_of_left_ne_nil h _

theorem trim_joinWith {ts : List Text} (h : ∀ t ∈ ts, Listable t) :
    trim (joinWith commaSpace ts) = joinWith commaSpace ts := by
  induction ts with
  | nil => rfl
  | cons t ts ih =>
    have ht := h t (by simp)
    cases ts with
    | nil => rw [joinWith_singleton, ht.trimmed]
    | cons u ts =>
      have hu := h u (by simp)
      have hrest := ih fun x hx => h x (by simp [hx])
      rw [joinWith_cons_cons, trim_eq_self_iff]
      constructor
      · exact trimStart_append ht.ne_nil (trim_eq_self_iff.mp ht.trimmed).1 _
      · rw [← List.append_assoc]
        exact trimEnd_append (joinWith_ne_nil hu.ne_nil) (trim_eq_self_iff.mp hrest).2 _

theorem pieces_of_listable {ts : List Text} (h : ∀ t ∈ ts, Listable t) : Pieces ',' ts where
  trimmed t ht := (h t ht).trimmed
  unbroken t ht := (h t ht).unbroken
  shut t ht := (h t (List.dropLast_subset ts ht)).closed.after_eq {}
  ne_blank := by
    rintro rfl
    exact (h [] List.mem_cons_self).ne_nil rfl

/-- The pieces of a joined text are the entries that were joined. -/
theorem splitTopLevel_joinWith {ts : List Text} (h : ∀ t ∈ ts, Listable t) :
    splitTopLevel ',' (joinWith commaSpace ts) = ts :=
  (pieces_of_listable h).splitTopLevel_joinWith [' '] rfl

end CompletionSnippets.Text
