import CompletionSnippets.Proofs.Joining
import CompletionSnippets.Proofs.Nesting.Scanning
import CompletionSnippets.Proofs.Trimming

/-!
# Pieces of a split

A split leaves pieces that are trimmed, show no separator at top level, and leave no
bracket open, the last one excepted. Nothing else is asked of them: a piece may be empty
and may hold closers that close nothing. Only a single empty piece is never left.

Such texts, joined by a comma and any blanks, are cut again where they were joined. So the
blanks around the commas of a list may change and its entries stay what they are. Where the
parentheses of the whole are balanced, they are so in every piece.
-/
namespace CompletionSnippets.Text

theorem step_of_isBlank {c : Char} (hc : isBlank c) (d : Depth) : d.step c = d := by
  unfold Depth.step
  split
  · contradiction
  · contradiction
  · contradiction
  · contradiction
  · rfl

theorem after_of_isAllBlank {b : Text} (hb : b.isAllBlank) (d : Depth) : d.after b = d := by
  induction b with
  | nil => rfl
  | cons c b ih =>
    obtain ⟨hc, hb⟩ := Bool.and_eq_true_iff.mp hb
    rw [Depth.after_cons, step_of_isBlank hc, ih hb]

theorem Depth.after_append (d : Depth) (s t : Text) : d.after (s ++ t) = (d.after s).after t :=
  List.foldl_append

theorem Depth.isTop_iff_eq {d : Depth} : d.isTop ↔ d = {} := by
  cases d
  simp [Depth.isTop]

theorem balanced_of_isAllBlank {b : Text} (hb : b.isAllBlank) : Balanced '(' ')' b := by
  have hmem : ∀ c, isBlank c = false → c ∉ b := fun c hc hmem => by
    rw [List.all_eq_true.mp hb c hmem] at hc
    contradiction
  exact balanced_of_not_mem (hmem _ rfl) (hmem _ rfl)

section Padding
variable {stop : Char → Bool} {d : Depth}

theorem unbroken_of_isAllBlank {b : Text} (hb : b.isAllBlank)
    (hstop : ∀ c, isBlank c → stop c = false) : Unbroken stop d b := by
  apply unbroken_of_forall
  rintro p c r rfl hc
  have hblank : isBlank c := List.all_eq_true.mp hb c (by simp)
  rw [hstop c hblank] at hc
  contradiction

theorem after_trim (t : Text) : d.after (trim t) = d.after t := by
  obtain ⟨b, a, hb, ha, ht⟩ := exists_pad t
  conv_rhs => rw [ht]
  rw [Depth.after_append, Depth.after_append, after_of_isAllBlank hb, after_of_isAllBlank ha]

theorem Unbroken.trim {t : Text} (h : Unbroken stop d t) : Unbroken stop d (trim t) := by
  obtain ⟨b, a, hb, ha, ht⟩ := exists_pad t
  rw [ht, unbroken_append, unbroken_append, after_of_isAllBlank hb] at h
  exact h.1.2

theorem balanced_trim_iff {t : Text} : Balanced '(' ')' (trim t) ↔ Balanced '(' ')' t := by
  obtain ⟨b, a, hb, ha, ht⟩ := exists_pad t
  conv_rhs => rw [ht]
  rw [(balanced_of_isAllBlank ha).append_right_iff, (balanced_of_isAllBlank hb).append_left_iff]

end Padding

/-- The texts may be what a split at the separator leaves. -/
structure Pieces (sep : Char) (ts : List Text) : Prop where
  trimmed : ∀ t ∈ ts, trim t = t
  unbroken : ∀ t ∈ ts, Unbroken (· == sep) {} t
  /-- A piece that a separator follows leaves nothing open. -/
  shut : ∀ t ∈ ts.dropLast, Depth.after {} t = {}
  ne_blank : ts ≠ [[]]

/-- The scan stands behind the current segment, in which it has met no separator. -/
theorem segments_shut (sep : Char) (current t : Text)
    (h : Unbroken (· == sep) {} current.reverse) :
    (∀ s ∈ segments sep (Depth.after {} current.reverse) current t,
        Unbroken (· == sep) {} s) ∧
      ∀ s ∈ (segments sep (Depth.after {} current.reverse) current t).dropLast,
        Depth.after {} s = {} := by
  induction t generalizing current with
  | nil => simpa [segments] using h
  | cons c t ih =>
    rw [segments]
    split
    · rename_i hc
      obtain ⟨-, htop⟩ := Bool.and_eq_true_iff.mp hc
      rw [Depth.isTop_iff_eq] at htop
      have hrest := ih [] trivial
      rw [List.reverse_nil, Depth.after_nil] at hrest
      rw [htop, List.dropLast_cons_of_ne_nil (segments_ne_nil sep _ _ _), List.forall_mem_cons,
        List.forall_mem_cons]
      exact ⟨⟨h, hrest.1⟩, htop, hrest.2⟩
    · rename_i hc
      have hlonger : Unbroken (· == sep) {} (c :: current).reverse := by
        rw [List.reverse_cons, unbroken_append]
        refine ⟨h, fun hsep => ?_, trivial⟩
        simpa [hsep] using hc
      have hrest := ih (c :: current) hlonger
      rwa [List.reverse_cons, Depth.after_append] at hrest

theorem pieces_splitTopLevel (sep : Char) (t : Text) : Pieces sep (splitTopLevel sep t) := by
  unfold splitTopLevel
  split
  · exact ⟨by simp, by simp, by simp, by simp⟩
  rename_i hblank
  obtain ⟨hunbroken, hshut⟩ := segments_shut sep [] t trivial
  refine ⟨?_, ?_, ?_, ?_⟩
  · intro x hx
    obtain ⟨s, -, rfl⟩ := List.mem_map.mp hx
    exact trim_trim s
  · intro x hx
    obtain ⟨s, hs, rfl⟩ := List.mem_map.mp hx
    exact (hunbroken s hs).trim
  · intro x hx
    rw [← List.map_dropLast] at hx
    obtain ⟨s, hs, rfl⟩ := List.mem_map.mp hx
    rw [after_trim, hshut s hs]
  · intro hx
    obtain ⟨s, hs, htrim⟩ := List.map_eq_singleton_iff.mp hx
    obtain ⟨-, rfl⟩ := segments_eq_singleton_iff.mp hs
    exact hblank (isAllBlank_iff_trim.mpr htrim)

/-- Pieces stay pieces when what a scan sees of them stays. -/
theorem Pieces.map {sep : Char} {ts : List Text} (h : Pieces sep ts) {f : Text → Text}
    (htrim : ∀ t ∈ ts, Text.trim (f t) = f t)
    (hscan : ∀ t ∈ ts, Unbroken (· == sep) {} (f t) ∧ Depth.after {} (f t) = Depth.after {} t)
    (hne : ∀ t ∈ ts, f t = [] → t = []) : Pieces sep (ts.map f) where
  trimmed := List.forall_mem_map.mpr htrim
  unbroken := List.forall_mem_map.mpr fun t ht => (hscan t ht).1
  shut := by
    rw [← List.map_dropLast]
    refine List.forall_mem_map.mpr fun t ht => ?_
    rw [(hscan t (List.dropLast_subset ts ht)).2, h.shut t ht]
  ne_blank := by
    intro hmap
    obtain ⟨t, rfl, ht⟩ := List.map_eq_singleton_iff.mp hmap
    rw [hne t List.mem_cons_self ht] at h
    exact h.ne_blank rfl

/-- The current segment and what is left of the text are balanced together, so at a top
level separator either of them is. -/
theorem balanced_of_mem_segments (current t : Text) (h : Balanced '(' ')' (current.reverse ++ t)) :
    ∀ s ∈ segments ',' (Depth.after {} current.reverse) current t, Balanced '(' ')' s := by
  induction t generalizing current with
  | nil => simpa [segments] using h
  | cons c t ih =>
    rw [segments]
    split
    · rename_i hc
      obtain ⟨hcomma, htop⟩ := Bool.and_eq_true_iff.mp hc
      rw [beq_iff_eq] at hcomma
      subst hcomma
      have hlevel : level '(' ')' 0 current.reverse = 0 := by
        have hp := (Depth.isTop_iff.mp htop).1
        rwa [Depth.after_parens] at hp
      have hcovered := h.1.of_isPrefix (List.prefix_append current.reverse (',' :: t))
      have hcurrent := hcovered.balanced_of_level (by decide) hlevel
      have hcomma : Balanced '(' ')' [','] := by decide
      rw [hcurrent.append_left_iff, ← List.singleton_append, hcomma.append_left_iff] at h
      have hrest := ih [] h
      rw [Depth.isTop_iff_eq.mp htop, List.forall_mem_cons]
      exact ⟨hcurrent, hrest⟩
    · have hrest := ih (c :: current) (by simpa using h)
      rwa [List.reverse_cons, Depth.after_append] at hrest

theorem balanced_of_mem_splitTopLevel {t x : Text} (h : Balanced '(' ')' t)
    (hx : x ∈ splitTopLevel ',' t) : Balanced '(' ')' x := by
  unfold splitTopLevel at hx
  split at hx
  · contradiction
  · obtain ⟨s, hs, rfl⟩ := List.mem_map.mp hx
    rw [balanced_trim_iff]
    exact balanced_of_mem_segments [] t h s hs

theorem comma_ne_blank (c : Char) (hc : isBlank c) : (c == ',') = false := by
  rw [beq_eq_false_iff_ne]
  rintro rfl
  contradiction

/-- The segments of a joined text: all but the first keep the blanks before them. -/
theorem segments_joinWith {gap t : Text} {ts : List Text} (hgap : gap.isAllBlank)
    (hunbroken : ∀ x ∈ t :: ts, Unbroken (· == ',') {} x)
    (hshut : ∀ x ∈ (t :: ts).dropLast, Depth.after {} x = {}) (current : Text) :
    segments ',' {} current (joinWith (',' :: gap) (t :: ts)) =
      (current.reverse ++ t) :: ts.map (gap ++ ·) := by
  induction ts generalizing t current with
  | nil =>
    have ht := hunbroken t List.mem_cons_self
    rw [joinWith_singleton]
    exact segments_eq_singleton_iff.mpr ⟨ht, rfl⟩
  | cons u ts ih =>
    have ht := hunbroken t List.mem_cons_self
    rw [List.dropLast_cons_of_ne_nil (by simp), List.forall_mem_cons] at hshut
    have hpass := unbroken_of_isAllBlank (d := {}) hgap comma_ne_blank
    have hrest := ih (fun x hx => hunbroken x (List.mem_cons_of_mem _ hx)) hshut.2 gap.reverse
    have hcut : segments ',' {} (t.reverse ++ current)
        (',' :: gap ++ joinWith (',' :: gap) (u :: ts)) =
        (t.reverse ++ current).reverse ::
          segments ',' {} [] (gap ++ joinWith (',' :: gap) (u :: ts)) := rfl
    rw [joinWith_cons_cons, segments_append ht, hshut.1, hcut, segments_append hpass,
      after_of_isAllBlank hgap, List.append_nil, hrest]
    simp

theorem mem_joinWith {c : Char} {gap t u : Text} {ts : List Text} :
    c ∈ joinWith (c :: gap) (t :: u :: ts) := by
  rw [joinWith_cons_cons]
  simp

/-- Pieces are found again behind commas and blanks. -/
theorem Pieces.splitTopLevel_joinWith (gap : Text) {ts : List Text} (h : Pieces ',' ts)
    (hgap : gap.isAllBlank) : splitTopLevel ',' (joinWith (',' :: gap) ts) = ts := by
  match ts with
  | [] => rfl
  | t :: ts =>
    have hblank : ¬ (joinWith (',' :: gap) (t :: ts)).isAllBlank := by
      cases ts with
      | nil =>
        have hne : t ≠ [] := by
          rintro rfl
          exact h.ne_blank rfl
        rwa [joinWith_singleton, isAllBlank_iff_trim, h.trimmed t List.mem_cons_self]
      | cons u ts =>
        intro hall
        have hcomma := List.all_eq_true.mp hall ',' mem_joinWith
        contradiction
    have hmap : ts.map (trim ∘ (gap ++ ·)) = ts := by
      refine (List.map_congr_left fun u hu => ?_).trans (List.map_id ts)
      rw [Function.comp_apply, trim_append_of_isAllBlank hgap,
        h.trimmed u (List.mem_cons_of_mem _ hu)]
      rfl
    rw [splitTopLevel, if_neg hblank, segments_joinWith hgap h.unbroken h.shut, List.reverse_nil,
      List.nil_append, List.map_cons, List.map_map, h.trimmed t List.mem_cons_self, hmap]

theorem map_trim_segments_pad_left {b : Text} (hb : b.isAllBlank) (d : Depth) (current t : Text) :
    (segments ',' d (current ++ b.reverse) t).map trim = (segments ',' d current t).map trim := by
  induction t generalizing d current with
  | nil => simp [segments, trim_append_of_isAllBlank hb]
  | cons c t ih =>
    rw [segments, segments]
    split
    · simp [trim_append_of_isAllBlank hb]
    · exact ih (d.step c) (c :: current)

theorem map_trim_segments_pad_right {a : Text} (ha : a.isAllBlank) (d : Depth) (current t : Text) :
    (segments ',' d current (t ++ a)).map trim = (segments ',' d current t).map trim := by
  induction t generalizing d current with
  | nil =>
    have hone : segments ',' d current a = [current.reverse ++ a] :=
      segments_eq_singleton_iff.mpr ⟨unbroken_of_isAllBlank ha comma_ne_blank, rfl⟩
    rw [List.nil_append, hone]
    simp [segments, trim_append_blanks ha]
  | cons c t ih =>
    rw [List.cons_append, segments, segments]
    split
    · rw [List.map_cons, List.map_cons, ih]
    · exact ih (d.step c) (c :: current)

theorem splitTopLevel_trim (t : Text) : splitTopLevel ',' (trim t) = splitTopLevel ',' t := by
  have hblank : (trim t).isAllBlank = t.isAllBlank := by
    rw [Bool.eq_iff_iff, isAllBlank_iff_trim, isAllBlank_iff_trim, trim_trim]
  obtain ⟨b, a, hb, ha, ht⟩ := exists_pad t
  have hunbroken := unbroken_of_isAllBlank (d := {}) hb comma_ne_blank
  have hpass := segments_append hunbroken [] (trim t ++ a)
  have hmap : (segments ',' {} [] t).map trim = (segments ',' {} [] (trim t)).map trim := by
    conv_lhs => rw [ht, List.append_assoc]
    have hleft := map_trim_segments_pad_left hb {} [] (trim t ++ a)
    rw [hpass, after_of_isAllBlank hb, List.append_nil]
    rw [List.nil_append] at hleft
    rw [hleft, map_trim_segments_pad_right ha]
  rw [splitTopLevel, splitTopLevel, hblank, hmap]

end CompletionSnippets.Text
