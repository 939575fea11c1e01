import CompletionSnippets.Proofs.Nesting.Enclosure
import CompletionSnippets.Proofs.Nesting.Pieces

/-!
# Where a text is cut

A split cuts a text at its separators that stand outside brackets, and nowhere else. The
places are found without a scan: a place stands inside brackets when some end of the text
before it opens more than it closes, in one of the two families. The segments between the
places, joined again, are the text, and the pieces of the split are these segments trimmed,
one more than there are places.

The separator must not itself open a bracket, since one that cuts is not counted. A closer
with nothing to close is no bracket to what follows, so it changes no later place.
-/
namespace CompletionSnippets.Text

/-- The text is cut at the place: the separator stands there, outside brackets. -/
def CutPlace (sep : Char) (t : Text) (i : Nat) : Prop :=
  t[i]? = some sep ∧ ¬ Encloses (t.take i)

instance (sep : Char) (t : Text) : DecidablePred (CutPlace sep t) :=
  fun _ => inferInstanceAs (Decidable (_ ∧ _))

/-- All places where the text is cut, in their order. -/
def cutPlaces (sep : Char) (t : Text) : List Nat :=
  (List.range t.length).filter (CutPlace sep t)

theorem mem_cutPlaces {sep : Char} {t : Text} {i : Nat} :
    i ∈ cutPlaces sep t ↔ CutPlace sep t i := by
  rw [cutPlaces, List.mem_filter, List.mem_range, decide_eq_true_iff, and_iff_right_iff_imp]
  intro h
  exact (List.getElem?_eq_some_iff.mp h.1).1

theorem cutPlaces_pairwise (sep : Char) (t : Text) : (cutPlaces sep t).Pairwise (· < ·) :=
  List.pairwise_lt_range.filter _

/-- What stands in the text from `start` on between the given places; the characters at the
places are left out. -/
def cutAt (start : Nat) (places : List Nat) (t : Text) : List Text :=
  match places with
  | [] => [t.drop start]
  | i :: places => (t.take i).drop start :: cutAt (i + 1) places t

theorem length_cutAt (start : Nat) (places : List Nat) (t : Text) :
    (cutAt start places t).length = places.length + 1 := by
  induction places generalizing start with
  | nil => rfl
  | cons i places ih => rw [cutAt, List.length_cons, List.length_cons, ih]

theorem drop_eq_append_cons {c : Char} {t : Text} {start i : Nat} (hstart : start ≤ i)
    (hi : t[i]? = some c) : t.drop start = (t.take i).drop start ++ c :: t.drop (i + 1) := by
  obtain ⟨hlt, hc⟩ := List.getElem?_eq_some_iff.mp hi
  have hwhole : t = t.take i ++ c :: t.drop (i + 1) := by
    rw [← hc, List.getElem_cons_drop, List.take_append_drop]
  have hlength : start ≤ (t.take i).length := by
    rw [List.length_take]
    omega
  conv_lhs => rw [hwhole]
  exact List.drop_append_of_le_length hlength

theorem cutPlace_append_cons {sep c : Char} {done t : Text} :
    CutPlace sep (done ++ c :: t) done.length ↔ c = sep ∧ ¬ Encloses done := by
  rw [CutPlace, List.getElem?_append_right (Nat.le_refl _), List.take_left]
  simp

/-- The scan stands behind `done`, whose last cut was before `start`. -/
theorem segments_eq_cutAt {sep : Char} (hsep : Depth.step {} sep = {}) (done t : Text)
    {start : Nat} (hstart : start ≤ done.length) :
    segments sep (Depth.after {} done) (done.drop start).reverse t =
      cutAt start ((List.range' done.length t.length).filter (CutPlace sep (done ++ t)))
        (done ++ t) := by
  induction t generalizing done start with
  | nil => simp [segments, cutAt]
  | cons c t ih =>
    have hnext : ∀ {start}, start ≤ done.length + 1 →
        segments sep ((Depth.after {} done).step c) ((done ++ [c]).drop start).reverse t =
          cutAt start ((List.range' (done.length + 1) t.length).filter
            (CutPlace sep (done ++ c :: t))) (done ++ c :: t) := by
      simpa [Depth.after_append] using @ih (done ++ [c])
    rw [segments, List.length_cons, List.range'_succ, List.filter_cons]
    by_cases hcut : c = sep ∧ ¬ Encloses done
    · have htop : (Depth.after {} done).isTop := isTop_after_iff.mpr hcut.2
      have hplace : CutPlace sep (done ++ c :: t) done.length := cutPlace_append_cons.mpr hcut
      have hrest := hnext (Nat.le_refl _)
      rw [Depth.isTop_iff_eq.mp htop, hcut.1, hsep] at hrest
      rw [if_pos (by simp [hcut.1, htop]), if_pos (by simpa using hplace), cutAt, List.take_left,
        List.reverse_reverse, Depth.isTop_iff_eq.mp htop, hcut.1, ← hrest]
      simp
    · have hplace : ¬ CutPlace sep (done ++ c :: t) done.length :=
        fun h => hcut (cutPlace_append_cons.mp h)
      have hpass : ¬ (c == sep && (Depth.after {} done).isTop) = true := by
        rw [Bool.and_eq_true, beq_iff_eq, isTop_after_iff]
        exact hcut
      have hrest := hnext (Nat.le_succ_of_le hstart)
      rw [List.drop_append_of_le_length hstart, List.reverse_append] at hrest
      rw [if_neg hpass, if_neg (by simpa using hplace), ← hrest]
      rfl

/-- A separator that is no bracket cuts at its places outside brackets. -/
theorem segments_eq {sep : Char} (hsep : Depth.step {} sep = {}) (t : Text) :
    segments sep {} [] t = cutAt 0 (cutPlaces sep t) t := by
  have h := segments_eq_cutAt hsep [] t (Nat.le_refl 0)
  rwa [List.length_nil, ← List.range_eq_range'] at h

theorem step_of_not_bracket {c : Char} (hc : c ∉ ['(', ')', '{', '}']) (d : Depth) :
    d.step c = d := by
  simp only [List.mem_cons, List.not_mem_nil, or_false, not_or] at hc
  simp [Depth.step, hc]

/-- The character is a closer and no opener of its family is open behind the text. -/
def Stray (closer : Char) (before : Text) : Prop :=
  closer = ')' ∧ ¬ LeavesOpen '(' ')' before ∨ closer = '}' ∧ ¬ LeavesOpen '{' '}' before

theorem Depth.step_closeParen {d : Depth} (h : d.parens = 0) : d.step ')' = d := by
  cases d
  cases h
  rfl

theorem Depth.step_closeBrace {d : Depth} (h : d.braces = 0) : d.step '}' = d := by
  cases d
  cases h
  rfl

theorem Stray.step_after {closer : Char} {before : Text} (h : Stray closer before) :
    (Depth.after {} before).step closer = Depth.after {} before := by
  rcases h with ⟨rfl, hopen⟩ | ⟨rfl, hopen⟩
  · rw [leavesOpen_iff (by decide), not_not, ← Depth.after_parens {} before] at hopen
    exact Depth.step_closeParen hopen
  · rw [leavesOpen_iff (by decide), not_not, ← Depth.after_braces {} before] at hopen
    exact Depth.step_closeBrace hopen

theorem Stray.encloses_iff {closer : Char} {before : Text} (h : Stray closer before)
    (behind : Text) : Encloses (before ++ closer :: behind) ↔ Encloses (before ++ behind) := by
  have hafter : Depth.after {} (before ++ closer :: behind) =
      Depth.after {} (before ++ behind) := by
    rw [Depth.after_append, Depth.after_cons, h.step_after, Depth.after_append]
  rw [← not_iff_not, ← isTop_after_iff, ← isTop_after_iff, hafter]

/-- The segments between the places of a separator outside brackets make up the text, there
is one more of them than there are places, and unless the text is blank they are, trimmed,
the pieces of its split. Stray closers move no place in or out of brackets. -/
theorem splitTopLevel_cuts {sep : Char} (hsep : sep ∉ ['(', ')', '{', '}']) (t : Text) :
    joinWith [sep] (cutAt 0 (cutPlaces sep t) t) = t ∧
      (cutAt 0 (cutPlaces sep t) t).length = (cutPlaces sep t).length + 1 ∧
      (t.isAllBlank → splitTopLevel sep t = []) ∧
      (¬ t.isAllBlank → splitTopLevel sep t = (cutAt 0 (cutPlaces sep t) t).map trim) ∧
      ∀ before closer behind, Stray closer before →
        (Encloses (before ++ closer :: behind) ↔ Encloses (before ++ behind)) := by
  have hsegments := segments_eq (step_of_not_bracket hsep {}) t
  refine ⟨?_, length_cutAt 0 _ t, fun hblank => ?_, fun hblank => ?_,
    fun _ _ behind h => h.encloses_iff behind⟩
  · rw [← hsegments, joinWith_segments, List.reverse_nil, List.nil_append]
  · rw [splitTopLevel, if_pos hblank]
  · rw [splitTopLevel, if_neg hblank, hsegments]

/-- `}a) , f(b, {c),x}, d ,,e`: a stray closer of either kind, then a brace that encloses a
comma behind the parenthesis that closes, and an empty piece. -/
def crossed : Text := "\x7da) , f(b, \x7bc),x\x7d, d ,,e".toList

theorem splitTopLevel_cuts_crossed :
    ',' ∉ ['(', ')', '{', '}'] ∧ cutPlaces ',' crossed = [4, 17, 21, 22] ∧
      splitTopLevel ',' crossed =
        ["\x7da)".toList, "f(b, \x7bc),x\x7d".toList, ['d'], [], ['e']] ∧
      joinWith [','] (cutAt 0 (cutPlaces ',' crossed) crossed) = crossed ∧
      (cutAt 0 (cutPlaces ',' crossed) crossed).length = (cutPlaces ',' crossed).length + 1 ∧
      (crossed.isAllBlank → splitTopLevel ',' crossed = []) ∧
      (¬ crossed.isAllBlank →
        splitTopLevel ',' crossed = (cutAt 0 (cutPlaces ',' crossed) crossed).map trim) ∧
      ∀ before closer behind, Stray closer before →
        (Encloses (before ++ closer :: behind) ↔ Encloses (before ++ behind)) := by
  have hsep : ',' ∉ ['(', ')', '{', '}'] := by decide
  exact ⟨hsep, by decide +kernel, by decide, splitTopLevel_cuts hsep crossed⟩

end CompletionSnippets.Text
