import CompletionSnippets.Proofs.Nesting.Matching
import CompletionSnippets.Proofs.Slices

/-!
# Splitting by byte offsets

The split and the search for the first blank can be done with offsets: a scan goes over the
characters of the text with the offset of each, remembers where the current piece started, and
takes slices of the text. Every slice it asks for is there, and it is the piece or the part that
is found without offsets.

The offset of the first blank is the length of what stands before it, and what stands before it
has no unmatched opener: no bracket of either family that nothing behind it closes.
-/
namespace CompletionSnippets.Text

/-- The text has an opener behind which its family closes no more than it opens. -/
def HasUnmatchedOpener (t : Text) : Prop :=
  ∃ (b : Bracket) (before behind : Text), t = before ++ b.opener :: behind ∧
    Covered b.opener b.closer 0 behind

theorem leavesOpen_cons {opener closer c : Char} {t : Text} :
    LeavesOpen opener closer (c :: t) ↔
      (c :: t).count closer < (c :: t).count opener ∨ LeavesOpen opener closer t := by
  simp only [LeavesOpen, List.tails_cons, List.mem_cons, exists_eq_or_imp]

theorem leavesOpen_iff_exists {opener closer : Char} (hne : opener ≠ closer) {t : Text} :
    LeavesOpen opener closer t ↔
      ∃ before behind, t = before ++ opener :: behind ∧ Covered opener closer 0 behind := by
  constructor
  · intro h
    induction t with
    | nil =>
      obtain ⟨q, hq, hcount⟩ := h
      rw [List.mem_tails, List.suffix_nil] at hq
      subst hq
      simp at hcount
    | cons c t ih =>
      by_cases hbehind : LeavesOpen opener closer t
      · obtain ⟨before, behind, rfl, hcovered⟩ := ih hbehind
        exact ⟨c :: before, behind, rfl, hcovered⟩
      -- no later end opens more than it closes, so the first character does it
      · have hends : ∀ q, q <:+ t → q.count opener ≤ q.count closer := fun q hq =>
          Nat.le_of_not_lt fun hlt => hbehind ⟨q, (List.mem_tails q t).mpr hq, hlt⟩
        have hwhole := (leavesOpen_cons.mp h).resolve_right hbehind
        have htail := hends t List.suffix_rfl
        have hc : c = opener := by
          by_contra hc
          rw [List.count_cons_of_ne hc] at hwhole
          have hle := List.count_le_count_cons (a := closer) (b := c) (l := t)
          omega
        subst hc
        rw [List.count_cons_self, List.count_cons_of_ne hne] at hwhole
        refine ⟨[], t, rfl, covered_iff.mpr ?_⟩
        rintro w ⟨v, rfl⟩
        have hend := hends v (List.suffix_append w v)
        rw [List.count_append, List.count_append] at hwhole
        omega
  · rintro ⟨before, behind, rfl, hcovered⟩
    have hcount := hcovered.count_le
    refine ⟨opener :: behind, (List.mem_tails _ _).mpr (List.suffix_append before _), ?_⟩
    rw [List.count_cons_self, List.count_cons_of_ne hne]
    omega

theorem encloses_iff_hasUnmatchedOpener {t : Text} : Encloses t ↔ HasUnmatchedOpener t := by
  rw [Encloses, leavesOpen_iff_exists (by decide), leavesOpen_iff_exists (by decide)]
  constructor
  · rintro (h | h)
    · exact ⟨.paren, h⟩
    · exact ⟨.brace, h⟩
  · rintro ⟨b, h⟩
    cases b with
    | paren => exact .inl h
    | brace => exact .inr h

/-- The offset of the first blank among the characters that a scan at the given depth meets at
top level. -/
def blankOffset? (d : Depth) : List (Nat × Char) → Option Nat
  | [] => none
  | (offset, c) :: rest =>
    if isBlank c && d.isTop then some offset else blankOffset? (d.step c) rest

theorem blankOffset?_eq (d : Depth) (before t : Text) :
    blankOffset? d (charOffsets (utf8Length before) t) =
      (breakAtBlank? d before t).map fun parts => utf8Length parts.1 := by
  induction t generalizing d before with
  | nil => rfl
  | cons c t ih =>
    rw [charOffsets, blankOffset?, breakAtBlank?]
    split
    · rw [Option.map_some, utf8Length_reverse]
    · rw [← ih, utf8Length_cons, Nat.add_comm]

/-- The offset that is found is where the text is cut without offsets. -/
theorem blankOffset?_charOffsets (t : Text) :
    blankOffset? {} (charOffsets 0 t) = firstTopLevelBlank? t :=
  blankOffset?_eq {} [] t

/-- The offset of the first blank is the length of what stands before it. That has no unmatched
opener, but there is one before every blank in it. -/
theorem firstTopLevelBlank?_eq_some_iff {t : Text} {offset : Nat} :
    firstTopLevelBlank? t = some offset ↔
      ∃ before c behind, t = before ++ c :: behind ∧ offset = utf8Length before ∧ isBlank c ∧
        ¬ HasUnmatchedOpener before ∧
        ∀ p d r, before = p ++ d :: r → isBlank d → HasUnmatchedOpener p := by
  simp only [← encloses_iff_hasUnmatchedOpener, ← noneExposed_iff]
  rw [firstTopLevelBlank?, Option.map_eq_some_iff]
  constructor
  · rintro ⟨⟨before, rest⟩, hbreak, rfl⟩
    obtain ⟨rfl, hnone, htop, c, hc, hblank⟩ := breakAtBlank?_iff.mp hbreak
    obtain ⟨behind, rfl⟩ := List.head?_eq_some_iff.mp hc
    exact ⟨before, c, behind, rfl, rfl, hblank, htop, hnone⟩
  · rintro ⟨before, c, behind, rfl, rfl, hblank, htop, hnone⟩
    exact ⟨(before, c :: behind), breakAtBlank?_iff.mpr ⟨rfl, hnone, htop, c, rfl, hblank⟩, rfl⟩

/-- The pieces between the top-level separators of a text, not trimmed, taken as slices of it. The
current piece started at the given offset. -/
def segmentSlices? (t : Text) (sep : Char) (d : Depth) (start : Nat) :
    List (Nat × Char) → Option (List Text)
  | [] => do return [← sliceFrom? t start]
  | (offset, c) :: rest =>
    if c == sep && d.isTop then do
      let piece ← slice? t start offset
      return piece :: (← segmentSlices? t sep d (offset + c.utf8Size) rest)
    else segmentSlices? t sep (d.step c) start rest

def splitSlices? (sep : Char) (t : Text) : Option (List Text) :=
  if t.isAllBlank then some []
  else do return (← segmentSlices? t sep {} 0 (charOffsets 0 t)).map trim

/-- The scan stands behind `piece`, which started behind `done`. -/
theorem segmentSlices?_eq (sep : Char) (d : Depth) (done piece t : Text) :
    segmentSlices? (done ++ piece ++ t) sep d (utf8Length done)
      (charOffsets (utf8Length (done ++ piece)) t) = some (segments sep d piece.reverse t) := by
  induction t generalizing d done piece with
  | nil =>
    rw [charOffsets, segmentSlices?, List.append_nil, sliceFrom?_append, segments,
      List.reverse_reverse]
    rfl
  | cons c t ih =>
    have hoffset : utf8Length (done ++ piece) + c.utf8Size = utf8Length (done ++ piece ++ [c]) := by
      rw [utf8Length_append (done ++ piece), utf8Length_cons, utf8Length_nil, Nat.add_zero]
    rw [charOffsets, segmentSlices?, segments, hoffset]
    split
    · have hrest := ih d (done ++ piece ++ [c]) []
      rw [List.append_nil, List.append_assoc _ [c], List.singleton_append] at hrest
      rw [slice?_append, hrest, List.reverse_reverse]
      rfl
    · have hrest := ih (d.step c) done (piece ++ [c])
      rw [← List.append_assoc, List.append_assoc _ [c], List.singleton_append,
        List.reverse_append] at hrest
      exact hrest

theorem splitSlices?_eq (sep : Char) (t : Text) :
    splitSlices? sep t = some (splitTopLevel sep t) := by
  rw [splitSlices?, splitTopLevel]
  split
  · rfl
  · have h := segmentSlices?_eq sep {} [] [] t
    simp only [List.nil_append, utf8Length_nil, List.reverse_nil] at h
    rw [h]
    rfl

end CompletionSnippets.Text
