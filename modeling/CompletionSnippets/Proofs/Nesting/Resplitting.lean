import CompletionSnippets.Proofs.Nesting.Enclosure
import CompletionSnippets.Proofs.Nesting.Pieces

/-!
# Splitting the pieces again

A text is atomic for a separator when it is not empty, is trimmed and holds the separator
inside brackets only. These are the texts that a split leaves whole. The separator may be
any character, also a blank or a bracket.

Each piece of a split is atomic or empty. At a cut nothing is open, so a scan that starts
with the piece sees it as the scan of the whole text did; and trimming, even where it takes
the separator away, takes no bracket. So splitting all pieces once more leaves out the empty
ones and changes nothing else.
-/
namespace CompletionSnippets.Text

/-- The text is not empty and has neither blanks at its ends nor the separator outside
brackets. -/
structure Atomic (sep : Char) (t : Text) : Prop where
  ne_nil : t ≠ []
  trimmed : trim t = t
  noneExposed : NoneExposed (· == sep) t

instance (sep : Char) (t : Text) : Decidable (Atomic sep t) :=
  decidable_of_iff (t ≠ [] ∧ trim t = t ∧ NoneExposed (· == sep) t)
    ⟨fun ⟨hne, htrim, hnone⟩ => ⟨hne, htrim, hnone⟩,
      fun h => ⟨h.ne_nil, h.trimmed, h.noneExposed⟩⟩

section Atomic
variable {sep : Char} {p t : Text} {ts : List Text}

theorem Atomic.not_isAllBlank (h : Atomic sep t) : ¬ t.isAllBlank := by
  rw [isAllBlank_iff_trim, h.trimmed]
  exact h.ne_nil

theorem Atomic.splitTopLevel_eq (h : Atomic sep t) : splitTopLevel sep t = [t] := by
  have hunbroken := unbroken_iff_noneExposed.mpr h.noneExposed
  have hone : segments sep {} [] t = [t] := segments_eq_singleton_iff.mpr ⟨hunbroken, rfl⟩
  rw [splitTopLevel, if_neg h.not_isAllBlank, hone, List.map_singleton, h.trimmed]

theorem Pieces.atomic (h : Pieces sep ts) (hp : p ∈ ts) (hne : p ≠ []) : Atomic sep p where
  ne_nil := hne
  trimmed := h.trimmed p hp
  noneExposed := unbroken_iff_noneExposed.mp (h.unbroken p hp)

/-- A text is its own only piece exactly when it is atomic. -/
theorem splitTopLevel_eq_self_iff : splitTopLevel sep t = [t] ↔ Atomic sep t := by
  constructor
  · intro h
    have hpieces := pieces_splitTopLevel sep t
    rw [h] at hpieces
    have hne : t ≠ [] := by
      rintro rfl
      exact hpieces.ne_blank rfl
    exact hpieces.atomic (List.mem_singleton_self t) hne
  · intro h
    exact h.splitTopLevel_eq

/-- Splitting texts that are atomic or empty leaves out the empty ones. -/
theorem flatMap_splitTopLevel (h : ∀ p ∈ ts, p ≠ [] → Atomic sep p) :
    ts.flatMap (splitTopLevel sep) = ts.filter (· ≠ []) := by
  induction ts with
  | nil => rfl
  | cons p ts ih =>
    obtain ⟨hp, hts⟩ := List.forall_mem_cons.mp h
    rw [List.flatMap_cons, ih hts]
    by_cases hempty : p = []
    · rw [hempty]
      rfl
    · rw [(hp hempty).splitTopLevel_eq, List.singleton_append,
        List.filter_cons_of_pos (by simpa using hempty)]

end Atomic

/-- A piece of a split, split again, stays whole, and an empty one has no pieces. So all pieces
split again are the pieces without the empty ones, which is the same list just when none is
empty. The texts that stay whole are the atomic ones. -/
theorem splitTopLevel_twice (sep : Char) (t : Text) :
    (∀ p ∈ splitTopLevel sep t,
        (p ≠ [] → splitTopLevel sep p = [p]) ∧ (p = [] → splitTopLevel sep p = [])) ∧
      (splitTopLevel sep t).flatMap (splitTopLevel sep) = (splitTopLevel sep t).filter (· ≠ []) ∧
      ((splitTopLevel sep t).flatMap (splitTopLevel sep) = splitTopLevel sep t ↔
        [] ∉ splitTopLevel sep t) ∧
      ∀ p, splitTopLevel sep p = [p] ↔ Atomic sep p := by
  have hatomic : ∀ p ∈ splitTopLevel sep t, p ≠ [] → Atomic sep p :=
    fun p hp hne => (pieces_splitTopLevel sep t).atomic hp hne
  have hagain := flatMap_splitTopLevel hatomic
  refine ⟨?_, hagain, ?_, fun p => splitTopLevel_eq_self_iff⟩
  · intro p hp
    constructor
    · intro hne
      exact (hatomic p hp hne).splitTopLevel_eq
    · rintro rfl
      rfl
  · rw [hagain, List.filter_eq_self]
    constructor
    · intro hall hmem
      simpa using hall [] hmem
    · intro hnone p hp
      have hne : p ≠ [] := ne_of_mem_of_not_mem hp hnone
      simpa using hne

def closers : Text := "a ) \x7bb)\x7d )) ( c) d".toList

/-- A text that begins with a blank and ends with one that stands behind an open bracket. -/
def spread : Text := " f( a,\tb )  \t( c ".toList

/-- A closing parenthesis as separator, and a space, which the last piece loses though it does
not separate there. -/
theorem splitTopLevel_twice_closers :
    splitTopLevel ')' closers = [['a'], "\x7bb)\x7d".toList, [], "( c) d".toList] ∧
      splitTopLevel ' ' spread = [[], "f( a,\tb )".toList, [], "( c".toList] ∧
      "( c) d".toList ∈ splitTopLevel ')' closers ∧ "( c) d".toList ≠ [] ∧
      splitTopLevel ')' "( c) d".toList = ["( c) d".toList] ∧
      (splitTopLevel ')' closers = [closers] ↔ Atomic ')' closers) ∧ ¬ Atomic ')' closers ∧
      [] ∈ splitTopLevel ' ' spread ∧ splitTopLevel ' ' [] = [] ∧
      (splitTopLevel ' ' spread).flatMap (splitTopLevel ' ') =
        (splitTopLevel ' ' spread).filter (· ≠ []) := by
  have hpiece : "( c) d".toList ∈ splitTopLevel ')' closers := by decide
  have hempty : [] ∈ splitTopLevel ' ' spread := by decide
  have hne : "( c) d".toList ≠ [] := by decide
  obtain ⟨hwhole, -, -, hatomic⟩ := splitTopLevel_twice ')' closers
  obtain ⟨hnone, hagain, -⟩ := splitTopLevel_twice ' ' spread
  exact ⟨by decide, by decide, hpiece, hne, (hwhole _ hpiece).1 hne, hatomic closers, by decide,
    hempty, (hnone _ hempty).2 rfl, hagain⟩

end CompletionSnippets.Text
