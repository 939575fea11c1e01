import CompletionSnippets.Text
import CompletionSnippets.Pattern.CaseFolding
import CompletionSnippets.Pattern.WordChars

/-!
# Character sets

What a pattern may ask of one character: to lie in a set of code points. A set is
kept as the ranges it is made of, in order and with gaps between them, so that a
set is written in one way only and a look-up can stop early. Sets are closed under
union and complement, and with these under all other operations. Case is ignored
by closing a set under case folding.
-/
namespace CompletionSnippets.Pattern

/-- Ranges that begin at `start` or behind it, are not empty, ascend, and have a
gap between neighbours. -/
def Spaced (start : Nat) : List (Nat × Nat) → Prop
  | [] => True
  | r :: rest => start ≤ r.1 ∧ r.1 ≤ r.2 ∧ Spaced (r.2 + 2) rest

def lastCode : Nat := 0x10FFFF

/-- A set of code points. -/
structure CharSet where
  ranges : List (Nat × Nat)
  spaced : Spaced 0 ranges
deriving DecidableEq, Repr

theorem Spaced.mono {a b : Nat} {ranges : List (Nat × Nat)} (h : Spaced b ranges) (hab : a ≤ b) :
    Spaced a ranges := by
  cases ranges with
  | nil => trivial
  | cons r rest => exact ⟨Nat.le_trans hab h.1, h.2⟩

namespace CharSet

/-- A range in front of ranges that begin no earlier; those that it meets are joined
with it. -/
def join (r : Nat × Nat) : List (Nat × Nat) → List (Nat × Nat)
  | [] => [r]
  | s :: rest => if s.1 ≤ r.2 + 1 then join (r.1, max r.2 s.2) rest else r :: s :: rest

theorem spaced_join {a b : Nat} {r : Nat × Nat} {rest : List (Nat × Nat)} (h : Spaced a rest)
    (hb : b ≤ r.1) (hr : r.1 ≤ r.2) : Spaced b (join r rest) := by
  induction rest generalizing a r with
  | nil => exact ⟨hb, hr, trivial⟩
  | cons s rest ih =>
    by_cases hs : s.1 ≤ r.2 + 1
    · rw [join, if_pos hs]
      exact ih h.2.2 hb (Nat.le_trans hr (Nat.le_max_left ..))
    · rw [join, if_neg hs]
      exact ⟨hb, hr, by omega, h.2⟩

/-- Ranges in the order of their beginnings as spaced ranges. -/
def joinAll (ranges : List (Nat × Nat)) : List (Nat × Nat) :=
  ranges.foldr (fun r joined => if r.1 ≤ r.2 then join r joined else joined) []

theorem spaced_joinAll (ranges : List (Nat × Nat)) : Spaced 0 (joinAll ranges) := by
  induction ranges with
  | nil => trivial
  | cons r rest ih =>
    by_cases hr : r.1 ≤ r.2
    · simpa [joinAll, hr] using spaced_join ih (Nat.zero_le _) hr
    · simpa [joinAll, hr] using ih

def ofRanges (ranges : List (Nat × Nat)) : CharSet where
  ranges := joinAll (ranges.mergeSort fun r s => r.1 ≤ s.1)
  spaced := spaced_joinAll _

/-- What lies between the given ranges, and before and behind them, from `start` on. -/
def gaps (start : Nat) : List (Nat × Nat) → List (Nat × Nat)
  | [] => if start ≤ lastCode then [(start, lastCode)] else []
  | r :: rest =>
    let behind := gaps (r.2 + 1) rest
    if start < r.1 then (start, r.1 - 1) :: behind else behind

theorem spaced_gaps {start : Nat} {ranges : List (Nat × Nat)} (h : Spaced start ranges) :
    Spaced start (gaps start ranges) := by
  induction ranges generalizing start with
  | nil =>
    by_cases hs : start ≤ lastCode
    · simp [gaps, hs, Spaced]
    · simp [gaps, hs, Spaced]
  | cons r rest ih =>
    obtain ⟨hr, hrr, hrest⟩ := h
    have hgaps := ih (hrest.mono (Nat.le_succ _))
    by_cases hs : start < r.1
    · rw [gaps, if_pos hs]
      exact ⟨Nat.le_refl _, by simp; omega, hgaps.mono (by simp; omega)⟩
    · rw [gaps, if_neg hs]
      exact hgaps.mono (by omega)

def holds (s : CharSet) (n : Nat) : Bool := inRanges s.ranges n

def empty : CharSet := ⟨[], trivial⟩

def range (low high : Nat) : CharSet := ofRanges [(low, high)]

def single (c : Char) : CharSet := range c.toNat c.toNat

def compl (s : CharSet) : CharSet := ⟨gaps 0 s.ranges, spaced_gaps s.spaced⟩

def all : CharSet := compl empty

def unionOf (sets : List CharSet) : CharSet := ofRanges (sets.flatMap ranges)

def union (a b : CharSet) : CharSet := unionOf [a, b]

def inter (a b : CharSet) : CharSet := compl (union (compl a) (compl b))

def diff (a b : CharSet) : CharSet := inter a (compl b)

/-- The code points that are in one of the sets only. -/
def symmDiff (a b : CharSet) : CharSet := union (diff a b) (diff b a)

/-- The characters with a form in the set: what its members fold to, and what folds
to these. -/
def folded (s : CharSet) : CharSet :=
  let images := foldRuns.flatMap fun run => s.ranges.flatMap fun r => run.images r.1 r.2
  let folds := ofRanges (s.ranges ++ images)
  let sources := foldRuns.flatMap fun run => folds.ranges.flatMap fun r => run.sources r.1 r.2
  ofRanges (folds.ranges ++ sources)

/-- The only character of a set that holds just one. -/
def char? (s : CharSet) : Option Char :=
  match s.ranges with
  | [(low, high)] => if low = high then some (.ofNat low) else none
  | _ => none

def asciiDigits : CharSet := range 0x30 0x39

def asciiCapitals : CharSet := range 0x41 0x5A

def asciiSmall : CharSet := range 0x61 0x7A

def asciiWord : CharSet := unionOf [asciiDigits, asciiCapitals, asciiSmall, single '_']

def digit : CharSet := union asciiDigits (ofRanges digitRanges)

def word : CharSet := union asciiWord (ofRanges wordRanges)

def blank : CharSet := ofRanges [(0x09, 0x0D), (0x20, 0x20), (0x85, 0x85), (0xA0, 0xA0),
  (0x1680, 0x1680), (0x2000, 0x200A), (0x2028, 0x2029), (0x202F, 0x202F), (0x205F, 0x205F),
  (0x3000, 0x3000)]

def asciiClasses : List (Text × CharSet) := [
  ("alnum".toList, unionOf [asciiDigits, asciiCapitals, asciiSmall]),
  ("alpha".toList, unionOf [asciiCapitals, asciiSmall]),
  ("ascii".toList, range 0x00 0x7F),
  ("blank".toList, unionOf [single '\t', single ' ']),
  ("cntrl".toList, unionOf [range 0x00 0x1F, range 0x7F 0x7F]),
  ("digit".toList, asciiDigits),
  ("graph".toList, range 0x21 0x7E),
  ("lower".toList, asciiSmall),
  ("print".toList, range 0x20 0x7E),
  ("punct".toList, unionOf [range 0x21 0x2F, range 0x3A 0x40, range 0x5B 0x60, range 0x7B 0x7E]),
  ("space".toList, unionOf [range 0x09 0x0D, single ' ']),
  ("upper".toList, asciiCapitals),
  ("word".toList, asciiWord),
  ("xdigit".toList, unionOf [asciiDigits, range 0x41 0x46, range 0x61 0x66])]

def ascii? (name : Text) : Option CharSet := asciiClasses.lookup name

end CharSet
end CompletionSnippets.Pattern
