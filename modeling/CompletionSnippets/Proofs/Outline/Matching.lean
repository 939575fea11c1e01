import CompletionSnippets.Proofs.Nesting.Matching
import CompletionSnippets.Proofs.Outline

/-!
# Outlines of matched texts

The search for the parenthesis that closes counts parentheses only, and the scan that cuts a
list counts both families and forgets closers with nothing to close. On a matched text they
agree: from any opening parenthesis on, both come to the same place, its partner.

So what an outline takes out of a matched text, its parameters and a list of results, is
matched again, and a split cuts it just at the commas that stand in no pair of brackets of
the whole text but the one around it.
-/
namespace CompletionSnippets

namespace Text

theorem encloses_append_of_isAllBlank {b : Text} (hb : b.isAllBlank) (t : Text) :
    Encloses (b ++ t) ↔ Encloses t := by
  rw [← not_iff_not, ← isTop_after_iff, ← isTop_after_iff, Depth.after_append,
    after_of_isAllBlank hb]

theorem Matched.trim {t : Text} (h : Matched t) : Matched (trim t) := by
  obtain ⟨b, a, hb, ha, ht⟩ := exists_pad t
  rw [ht] at h
  have hfront := h.of_append_right (matched_of_isAllBlank ha)
  exact (matched_of_isAllBlank hb).of_append_left hfront

end Text

namespace Outline
open Text

/-- The text between the parentheses at `i` and `j`, without the blanks around it, is
`inside`, whose first character is the one at `start`. It is matched, and a split cuts it at
the commas around which `t` has no other pair of brackets. -/
structure Sliced (t : Text) (i j start : Nat) (inside : Text) : Prop where
  pair : Pair .paren t i j
  blanks : ∃ before after : Text, before.isAllBlank ∧ after.isAllBlank ∧
    between t i j = before ++ inside ++ after ∧ start = i + 1 + before.length
  matched : Matched inside
  cuts : ∃ places : List Nat,
    (∀ k, k ∈ places ↔ inside[k]? = some ',' ∧ ∀ b i' j', Pair b t i' j' → i' < start + k →
      start + k < j' → i' = i ∧ j' = j) ∧
    places.Pairwise (· < ·) ∧
    splitTopLevel ',' inside = if inside.isAllBlank then [] else (cutAt 0 places inside).map trim

section Slice
variable {t before lead u v trail behind : Text} {b : Bracket} {i j : Nat}

/-- No pair but the one around the slice encloses a place outside the brackets of the slice. -/
theorem pair_eq_of_not_encloses
    (ht : t = before ++ '(' :: ((lead ++ (u ++ v) ++ trail) ++ ')' :: behind))
    (hbefore : Matched before) (hinside : Matched (lead ++ (u ++ v) ++ trail))
    (hu : ¬ Encloses (lead ++ u)) (hpair : Pair b t i j)
    (hi : i < before.length + 1 + lead.length + u.length)
    (hj : before.length + 1 + lead.length + u.length < j) :
    i = before.length ∧ j = before.length + 1 + (lead ++ (u ++ v) ++ trail).length := by
  have hslice : Pair .paren t before.length
      (before.length + 1 + (lead ++ (u ++ v) ++ trail).length) :=
    pair_iff.mpr ⟨before, _, behind, ht, hinside, rfl, rfl⟩
  obtain ⟨x, y, z, hxyz, hy, rfl, rfl⟩ := pair_iff.mp hpair
  rw [ht] at hxyz
  rcases append_cons_cases hxyz with ⟨r, rfl, hr⟩ | ⟨rfl, -, -⟩ | ⟨r, rfl, hr⟩
  · -- an opener in the slice before the place, with its closer behind it
    have hparted : r ++ b.opener :: (y ++ b.closer :: z) =
        (lead ++ u) ++ (v ++ trail ++ ')' :: behind) := by
      rw [← hr]
      simp
    rcases append_cons_eq_append hparted with ⟨r', rfl, -⟩ | ⟨r', hfront, hback⟩
    · simp at hi
      omega
    · rcases append_cons_eq_append hback with ⟨y', rfl, -⟩ | ⟨r'', rfl, -⟩
      · rw [hfront] at hu
        exact absurd (hy.encloses b r) hu
      · have hlength := congrArg List.length hfront
        simp at hlength hj
        omega
  · exact ⟨rfl, hslice.unique hpair⟩
  · -- an opener before the slice has its partner there
    obtain ⟨inside, behind', rfl, hpartner⟩ := hbefore.exists_partner rfl
    rw [List.append_assoc, List.cons_append] at hr
    obtain ⟨rfl, -⟩ := (hy.closed.balanced b).closer_unique (hpartner.closed.balanced b) hr
    simp at hj
    omega

/-- A comma in brackets of the slice has such a pair around it. -/
theorem exists_pair_of_encloses
    (ht : t = before ++ '(' :: ((lead ++ (u ++ v) ++ trail) ++ ')' :: behind))
    (hslice : Matched (u ++ v)) (hv : ∃ c ∈ v.head?, c ∉ ['(', ')', '{', '}'])
    (hu : Encloses u) :
    ∃ b i j, Pair b t i j ∧ before.length < i ∧ i < before.length + 1 + lead.length + u.length ∧
      before.length + 1 + lead.length + u.length < j := by
  rcases hslice.parted rfl with hmatched | ⟨b, x, inside, inside', y, rfl, rfl, hinside⟩
  · have htop : (Depth.after {} u).isTop := by
      rw [hmatched.closed.after_eq]
      rfl
    exact absurd hu (isTop_after_iff.mp htop)
  · have hne : inside' ≠ [] := by
      rintro rfl
      obtain ⟨c, hc, hplain⟩ := hv
      obtain rfl := Option.some.inj hc
      exact hplain b.closer_mem
    have hlength := List.length_pos_iff.mpr hne
    have hparts : t = (before ++ '(' :: (lead ++ x)) ++ b.opener :: ((inside ++ inside') ++
        b.closer :: (y ++ trail ++ ')' :: behind)) := by
      rw [ht]
      simp
    refine ⟨b, _, _, pair_iff.mpr ⟨_, _, _, hparts, hinside, rfl, rfl⟩, ?_⟩
    simp
    omega

/-- The slice is cut at the commas around which the whole text has no other pair. -/
theorem mem_cutPlaces_slice {inside : Text} {k : Nat}
    (ht : t = before ++ '(' :: ((lead ++ inside ++ trail) ++ ')' :: behind))
    (hlead : lead.isAllBlank) (hbefore : Matched before)
    (hslice : Matched (lead ++ inside ++ trail)) (hinside : Matched inside) :
    k ∈ cutPlaces ',' inside ↔ inside[k]? = some ',' ∧ ∀ b i j, Pair b t i j →
      i < before.length + 1 + lead.length + k → before.length + 1 + lead.length + k < j →
        i = before.length ∧ j = before.length + 1 + (lead ++ inside ++ trail).length := by
  rw [mem_cutPlaces, CutPlace]
  refine and_congr_right fun hcomma => ?_
  obtain ⟨hlt, -⟩ := List.getElem?_eq_some_iff.mp hcomma
  have hlength : (inside.take k).length = k := List.length_take_of_le (Nat.le_of_lt hlt)
  have hparted : inside.take k ++ inside.drop k = inside := List.take_append_drop k inside
  rw [← hparted] at ht hslice hinside
  constructor
  · intro hout b i j hpair hi hj
    rw [← encloses_append_of_isAllBlank hlead] at hout
    rw [← hlength] at hi hj
    have heq := pair_eq_of_not_encloses ht hbefore hslice hout hpair hi hj
    rwa [hparted] at heq
  · intro honly hin
    have hhead : ∃ c ∈ (inside.drop k).head?, c ∉ ['(', ')', '{', '}'] :=
      ⟨',', by rw [List.head?_drop, hcomma]; rfl, by decide⟩
    obtain ⟨b, i, j, hpair, hgt, hi, hj⟩ := exists_pair_of_encloses ht hinside hhead hin
    rw [hlength] at hi hj
    obtain ⟨rfl, -⟩ := honly b i j hpair hi hj
    exact Nat.lt_irrefl _ hgt

/-- Parentheses with a matched text between them and another in front of them slice it. -/
theorem exists_sliced {w : Text} (ht : t = before ++ '(' :: (w ++ ')' :: behind))
    (hbefore : Matched before) (hw : Matched w) :
    ∃ start, Sliced t before.length (before.length + 1 + w.length) start (trim w) := by
  obtain ⟨lead, trail, hlead, htrail, hpad⟩ := exists_pad w
  have hpair : Pair .paren t before.length (before.length + 1 + w.length) :=
    pair_iff.mpr ⟨before, w, behind, ht, hw, rfl, rfl⟩
  have hbetween : between t before.length (before.length + 1 + w.length) = w := by
    rw [ht, between_append]
  have hslice := hw
  rw [hpad] at ht hslice
  have hcut := fun k => mem_cutPlaces_slice (k := k) ht hlead hbefore hslice hw.trim
  rw [← hpad] at hcut
  refine ⟨before.length + 1 + lead.length, hpair, ⟨lead, trail, hlead, htrail, ?_, rfl⟩,
    hw.trim, cutPlaces ',' (trim w), hcut, cutPlaces_pairwise _ _, ?_⟩
  · exact hbetween.trans hpad
  · rw [splitTopLevel, segments_eq (step_of_not_bracket (by decide) {})]

end Slice

section Outline
variable {t : Text} {o : Outline} {i : Nat}

theorem exists_scanned (h : Matched t) (hi : t[i]? = some '(') :
    ∃ j, (∀ j', Pair .paren t i j' ↔ j' = j) ∧
      closeParen? [] 0 (t.drop (i + 1)) = some (between t i j, t.drop (j + 1)) ∧
      IsLeast {k | i ≤ k ∧ k < t.length ∧ (Depth.after {} ((t.take (k + 1)).drop i)).isTop} j := by
  obtain ⟨j, hpair⟩ := h.exists_pair (b := .paren) hi
  refine ⟨j, fun j' => ⟨fun h' => hpair.unique h', ?_⟩, ?_, hpair.isLeast⟩
  · rintro rfl
    exact hpair
  · rw [closeParen?_eq_some_iff]
    exact ⟨drop_eq_append_cons (Nat.succ_le_of_lt hpair.lt) hpair.closes,
      hpair.matched.closed.parens⟩

/-- A text with an outline is the keyword, its parameters in parentheses and the text that
says its results, with blanks around all. -/
theorem exists_around (h : of? t = some o) : ∃ front w rest trail : Text,
    t = front ++ '(' :: (w ++ ')' :: (rest ++ trail)) ∧
      trim front = "func".toList ∧ Matched front ∧ trail.isAllBlank ∧
        Balanced '(' ')' w ∧ o.params = trim w ∧ o.results = resultText (trim rest) := by
  obtain ⟨w, rest, htrim, hbalanced, rfl⟩ := of?_eq_some_iff.mp h
  obtain ⟨lead, trail, hlead, htrail, hpad⟩ := exists_pad t
  have hopening : opening = "func".toList ++ ['('] := by decide
  have hkeyword : Matched "func".toList := by decide
  refine ⟨lead ++ "func".toList, w, rest, trail, ?_, ?_,
    (matched_of_isAllBlank hlead).append hkeyword, htrail, hbalanced, rfl, rfl⟩
  · rw [hpad, htrim, hopening]
    simp
  · rw [trim_append_of_isAllBlank hlead]
    decide

/-- On a matched text both scans come from any opening parenthesis to its partner, the only
one that it has, where the depth is zero for the first time. What an outline takes from between two
parentheses is matched and cut at its commas outside all other brackets: the parameters
from behind the keyword, a list of results from before the last parenthesis. -/
theorem scans_agree (h : Matched t) :
    (∀ i, t[i]? = some '(' → ∃ j, (∀ j', Pair .paren t i j' ↔ j' = j) ∧
        closeParen? [] 0 (t.drop (i + 1)) = some (between t i j, t.drop (j + 1)) ∧
        IsLeast {k | i ≤ k ∧ k < t.length ∧ (Depth.after {} ((t.take (k + 1)).drop i)).isTop} j) ∧
      ∀ o, of? t = some o →
        (∃ i j start, trim (t.take i) = "func".toList ∧ Sliced t i j start o.params) ∧
          ∀ inside, o.results = .list inside →
            ∃ i j start, isAllBlank (t.drop (j + 1)) ∧ Sliced t i j start inside := by
  refine ⟨fun i hi => exists_scanned h hi, fun o ho => ?_⟩
  obtain ⟨front, w, rest, trail, ht, hkeyword, hfront, htrail, hw, hparams, hresults⟩ :=
    exists_around ho
  have hmatched : Matched w := by
    rw [ht] at h
    exact h.matched_inside (b := .paren) hw
  constructor
  · obtain ⟨start, hsliced⟩ := exists_sliced ht hfront hmatched
    refine ⟨_, _, start, ?_, hparams ▸ hsliced⟩
    rw [ht, List.take_left, hkeyword]
  · intro inside hlist
    rw [hresults] at hlist
    obtain ⟨v, hresult, hv, rfl⟩ := resultText_eq_list_iff.mp hlist
    obtain ⟨lead', trail', hlead', htrail', hpad⟩ := exists_pad rest
    have hlast : t = (front ++ '(' :: (w ++ ')' :: lead')) ++
        '(' :: (v ++ ')' :: (trail' ++ trail)) := by
      rw [ht, hpad, hresult]
      simp
    have hbefore : Matched (front ++ '(' :: (w ++ ')' :: lead')) :=
      hfront.append (.pair .paren hmatched (matched_of_isAllBlank hlead'))
    have hinside : Matched v := by
      rw [hlast] at h
      exact h.matched_inside (b := .paren) hv
    obtain ⟨start, hsliced⟩ := exists_sliced hlast hbefore hinside
    refine ⟨_, _, start, ?_, hsliced⟩
    rw [hlast, drop_behind]
    exact isAllBlank_append.mpr ⟨htrail', htrail⟩

end Outline

/-- `func(a func(b {c, d}, e), {f}, g) ({h,i}, (j))` between blanks: braces in parentheses and
parentheses in parentheses, each with commas in them. -/
def woven : Text := "\tfunc(a func(b \x7bc, d\x7d, e), \x7bf\x7d, g) (\x7bh,i\x7d, (j)) ".toList

def wovenOutline : Outline where
  whole := "func(a func(b \x7bc, d\x7d, e), \x7bf\x7d, g) (\x7bh,i\x7d, (j))".toList
  params := "a func(b \x7bc, d\x7d, e), \x7bf\x7d, g".toList
  results := .list "\x7bh,i\x7d, (j)".toList

theorem scans_agree_woven :
    Matched woven ∧ woven[5]? = some '(' ∧ Pair .paren woven 5 33 ∧
      closeParen? [] 0 (woven.drop 6) = some (between woven 5 33, woven.drop 34) ∧
      IsLeast {k | 5 ≤ k ∧ k < woven.length ∧
        (Depth.after {} ((woven.take (k + 1)).drop 5)).isTop} 33 ∧
      of? woven = some wovenOutline ∧
      (∃ i j start, trim (woven.take i) = "func".toList ∧
        Sliced woven i j start wovenOutline.params) ∧
      ∃ i j start, isAllBlank (woven.drop (j + 1)) ∧
        Sliced woven i j start "\x7bh,i\x7d, (j)".toList := by
  have hmatched : Matched woven := by decide
  have hopens : woven[5]? = some '(' := by decide
  have hpair : Pair .paren woven 5 33 := by decide
  have houtline : of? woven = some wovenOutline := by decide
  obtain ⟨hscans, hslices⟩ := scans_agree hmatched
  obtain ⟨j, hpartner, hclose, hleast⟩ := hscans 5 hopens
  obtain rfl := (hpartner 33).mp hpair
  obtain ⟨hparams, hresults⟩ := hslices wovenOutline houtline
  exact ⟨hmatched, hopens, hpair, hclose, hleast, houtline, hparams, hresults _ rfl⟩

end Outline
end CompletionSnippets
