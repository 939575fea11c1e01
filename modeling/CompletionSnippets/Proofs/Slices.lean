import CompletionSnippets.Text
import Mathlib.Data.List.Infix

/-!
# Slices by byte offsets

A slice of a text is asked for by the offsets of its first byte and of the byte behind it. There
is one only when the offsets come in this order, both lie in the text and both are boundaries
between characters; whatever else is asked for is an error. A slice that there is stands in the
text behind as many bytes as its first offset says, and a text that is put together from parts
can be sliced at the lengths of its parts.
-/
namespace CompletionSnippets.Text

/-- The offset is the length of a beginning of the text, so no character is parted by it. -/
def Boundary (t : Text) (offset : Nat) : Prop := ∃ before, before <+: t ∧ utf8Length before = offset

/-- What stands before an offset and behind it, when it is a boundary. -/
def cutAtByte? : Text → Nat → Option (Text × Text)
  | t, 0 => some ([], t)
  | [], _ + 1 => none
  | c :: t, offset + 1 =>
    if c.utf8Size ≤ offset + 1 then
      (cutAtByte? t (offset + 1 - c.utf8Size)).map fun parts => (c :: parts.1, parts.2)
    else none

/-- The slice between two offsets, if there is one. -/
def slice? (t : Text) (start stop : Nat) : Option Text :=
  if start ≤ stop then do
    let (front, _) ← cutAtByte? t stop
    let (_, inside) ← cutAtByte? front start
    return inside
  else none

def sliceFrom? (t : Text) (start : Nat) : Option Text := slice? t start (utf8Length t)

/-- The characters of a text that stands at the offset, each with the offset of its first byte. -/
def charOffsets (offset : Nat) : Text → List (Nat × Char)
  | [] => []
  | c :: t => (offset, c) :: charOffsets (offset + c.utf8Size) t

theorem utf8Length_reverse (t : Text) : utf8Length t.reverse = utf8Length t := by
  induction t with
  | nil => rfl
  | cons c t ih => simp [ih, Nat.add_comm]

theorem cutAtByte?_append (before behind : Text) :
    cutAtByte? (before ++ behind) (utf8Length before) = some (before, behind) := by
  induction before with
  | nil => rw [List.nil_append, utf8Length_nil, cutAtByte?]
  | cons c before ih =>
    obtain ⟨n, hn⟩ : ∃ n, utf8Length (c :: before) = n + 1 :=
      Nat.exists_eq_add_one.mpr (Nat.lt_of_lt_of_le c.utf8Size_pos (Nat.le_add_right _ _))
    have hrest : n + 1 - c.utf8Size = utf8Length before := by
      rw [← hn, utf8Length_cons, Nat.add_sub_cancel_left]
    have hfits : c.utf8Size ≤ n + 1 := by
      rw [← hn, utf8Length_cons]
      exact Nat.le_add_right _ _
    rw [hn, List.cons_append, cutAtByte?, if_pos hfits, hrest, ih]
    rfl

theorem cutAtByte?_eq_some_iff {t before behind : Text} {offset : Nat} :
    cutAtByte? t offset = some (before, behind) ↔
      t = before ++ behind ∧ utf8Length before = offset := by
  constructor
  · intro h
    fun_induction cutAtByte? t offset generalizing before with
    | case1 t =>
      cases h
      exact ⟨rfl, rfl⟩
    | case2 => cases h
    | case3 c t offset hfits ih =>
      obtain ⟨⟨front, rest⟩, hcut, hparts⟩ := Option.map_eq_some_iff.mp h
      cases hparts
      obtain ⟨rfl, hlength⟩ := ih hcut
      refine ⟨rfl, ?_⟩
      rw [utf8Length_cons, hlength]
      omega
    | case4 => cases h
  · rintro ⟨rfl, rfl⟩
    exact cutAtByte?_append before behind

/-- A slice stands between what comes before its first offset and behind its second. -/
theorem slice?_eq_some_iff {t inside : Text} {start stop : Nat} :
    slice? t start stop = some inside ↔ ∃ before behind, t = before ++ inside ++ behind ∧
      utf8Length before = start ∧ utf8Length (before ++ inside) = stop := by
  unfold slice?
  constructor
  · intro h
    split at h
    · obtain ⟨⟨front, behind⟩, hfront, h⟩ := Option.bind_eq_some_iff.mp h
      obtain ⟨⟨before, inside'⟩, hinside, h⟩ := Option.bind_eq_some_iff.mp h
      cases h
      obtain ⟨rfl, hstop⟩ := cutAtByte?_eq_some_iff.mp hfront
      obtain ⟨rfl, hstart⟩ := cutAtByte?_eq_some_iff.mp hinside
      exact ⟨before, behind, rfl, hstart, hstop⟩
    · cases h
  · rintro ⟨before, behind, rfl, rfl, rfl⟩
    have horder : utf8Length before ≤ utf8Length (before ++ inside) := by
      rw [utf8Length_append]
      exact Nat.le_add_right _ _
    simp only [if_pos horder, cutAtByte?_append, Option.bind_eq_bind, Option.bind_some]
    rfl

/-- There is a slice exactly when the offsets are in order, in the text, and boundaries. -/
theorem isSome_slice?_iff {t : Text} {start stop : Nat} :
    (slice? t start stop).isSome ↔
      start ≤ stop ∧ stop ≤ utf8Length t ∧ Boundary t start ∧ Boundary t stop := by
  rw [Option.isSome_iff_exists]
  constructor
  · rintro ⟨inside, h⟩
    obtain ⟨before, behind, rfl, rfl, rfl⟩ := slice?_eq_some_iff.mp h
    refine ⟨by simp, by simp, ⟨before, ?_, rfl⟩, ⟨before ++ inside, List.prefix_append _ _, rfl⟩⟩
    rw [List.append_assoc]
    exact List.prefix_append _ _
  · rintro ⟨horder, -, ⟨before, hbefore, rfl⟩, ⟨front, hfront, rfl⟩⟩
    obtain ⟨inside, rfl⟩ : before <+: front := by
      rcases List.prefix_or_prefix_of_prefix hbefore hfront with h | ⟨others, rfl⟩
      · exact h
      · -- what stands between the two takes no bytes
        rw [utf8Length_append] at horder
        cases others with
        | nil => simp
        | cons c others =>
          have hpos := c.utf8Size_pos
          rw [utf8Length_cons] at horder
          omega
    obtain ⟨behind, rfl⟩ := hfront
    exact ⟨inside, slice?_eq_some_iff.mpr ⟨before, behind, rfl, rfl, rfl⟩⟩

/-- A slice that would part a character is missing. -/
example : slice? ['a', 'é', 'b'] 1 2 = none ∧ slice? ['a', 'é', 'b'] 1 3 = some ['é'] := by decide

theorem slice?_append (before inside behind : Text) :
    slice? (before ++ inside ++ behind) (utf8Length before) (utf8Length (before ++ inside)) =
      some inside :=
  slice?_eq_some_iff.mpr ⟨before, behind, rfl, rfl, rfl⟩

theorem sliceFrom?_append (before behind : Text) :
    sliceFrom? (before ++ behind) (utf8Length before) = some behind :=
  slice?_eq_some_iff.mpr ⟨before, [], by rw [List.append_nil], rfl, rfl⟩

end CompletionSnippets.Text
