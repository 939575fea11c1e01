import CompletionSnippets.Text
import Mathlib.Data.List.Infix

/-!
# Texts as bytes

The bytes of a character never begin with those of another, so the bytes of one text begin
with those of another just when its characters do. Making the bytes of ASCII capitals small
is the same as making these letters small: all bytes of other characters lie above the ASCII
ones.
-/
namespace CompletionSnippets.Text

theorem utf8_cons (c : Char) (t : Text) :
    utf8 (c :: t) = String.utf8EncodeChar c ++ utf8 t := rfl

theorem utf8Encode_eq (t : Text) : t.utf8Encode = (utf8 t).toByteArray := rfl

theorem utf8_prefix_iff {s t : Text} : utf8 s <+: utf8 t ↔ s <+: t := by
  constructor
  · rintro ⟨rest, hrest⟩
    apply List.isPrefix_of_utf8Encode_append_eq_utf8Encode rest.toByteArray
    rw [utf8Encode_eq, utf8Encode_eq, ← hrest, List.toByteArray_append]
  · rintro ⟨rest, rfl⟩
    exact ⟨utf8 rest, List.flatMap_append.symm⟩

/-- All bytes of a character that is not ASCII lie above the ASCII ones. -/
theorem high_of_mem_utf8EncodeChar {c : Char} (hc : 127 < c.toNat) {b : UInt8}
    (hb : b ∈ String.utf8EncodeChar c) : 127 < b.toNat := by
  have hvalue : ¬ c.val.toNat ≤ 127 := Nat.not_le.mpr hc
  rw [String.utf8EncodeChar.eq_1, if_neg hvalue] at hb
  split at hb
  · simp only [List.mem_cons, List.not_mem_nil, or_false] at hb
    rcases hb with rfl | rfl <;> simp only [UInt8.toNat_ofNat'] <;> omega
  split at hb
  · simp only [List.mem_cons, List.not_mem_nil, or_false] at hb
    rcases hb with rfl | rfl | rfl <;> simp only [UInt8.toNat_ofNat'] <;> omega
  · simp only [List.mem_cons, List.not_mem_nil, or_false] at hb
    rcases hb with rfl | rfl | rfl | rfl <;> simp only [UInt8.toNat_ofNat'] <;> omega

theorem lowerByte_of_high {b : UInt8} (h : 127 < b.toNat) : lowerByte b = b := by
  rw [lowerByte, if_neg]
  simp only [Bool.and_eq_true, decide_eq_true_eq, UInt8.le_iff_toNat_le]
  intro hcapital
  have htop : (0x5A : UInt8).toNat = 0x5A := rfl
  omega

theorem toLower_of_high {c : Char} (h : 127 < c.toNat) : c.toLower = c := by
  have hnot : ¬ (c.val ≥ 'A'.val ∧ c.val ≤ 'Z'.val) := by
    rintro ⟨-, htop⟩
    have hle : c.toNat ≤ 0x5A := htop
    omega
  exact dif_neg hnot

theorem map_lowerByte_of_ascii (n : Fin 128) :
    (String.utf8EncodeChar (.ofNat n)).map lowerByte =
      String.utf8EncodeChar (Char.ofNat n).toLower := by
  decide +revert

theorem map_lowerByte_utf8EncodeChar (c : Char) :
    (String.utf8EncodeChar c).map lowerByte = String.utf8EncodeChar c.toLower := by
  by_cases hc : 127 < c.toNat
  · rw [toLower_of_high hc]
    conv_rhs => rw [← List.map_id (String.utf8EncodeChar c)]
    exact List.map_congr_left fun b hb => lowerByte_of_high (high_of_mem_utf8EncodeChar hc hb)
  · have h := map_lowerByte_of_ascii ⟨c.toNat, by omega⟩
    rwa [Char.ofNat_toNat] at h

theorem map_lowerByte_utf8 (t : Text) : (utf8 t).map lowerByte = utf8 (lowerAscii t) := by
  induction t with
  | nil => rfl
  | cons c t ih =>
    rw [utf8_cons, List.map_append, ih, map_lowerByte_utf8EncodeChar]
    rfl

end CompletionSnippets.Text
