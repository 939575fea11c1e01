import CompletionSnippets.Proofs.Outline
import CompletionSnippets.Signature.Reading

/-!
# Reading signatures to any depth

Here a text is read as a signature in the same way as before, except that function
types are read at every level, however deep. The type of an entry is a part of the
entry, and an entry is strictly shorter than the function type that it stands in,
so the reading comes to an end on every text without a count of levels.
-/
namespace CompletionSnippets

namespace Entry
open Text

theorem trim_divide {raw : Text} (h : raw.trim = raw) : trim (divide raw).2 = (divide raw).2 := by
  unfold divide
  split
  · exact h
  split
  · rename_i first rest hb
    have hsuffix : trimStart rest <:+ raw := by
      have hr := append_of_breakAtBlank? hb
      rw [List.reverse_nil, List.nil_append] at hr
      exact (trimStart_isSuffix rest).trans ⟨first, hr⟩
    rw [trim_eq_self_iff]
    exact ⟨trimStart_trimStart rest,
      trimEnd_eq_self_of_isSuffix hsuffix (trim_eq_self_iff.mp h).2⟩
  · exact h

theorem length_divide_le (raw : Text) : (divide raw).2.length ≤ raw.length := by
  unfold divide
  split
  · exact Nat.le_refl _
  split
  · rename_i first rest hb
    have hlen := congrArg List.length (append_of_breakAtBlank? hb)
    have hrest := (trimStart_isSuffix rest).length_le
    simp only [List.length_append, List.reverse_nil, List.length_nil] at hlen ⊢
    omega
  · exact Nat.le_refl _

theorem length_lt_of_mem_tokens {token x : Text} {o : Outline}
    (h : Outline.of? (divide token.trim).2 = some o)
    (hx : x ∈ o.paramTokens ∨ x ∈ o.resultTokens) : x.length < token.length :=
  (Outline.length_lt_of_mem_tokens h hx).trans_le
    ((length_divide_le _).trans (length_trim_le token))

/-- The entry that a token denotes when function types are read at every level. -/
def ofTokenUnlimited (token : Text) : Entry :=
  match _ho : Outline.of? (divide token.trim).2 with
  | some o =>
    .func token.trim (divide token.trim).1
      { raw := o.whole
        params := o.paramTokens.attach.map fun x => ofTokenUnlimited x.1
        results := o.resultTokens.attach.map fun x => ofTokenUnlimited x.1 }
  | none => .plain token.trim (divide token.trim).1 (divide token.trim).2
termination_by token.length
decreasing_by
  · exact length_lt_of_mem_tokens _ho (.inl x.2)
  · exact length_lt_of_mem_tokens _ho (.inr x.2)

end Entry

namespace Signature

/-- The signature with the given outline, its entries read to any depth. -/
def ofOutlineUnlimited (o : Outline) : Signature where
  raw := o.whole
  params := o.paramTokens.map Entry.ofTokenUnlimited
  results := o.resultTokens.map Entry.ofTokenUnlimited

/-- The signature that a text denotes when function types are read at every level, or
the trimmed text that is none. -/
def readUnlimited (t : Text) : Except NotFunctionType Signature :=
  match Outline.of? t with
  | some o => .ok (ofOutlineUnlimited o)
  | none => .error ⟨t.trim⟩

end Signature

namespace Entry

theorem ofTokenUnlimited_of_none {token : Text}
    (h : Outline.of? (divide token.trim).2 = none) :
    ofTokenUnlimited token =
      .plain token.trim (divide token.trim).1 (divide token.trim).2 := by
  rw [ofTokenUnlimited]
  split
  · rename_i o ho
    rw [h] at ho
    contradiction
  · rfl

theorem ofTokenUnlimited_of_some {token : Text} {o : Outline}
    (h : Outline.of? (divide token.trim).2 = some o) :
    ofTokenUnlimited token =
      .func token.trim (divide token.trim).1 (Signature.ofOutlineUnlimited o) := by
  rw [ofTokenUnlimited]
  split
  · rename_i o' ho
    rw [h] at ho
    obtain rfl := Option.some.inj ho
    rw [List.attach_map_val (f := ofTokenUnlimited), List.attach_map_val (f := ofTokenUnlimited)]
    rfl
  · rename_i hn
    rw [h] at hn
    contradiction

end Entry
end CompletionSnippets
