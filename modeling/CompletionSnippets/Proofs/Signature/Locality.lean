import CompletionSnippets.Proofs.Signature.KeptText

/-!
# Nodes that depend on their own text alone

A signature that is read to any depth is read in the same way wherever it stands: as the type
of a parameter, in a list of results, alone behind the parameters, at any level, and by itself.
The nesting limit is the only thing that tells levels apart, and where no notice was given it
changed nothing. Then every node read alone from its own text is the same node again, since its
depth and its level together are no more than the depth of the whole.
-/
namespace CompletionSnippets
open Text Outline

theorem Entry.ofTokenUnlimited_trim (token : Text) :
    ofTokenUnlimited token.trim = ofTokenUnlimited token := by
  cases ho : of? (divide token.trim).2 with
  | none =>
    have htrim := ofTokenUnlimited_of_none (by rwa [trim_trim])
    rw [ofTokenUnlimited_of_none ho, htrim, trim_trim]
  | some o =>
    rw [ofTokenUnlimited_of_some ho, ofTokenUnlimited_of_some (by rwa [trim_trim]), trim_trim]

theorem Entry.raw_ofTokenUnlimited (token : Text) : (ofTokenUnlimited token).raw = token.trim := by
  cases ho : of? (divide token.trim).2 with
  | none => rw [ofTokenUnlimited_of_none ho, raw]
  | some o => rw [ofTokenUnlimited_of_some ho, raw]

theorem Entry.depth_of_signature? {e : Entry} {g : Signature} (h : e.signature? = some g) :
    e.depth = g.depth + 1 := by
  cases e with
  | plain raw identifier type => contradiction
  | func raw identifier signature =>
    obtain rfl := Option.some.inj h
    rw [depth]

namespace Signature

theorem depth_le_of_mem {f : Signature} {e : Entry} (he : e ∈ f.params ++ f.results) :
    e.depth ≤ f.depth := by
  obtain ⟨hparams, hresults⟩ := depth_le_iff.mp (Nat.le_refl f.depth)
  exact (List.mem_append.mp he).elim (hparams e) (hresults e)

theorem NodeAt.depth_add_le {s f : Signature} {n : Nat} (h : s.NodeAt n f) :
    f.depth + n ≤ s.depth := by
  induction h with
  | root => exact Nat.le_refl _
  | entry _ he hg ih =>
    have hentry := depth_le_of_mem he
    rw [Entry.depth_of_signature? hg] at hentry
    omega

theorem NodeAt.exists_outline_unlimited {t : Text} {o : Outline} {n : Nat} {f : Signature}
    (ho : of? t = some o) (h : NodeAt (ofOutlineUnlimited o) n f) :
    ∃ t' o', of? t' = some o' ∧ f = ofOutlineUnlimited o' := by
  induction h with
  | root => exact ⟨t, o, ho, rfl⟩
  | entry _ he hg ih =>
    obtain ⟨t', o', -, rfl⟩ := ih
    simp only [ofOutlineUnlimited, ← List.map_append] at he
    obtain ⟨token, -, rfl⟩ := List.mem_map.mp he
    cases ho' : of? (Entry.divide token.trim).2 with
    | none =>
      rw [Entry.ofTokenUnlimited_of_none ho'] at hg
      contradiction
    | some o'' =>
      rw [Entry.ofTokenUnlimited_of_some ho'] at hg
      exact ⟨_, o'', ho', (Option.some.inj hg).symm⟩

/-- What is read without a notice is what is read to any depth, and it is within the limit. -/
theorem eq_unlimited_of_notices {t : Text} {o : Outline} (ho : of? t = some o)
    (h : notices t = []) :
    ofOutline nestingLimit o = ofOutlineUnlimited o ∧
      (ofOutlineUnlimited o).depth ≤ nestingLimit := by
  rw [notices_of_outline ho, List.replicate_eq_nil_iff, ← truncate_eq_self_iff] at h
  have hdepth := depth_truncate_le nestingLimit (ofOutlineUnlimited o)
  rw [h] at hdepth
  exact ⟨(ofOutline_eq_truncate nestingLimit o).trans h, hdepth⟩

theorem read_of_depth_le {t : Text} {o : Outline} (ho : of? t = some o)
    (h : (ofOutlineUnlimited o).depth ≤ nestingLimit) : read t = .ok (ofOutlineUnlimited o) := by
  rw [read, ofText?, ho, Option.map_some, ofOutline_eq_truncate, truncate_of_depth_le h]

theorem ofText_of_depth_le {token : Text}
    (h : (Entry.ofTokenUnlimited token).depth ≤ nestingLimit) :
    Entry.ofText token = Entry.ofTokenUnlimited token := by
  rw [Entry.ofText, Entry.ofToken_eq_truncate, Entry.truncate_eq_self_iff]
  exact Entry.functionsBelow_of_depth_le _ _ h

/-- Where no notice is given, every function type in a signature is read alone from its text as
it stands there, and so is every entry, whatever blanks are put around it. -/
theorem read_alone {t : Text} {s : Signature} (hread : read t = .ok s) (hnotices : notices t = []) :
    (∀ n g, s.NodeAt n g → read g.raw = .ok g) ∧
      ∀ level e, s.EntryAt level e → Entry.ofText e.raw = e ∧
        ∀ before after : Text, before.isAllBlank → after.isAllBlank →
          Entry.ofText (before ++ e.raw ++ after) = e := by
  obtain ⟨o, ho, rfl⟩ := exists_outline_of_read hread
  obtain ⟨hunlimited, hlimit⟩ := eq_unlimited_of_notices ho hnotices
  rw [hunlimited]
  constructor
  · intro n g hg
    have hdepth := hg.depth_add_le
    obtain ⟨t', o', ho', rfl⟩ := hg.exists_outline_unlimited ho
    have hraw : (ofOutlineUnlimited o').raw = t'.trim := whole_eq_trim ho'
    rw [hraw]
    exact read_of_depth_le ((of?_trim t').trans ho') (by omega)
  · rintro level e ⟨hf, he⟩
    have hdepth := (depth_le_of_mem he).trans (Nat.le_of_add_right_le hf.depth_add_le)
    obtain ⟨t', o', -, rfl⟩ := hf.exists_outline_unlimited ho
    simp only [ofOutlineUnlimited, ← List.map_append] at he
    obtain ⟨token, -, rfl⟩ := List.mem_map.mp he
    -- only the trimmed text of a token counts, and that is what the entry keeps
    have halone : ∀ text : Text, text.trim = token.trim →
        Entry.ofText text = Entry.ofTokenUnlimited token := by
      intro text htext
      have heq : Entry.ofTokenUnlimited text = Entry.ofTokenUnlimited token := by
        rw [← Entry.ofTokenUnlimited_trim, htext, Entry.ofTokenUnlimited_trim]
      rw [ofText_of_depth_le (by rw [heq]; omega), heq]
    rw [Entry.raw_ofTokenUnlimited]
    refine ⟨halone _ (trim_trim token), fun before after hbefore hafter => halone _ ?_⟩
    rw [trim_append_blanks hafter, trim_append_of_isAllBlank hbefore, trim_trim]

theorem read_alone_crooked :
    read ('\t' :: crooked.raw) = .ok crooked ∧ notices ('\t' :: crooked.raw) = [] ∧
      (∀ n g, crooked.NodeAt n g → read g.raw = .ok g) ∧
      ∀ level e, crooked.EntryAt level e → Entry.ofText e.raw = e ∧
        ∀ before after : Text, before.isAllBlank → after.isAllBlank →
          Entry.ofText (before ++ e.raw ++ after) = e :=
  have hread : read ('\t' :: crooked.raw) = .ok crooked := by cbv
  have hnotices : notices ('\t' :: crooked.raw) = [] := by decide
  ⟨hread, hnotices, read_alone hread hnotices⟩

end Signature
end CompletionSnippets
