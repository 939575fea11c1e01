import CompletionSnippets.Proofs.Candidate.Rendering
import CompletionSnippets.Proofs.Json.Closing

/-!
# Replies that were cut off

A reply that is not blank is one array. When the text ends anywhere between the first and the
last bracket of that array, be it inside a number, a string or an escape, the text is no JSON.
It is never taken for a shorter reply, and its shape is never asked for.
-/
namespace CompletionSnippets.Reply
open Json

theorem exists_array_of_ofValue? {v : Value} {r : Reply} (h : ofValue? v = some r) :
    ∃ items, v = .array items := by
  unfold ofValue? at h
  split at h
  · exact ⟨_, rfl⟩
  · exact ⟨_, rfl⟩
  · cases h

/-- A reply that is not blank is an array with only blanks behind it. -/
theorem exists_scan_of_ofJson {t : Text} {r : Reply} (h : ofJson t = .ok r)
    (ht : ¬ t.isAllBlank) : ∃ items, Value.scan t = .ok (.array items, []) := by
  rw [ofJson, if_neg ht] at h
  split at h
  · cases h
  rename_i v rest hscan
  split at h
  · cases h
  rename_i reply hvalue
  split at h
  · rename_i hrest
    obtain ⟨items, rfl⟩ := exists_array_of_ofValue? hvalue
    obtain rfl := List.isEmpty_iff.mp hrest
    exact ⟨items, hscan⟩
  · cases h

theorem ofJson_of_ofText {t : Text} {r : Reply} (h : ofText .json t = .ok r) :
    ofJson t = .ok r := by
  simp only [ofText, written, bind, Except.bind] at h
  cases hjson : ofJson t with
  | error fault =>
    rw [hjson] at h
    cases h
  | ok reply =>
    rw [hjson] at h
    simp only [Except.mapError] at h
    split at h
    · cases h
    · cases h
      rfl

theorem ofText_of_scan {t : Text} {fault : Json.Fault} (ht : ¬ t.isAllBlank)
    (h : Value.scan t = .error fault) : ofText .json t = .error (.noReply (.notJson fault)) := by
  have hjson : ofJson t = .error (.notJson fault) := by
    rw [ofJson, if_neg ht, h]
  simp only [ofText, written, hjson, Except.mapError, bind, Except.bind]

/-- A reply that is not blank stands between two brackets. Every beginning of it that holds the
first of them and not the last is refused as no JSON. -/
theorem ofText_cut {t : Text} {r : Reply} (h : ofText .json t = .ok r) (ht : ¬ t.isAllBlank) :
    ∃ before inside behind : Text, Blanks before ∧ Blanks behind ∧
      t = before ++ '[' :: (inside ++ ']' :: behind) ∧
      ∀ cut, cut <+: inside →
        ∃ fault, ofText .json (before ++ '[' :: cut) = .error (.noReply (.notJson fault)) := by
  obtain ⟨items, hscan⟩ := exists_scan_of_ofJson (ofJson_of_ofText h) ht
  obtain ⟨before, inside, behind, hbefore, hbehind, rfl, hcut⟩ := Value.scan_cut hscan
  refine ⟨before, inside, behind, hbefore, hbehind, rfl, fun cut hinside => ?_⟩
  obtain ⟨fault, hfault⟩ := hcut cut hinside
  have hblank : ¬ (before ++ '[' :: cut).isAllBlank := by
    intro hall
    exact absurd (List.all_eq_true.mp hall '[' (by simp)) (by decide)
  exact ⟨fault, ofText_of_scan hblank hfault⟩

theorem ofText_cut_strange :
    ofText .json strangeText = .ok { prefixLength := 7, candidates := [strange, crash] } ∧
      ¬ strangeText.isAllBlank ∧
      ∃ before inside behind : Text, Blanks before ∧ Blanks behind ∧
        strangeText = before ++ '[' :: (inside ++ ']' :: behind) ∧
        ∀ cut, cut <+: inside →
          ∃ fault, ofText .json (before ++ '[' :: cut) = .error (.noReply (.notJson fault)) := by
  have hmembers :
      List.Forall₂ Candidate.MembersOf [strange, crash] [strangeMembers, crashMembers] :=
    .cons membersOf_strange (.cons membersOf_crash .nil)
  have hwritten : written .json strangeText =
      .ok { prefixLength := 7, candidates := [strange, crash] } := by
    rw [written, ofJson_written (by decide) hmembers writtenAlone_strange (by decide)]
    rfl
  have hread := (ofText_of_written hwritten).1 fun c hc => by simp at hc
  have hblank : ¬ strangeText.isAllBlank := by decide
  exact ⟨hread, hblank, ofText_cut hread hblank⟩

end CompletionSnippets.Reply
