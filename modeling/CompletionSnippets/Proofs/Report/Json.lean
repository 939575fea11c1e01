import CompletionSnippets.Proofs.Json.Reading
import CompletionSnippets.Proofs.Json.Writing
import CompletionSnippets.Report.Json
import Mathlib.Data.List.Forall2

/-!
# Reports read back

A report is written as one line, and what is read from the line is one object. Its keys are
those of the parts that the report has, in a fixed order, and under each key stands what the
report says: every text as it is, every number as a numeral of its value. So nothing of a
report is lost or changed on its way through JSON, whatever characters its texts hold.
-/
namespace CompletionSnippets
open Json Json.Value

section Members
variable {holds : Value → Prop} {key : String}

theorem forall_member {v : Value} : (∀ m ∈ member key v, holds m.2) ↔ holds v :=
  List.forall_mem_singleton

theorem forall_member? {v : Option Value} :
    (∀ m ∈ member? key v, holds m.2) ↔ ∀ w ∈ v, holds w := by
  cases v <;> simp [member?]

theorem forall_member?_map {α : Type} {toValue : α → Value} {x : Option α} :
    (∀ m ∈ member? key (x.map toValue), holds m.2) ↔ ∀ a ∈ x, holds (toValue a) := by
  cases x <;> simp [member?]

end Members

def keysPresent (keys : List (String × Bool)) : List Text :=
  (keys.filter Prod.snd).map fun key => key.1.toList

/-- The numeral of the number stands under the key. -/
def HoldsNumber (members : List (Text × Value)) (key : String) (n : Nat) : Prop :=
  ∃ literal, members.lookup key.toList = some (.number literal) ∧ literal.natural? = some n

/-- The string stands under the key. -/
def HoldsString (members : List (Text × Value)) (key : String) (t : Text) : Prop :=
  members.lookup key.toList = some (.string t)

/-- The members say what the summary says. -/
structure Summary.ToldBy (s : Summary) (members : List (Text × Value)) : Prop where
  keys : members.map Prod.fst = keysPresent [("elapsedMs", true), ("timeout", true),
    ("mode", true), ("candidates", true), ("suggestions", true),
    ("prefixLength", s.prefixLength.isSome)]
  elapsedMs : HoldsNumber members "elapsedMs" s.elapsedMs
  timedOut : members.lookup "timeout".toList = some (.bool s.timedOut)
  detail : HoldsString members "mode" s.detail
  candidates : HoldsNumber members "candidates" s.candidates
  suggestions : HoldsNumber members "suggestions" s.suggestions
  prefixLength : ∀ n ∈ s.prefixLength, HoldsNumber members "prefixLength" n

/-- The members say what the suggestion says. -/
structure Suggestion.ToldBy (s : Suggestion) (members : List (Text × Value)) : Prop where
  keys : members.map Prod.fst = keysPresent [("text", true), ("displayText", true),
    ("snippet", s.snippet.isSome), ("type", true), ("leftLabel", true), ("rightLabel", true),
    ("replacementPrefix", true), ("package", !s.package.isEmpty)]
  text : HoldsString members "text" s.text
  displayText : HoldsString members "displayText" s.displayText
  snippet : ∀ t ∈ s.snippet, HoldsString members "snippet" t
  kind : HoldsString members "type" s.kind.label
  leftLabel : HoldsString members "leftLabel" s.leftLabel
  rightLabel : HoldsString members "rightLabel" s.rightLabel
  replaced : HoldsString members "replacementPrefix" s.replaced
  package : s.package ≠ [] → HoldsString members "package" s.package

/-- The members say what the report says, part by part. -/
structure Report.ToldBy (r : Report) (members : List (Text × Value)) : Prop where
  keys : members.map Prod.fst = keysPresent [("meta", r.summary.isSome),
    ("error", r.error.isSome), ("suggestions", r.suggestions.isSome)]
  summary : ∀ s ∈ r.summary, ∃ parts, members.lookup "meta".toList = some (.object parts) ∧
    s.ToldBy parts
  error : ∀ t ∈ r.error, HoldsString members "error" t
  suggestions : ∀ ss ∈ r.suggestions, ∃ objects,
    members.lookup "suggestions".toList = some (.array (objects.map .object)) ∧
      List.Forall₂ Suggestion.ToldBy ss objects

namespace Summary

/-- All numbers of the summary have 64 bits. -/
structure InWords (s : Summary) : Prop where
  elapsedMs : s.elapsedMs < Text.wordLimit
  candidates : s.candidates < Text.wordLimit
  suggestions : s.suggestions < Text.wordLimit
  prefixLength : ∀ n ∈ s.prefixLength, n < Text.wordLimit

theorem toldBy_toJson {s : Summary} (h : s.InWords) :
    ∃ members, s.toJson = .object members ∧ s.ToldBy members := by
  refine ⟨_, rfl, ?_⟩
  obtain ⟨elapsedMs, timedOut, detail, candidates, suggestions, prefixLength⟩ := s
  constructor
  case keys => cases prefixLength <;> rfl
  case elapsedMs => exact ⟨_, rfl, Number.natural?_ofNat h.elapsedMs⟩
  case timedOut => rfl
  case detail => rfl
  case candidates => exact ⟨_, rfl, Number.natural?_ofNat h.candidates⟩
  case suggestions => exact ⟨_, rfl, Number.natural?_ofNat h.suggestions⟩
  case prefixLength =>
    intro n hn
    cases hn
    exact ⟨_, rfl, Number.natural?_ofNat (h.prefixLength _ rfl)⟩

theorem rendered_toJson {s : Summary} (h : s.InWords) : Rendered 1 s.toJson := by
  refine rendered_object ?_
  simp only [List.forall_mem_append, forall_member, forall_member?_map, and_assoc]
  refine ⟨?_, ?_, ?_, ?_, ?_, ?_⟩
  · exact rendered_natural 0 h.elapsedMs
  · exact rendered_bool 0 s.timedOut
  · exact rendered_string 0 s.detail
  · exact rendered_natural 0 h.candidates
  · exact rendered_natural 0 h.suggestions
  · exact fun n hn => rendered_natural 0 (h.prefixLength n hn)

end Summary

namespace Suggestion

theorem toldBy_toJson (s : Suggestion) :
    ∃ members, s.toJson = .object members ∧ s.ToldBy members := by
  refine ⟨_, rfl, ?_⟩
  obtain ⟨text, displayText, snippet, kind, leftLabel, rightLabel, replaced, package⟩ := s
  constructor
  case keys => cases snippet <;> cases package <;> rfl
  case text => rfl
  case displayText => rfl
  case snippet =>
    intro t ht
    cases ht
    rfl
  case kind => cases snippet <;> rfl
  case leftLabel => cases snippet <;> rfl
  case rightLabel => cases snippet <;> rfl
  case replaced => cases snippet <;> rfl
  case package =>
    intro hne
    cases package with
    | nil => contradiction
    | cons c t => cases snippet <;> rfl

theorem rendered_toJson (s : Suggestion) : Rendered 1 s.toJson := by
  have hpackage : ∀ v ∈ (if s.package.isEmpty then none else some (Value.string s.package)),
      Rendered 0 v := by
    split
    · nofun
    · rintro v ⟨⟩
      exact rendered_string 0 s.package
  refine rendered_object ?_
  simp only [List.forall_mem_append, forall_member, forall_member?_map, forall_member?, and_assoc]
  exact ⟨rendered_string 0 _, rendered_string 0 _, fun t _ => rendered_string 0 t,
    rendered_string 0 _, rendered_string 0 _, rendered_string 0 _, rendered_string 0 _, hpackage⟩

end Suggestion

namespace Report

theorem exists_objects (ss : List Suggestion) :
    ∃ objects, ss.map Suggestion.toJson = objects.map .object ∧
      List.Forall₂ Suggestion.ToldBy ss objects := by
  induction ss with
  | nil => exact ⟨[], rfl, .nil⟩
  | cons s ss ih =>
    obtain ⟨objects, hmap, htold⟩ := ih
    obtain ⟨members, hobject, hmembers⟩ := s.toldBy_toJson
    exact ⟨members :: objects, by rw [List.map_cons, hobject, hmap, List.map_cons],
      .cons hmembers htold⟩

theorem toldBy_toJson {r : Report} (h : ∀ s ∈ r.summary, s.InWords) :
    ∃ members, r.toJson = .object members ∧ r.ToldBy members := by
  refine ⟨_, rfl, ?_⟩
  obtain ⟨summary, error, suggestions⟩ := r
  constructor
  case keys => cases summary <;> cases error <;> cases suggestions <;> rfl
  case summary =>
    intro s hs
    cases hs
    obtain ⟨parts, hparts, htold⟩ := Summary.toldBy_toJson (h s rfl)
    exact ⟨parts, congrArg some hparts, htold⟩
  case error =>
    intro t ht
    cases ht
    cases summary <;> rfl
  case suggestions =>
    intro ss hss
    cases hss
    obtain ⟨objects, hmap, htold⟩ := exists_objects ss
    refine ⟨objects, ?_, htold⟩
    rw [← hmap]
    cases summary <;> cases error <;> rfl

theorem rendered_toJson {r : Report} (h : ∀ s ∈ r.summary, s.InWords) : Rendered 3 r.toJson := by
  refine rendered_object ?_
  simp only [List.forall_mem_append, forall_member?_map, and_assoc]
  refine ⟨fun s hs => ?_, fun t _ => rendered_string 2 t, fun ss _ => rendered_array ?_⟩
  · exact (Summary.rendered_toJson (h s hs)).mono (by decide)
  · exact List.forall_mem_map.mpr fun s _ => s.rendered_toJson

theorem exists_told {r : Report} (h : ∀ s ∈ r.summary, s.InWords) :
    ∃ members, Value.read r.renderJson = .ok (.object members) ∧ r.ToldBy members := by
  have hrendered := rendered_toJson h
  obtain ⟨members, hobject, htold⟩ := toldBy_toJson h
  have halone : r.toJson.WrittenAlone r.renderJson :=
    ⟨[], _, ['\n'], blanks_nil, hrendered.written, by decide, rfl⟩
  have hdepth : r.toJson.depth ≤ Step.nestingLimit :=
    Nat.le_trans hrendered.depth_le (by decide)
  refine ⟨members, ?_, htold⟩
  rw [read_written halone hdepth, hobject]

/-- A report is written as one line, and what is read from it is one object that says what the
report says. -/
theorem read_renderJson {r : Report} (h : ∀ s ∈ r.summary, s.InWords) :
    (∃ line, r.renderJson = line ++ ['\n'] ∧ ∀ c ∈ line, 0x20 ≤ c.toNat) ∧
      ∃ members, Value.read r.renderJson = .ok (.object members) ∧ r.ToldBy members :=
  ⟨⟨_, rfl, (rendered_toJson h).printed⟩, exists_told h⟩

/-- A report with the greatest number and with texts that have to be escaped. -/
def escaped : Report where
  summary := some {
    elapsedMs := 18446744073709551615, timedOut := false, detail := "\"\x7d".toList
    candidates := 0, suggestions := 1, prefixLength := some 10 }
  error := some "a\nb\u0001".toList
  suggestions := some [{
    text := "\u001f\u007f".toList, displayText := "\\u00e9".toList, snippet := none
    kind := .package, leftLabel := [], rightLabel := "\t\u2028".toList
    replaced := "😀".toList, package := [] }]

theorem read_renderJson_escaped :
    (∀ s ∈ escaped.summary, s.InWords) ∧
      (∃ line, escaped.renderJson = line ++ ['\n'] ∧ ∀ c ∈ line, 0x20 ≤ c.toNat) ∧
        ∃ members, Value.read escaped.renderJson = .ok (.object members) ∧
          escaped.ToldBy members := by
  have hwords : ∀ s ∈ escaped.summary, s.InWords := by
    rintro s ⟨⟩
    exact ⟨by decide, by decide, by decide, by simp [Text.wordLimit]⟩
  exact ⟨hwords, read_renderJson hwords⟩

end Report
end CompletionSnippets
