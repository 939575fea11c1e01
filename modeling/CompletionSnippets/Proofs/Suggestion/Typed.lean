import CompletionSnippets.Proofs.Filter
import CompletionSnippets.Proofs.Utf8
import CompletionSnippets.Suggestion
import Mathlib.Data.List.Infix

/-!
# What was typed

A candidate is kept when the bytes of its name begin with those of what was typed, whatever the
case of ASCII letters. On the characters that says the same: some beginning of the name and what
was typed are equal when their ASCII capitals are made small. So who types on only loses
candidates, and a filter of what was typed keeps all of those that are left.
-/
namespace CompletionSnippets
open Text

namespace Selection

/-- The test compares as many bytes of the name as were typed. -/
theorem startsWith_iff_take {name typed : Text} :
    startsWith name typed ↔ (utf8 typed).length ≤ (utf8 name).length ∧
      ((utf8 name).take (utf8 typed).length).map lowerByte = (utf8 typed).map lowerByte := by
  rw [startsWith, List.isPrefixOf_iff_prefix, List.prefix_iff_eq_take, List.length_map,
    List.map_take]
  constructor
  · intro h
    have hlength := congrArg List.length h
    rw [List.length_map, List.length_take, List.length_map] at hlength
    exact ⟨by omega, h.symm⟩
  · rintro ⟨-, h⟩
    exact h.symm

theorem startsWith_iff {name typed : Text} :
    startsWith name typed ↔ typed.lowerAscii <+: name.lowerAscii := by
  rw [startsWith, List.isPrefixOf_iff_prefix, map_lowerByte_utf8, map_lowerByte_utf8,
    utf8_prefix_iff]

theorem startsWith_iff_exists {name typed : Text} :
    startsWith name typed ↔
      ∃ a b : Text, name = a ++ b ∧ a.lowerAscii = typed.lowerAscii := by
  rw [startsWith_iff]
  constructor
  · intro h
    obtain ⟨a, ⟨b, rfl⟩, ha⟩ := List.prefix_map_iff.mp h
    exact ⟨a, b, rfl, ha.symm⟩
  · rintro ⟨a, b, rfl, ha⟩
    exact ⟨b.lowerAscii, by rw [← ha, lowerAscii, lowerAscii, lowerAscii, List.map_append]⟩

theorem startsWith_of_isPrefix {name typed shorter : Text} (hshorter : shorter <+: typed)
    (h : startsWith name typed) : startsWith name shorter := by
  rw [startsWith_iff] at h ⊢
  exact (hshorter.map Char.toLower).trans h

/-- A name that starts with what was typed holds it as a term. -/
theorem keeps_literal_of_startsWith {name typed : Text} (h : startsWith name typed) :
    (Filter.literal typed).keeps name :=
  Filter.holdsTerm_iff.mpr (startsWith_iff.mp h).isInfix

theorem isSome_suggestion?_iff {s : Selection} {c : Candidate} :
    (s.suggestion? c).isSome ↔
      startsWith c.name s.typed ∧ s.filter.all (fun f => f.keeps c.name) = true := by
  rw [suggestion?, ← Bool.and_eq_true]
  split <;> simp_all

/-- A suggestion depends on what was typed in the text that it replaces. -/
theorem ofCandidate_shorter (detail : Detail) (typed shorter : Text) (c : Candidate) :
    { Suggestion.ofCandidate detail typed c with replaced := shorter } =
      Suggestion.ofCandidate detail shorter c := by
  unfold Suggestion.ofCandidate
  cases Kind.ofCategory c.category <;> try rfl
  cases Signature.ofText? c.type <;> rfl

theorem suggestion?_of_isPrefix {s : Selection} {c : Candidate} {x : Suggestion} {shorter : Text}
    (hshorter : shorter <+: s.typed) (h : s.suggestion? c = some x) :
    { s with typed := shorter }.suggestion? c = some { x with replaced := shorter } := by
  obtain ⟨hstarts, hkeeps⟩ := isSome_suggestion?_iff.mp (Option.isSome_of_eq_some h)
  rw [suggestion?, hstarts, hkeeps] at h
  obtain rfl := Option.some.inj h
  rw [ofCandidate_shorter, suggestion?, startsWith_of_isPrefix hshorter hstarts, hkeeps]
  rfl

/-- When less was typed, the suggestions that there were are still there, for the shorter text. -/
theorem suggestions_of_isPrefix {s : Selection} {shorter : Text} (hshorter : shorter <+: s.typed)
    (cancelled : Bool) (cs : List Candidate) :
    ((s.suggestions cancelled cs).map fun x => { x with replaced := shorter }).Sublist
      ({ s with typed := shorter }.suggestions cancelled cs) := by
  unfold suggestions
  split
  · exact .slnil
  rw [List.map_filterMap]
  induction cs with
  | nil => exact .slnil
  | cons c cs ih =>
    cases hc : s.suggestion? c with
    | none =>
      rw [List.filterMap_cons_none (by rw [hc]; rfl)]
      exact ih.trans (List.Sublist.filterMap _ (List.sublist_cons_self c cs))
    | some x =>
      have hkept := suggestion?_of_isPrefix hshorter hc
      rw [List.filterMap_cons_some (by rw [hc]; rfl), List.filterMap_cons_some hkept]
      exact ih.cons_cons _

/-- What was typed, taken as the term of a filter, refuses no candidate that starts with it. -/
theorem suggestion?_literal (s : Selection) (c : Candidate) :
    { s with filter := some (.literal s.typed) }.suggestion? c =
      { s with filter := none }.suggestion? c := by
  by_cases h : startsWith c.name s.typed
  · simp [suggestion?, h, keeps_literal_of_startsWith h]
  · simp [suggestion?, h]

/-- The test on bytes holds just when a beginning of the name is what was typed, whatever the case
of ASCII letters. A candidate that is kept is kept too when less of that was typed; and when no
bar was typed, it passes the filter with the typed text, which then removes no suggestion. So all
suggestions stay in their order, but for the text that they replace, when less was typed. -/
theorem startsWith_typed (s : Selection) :
    (∀ name, startsWith name s.typed ↔ (utf8 s.typed).length ≤ (utf8 name).length ∧
      ((utf8 name).take (utf8 s.typed).length).map lowerByte = (utf8 s.typed).map lowerByte) ∧
    (∀ name, startsWith name s.typed ↔
      ∃ a b : Text, name = a ++ b ∧ a.lowerAscii = s.typed.lowerAscii) ∧
    (∀ c shorter, (s.suggestion? c).isSome → shorter <+: s.typed →
      ({ s with typed := shorter }.suggestion? c).isSome) ∧
    (∀ cancelled cs shorter, shorter <+: s.typed →
      ((s.suggestions cancelled cs).map fun x => { x with replaced := shorter }).Sublist
        ({ s with typed := shorter }.suggestions cancelled cs)) ∧
    ('|' ∉ s.typed → ∀ engine, ∃ f, Filter.build engine s.typed false = .ok f ∧
      (∀ c, (s.suggestion? c).isSome → f.keeps c.name) ∧
      ∀ cancelled cs, { s with filter := some f }.suggestions cancelled cs =
        { s with filter := none }.suggestions cancelled cs) := by
  refine ⟨fun name => startsWith_iff_take, fun name => startsWith_iff_exists,
    fun c shorter h hshorter => ?_, fun cancelled cs shorter hshorter => ?_, fun hbar engine =>
      ⟨.literal s.typed, Filter.build_of_noBar hbar, fun c h => ?_, fun cancelled cs => ?_⟩⟩
  · obtain ⟨x, hx⟩ := Option.isSome_iff_exists.mp h
    exact Option.isSome_of_eq_some (suggestion?_of_isPrefix hshorter hx)
  · exact suggestions_of_isPrefix hshorter cancelled cs
  · exact keeps_literal_of_startsWith (isSome_suggestion?_iff.mp h).1
  · rw [suggestions, suggestions, funext (suggestion?_literal s)]

/-- What was typed ends with a letter that is not ASCII. -/
def accented : Selection where
  detail := .name
  typed := "prÉ".toList

/-- A capital that is not ASCII is kept apart from its small letter, and less typed keeps both. -/
theorem startsWith_typed_accented :
    let upper : Candidate := { category := "var".toList, name := "PrÉs".toList }
    let lower : Candidate := { category := "var".toList, name := "Prés".toList }
    (accented.suggestion? upper).isSome ∧ accented.suggestion? lower = none ∧
      (∃ a b : Text, upper.name = a ++ b ∧ a.lowerAscii = accented.typed.lowerAscii) ∧
      (¬ ∃ a b : Text, lower.name = a ++ b ∧ a.lowerAscii = accented.typed.lowerAscii) ∧
      ({ accented with typed := ['p', 'r'] }.suggestion? upper).isSome ∧
      ∃ f, Filter.build Filter.letters accented.typed false = .ok f ∧ f.keeps upper.name := by
  intro upper lower
  have hupper : (accented.suggestion? upper).isSome := by decide
  have hlower : accented.suggestion? lower = none := by decide
  obtain ⟨-, hiff, hshorter, -, hfilter⟩ := startsWith_typed accented
  obtain ⟨f, hf, hkeeps, -⟩ := hfilter (by decide) Filter.letters
  exact ⟨hupper, hlower, (hiff upper.name).mp (by decide), (hiff lower.name).not.mp (by decide),
    hshorter upper ['p', 'r'] hupper (by decide), f, hf, hkeeps upper hupper⟩

end Selection
end CompletionSnippets
