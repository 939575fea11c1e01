import CompletionSnippets.Proofs.Yaml.Reader

/-!
# Reports are determined by their text

Reading what was written gives the report back, up to an empty list of suggestions, which
is written like none at all. Each block of lines is read on its own: the lines of a summary
set its fields one after the other, the lines of a suggestion add it to the list, and a
line that is left out leaves its field as the block began it.
-/
namespace CompletionSnippets
open Text

namespace Report

/-- The summary, when there is one, tells one of the three details. -/
def DetailNamed (r : Report) : Prop := ∀ s ∈ r.summary, ∃ d : Detail, s.detail = d.label

/-- The report with an empty list of suggestions taken for none. -/
def condensed (r : Report) : Report :=
  { r with suggestions := r.suggestions.filter fun ss => !ss.isEmpty }

end Report

namespace Yaml

/-- The report with the given summary, however far it is read. -/
def withSummary (r : Report) (s : Summary) : Report := { r with summary := some s }

theorem reads_summaryLines (r : Report) {s : Summary} {d : Detail} (hs : s.detail = d.label) :
    Reads r (summaryLines s) (withSummary r s) := by
  -- What is read so far has the fields of `s` up to the line, and the rest as it began.
  have hbegin : Reads r ["meta:".toList] (withSummary r freshSummary) :=
    ⟨by decide, rfl⟩
  have helapsed : Reads (withSummary r freshSummary)
      (if s.elapsedMs = 0 then [] else [field "  elapsedMs" (decimal s.elapsedMs)])
      (withSummary r { freshSummary with elapsedMs := s.elapsedMs }) := by
    split
    · rename_i hzero
      rw [hzero]
      exact .nil _
    · exact reads_number .elapsedMs (by decide) (by rw [set, ofDecimal_decimal]; rfl)
  have htimeout : Reads (withSummary r { freshSummary with elapsedMs := s.elapsedMs })
      (if s.timedOut then [field "  timeout" "true".toList] else [])
      (withSummary r
        { freshSummary with elapsedMs := s.elapsedMs, timedOut := s.timedOut }) := by
    split
    · rename_i htrue
      rw [htrue]
      exact reads_field .timeout (by decide) (by decide) rfl
    · rename_i hfalse
      rw [Bool.eq_false_iff.mpr hfalse]
      exact .nil _
  have hmode : Reads
      (withSummary r { freshSummary with elapsedMs := s.elapsedMs, timedOut := s.timedOut })
      [field "  mode" s.detail]
      (withSummary r { s with candidates := 0, suggestions := 0, prefixLength := none }) := by
    have hline : '\n' ∉ s.detail := by
      rw [hs]
      cases d <;> decide
    exact reads_field .mode (by decide) hline rfl
  have hcandidates : Reads
      (withSummary r { s with candidates := 0, suggestions := 0, prefixLength := none })
      [field "  candidates" (decimal s.candidates)]
      (withSummary r { s with suggestions := 0, prefixLength := none }) :=
    reads_number .candidates (by decide) (by rw [set, ofDecimal_decimal]; rfl)
  have hsuggestions : Reads
      (withSummary r { s with suggestions := 0, prefixLength := none })
      [field "  suggestions" (decimal s.suggestions)]
      (withSummary r { s with prefixLength := none }) :=
    reads_number .suggestionCount (by decide) (by rw [set, ofDecimal_decimal]; rfl)
  have hprefix : Reads (withSummary r { s with prefixLength := none })
      (s.prefixLength.map fun n => field "  prefixLength" (decimal n)).toList
      (withSummary r s) := by
    obtain ⟨elapsedMs, timedOut, detail, candidates, suggestions, prefixLength⟩ := s
    cases prefixLength with
    | none => exact .nil _
    | some n => exact reads_number .prefixLength (by decide) (by rw [set, ofDecimal_decimal]; rfl)
  have hcounts := hmode.append (hcandidates.append hsuggestions)
  exact (((hbegin.append helapsed).append htimeout).append hcounts).append hprefix

/-- The report with one more suggestion, however far it is read. -/
def withLatest (r : Report) (done : List Suggestion) (s : Suggestion) : Report :=
  { r with suggestions := some (s :: done) }

theorem reads_suggestionLines (r : Report) (done : List Suggestion) (s : Suggestion) :
    Reads { r with suggestions := some done } (suggestionLines s) (withLatest r done s) := by
  obtain ⟨text, displayText, snippet, kind, leftLabel, rightLabel, replaced, package⟩ := s
  have htext : Reads { r with suggestions := some done } [field "- text" (scalar text)]
      (withLatest r done (freshSuggestion text)) :=
    reads_text .text (by decide) (by rw [set, readScalar_scalar]; rfl)
  have hdisplay : Reads (withLatest r done (freshSuggestion text))
      [field "  displayText" (scalar displayText)]
      (withLatest r done { freshSuggestion text with displayText := displayText }) :=
    reads_text .displayText (by decide) (by rw [set, readScalar_scalar]; rfl)
  have hsnippet : Reads
      (withLatest r done { freshSuggestion text with displayText := displayText })
      (snippet.map fun t => field "  snippet" (scalar t)).toList
      (withLatest r done
        { freshSuggestion text with displayText := displayText, snippet := snippet }) := by
    cases snippet with
    | none => exact .nil _
    | some t => exact reads_text .snippet (by decide) (by rw [set, readScalar_scalar]; rfl)
  have hkind : Reads
      (withLatest r done
        { freshSuggestion text with displayText := displayText, snippet := snippet })
      [field "  type" kind.label]
      (withLatest r done ⟨text, displayText, snippet, kind, [], [], [], []⟩) := by
    have hline : '\n' ∉ kind.label := by cases kind <;> decide
    exact reads_field .type (by decide) hline (by rw [set, kind?_label]; rfl)
  have hleft : Reads (withLatest r done ⟨text, displayText, snippet, kind, [], [], [], []⟩)
      (optionalField "  leftLabel" leftLabel)
      (withLatest r done ⟨text, displayText, snippet, kind, leftLabel, [], [], []⟩) :=
    reads_optionalField .leftLabel (by decide) (by rintro rfl; rfl)
      (by rw [set, readScalar_scalar]; rfl)
  have hright : Reads
      (withLatest r done ⟨text, displayText, snippet, kind, leftLabel, [], [], []⟩)
      (optionalField "  rightLabel" rightLabel)
      (withLatest r done ⟨text, displayText, snippet, kind, leftLabel, rightLabel, [], []⟩) :=
    reads_optionalField .rightLabel (by decide) (by rintro rfl; rfl)
      (by rw [set, readScalar_scalar]; rfl)
  have hreplaced : Reads
      (withLatest r done ⟨text, displayText, snippet, kind, leftLabel, rightLabel, [], []⟩)
      (optionalField "  replacementPrefix" replaced)
      (withLatest r done
        ⟨text, displayText, snippet, kind, leftLabel, rightLabel, replaced, []⟩) :=
    reads_optionalField .replacementPrefix (by decide) (by rintro rfl; rfl)
      (by rw [set, readScalar_scalar]; rfl)
  have hpackage : Reads
      (withLatest r done
        ⟨text, displayText, snippet, kind, leftLabel, rightLabel, replaced, []⟩)
      (optionalField "  package" package)
      (withLatest r done
        ⟨text, displayText, snippet, kind, leftLabel, rightLabel, replaced, package⟩) :=
    reads_optionalField .package (by decide) (by rintro rfl; rfl)
      (by rw [set, readScalar_scalar]; rfl)
  have hhead := ((htext.append hdisplay).append hsnippet).append hkind
  exact (((hhead.append hleft).append hright).append hreplaced).append hpackage

/-- The suggestions pile up with the latest first. -/
theorem reads_flatMap_suggestionLines (r : Report) (ss done : List Suggestion) :
    Reads { r with suggestions := some done } (ss.flatMap suggestionLines)
      { r with suggestions := some (ss.reverse ++ done) } := by
  induction ss generalizing done with
  | nil => exact .nil _
  | cons s ss ih =>
    have hrest := ih (s :: done)
    rw [List.flatMap_cons, List.reverse_cons, List.append_assoc, List.singleton_append]
    exact (reads_suggestionLines r done s).append hrest

theorem reads_suggestionsLines (r : Report) {ss : List Suggestion} (hss : ss ≠ []) :
    Reads r (suggestionsLines ss) { r with suggestions := some ss.reverse } := by
  have hbegin : Reads r ["suggestions:".toList] { r with suggestions := some [] } :=
    ⟨by decide, rfl⟩
  have hrest := reads_flatMap_suggestionLines r ss []
  rw [List.append_nil] at hrest
  rw [suggestionsLines, if_neg (by rwa [List.isEmpty_iff])]
  exact hbegin.append hrest

/-- The lines of a report are read to the report with its suggestions in reverse. -/
theorem reads_reportLines {r : Report} (h : r.DetailNamed) :
    Reads {} (reportLines r)
      { r.condensed with suggestions := r.condensed.suggestions.map List.reverse } := by
  obtain ⟨summary, error, suggestions⟩ := r
  have hsummary : Reads {} ((summary.map summaryLines).getD []) ⟨summary, none, none⟩ := by
    cases summary with
    | none => exact .nil _
    | some s =>
      obtain ⟨d, hd⟩ := h s rfl
      exact reads_summaryLines {} hd
  have herror : Reads ⟨summary, none, none⟩
      (error.map fun message => field "error" (scalar message)).toList
      ⟨summary, error, none⟩ := by
    cases error with
    | none => exact .nil _
    | some message => exact reads_text .error (by decide) (by rw [set, readScalar_scalar]; rfl)
  have hsuggestions : Reads ⟨summary, error, none⟩
      ((suggestions.map suggestionsLines).getD [])
      ⟨summary, error, (suggestions.filter fun ss => !ss.isEmpty).map List.reverse⟩ := by
    cases suggestions with
    | none => exact .nil _
    | some ss =>
      cases ss with
      | nil => exact .nil _
      | cons s ss => exact reads_suggestionsLines _ (List.cons_ne_nil s ss)
  exact (hsummary.append herror).append hsuggestions

theorem read?_render {r : Report} (h : r.DetailNamed) : read? (render r) = some r.condensed := by
  have hlines := reads_reportLines h
  have hturned : (r.condensed.suggestions.map List.reverse).map List.reverse =
      r.condensed.suggestions := by
    cases r.condensed.suggestions <;> simp
  rw [read?, render, lines?_flatMap hlines.apart, Option.bind_eq_bind, Option.bind_some,
    hlines.run, Option.bind_eq_bind, Option.bind_some, hturned]
  rfl

theorem render_condensed (r : Report) : render r.condensed = render r := by
  obtain ⟨summary, error, suggestions⟩ := r
  match suggestions with
  | none => rfl
  | some [] => rfl
  | some (_ :: _) => rfl

/-- A written report is read back, so two reports are written alike just when they are the
same, an empty list of suggestions taken for none. -/
theorem render_determines {r r' : Report} (h : r.DetailNamed) (h' : r'.DetailNamed) :
    read? (render r) = some r.condensed ∧ (render r = render r' ↔ r.condensed = r'.condensed) := by
  have hr := read?_render h
  have hr' := read?_render h'
  refine ⟨hr, fun heq => ?_, fun heq => ?_⟩
  · rw [heq, hr'] at hr
    exact (Option.some.inj hr).symm
  · rw [← render_condensed r, heq, render_condensed r']

/-- A report whose texts look like lines, keys, quotes and truth values. -/
def awkward : Report where
  summary := some {
    elapsedMs := 0, timedOut := true, detail := Detail.nameAndType.label, candidates := 2
    suggestions := 1, prefixLength := none }
  error := some "suggestions:\n- text: a\n".toList
  suggestions := some [{
    text := "''".toList, displayText := [], snippet := some [], kind := .package
    leftLabel := "true".toList, rightLabel := "\\n".toList, replaced := "\"".toList
    package := "  type: value".toList }]

theorem render_determines_awkward :
    awkward.DetailNamed ∧ read? (render awkward) = some awkward ∧
      render awkward ≠ render { awkward with suggestions := none } ∧
      render { suggestions := some [] } = render {} := by
  have hnamed : awkward.DetailNamed := by
    rintro s ⟨⟩
    exact ⟨.nameAndType, rfl⟩
  have hcut : Report.DetailNamed { awkward with suggestions := none } := hnamed
  have hempty : Report.DetailNamed {} := by simp [Report.DetailNamed]
  have hnone : Report.DetailNamed { suggestions := some [] } := by simp [Report.DetailNamed]
  obtain ⟨hread, hiff⟩ := render_determines hnamed hcut
  refine ⟨hnamed, hread, fun heq => ?_, (render_determines hnone hempty).2.mpr rfl⟩
  exact absurd (hiff.mp heq) (by decide)

end Yaml
end CompletionSnippets
