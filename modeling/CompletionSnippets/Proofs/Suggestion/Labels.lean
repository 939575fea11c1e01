import CompletionSnippets.Proofs.Signature.Assembly
import CompletionSnippets.Suggestion

/-!
# What a suggestion for a function shows

A suggestion for a function shows its parameters in a call and its results in a label. The
two together are the function type again: behind the keyword, with a blank between them,
they are read with the same entries at every level. The blanks in the lists may be others.

The label has to keep apart a list of one result and a bare result. A named result stands in
parentheses, which makes it a list of one, however it was declared; an unnamed one stands
bare. That is the same entry again unless the unnamed one is itself in parentheses, or the
named one cannot stand in a list, because of a comma that it shows or a parenthesis that it
leaves open.
-/
namespace CompletionSnippets
open Text Outline

theorem Text.Pieces.map_trim {sep : Char} {ts : List Text} (h : Pieces sep ts) :
    ts.map trim = ts :=
  (List.map_congr_left h.trimmed).trans (List.map_id ts)

theorem Outline.listed_resultTokens {t params tail : Text} {o : Outline} (ho : of? t = some o)
    (ht : trim t = opening ++ params ++ ')' :: tail) (hparams : Balanced '(' ')' params)
    (htail : trim tail = [] ∨ Enclosed (trim tail) ∨
      Balanced '(' ')' (trim tail) ∧ NoneExposed (· == ',') (trim tail)) :
    Pieces ',' o.resultTokens ∧ ∀ x ∈ o.resultTokens, Balanced '(' ')' x := by
  rcases tokens_resultTokens ho with h | ⟨r, hr, htokens, htrim, hne⟩
  · exact h
  -- the parenthesis that closes the parameters is the one that was found
  have hsome := of?_eq_some_iff.mpr ⟨params, tail, ht, hparams, rfl⟩
  rw [ho] at hsome
  obtain rfl := Option.some.inj hsome
  obtain ⟨rfl, -, hbare⟩ := resultText_eq_single_iff.mp hr
  rw [htokens]
  rcases htail with hnil | henclosed | ⟨hb, hcomma⟩
  · exact absurd hnil hne
  · exact absurd henclosed hbare
  · refine ⟨⟨by simpa using htrim, ?_, by simp, by simpa using hne⟩, by simpa using hb⟩
    simpa using unbroken_iff_noneExposed.mpr hcomma

namespace Signature

/-- The label lists the results that it was made of. -/
theorem resultTokensOf_resultLabel {levels : Nat} {s : Signature} {ts : List Text}
    (hs : s.results = ts.map (Entry.ofToken levels)) (hts : Pieces ',' ts)
    (hb : ∀ t ∈ ts, Balanced '(' ')' t)
    (honly : ∀ e, s.results = [e] → e.identifier = [] → ¬ Enclosed e.raw) :
    resultTokensOf (' ' :: s.resultLabel) = ts := by
  have hraw : s.results.map Entry.raw = ts := by
    rw [hs, map_raw_ofToken, hts.map_trim]
  have hlisted : resultTokensOf (' ' :: resultLabel.listed s.results) = ts := by
    rw [resultLabel.listed, hraw]
    exact resultTokensOf_list hts hb
  unfold resultLabel
  split
  · rename_i hnil
    rw [hnil] at hraw
    subst hraw
    exact resultTokensOf_of_isAllBlank rfl
  · rename_i only hsingle
    rw [hsingle] at hraw hlisted
    subst hraw
    split
    · rename_i hunnamed
      have hne : only.raw ≠ [] := fun hnil => hts.ne_blank (by simp [hnil])
      exact resultTokensOf_bare (hts.trimmed _ (by simp)) hne
        (honly only hsingle (List.isEmpty_iff.mp hunnamed))
    · exact hlisted
  · exact hlisted

end Signature

namespace Suggestion

theorem ofCandidate_of_read {c : Candidate} {f : Signature} (detail : Detail) (typed : Text)
    (hcategory : c.category = "func".toList) (hread : Signature.read c.type = .ok f) :
    (ofCandidate detail typed c).displayText =
        c.name ++ ('(' :: joinWith commaSpace (f.params.map Entry.raw) ++ [')']) ∧
      (ofCandidate detail typed c).leftLabel = f.resultLabel := by
  obtain ⟨o, ho, rfl⟩ := Signature.exists_outline_of_read hread
  have hkind : Kind.ofCategory c.category = .function := by
    rw [hcategory]
    decide
  have hof : Signature.ofText? c.type = some (Signature.ofOutline Signature.nestingLimit o) := by
    rw [Signature.ofText?, ho, Option.map_some]
  simp only [ofCandidate, hkind, hof, Snippet.ofSignature, List.append_assoc, and_self]

/-- The text to show and the label of a function, behind the keyword, are read with the
function's parameters and results, when its text behind the parameters is empty, a list, or
a bare result that may stand in a list, and it has no single unnamed result in parentheses. -/
theorem read_display_label {c : Candidate} {f : Signature} {params tail : Text}
    (detail : Detail) (typed : Text) (hcategory : c.category = "func".toList)
    (hread : Signature.read c.type = .ok f)
    (hraw : f.raw = opening ++ params ++ ')' :: tail) (hparams : Balanced '(' ')' params)
    (htail : trim tail = [] ∨ Enclosed (trim tail) ∨
      Balanced '(' ')' (trim tail) ∧ NoneExposed (· == ',') (trim tail))
    (honly : ∀ e, f.results = [e] → e.identifier = [] → ¬ Enclosed e.raw) :
    ∃ call g, (ofCandidate detail typed c).displayText = c.name ++ call ∧
      Signature.read ("func".toList ++ call ++ ' ' :: (ofCandidate detail typed c).leftLabel) =
        .ok g ∧
      g.params = f.params ∧ g.results = f.results := by
  obtain ⟨o, ho, rfl⟩ := Signature.exists_outline_of_read hread
  have hwhole : trim c.type = opening ++ params ++ ')' :: tail := by
    rw [← whole_eq_trim ho]
    exact hraw
  obtain ⟨hpieces, hbalanced⟩ := tokens_paramTokens ho
  obtain ⟨hrpieces, hrbalanced⟩ := listed_resultTokens ho hwhole hparams htail
  obtain ⟨hdisplay, hleft⟩ := ofCandidate_of_read detail typed hcategory hread
  rw [Signature.ofOutline, Signature.map_raw_ofToken, hpieces.map_trim] at hdisplay
  have hlabel := Signature.resultTokensOf_resultLabel rfl hrpieces hrbalanced honly
  obtain ⟨g, hg, hgparams, hgresults⟩ := exists_read_assembled hpieces hbalanced
    (' ' :: (Signature.ofOutline Signature.nestingLimit o).resultLabel)
  refine ⟨_, g, hdisplay, ?_, hgparams, ?_⟩
  · rw [hleft, ← hg]
    simp [opening]
  · rw [hgresults, hlabel, Signature.ofOutline]

/-- `func( in,f func(x, y int) error ,opts ...{) chan int`. Its result is taken for a named
one, so the label puts it in parentheses. -/
def dial : Signature :=
  let int : Text := "int".toList
  { raw := "func( in,f func(x, y int) error ,opts ...\x7b) chan int".toList
    params := [
      .plain "in".toList [] "in".toList,
      .func "f func(x, y int) error".toList ['f'] {
        raw := "func(x, y int) error".toList
        params := [.plain ['x'] [] ['x'], .plain "y int".toList ['y'] int]
        results := [.plain "error".toList [] "error".toList] },
      .plain "opts ...\x7b".toList "opts".toList "...\x7b".toList]
    results := [.plain "chan int".toList "chan".toList int] }

theorem read_display_label_dial :
    let c : Candidate :=
      { category := "func".toList, name := "Dial".toList, type := '\t' :: dial.raw }
    let params := " in,f func(x, y int) error ,opts ...\x7b".toList
    let tail := " chan int".toList
    let s := ofCandidate .name "Di".toList c
    Signature.read c.type = .ok dial ∧ dial.raw = opening ++ params ++ ')' :: tail ∧
      Balanced '(' ')' params ∧
      (Balanced '(' ')' (trim tail) ∧ NoneExposed (· == ',') (trim tail)) ∧
      (∀ e, dial.results = [e] → e.identifier = [] → ¬ Enclosed e.raw) ∧
      s.displayText = "Dial(in, f func(x, y int) error, opts ...\x7b)".toList ∧
      s.leftLabel = "(chan int)".toList ∧
      ∃ call g, s.displayText = c.name ++ call ∧
        Signature.read ("func".toList ++ call ++ ' ' :: s.leftLabel) = .ok g ∧
        g.params = dial.params ∧ g.results = dial.results := by
  intro c params tail s
  have hread : Signature.read c.type = .ok dial := by cbv
  have hraw : dial.raw = opening ++ params ++ ')' :: tail := by decide
  have hparams : Balanced '(' ')' params := by decide
  have htail : Balanced '(' ')' (trim tail) ∧ NoneExposed (· == ',') (trim tail) := by decide
  have honly : ∀ e, dial.results = [e] → e.identifier = [] → ¬ Enclosed e.raw := by
    rintro e ⟨⟩ hunnamed
    exact absurd hunnamed (by decide)
  obtain ⟨hdisplay, hleft⟩ := ofCandidate_of_read (c := c) .name "Di".toList rfl hread
  have hmain := read_display_label (c := c) .name "Di".toList rfl hread hraw hparams
    (.inr (.inr htail)) honly
  exact ⟨hread, hraw, hparams, htail, honly, hdisplay.trans (by decide), hleft.trans (by decide),
    hmain⟩

end Suggestion
end CompletionSnippets
