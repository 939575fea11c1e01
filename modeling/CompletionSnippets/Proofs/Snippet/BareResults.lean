import CompletionSnippets.Proofs.Outline.Parts
import CompletionSnippets.Proofs.Snippet.Callback

/-!
# Bare results

A result without parentheses is one type, so the label of the function type should be that
type, and a callback should declare it. Both are so as long as the result, taken for an entry
of a list, has no identifier: when it begins like a function type or shows no blank outside
brackets.

Any other result is divided like an entry, as in `chan int`. The label then puts it in
parentheses, and the callback declares only what stands behind the blank.
-/
namespace CompletionSnippets
open Text Outline

namespace Entry

/-- A trimmed text has no identifier when it begins like a function type or shows no blank
outside brackets, and only then. -/
theorem divide_unnamed_iff {t : Text} (ht : trim t = t) :
    (divide t).1 = [] ↔ opening <+: t ∨ NoneExposed isBlank t := by
  have hstart := (trim_eq_self_iff.mp ht).1
  constructor
  · intro hnil
    unfold divide at hnil
    split at hnil
    · rename_i hfunc
      rw [startsFunc, hstart, List.isPrefixOf_iff_prefix] at hfunc
      exact .inl hfunc
    split at hnil
    · rename_i first rest hbreak
      -- nothing stands before the blank, so the text would begin with it
      obtain ⟨hsplit, -, -, c, hc, hblank⟩ := breakAtBlank?_iff.mp hbreak
      rw [show first = [] from hnil, List.nil_append] at hsplit
      rw [← hsplit] at hc
      rw [trimStart_eq_self_iff.mp hstart c hc] at hblank
      contradiction
    · rename_i hnone
      exact .inr (breakAtBlank?_none_iff.mp hnone)
  · intro h
    rw [divide_unnamed hstart h]

/-- The type is the whole text just when nothing of it is taken for an identifier. -/
theorem divide_type_eq_iff {t : Text} (ht : trim t = t) :
    (divide t).2 = t ↔ (divide t).1 = [] := by
  have hdivided := divided_divide ht
  generalize (divide t).1 = identifier, (divide t).2 = type at hdivided ⊢
  cases hdivided with
  | unnamed => simp
  | @named _ gap _ ne_nil _ _ _ _ =>
    constructor
    · intro h
      have hlength := congrArg List.length h
      have hpos := List.length_pos_iff.mpr ne_nil
      simp only [List.length_append] at hlength
      omega
    · exact fun hnil => absurd hnil ne_nil

end Entry

section Bare
variable {t r : Text} {o : Outline}

theorem Outline.trim_single (ho : of? t = some o) (hbare : o.results = .single r) :
    trim r = r := by
  obtain ⟨w, rest, -, -, rfl⟩ := of?_eq_some_iff.mp ho
  obtain ⟨rfl, -, -⟩ := resultText_eq_single_iff.mp hbare
  exact trim_trim rest

theorem Signature.results_ofOutline_single (levels : Nat) (hbare : o.results = .single r) :
    (ofOutline levels o).results = [Entry.ofToken levels r] := by
  rw [ofOutline, resultTokens, hbare]
  rfl

theorem Signature.resultLabel_eq_iff (levels : Nat) (ho : of? t = some o)
    (hbare : o.results = .single r) :
    (ofOutline levels o).resultLabel = r ↔ (Entry.divide r).1 = [] := by
  have htrim := trim_single ho hbare
  have hraw : (Entry.ofToken levels r).raw = r := by rw [Entry.raw_ofToken, htrim]
  have hidentifier : (Entry.ofToken levels r).identifier = (Entry.divide r).1 := by
    rw [Entry.identifier_ofToken, htrim]
  simp only [resultLabel, results_ofOutline_single levels hbare, hidentifier, hraw]
  split
  · rename_i hnil
    simpa using hnil
  · rename_i hne
    have hlonger : resultLabel.listed [Entry.ofToken levels r] ≠ r := by
      intro h
      have hlength := congrArg List.length h
      simp only [resultLabel.listed, List.map_singleton, joinWith_singleton, hraw, List.length_append,
        List.length_cons, List.length_nil] at hlength
      omega
    simpa [hlonger] using hne

/-- A function literal of the signature that declares the given result. -/
def Signature.literalWith (s : Signature) (result : Text) : Text :=
  opening ++ joinWith commaSpace (s.params.map Entry.declared) ++ [')', ' '] ++ result ++ emptyBody

theorem Signature.literal_ofOutline_single (levels : Nat) (ho : of? t = some o)
    (hbare : o.results = .single r) :
    (ofOutline levels o).literal = (ofOutline levels o).literalWith (Entry.divide r).2 := by
  have htype : (Entry.ofToken levels r).type = (Entry.divide r).2 := by
    rw [Entry.type_ofToken, trim_single ho hbare]
  simp [literal_eq, heading, results_ofOutline_single levels hbare, htype, resultTypes, literalWith]

theorem Signature.literalWith_inj {s : Signature} {result result' : Text} :
    s.literalWith result = s.literalWith result' ↔ result = result' := by
  rw [literalWith, literalWith, List.append_cancel_right_eq, List.append_cancel_left_eq]

end Bare

namespace Snippet
open Template

/-- The outer parameter of a function type has a callback that shows its literal. -/
theorem shown_callback {outer : Text} {f g : Signature} {e : Entry} (name : Text)
    (houter : Signature.read outer = .ok f) (he : e ∈ f.params) (hg : e.signature? = some g) :
    (∃ number, placeholder .nameAndType number e ∈ (ofType name outer .nameAndType).template) ∧
      ∀ number, shownText [placeholder .nameAndType number e] = g.literal ∧
        (Text.Unmarked outer →
          (Mark.read? [] (render [placeholder .nameAndType number e])).map Mark.shown =
            some g.literal) := by
  obtain ⟨o, ho, rfl⟩ := Signature.exists_outline_of_read houter
  have hliteral : ∀ number, shownText [placeholder .nameAndType number e] = g.literal := by
    intro number
    rw [shownText_placeholder_nameAndType, Entry.argument_of_signature? hg]
  refine ⟨?_, fun number => ⟨hliteral number, fun hmarks => ?_⟩⟩
  · simp only [ofType, Signature.ofText?, ho, Option.map_some]
    exact exists_mem_template name (mem_required he hg)
  · have hunmarked := (Signature.unmarked_of_read houter hmarks).param he
    have hlegible : Legible [placeholder .nameAndType number e] :=
      leads_placeholder .nameAndType number hunmarked [] trivial
    rw [Mark.read?_render hlegible, Option.map_some, ← hliteral number]
    rfl

/-- A bare result is the label of its function type, and the callback of a parameter of that
type declares it, exactly when it begins like a function type or shows no blank outside
brackets. -/
theorem bare_result_kept_iff {t r : Text} {o : Outline} {s : Signature}
    (hread : Signature.read t = .ok s) (ho : of? t = some o) (hbare : o.results = .single r) :
    (s.resultLabel = r ↔ opening <+: r ∨ NoneExposed isBlank r) ∧
      ∀ (name outer : Text) (f g : Signature) (e : Entry), Signature.read outer = .ok f →
        e ∈ f.params → e.signature? = some g → e.type = trim t →
        (∃ number,
          placeholder .nameAndType number e ∈ (ofType name outer .nameAndType).template) ∧
        ∀ number,
          (shownText [placeholder .nameAndType number e] = g.literalWith r ↔
            opening <+: r ∨ NoneExposed isBlank r) ∧
          (Text.Unmarked outer →
            (Mark.read? [] (render [placeholder .nameAndType number e])).map Mark.shown =
              some (shownText [placeholder .nameAndType number e])) := by
  have htrim := trim_single ho hbare
  rw [← Entry.divide_unnamed_iff htrim]
  constructor
  · obtain ⟨o', ho', rfl⟩ := Signature.exists_outline_of_read hread
    rw [ho] at ho'
    obtain rfl := Option.some.inj ho'
    exact Signature.resultLabel_eq_iff _ ho hbare
  · intro name outer f g e houter he hg htype
    obtain ⟨hmem, hshown⟩ := shown_callback name houter he hg
    refine ⟨hmem, fun number => ⟨?_, fun hmarks => ?_⟩⟩
    · -- the parameter's type was read from the same text, for fewer levels
      obtain ⟨outline, -, rfl⟩ := Signature.exists_outline_of_read houter
      obtain ⟨token, -, rfl⟩ := List.mem_map.mp he
      obtain ⟨below, o', -, ho', rfl⟩ := Entry.outline_of_signature? hg
      rw [← Entry.type_ofToken Signature.nestingLimit, htype, of?_trim, ho] at ho'
      obtain rfl := Option.some.inj ho'
      rw [(hshown number).1, Signature.literal_ofOutline_single below ho hbare,
        Signature.literalWith_inj, Entry.divide_type_eq_iff htrim]
    · rw [(hshown number).1]
      exact (hshown number).2 hmarks

/-- `func(k int) map[string]struct{ n int }`, whose result has blanks in its braces only. -/
def index : Signature :=
  let result : Text := "map[string]struct\x7b n int \x7d".toList
  { raw := "func(k int) ".toList ++ result
    params := [.plain "k int".toList ['k'] "int".toList]
    results := [.plain result [] result] }

def indexParam : Entry := .func ("by ".toList ++ index.raw) ['b', 'y'] index

def indexed : Signature :=
  { raw := "func(s string, ".toList ++ indexParam.raw ++ [')']
    params := [.plain "s string".toList ['s'] "string".toList, indexParam]
    results := [] }

theorem bare_result_kept_index :
    let r : Text := "map[string]struct\x7b n int \x7d".toList
    ∃ o, Signature.read index.raw = .ok index ∧ of? index.raw = some o ∧ o.results = .single r ∧
      Signature.read indexed.raw = .ok indexed ∧ indexParam ∈ indexed.params ∧
      indexParam.type = trim index.raw ∧ Text.Unmarked indexed.raw ∧
      (opening <+: r ∨ NoneExposed isBlank r) ∧ index.resultLabel = r ∧
      (∃ number,
        placeholder .nameAndType number indexParam ∈
          (ofType "Sort".toList indexed.raw .nameAndType).template) ∧
      ∀ number, (Mark.read? [] (render [placeholder .nameAndType number indexParam])).map
        Mark.shown = some (index.literalWith r) := by
  intro r
  have hread : Signature.read index.raw = .ok index := by cbv
  have houter : Signature.read indexed.raw = .ok indexed := by cbv
  have hwhole : opening <+: r ∨ NoneExposed isBlank r := by decide
  have hmarks : Text.Unmarked indexed.raw := by decide
  have hparam : indexParam ∈ indexed.params := by simp [indexed]
  have htype : indexParam.type = trim index.raw := by decide
  have hresults : (of? index.raw).map Outline.results = some (.single r) := by decide
  obtain ⟨o, ho, hbare⟩ := Option.map_eq_some_iff.mp hresults
  obtain ⟨hlabel, hcallback⟩ := bare_result_kept_iff hread ho hbare
  obtain ⟨hmem, hshown⟩ :=
    hcallback "Sort".toList indexed.raw indexed index indexParam houter hparam rfl htype
  refine ⟨o, hread, ho, hbare, houter, hparam, htype, hmarks, hwhole, hlabel.mpr hwhole, hmem,
    fun number => ?_⟩
  rw [(hshown number).2 hmarks, (hshown number).1.mpr hwhole]

/-- `func() chan int`, whose result is taken for an entry with the identifier `chan`. -/
def receiver : Signature :=
  { raw := "func() chan int".toList
    params := []
    results := [.plain "chan int".toList "chan".toList "int".toList] }

def watch : Signature :=
  { raw := "func(f func() chan int)".toList
    params := [.func "f func() chan int".toList ['f'] receiver]
    results := [] }

/-- The label puts a bare channel type in parentheses, and the callback drops its first word. -/
theorem channel_result_divided :
    Signature.read receiver.raw = .ok receiver ∧
      (of? receiver.raw).map Outline.results = some (.single "chan int".toList) ∧
      receiver.resultLabel = "(chan int)".toList ∧ receiver.resultLabel ≠ "chan int".toList ∧
      Signature.read watch.raw = .ok watch ∧
      (ofType "Watch".toList watch.raw .nameAndType).template.render =
        "Watch($\x7b1:func() int \x7b\n\t$2\n\\\x7d\x7d)$0".toList ∧
      receiver.literal = receiver.literalWith "int".toList ∧
      receiver.literal ≠ receiver.literalWith "chan int".toList :=
  ⟨by cbv, by decide, by decide, by decide, by cbv, by cbv, by decide, by decide⟩

end Snippet
end CompletionSnippets
