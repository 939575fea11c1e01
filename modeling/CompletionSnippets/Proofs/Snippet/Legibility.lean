import CompletionSnippets.Proofs.Joining
import CompletionSnippets.Proofs.Template.Legible
import CompletionSnippets.Snippet.Basic

/-!
# Legibility of generated templates

The template of a call is legible when neither the name nor any text of the signature
has a dollar sign or a backslash. The signature need not have been read from a text:
its texts may say anything about each other, and its braces need not match. What
stands behind a bare stop is a closing parenthesis, a line end, or nothing.
-/
namespace CompletionSnippets
open Text Template

mutual

/-- All texts of an entry, with those of the signature below it. -/
def Entry.texts : Entry → List Text
  | .plain raw identifier type => [raw, identifier, type]
  | .func raw identifier s => raw :: identifier :: s.texts

def Signature.texts : Signature → List Text
  | ⟨raw, params, results⟩ => raw :: (Entry.textsOfAll params ++ Entry.textsOfAll results)

def Entry.textsOfAll : List Entry → List Text
  | [] => []
  | e :: es => e.texts ++ Entry.textsOfAll es

end

theorem Entry.mem_textsOfAll {t : Text} {es : List Entry} :
    t ∈ textsOfAll es ↔ ∃ e ∈ es, t ∈ e.texts := by
  induction es with
  | nil => simp [textsOfAll]
  | cons e es ih => simp [textsOfAll, ih]

def Entry.Unmarked (e : Entry) : Prop := ∀ t ∈ e.texts, Text.Unmarked t

def Signature.Unmarked (s : Signature) : Prop := ∀ t ∈ s.texts, Text.Unmarked t

instance (s : Signature) : Decidable s.Unmarked :=
  List.decidableBAll Text.Unmarked s.texts

namespace Entry
variable {e : Entry}

theorem Unmarked.raw (h : e.Unmarked) : Text.Unmarked e.raw := by
  cases e with
  | plain raw identifier type => exact h _ (by simp [texts, Entry.raw])
  | func raw identifier s => exact h _ (by simp [texts, Entry.raw])

theorem Unmarked.identifier (h : e.Unmarked) : Text.Unmarked e.identifier := by
  cases e with
  | plain raw identifier type => exact h _ (by simp [texts, Entry.identifier])
  | func raw identifier s => exact h _ (by simp [texts, Entry.identifier])

theorem Unmarked.type (h : e.Unmarked) : Text.Unmarked e.type := by
  cases e with
  | plain raw identifier type => exact h _ (by simp [texts, Entry.type])
  | func raw identifier s =>
    cases s
    exact h _ (by simp [texts, Signature.texts, Entry.type])

theorem Unmarked.signature (h : e.Unmarked) {s : Signature} (hs : e.signature? = some s) :
    s.Unmarked := by
  cases e with
  | plain raw identifier type => cases hs
  | func raw identifier s =>
    cases hs
    intro t ht
    exact h t (by simp [texts, ht])

end Entry

namespace Signature
variable {s : Signature} {e : Entry}

theorem Unmarked.param (h : s.Unmarked) (he : e ∈ s.params) : e.Unmarked := by
  cases s
  intro t ht
  have hmem := Entry.mem_textsOfAll.mpr ⟨e, he, ht⟩
  exact h t (by simp [texts, hmem])

theorem Unmarked.result (h : s.Unmarked) (he : e ∈ s.results) : e.Unmarked := by
  cases s
  intro t ht
  have hmem := Entry.mem_textsOfAll.mpr ⟨e, he, ht⟩
  exact h t (by simp [texts, hmem])

end Signature

theorem Text.unmarked_joinWith {parts : List Text} (h : ∀ t ∈ parts, Text.Unmarked t) :
    Text.Unmarked (joinWith commaSpace parts) := by
  intro c hc
  obtain hsep | ⟨t, ht, hct⟩ := mem_of_mem_intercalate hc
  · have hcomma : Text.Unmarked commaSpace := by decide
    exact hcomma c hsep
  · exact h t ht c hct

/-- The parameters that a caller has to give. -/
def Signature.required (s : Signature) : List Entry := s.params.filter fun e => !e.isVariadic

namespace Snippet

def callbackParams (first : Nat) (params : List Entry) : List Template :=
  (params.zipIdx first).map fun entry => callbackParam entry.2 entry.1

theorem callback_eq (first : Nat) (s : Signature) :
    callback first s = .text Outline.opening ::
      (commaSeparated (callbackParams first s.params) ++
        [.text (')' :: callbackResults s.results ++ [' ', '{', '\n', '\t']),
          .stop (first + s.params.length), .text ['\n', '}']]) := rfl

theorem gather_commaSeparated {α : Type} (pick : Mark → Option α) (parts : List Template) :
    gather pick (commaSeparated parts) =
      List.intercalate (commaSpace.filterMap fun c => pick (.char c))
        (parts.map (gather pick)) := by
  have hsep : gather pick [.text commaSpace] = commaSpace.filterMap fun c => pick (.char c) := by
    rw [gather_text]
    exact List.append_nil _
  rw [commaSeparated, intercalate_of_append rfl (gather_append pick), hsep]

theorem template_ofSignature (name : Text) (s : Signature) (detail : Detail) :
    (ofSignature name s detail).template =
      .text (name ++ ['(']) :: (arguments detail s.params ++ [.text [')'], .stop 0]) := rfl

/-- Parts that keep every template legible in front of which they stand. -/
def Leads (ps : List Piece) : Prop := ∀ rest, Legible rest → Legible (ps ++ rest)

theorem leads_commaSeparated {parts : List Template} (h : ∀ ps ∈ parts, Leads ps) :
    Leads (commaSeparated parts) := by
  intro rest hrest
  induction parts with
  | nil => exact hrest
  | cons ps parts ih =>
    have hps := h ps List.mem_cons_self
    by_cases hne : parts = []
    · subst hne
      rw [commaSeparated, List.intercalate_singleton]
      exact hps rest hrest
    · have hcomma : Text.Unmarked commaSpace := by decide
      have hbehind := ih fun qs hqs => h qs (List.mem_cons_of_mem _ hqs)
      rw [commaSeparated, List.intercalate_cons_of_ne_nil hne, List.append_assoc, List.append_assoc]
      exact hps _ (legible_text.mpr ⟨hcomma, hbehind⟩)

theorem leads_callbackParam (number : Nat) {e : Entry} (h : e.Unmarked) :
    Leads (callbackParam number e) := by
  intro rest hrest
  unfold callbackParam
  split
  · exact legible_placeholder.mpr ⟨legible_text.mpr ⟨h.type, trivial⟩, hrest⟩
  · have htype : Text.Unmarked (' ' :: e.type) := unmarked_cons.mpr ⟨by decide, h.type⟩
    exact legible_placeholder.mpr
      ⟨legible_text.mpr ⟨h.identifier, trivial⟩, legible_text.mpr ⟨htype, hrest⟩⟩

theorem unmarked_callbackResults {results : List Entry} (h : ∀ e ∈ results, e.Unmarked) :
    Text.Unmarked (callbackResults results) := by
  have htypes : ∀ t ∈ results.map Entry.type, Text.Unmarked t := by
    intro t ht
    obtain ⟨e, he, rfl⟩ := List.mem_map.mp ht
    exact (h e he).type
  unfold callbackResults
  split
  · simp [Text.Unmarked]
  · exact unmarked_cons.mpr ⟨by decide, htypes _ (by simp)⟩
  · have hopen : Text.Unmarked [' ', '('] := by decide
    have hclose : Text.Unmarked [')'] := by decide
    exact unmarked_append.mpr ⟨unmarked_append.mpr ⟨hopen, unmarked_joinWith htypes⟩, hclose⟩

theorem legible_callback (first : Nat) {s : Signature} (h : s.Unmarked) :
    Legible (callback first s) := by
  have hparams : Leads (commaSeparated (callbackParams first s.params)) := by
    refine leads_commaSeparated fun ps hps => ?_
    obtain ⟨entry, hmem, rfl⟩ := List.mem_map.mp hps
    exact leads_callbackParam entry.2 (h.param (List.fst_mem_of_mem_zipIdx hmem))
  have hopening : Text.Unmarked Outline.opening := by decide
  have hbody : Text.Unmarked [' ', '{', '\n', '\t'] := by decide
  have hresults : Text.Unmarked (')' :: callbackResults s.results ++ [' ', '{', '\n', '\t']) :=
    unmarked_append.mpr
      ⟨unmarked_cons.mpr ⟨by decide, unmarked_callbackResults fun e => h.result⟩, hbody⟩
  -- a line end stands behind the stop in the body
  have hend : Legible [.stop (first + s.params.length), .text ['\n', '}']] := by
    refine ⟨fun inside => ?_, legible_text.mpr ⟨by decide, trivial⟩⟩
    intro c hc
    cases inside <;> cases hc <;> rfl
  rw [callback_eq]
  exact legible_text.mpr ⟨hopening, hparams _ (legible_text.mpr ⟨hresults, hend⟩)⟩

theorem leads_placeholder (detail : Detail) (number : Nat) {e : Entry} (h : e.Unmarked) :
    Leads [placeholder detail number e] := by
  intro rest hrest
  unfold placeholder
  split
  · rename_i s hs
    exact legible_placeholder.mpr ⟨legible_callback _ (h.signature hs), hrest⟩
  · exact legible_placeholder.mpr ⟨legible_text.mpr ⟨h.raw, trivial⟩, hrest⟩
  · exact legible_placeholder.mpr ⟨legible_text.mpr ⟨h.identifier, trivial⟩, hrest⟩

theorem leads_of_mem_placeholders {detail : Detail} {first : Nat} {es : List Entry}
    (h : ∀ e ∈ es, e.Unmarked) {piece : Piece} (hp : piece ∈ placeholders detail first es) :
    Leads [piece] := by
  induction es generalizing first with
  | nil => cases hp
  | cons e es ih =>
    rw [placeholders] at hp
    cases hp with
    | head => exact leads_placeholder detail first (h e List.mem_cons_self)
    | tail _ hrest => exact ih (fun e' he' => h e' (List.mem_cons_of_mem _ he')) hrest

theorem legible_template {name : Text} {s : Signature} (detail : Detail)
    (hname : Text.Unmarked name) (hs : s.Unmarked) :
    Legible (ofSignature name s detail).template := by
  have hclose : Text.Unmarked [')'] := by decide
  have hend : Legible [.text [')'], .stop 0] := by
    refine legible_text.mpr ⟨hclose, fun inside c hc => ?_, trivial⟩
    cases hc
  have hfront : Text.Unmarked (name ++ ['(']) := unmarked_append.mpr ⟨hname, by decide⟩
  have hcall : Legible (arguments detail s.params ++ [.text [')'], .stop 0]) := by
    have hplaceholders : Leads (commaSeparated
        ((placeholders detail 1 s.required).map fun piece => [piece])) := by
      refine leads_commaSeparated fun ps hps => ?_
      obtain ⟨piece, hpiece, rfl⟩ := List.mem_map.mp hps
      exact leads_of_mem_placeholders (fun e he => hs.param (List.mem_filter.mp he).1) hpiece
    unfold arguments
    split
    · split
      · exact hend
      · refine ⟨fun inside c hc => ?_, hend⟩
        cases inside <;> cases hc <;> rfl
    · exact hplaceholders _ hend
  rw [template_ofSignature]
  exact legible_text.mpr ⟨hfront, hcall⟩

/-- The template of a call is read as its marks. -/
theorem read?_template {name : Text} {s : Signature} (detail : Detail)
    (hname : Text.Unmarked name) (hs : s.Unmarked) :
    Mark.read? [] (ofSignature name s detail).template.render =
      some (marks (ofSignature name s detail).template) :=
  Mark.read?_render (legible_template detail hname hs)

/-- `func(fn func(k string, map{}) (error, chan {}), n {, opts ...{})`, with braces in
every place that has a type; two of them have no counterpart. -/
def braced : Signature :=
  let text (t : String) : Text := t.toList
  let callback : Signature :=
    { raw := text "func(k string, map\x7b\x7d) (error, chan \x7b\x7d)"
      params := [.plain (text "k string") (text "k") (text "string"),
        .plain (text "map\x7b\x7d") [] (text "map\x7b\x7d")]
      results := [.plain (text "error") [] (text "error"),
        .plain (text "chan \x7b\x7d") [] (text "chan \x7b\x7d")] }
  { raw := text "func(fn func(k string, map\x7b\x7d) (error, chan \x7b\x7d), n \x7b, opts ...\x7b)"
    params := [
      .func (text "fn func(k string, map\x7b\x7d) (error, chan \x7b\x7d)") (text "fn") callback,
      .plain (text "n \x7b") (text "n") ['\x7b'],
      .plain (text "opts ...\x7b") (text "opts") (text "...\x7b")]
    results := [] }

end Snippet
end CompletionSnippets
