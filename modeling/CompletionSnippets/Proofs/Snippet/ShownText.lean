import CompletionSnippets.Proofs.Snippet.Legibility

/-!
# The text that a template shows

With all stops taken away a call's template shows a call: the name and, in parentheses,
what the detail asks for. A callback shows its parameters as they were declared, the
types of its results, and a body that is empty but for a tab. Braces within the texts
are shown as they are, whether the text stands inside a placeholder or outside.
-/
namespace CompletionSnippets
open Text

namespace Template

/-- The text that a template shows. -/
def shownText (t : Template) : Text := gather Mark.char? t

theorem shownText_nil : shownText [] = [] := rfl

theorem shownText_append (a b : Template) :
    shownText (a ++ b) = shownText a ++ shownText b := gather_append Mark.char? a b

theorem shownText_text (t : Text) (rest : Template) :
    shownText (.text t :: rest) = t ++ shownText rest := by
  have hchars : t.filterMap (fun c => Mark.char? (.char c)) = t := List.filterMap_some
  rw [shownText, gather_text, hchars]
  rfl

theorem shownText_stop (n : Nat) (rest : Template) :
    shownText (.stop n :: rest) = shownText rest := gather_stop Mark.char? n rest

theorem shownText_placeholder (n : Nat) (content rest : Template) :
    shownText (.placeholder n content :: rest) = shownText content ++ shownText rest := by
  have h := gather_placeholder Mark.char? n content rest
  rw [show (Mark.leave n).char? = none from rfl, Option.toList_none, List.append_nil] at h
  exact h

end Template

/-- An entry as it is declared: its name, if it has one, before its type. -/
def Entry.declared (e : Entry) : Text :=
  if e.identifier = [] then e.type else e.identifier ++ ' ' :: e.type

/-- Types of results behind a list of parameters: nothing, the only one, or all of them
in parentheses. -/
def Signature.resultTypes : List Text → Text
  | [] => []
  | [type] => ' ' :: type
  | types => ' ' :: '(' :: joinWith commaSpace types ++ [')']

/-- A function literal of the signature, with an empty body. -/
def Signature.literal (s : Signature) : Text :=
  Outline.opening ++ joinWith commaSpace (s.params.map Entry.declared) ++
    ')' :: Signature.resultTypes (s.results.map Entry.type) ++ [' ', '{', '\n', '\t', '\n', '}']

/-- What stands for a parameter in a call: its text when its type is plain, and a
function literal otherwise. -/
def Entry.argument : Entry → Text
  | .plain raw _ _ => raw
  | .func _ _ s => s.literal

namespace Snippet
open Template

/-- What a call shows in its parentheses. -/
def argumentText (detail : Detail) (s : Signature) : Text :=
  match detail with
  | .bare => []
  | .name => joinWith commaSpace (s.required.map Entry.identifier)
  | .nameAndType => joinWith commaSpace (s.required.map Entry.argument)

theorem shownText_commaSeparated (parts : List Template) :
    shownText (commaSeparated parts) = joinWith commaSpace (parts.map shownText) := by
  have hsep : commaSpace.filterMap (fun c => Mark.char? (.char c)) = commaSpace :=
    List.filterMap_some
  rw [shownText, gather_commaSeparated, hsep]
  rfl

theorem shownText_callbackParam (number : Nat) (e : Entry) :
    shownText (callbackParam number e) = e.declared := by
  by_cases h : e.identifier = []
  · rw [callbackParam, Entry.declared, if_pos (List.isEmpty_iff.mpr h), if_pos h,
      shownText_placeholder, shownText_text, shownText_nil, List.append_nil, List.append_nil]
  · rw [callbackParam, Entry.declared, if_neg (mt List.isEmpty_iff.mp h), if_neg h,
      shownText_placeholder, shownText_text, shownText_text, shownText_nil, List.append_nil,
      List.append_nil]

theorem callbackResults_eq (results : List Entry) :
    callbackResults results = Signature.resultTypes (results.map Entry.type) := by
  match results with
  | [] => rfl
  | [only] => rfl
  | e :: e' :: results => rfl

theorem shownText_callback (first : Nat) (s : Signature) :
    shownText (callback first s) = s.literal := by
  have hparams : (callbackParams first s.params).map shownText = s.params.map Entry.declared := by
    have hfst : s.params.map Entry.declared =
        (s.params.zipIdx first).map (Entry.declared ∘ Prod.fst) := by
      rw [← List.map_map, List.zipIdx_map_fst]
    rw [callbackParams, List.map_map, hfst]
    exact List.map_congr_left fun entry _ => shownText_callbackParam entry.2 entry.1
  rw [callback_eq, shownText_text, shownText_append, shownText_commaSeparated, hparams,
    shownText_text, shownText_stop, shownText_text, shownText_nil, callbackResults_eq,
    Signature.literal]
  simp only [List.append_assoc, List.cons_append, List.nil_append]

theorem shownText_placeholder_text (number : Nat) (t : Text) :
    shownText [.placeholder number [.text t]] = t := by
  rw [shownText_placeholder, shownText_text, shownText_nil, List.append_nil, List.append_nil]

theorem shownText_placeholder_name (number : Nat) (e : Entry) :
    shownText [placeholder .name number e] = e.identifier := by
  cases e <;> exact shownText_placeholder_text number _

theorem shownText_placeholder_nameAndType (number : Nat) (e : Entry) :
    shownText [placeholder .nameAndType number e] = e.argument := by
  cases e with
  | plain raw identifier type => exact shownText_placeholder_text number raw
  | func raw identifier s =>
    have hinside : shownText [placeholder .nameAndType number (.func raw identifier s)] =
        shownText (callback (number + 1) s) ++ [] := shownText_placeholder number _ []
    rw [hinside, shownText_callback, List.append_nil, Entry.argument]

theorem map_shownText_placeholders {detail : Detail} {shows : Entry → Text}
    (h : ∀ number e, shownText [placeholder detail number e] = shows e) (first : Nat)
    (es : List Entry) :
    (placeholders detail first es).map (fun piece => shownText [piece]) = es.map shows := by
  induction es generalizing first with
  | nil => rfl
  | cons e es ih => rw [placeholders, List.map_cons, h, ih, List.map_cons]

theorem shownText_arguments (detail : Detail) (s : Signature) :
    shownText (arguments detail s.params) = argumentText detail s := by
  have hcall : ∀ shows : Entry → Text,
      (∀ number e, shownText [placeholder detail number e] = shows e) →
      shownText (commaSeparated ((placeholders detail 1 s.required).map fun piece => [piece])) =
        joinWith commaSpace (s.required.map shows) := by
    intro shows h
    have hmap := map_shownText_placeholders h 1 s.required
    rw [shownText_commaSeparated, List.map_map]
    exact congrArg (joinWith commaSpace) hmap
  cases detail with
  | bare =>
    unfold arguments argumentText
    cases s.params with
    | nil => rfl
    | cons e es => rfl
  | name => exact hcall Entry.identifier shownText_placeholder_name
  | nameAndType => exact hcall Entry.argument shownText_placeholder_nameAndType

/-- The template of a call, read and cleared of its stops, shows the name and the
arguments that the detail asks for, whatever the texts of the signature say. -/
theorem shown_read?_template {name : Text} {s : Signature} (detail : Detail)
    (hname : Text.Unmarked name) (hs : s.Unmarked) :
    (Mark.read? [] (ofSignature name s detail).template.render).map Mark.shown =
      some (name ++ '(' :: argumentText detail s ++ [')']) := by
  have hshown : shownText (ofSignature name s detail).template =
      name ++ '(' :: argumentText detail s ++ [')'] := by
    rw [template_ofSignature, shownText_text, shownText_append, shownText_arguments, shownText_text,
      shownText_stop, shownText_nil]
    simp only [List.append_assoc, List.cons_append, List.nil_append]
  rw [read?_template detail hname hs, Option.map_some]
  exact congrArg some hshown

theorem shown_read?_template_braced :
    Text.Unmarked "each".toList ∧ braced.Unmarked ∧
      (Mark.read? [] (ofSignature "each".toList braced .nameAndType).template.render).map
          Mark.shown =
        some ("each(func(k string, map\x7b\x7d) (error, chan \x7b\x7d) " ++
          "\x7b\n\t\n\x7d, n \x7b)").toList :=
  have hname : Text.Unmarked "each".toList := by decide
  have hbraced : braced.Unmarked := by decide
  ⟨hname, hbraced, shown_read?_template .nameAndType hname hbraced⟩

end Snippet
end CompletionSnippets
