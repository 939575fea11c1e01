import CompletionSnippets.Proofs.Signature.KeptText
import CompletionSnippets.Proofs.Snippet.Legibility

/-!
# Variadic parameters

A parameter is declared variadic when three dots begin its text, or stand behind its
identifier when it has one. The call leaves such parameters to the caller: its template
has one placeholder for each other parameter, and its display shows them all.

Whether a parameter is left out is decided by its type, though, and the type is what
stands behind the first blank outside brackets. An unnamed variadic parameter with such a
blank, as in `...chan int`, is taken apart there: the dots go to the identifier, and the
parameter keeps its placeholder. Every other parameter is left out just when it is declared
variadic, whatever its neighbours are.
-/
namespace CompletionSnippets
open Text Template

def ellipsis : Text := ['.', '.', '.']

namespace Entry

/-- Whether an entry with the given text and identifier is declared variadic. -/
def declaresVariadic (raw identifier : Text) : Bool :=
  ellipsis.isPrefixOf raw ||
    !identifier.isEmpty && ellipsis.isPrefixOf (trimStart (raw.drop identifier.length))

def isDeclaredVariadic (e : Entry) : Bool := declaresVariadic e.raw e.identifier

theorem Divided.not_noneExposed {raw identifier type : Text} (h : Divided raw identifier type)
    (hne : identifier ≠ []) : ¬ NoneExposed isBlank raw := by
  cases h with
  | unnamed => contradiction
  | @named identifier gap type _ _ outside gap_ne_nil blank =>
    rw [noneExposed_iff]
    intro h
    cases gap with
    | nil => contradiction
    | cons c gap =>
      have hc : isBlank c := List.all_eq_true.mp blank c List.mem_cons_self
      exact outside (h identifier c (gap ++ type) (by simp) hc)

theorem Divided.declaresVariadic_of_type {raw identifier type : Text}
    (h : Divided raw identifier type) (htype : trimStart type = type) (hdots : ellipsis <+: type) :
    declaresVariadic raw identifier := by
  rw [← List.isPrefixOf_iff_prefix] at hdots
  cases h with
  | unnamed => simp [declaresVariadic, hdots]
  | @named identifier gap type ne_nil _ _ _ blank =>
    rw [declaresVariadic, List.append_assoc, List.drop_left, trimStart_append_of_isAllBlank blank,
      htype, hdots]
    simp [ne_nil]

theorem Divided.type_of_declaresVariadic {raw identifier type : Text}
    (h : Divided raw identifier type) (htype : trimStart type = type)
    (hclosed : ellipsis <+: raw → NoneExposed isBlank raw)
    (hdots : declaresVariadic raw identifier) :
    ellipsis <+: type := by
  have hexposed := h.not_noneExposed
  rw [← List.isPrefixOf_iff_prefix]
  cases h with
  | unnamed => simpa [declaresVariadic] using hdots
  | @named identifier gap type ne_nil _ _ _ blank =>
    have hfirst : ellipsis.isPrefixOf (identifier ++ gap ++ type) = false := by
      rw [← Bool.not_eq_true, List.isPrefixOf_iff_prefix]
      exact fun hp => hexposed ne_nil (hclosed hp)
    rw [declaresVariadic, hfirst, List.append_assoc, List.drop_left,
      trimStart_append_of_isAllBlank blank, htype] at hdots
    simpa [ne_nil] using hdots

theorem trimStart_type_ofToken (levels : Nat) (token : Text) :
    trimStart (ofToken levels token).type = (ofToken levels token).type := by
  rw [type_ofToken]
  exact (trim_eq_self_iff.mp (trim_divide (trim_trim token))).1

theorem isVariadic_iff {e : Entry} : e.isVariadic ↔ ellipsis <+: e.type :=
  List.isPrefixOf_iff_prefix

/-- An entry that is taken for variadic is declared so. -/
theorem isDeclaredVariadic_of_isVariadic {levels : Nat} {token : Text}
    (h : (ofToken levels token).isVariadic) : (ofToken levels token).isDeclaredVariadic :=
  (divided_ofToken levels token).declaresVariadic_of_type (trimStart_type_ofToken levels token)
    (isVariadic_iff.mp h)

/-- An entry that is declared variadic is taken for variadic, unless its text begins with the
dots and has a blank outside brackets. -/
theorem isVariadic_of_isDeclaredVariadic {levels : Nat} {token : Text}
    (hclosed : ellipsis <+: (ofToken levels token).raw →
      NoneExposed isBlank (ofToken levels token).raw)
    (h : (ofToken levels token).isDeclaredVariadic) : (ofToken levels token).isVariadic :=
  isVariadic_iff.mpr <| (divided_ofToken levels token).type_of_declaresVariadic
    (trimStart_type_ofToken levels token) hclosed h

end Entry

namespace Snippet

/-- A placeholder with a number holds what the detail shows of a parameter: its identifier, its
text, or a callback in place of a function type. -/
inductive Slot (number : Nat) (e : Entry) : Detail → Piece → Prop
  | name : Slot number e .name (.placeholder number [.text e.identifier])
  | text : e.signature? = none → Slot number e .nameAndType (.placeholder number [.text e.raw])
  | callback {s : Signature} : e.signature? = some s →
    Slot number e .nameAndType (.placeholder number (callback (number + 1) s))

/-- The template is a call with one placeholder for each of the entries, in their order, and
nothing else between its parentheses. -/
def CallsWith (name : Text) (detail : Detail) (es : List Entry) (t : Template) : Prop :=
  ∃ slots, List.Forall₂ (fun e slot => ∃ number, Slot number e detail slot) es slots ∧
    t = .text (name ++ ['(']) ::
      (commaSeparated (slots.map fun slot => [slot]) ++ [.text [')'], .stop 0])

theorem slot_placeholder {detail : Detail} (h : detail ≠ .bare) (number : Nat) (e : Entry) :
    Slot number e detail (placeholder detail number e) := by
  unfold placeholder
  cases detail with
  | bare => contradiction
  | name => exact .name
  | nameAndType =>
    cases hsignature : e.signature? with
    | none => exact .text hsignature
    | some s => exact .callback hsignature

theorem forall₂_placeholders {detail : Detail} (h : detail ≠ .bare) (first : Nat)
    (es : List Entry) :
    List.Forall₂ (fun e slot => ∃ number, Slot number e detail slot) es
      (placeholders detail first es) := by
  induction es generalizing first with
  | nil => exact .nil
  | cons e es ih => exact .cons ⟨first, slot_placeholder h first e⟩ (ih _)

theorem callsWith_required (name : Text) (s : Signature) {detail : Detail}
    (h : detail ≠ .bare) :
    CallsWith name detail s.required (ofSignature name s detail).template := by
  refine ⟨placeholders detail 1 s.required, forall₂_placeholders h 1 s.required, ?_⟩
  cases detail with
  | bare => contradiction
  | name => rfl
  | nameAndType => rfl

/-- The display of a call shows the texts of all parameters, and its template has one placeholder
for each parameter that is not taken for variadic. A parameter that is taken for variadic is
declared so, and one that is declared so is taken for it unless its text begins with three dots and
has a blank outside brackets. -/
theorem calls_without_variadics {name type : Text} {s : Signature}
    (hread : Signature.read type = .ok s) :
    (∀ detail, (ofType name type detail).displayText =
      name ++ '(' :: joinWith commaSpace (s.params.map Entry.raw) ++ [')']) ∧
    (∀ detail, detail ≠ .bare → CallsWith name detail (s.params.filter fun e => !e.isVariadic)
      (ofType name type detail).template) ∧
    ∀ e ∈ s.params, (e.isVariadic → e.isDeclaredVariadic) ∧
      ((ellipsis <+: e.raw → NoneExposed isBlank e.raw) → e.isDeclaredVariadic → e.isVariadic) := by
  obtain ⟨o, ho, rfl⟩ := Signature.exists_outline_of_read hread
  have htype : ∀ detail, ofType name type detail =
      ofSignature name (Signature.ofOutline Signature.nestingLimit o) detail := by
    intro detail
    simp only [ofType, Signature.ofText?, ho, Option.map_some]
  refine ⟨fun detail => ?_, fun detail hdetail => ?_, fun e he => ?_⟩
  · rw [htype]
    rfl
  · rw [htype]
    exact callsWith_required name _ hdetail
  · obtain ⟨token, -, rfl⟩ := List.mem_map.mp he
    exact ⟨Entry.isDeclaredVariadic_of_isVariadic, Entry.isVariadic_of_isDeclaredVariadic⟩

/-- `func(...interface{ M() int }, out ...chan<- func(), f func(x int) error)`. -/
def mixed : Signature :=
  let int : Text := ['i', 'n', 't']
  let error : Text := "error".toList
  { raw := "func(...interface\x7b M() int \x7d, out ...chan<- func(), f func(x int) error)".toList
    params := [
      .plain "...interface\x7b M() int \x7d".toList [] "...interface\x7b M() int \x7d".toList,
      .plain "out ...chan<- func()".toList "out".toList "...chan<- func()".toList,
      .func "f func(x int) error".toList ['f'] {
        raw := "func(x int) error".toList
        params := [.plain "x int".toList ['x'] int]
        results := [.plain error [] error] }]
    results := [] }

theorem calls_without_variadics_mixed :
    Signature.read mixed.raw = .ok mixed ∧
      (ofType "Run".toList mixed.raw .nameAndType).template.render =
        "Run($\x7b1:func($\x7b2:x\x7d int) error \x7b\n\t$3\n\\\x7d\x7d)$0".toList ∧
      (ofType "Run".toList mixed.raw .nameAndType).displayText =
        "Run".toList ++ '(' :: joinWith commaSpace (mixed.params.map Entry.raw) ++ [')'] ∧
      CallsWith "Run".toList .nameAndType (mixed.params.filter fun e => !e.isVariadic)
        (ofType "Run".toList mixed.raw .nameAndType).template ∧
      (∀ e ∈ mixed.params, ellipsis <+: e.raw → NoneExposed isBlank e.raw) ∧
      mixed.params.map Entry.isDeclaredVariadic = [true, true, false] ∧
      ∀ e ∈ mixed.params, e.isDeclaredVariadic → e.isVariadic := by
  have hread : Signature.read mixed.raw = .ok mixed := by cbv
  have hclosed : ∀ e ∈ mixed.params, ellipsis <+: e.raw → NoneExposed isBlank e.raw := by decide
  obtain ⟨hdisplay, hcalls, hagree⟩ := calls_without_variadics hread
  exact ⟨hread, by cbv, hdisplay _, hcalls _ (by decide), hclosed, by decide,
    fun e he => (hagree e he).2 (hclosed e he)⟩

/-- `func(...chan int)`, whose only parameter is taken apart at its blank. -/
def channels : Signature :=
  { raw := "func(...chan int)".toList
    params := [.plain "...chan int".toList "...chan".toList "int".toList]
    results := [] }

/-- A variadic parameter of a channel type keeps a placeholder. -/
theorem channel_keeps_placeholder :
    Signature.read channels.raw = .ok channels ∧
      channels.params.map Entry.isDeclaredVariadic = [true] ∧
      (ofType "Merge".toList channels.raw .name).template.render =
        "Merge($\x7b1:...chan\x7d)$0".toList ∧
      (ofType "Merge".toList channels.raw .nameAndType).template.render =
        "Merge($\x7b1:...chan int\x7d)$0".toList ∧
      ∀ detail : Detail, detail ≠ .bare →
        ¬ CallsWith "Merge".toList detail (channels.params.filter fun e => !e.isDeclaredVariadic)
          (ofType "Merge".toList channels.raw detail).template := by
  have hread : Signature.read channels.raw = .ok channels := by cbv
  have hname : (ofType "Merge".toList channels.raw .name).template.render =
      "Merge($\x7b1:...chan\x7d)$0".toList := by cbv
  have htype : (ofType "Merge".toList channels.raw .nameAndType).template.render =
      "Merge($\x7b1:...chan int\x7d)$0".toList := by cbv
  refine ⟨hread, by decide, hname, htype, ?_⟩
  -- a call without placeholders is written otherwise
  have hnone : channels.params.filter (fun e => !e.isDeclaredVariadic) = [] := by
    rw [List.filter_eq_nil_iff]
    decide
  rintro detail hdetail ⟨slots, hslots, htemplate⟩
  rw [hnone] at hslots
  cases hslots
  have hcall : (ofType "Merge".toList channels.raw detail).template.render =
      "Merge()$0".toList := by
    rw [htemplate]
    decide
  cases detail with
  | bare => exact hdetail rfl
  | name =>
    rw [hcall] at hname
    exact absurd hname (by decide)
  | nameAndType =>
    rw [hcall] at htype
    exact absurd htype (by decide)

end Snippet
end CompletionSnippets
