import CompletionSnippets.Proofs.Snippet.Legibility
import Mathlib.Algebra.GroupWithZero.Nat

/-!
# The stops of generated templates

From left to right, the stops of a call's template bear the numbers one, two, three
and so on, and then zero at the very end. Each part of a template takes the numbers on
from where the part before it ended: a callback in a placeholder takes those behind
the placeholder's own, one for each parameter and one for the body.
-/
namespace CompletionSnippets

namespace Template

/-- The numbers of the stops in a template from left to right. -/
def stops (t : Template) : List Nat := gather Mark.number? t

theorem stops_append (a b : Template) : stops (a ++ b) = stops a ++ stops b :=
  gather_append Mark.number? a b

theorem stops_text (t : Text) (rest : Template) : stops (.text t :: rest) = stops rest := by
  have hnone : t.filterMap (fun c => Mark.number? (.char c)) = [] :=
    List.filterMap_eq_nil_iff.mpr fun c _ => rfl
  rw [stops, gather_text, hnone]
  rfl

theorem stops_stop (n : Nat) (rest : Template) : stops (.stop n :: rest) = n :: stops rest :=
  gather_stop Mark.number? n rest

theorem stops_placeholder (n : Nat) (content rest : Template) :
    stops (.placeholder n content :: rest) = n :: (stops content ++ stops rest) := by
  have h := gather_placeholder Mark.number? n content rest
  rw [show (Mark.leave n).number? = none from rfl, Option.toList_none, List.append_nil] at h
  exact h

end Template

namespace Snippet
open Template

theorem stops_commaSeparated (parts : List Template) :
    stops (commaSeparated parts) = parts.flatMap stops := by
  rw [stops, gather_commaSeparated, List.flatMap_def]
  exact intercalate_nil_eq_flatten _

theorem stops_callbackParam (number : Nat) (e : Entry) :
    stops (callbackParam number e) = [number] := by
  unfold callbackParam
  split
  · rw [stops_placeholder, stops_text]
    rfl
  · rw [stops_placeholder, stops_text, stops_text]
    rfl

/-- The parameters of a callback take one number each and its body the one behind them. -/
theorem stops_callback (first : Nat) (s : Signature) :
    stops (callback first s) = List.range' first (s.params.length + 1) := by
  have hparams : stops (commaSeparated (callbackParams first s.params)) =
      List.range' first s.params.length := by
    rw [stops_commaSeparated, callbackParams, List.flatMap_map]
    simp only [stops_callbackParam]
    rw [← List.zipIdx_map_snd first s.params]
    exact (List.map_eq_flatMap ..).symm
  have hbody : stops [.text (')' :: callbackResults s.results ++ [' ', '{', '\n', '\t']),
      .stop (first + s.params.length), .text ['\n', '}']] = [first + s.params.length] := by
    rw [stops_text, stops_stop, stops_text]
    rfl
  rw [callback_eq, stops_text, stops_append, hparams, hbody, List.range'_1_concat]

theorem stops_placeholder_text (number : Nat) (t : Text) :
    stops [.placeholder number [.text t]] = List.range' number 1 := by
  rw [stops_placeholder, stops_text]
  rfl

theorem stops_placeholder_singleton (detail : Detail) (number : Nat) (e : Entry) :
    stops [placeholder detail number e] = List.range' number (stopCount detail e) := by
  cases detail with
  | bare => cases e <;> exact stops_placeholder_text number _
  | name => cases e <;> exact stops_placeholder_text number _
  | nameAndType =>
    cases e with
    | plain raw identifier type => exact stops_placeholder_text number raw
    | func raw identifier s =>
      have hinside : stops [placeholder .nameAndType number (.func raw identifier s)] =
          number :: (stops (callback (number + 1) s) ++ []) := stops_placeholder number _ []
      rw [hinside, stops_callback, List.append_nil]
      exact List.range'_succ.symm

theorem stops_placeholders (detail : Detail) (first : Nat) (es : List Entry) :
    (placeholders detail first es).flatMap (fun piece => stops [piece]) =
      List.range' first (es.map (stopCount detail)).sum := by
  induction es generalizing first with
  | nil => rfl
  | cons e es ih =>
    rw [placeholders, List.flatMap_cons, ih, stops_placeholder_singleton, List.map_cons,
      List.sum_cons, List.range'_append_1]

/-- The number of stops inside the parentheses of a call: at most one without detail,
one for each required parameter by name, and with types one for each plain parameter
and, for each callback, one for itself, one for its body and one for each of its own
parameters. -/
def stopTotal (detail : Detail) (s : Signature) : Nat :=
  match detail with
  | .bare => if s.params.isEmpty then 0 else 1
  | .name => s.required.length
  | .nameAndType => (s.required.map stopsWithTypes).sum
where
  stopsWithTypes : Entry → Nat
    | .plain _ _ _ => 1
    | .func _ _ g => 2 + g.params.length

theorem sum_stopCount_name (es : List Entry) : (es.map (stopCount .name)).sum = es.length := by
  have hone : es.map (stopCount .name) = es.map fun _ => 1 :=
    List.map_congr_left fun e _ => by cases e <;> rfl
  rw [hone, List.map_const', List.sum_replicate_nat, Nat.mul_one]

theorem stopCount_nameAndType (e : Entry) :
    stopCount .nameAndType e = stopTotal.stopsWithTypes e := by
  cases e with
  | plain raw identifier type => rfl
  | func raw identifier g => exact Nat.add_comm _ _

theorem stops_arguments (detail : Detail) (s : Signature) :
    stops (arguments detail s.params) = List.range' 1 (stopTotal detail s) := by
  have hcall : stops (commaSeparated
      ((placeholders detail 1 s.required).map fun piece => [piece])) =
        List.range' 1 (s.required.map (stopCount detail)).sum := by
    rw [stops_commaSeparated, List.flatMap_map, stops_placeholders]
  cases detail with
  | bare =>
    unfold arguments stopTotal
    cases s.params with
    | nil => rfl
    | cons e es => rfl
  | name =>
    rw [sum_stopCount_name] at hcall
    exact hcall
  | nameAndType =>
    rw [List.map_congr_left fun e _ => stopCount_nameAndType e] at hcall
    exact hcall

/-- The marks of a call's template end with stop zero, and their numbers before it count
from one, whatever the texts of the signature say. -/
theorem stops_in_order {name : Text} {s : Signature} (detail : Detail)
    (hname : Text.Unmarked name) (hs : s.Unmarked) :
    ∃ ms, Mark.read? [] (ofSignature name s detail).template.render = some ms ∧
      Mark.numbers ms = List.range' 1 (stopTotal detail s) ++ [0] ∧
      (Mark.numbers ms).Nodup ∧ ms.getLast? = some (.stop 0) := by
  have hnumbers : stops (ofSignature name s detail).template =
      List.range' 1 (stopTotal detail s) ++ [0] := by
    have hend : stops [.text [')'], .stop 0] = [0] := rfl
    rw [template_ofSignature, stops_text, stops_append, stops_arguments, hend]
  refine ⟨_, read?_template detail hname hs, hnumbers, ?_, ?_⟩
  · change (stops (ofSignature name s detail).template).Nodup
    rw [hnumbers, List.nodup_append]
    refine ⟨List.nodup_range', by simp, ?_⟩
    intro n hn m hm
    have hpos := (List.mem_range'_1.mp hn).1
    rw [List.mem_singleton.mp hm]
    exact Nat.pos_iff_ne_zero.mp hpos
  · have hend : marks [.text [')'], .stop 0] = [.char ')', .stop 0] := rfl
    rw [template_ofSignature, marks, marks_append, hend]
    simp [List.getLast?_append]

theorem stops_in_order_braced :
    Text.Unmarked "each".toList ∧ braced.Unmarked ∧
      (ofSignature "each".toList braced .nameAndType).template.render =
        ("each($\x7b1:func($\x7b2:k\x7d string, $\x7b3:map\x7b\\\x7d\x7d) (error, " ++
          "chan \x7b\\\x7d) \x7b\n\t$4\n\\\x7d\x7d, $\x7b5:n \x7b\x7d)$0").toList ∧
      ∃ ms, Mark.read? [] (ofSignature "each".toList braced .nameAndType).template.render =
          some ms ∧
        Mark.numbers ms = [1, 2, 3, 4, 5, 0] ∧ (Mark.numbers ms).Nodup ∧
        ms.getLast? = some (.stop 0) :=
  have hname : Text.Unmarked "each".toList := by decide
  have hbraced : braced.Unmarked := by decide
  ⟨hname, hbraced, by decide, stops_in_order .nameAndType hname hbraced⟩

end Snippet
end CompletionSnippets
