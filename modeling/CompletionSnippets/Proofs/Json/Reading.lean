import CompletionSnippets.Json.Reader
import CompletionSnippets.Proofs.Json.Lexing

/-!
# Reading what is written

The machine that reads values takes the tokens of a value one after the other and then
delivers the value to the array or object around it, whatever tokens follow. It needs room on
the stack for as many arrays and objects as stand inside each other in the value. So a text
that is written for a value, with blanks around it, is read as that value unless it nests too
deeply.
-/
namespace CompletionSnippets.Json

/-- What becomes of a step when the given tokens follow. -/
def Step.resume : Step → List Token → Except Fault (Value × List Token)
  | .fault f, _ => .error f
  | .complete v, rest => .ok (v, rest)
  | .proceed stage stack, rest => Value.ofTokens stage stack rest

namespace Value

theorem ofTokens_cons (stage : Stage) (stack : List Frame) (token : Token) (rest : List Token) :
    ofTokens stage stack (token :: rest) = (Step.of stage stack token).resume rest := by
  rw [ofTokens]
  cases Step.of stage stack token <;> rfl

theorem exists_tokens_cons (v : Value) :
    ∃ token rest, v.tokens = token :: rest ∧
      ∀ stack, Step.of .firstItem stack token = Step.of .value (.array [] :: stack) token := by
  cases v <;> exact ⟨_, _, rfl, fun _ => rfl⟩

theorem ofTokens_firstItem (stack : List Frame) (v : Value) (items : List Value)
    (rest : List Token) :
    ofTokens .firstItem stack (itemTokens (v :: items) ++ rest) =
      ofTokens .value (.array [] :: stack) (itemTokens (v :: items) ++ rest) := by
  obtain ⟨token, behind, htokens, hstep⟩ := v.exists_tokens_cons
  have hitems : ∃ ts, itemTokens (v :: items) = v.tokens ++ ts := by
    cases items with
    | nil => exact ⟨[], (List.append_nil _).symm⟩
    | cons w items => exact ⟨_, itemTokens_cons v (List.cons_ne_nil w items)⟩
  obtain ⟨ts, hts⟩ := hitems
  rw [hts, htokens, List.cons_append, List.cons_append, ofTokens_cons, ofTokens_cons, hstep]

theorem ofTokens_firstKey (stack : List Frame) (m : Text × Value) (members : List (Text × Value))
    (rest : List Token) :
    ofTokens .firstKey stack (memberTokens (m :: members) ++ rest) =
      ofTokens (.key []) stack (memberTokens (m :: members) ++ rest) := by
  cases members with
  | nil => rw [memberTokens, List.cons_append, ofTokens_cons, ofTokens_cons]; rfl
  | cons w members =>
    rw [memberTokens_cons m (List.cons_ne_nil w members), memberTokens, List.cons_append,
      List.cons_append, List.cons_append, ofTokens_cons, ofTokens_cons]
    rfl

theorem ofTokens_key (read : List (Text × Value)) (key : Text) (stack : List Frame)
    (rest : List Token) :
    ofTokens (.key read) stack (.string key :: .colon :: rest) =
      ofTokens .value (.object read key :: stack) rest := by
  rw [ofTokens_cons]
  exact ofTokens_cons (.colon read key) stack .colon rest

theorem resume_enter (stage : Stage) {stack : List Frame} (h : stack.length < Step.nestingLimit)
    (rest : List Token) : (Step.enter stage stack).resume rest = ofTokens stage stack rest := by
  rw [Step.enter, if_pos h]
  rfl

mutual

-- by recursion on the value; inside an array or object the stack is one frame higher
/-- A value is read from its tokens and delivered. -/
theorem ofTokens_tokens : (v : Value) → (stack : List Frame) → (rest : List Token) →
    stack.length + v.depth ≤ Step.nestingLimit →
    ofTokens .value stack (v.tokens ++ rest) = (Step.deliver v stack).resume rest
  | .null, _, _, _ => ofTokens_cons ..
  | .bool b, _, _, _ => ofTokens_cons ..
  | .number n, _, _, _ => ofTokens_cons ..
  | .string t, _, _, _ => ofTokens_cons ..
  | .array [], stack, rest, h => by
    rw [depth] at h
    rw [tokens, List.cons_append, ofTokens_cons]
    refine (resume_enter .firstItem (by omega) _).trans ?_
    rw [itemTokens, List.nil_append, List.singleton_append, ofTokens_cons]
    rfl
  | .array (v :: items), stack, rest, h => by
    rw [depth] at h
    have hitems := ofTokens_itemTokens (v :: items) stack rest [] (List.cons_ne_nil v items)
      (by omega)
    rw [tokens, List.cons_append, ofTokens_cons]
    refine (resume_enter .firstItem (by omega) _).trans ?_
    rw [List.append_assoc, ofTokens_firstItem]
    exact hitems
  | .object [], stack, rest, h => by
    rw [depth] at h
    rw [tokens, List.cons_append, ofTokens_cons]
    refine (resume_enter .firstKey (by omega) _).trans ?_
    rw [memberTokens, List.nil_append, List.singleton_append, ofTokens_cons]
    rfl
  | .object (m :: members), stack, rest, h => by
    rw [depth] at h
    have hmembers := ofTokens_memberTokens (m :: members) stack rest [] (List.cons_ne_nil m members)
      (by omega)
    rw [tokens, List.cons_append, ofTokens_cons]
    refine (resume_enter .firstKey (by omega) _).trans ?_
    rw [List.append_assoc, ofTokens_firstKey]
    exact hmembers

theorem ofTokens_itemTokens : (items : List Value) → (stack : List Frame) → (rest : List Token) →
    (read : List Value) → items ≠ [] → stack.length + 1 + itemsDepth items ≤ Step.nestingLimit →
    ofTokens .value (.array read :: stack) (itemTokens items ++ .closeBracket :: rest) =
      (Step.deliver (.array (read.reverse ++ items)) stack).resume rest
  | [], _, _, _, hne, _ => absurd rfl hne
  | [v], stack, rest, read, _, h => by
    rw [itemsDepth] at h
    have hvalue := ofTokens_tokens v (.array read :: stack) (.closeBracket :: rest)
      (by rw [List.length_cons]; omega)
    rw [itemTokens, hvalue, Step.deliver, Step.resume, ofTokens_cons, Step.of, List.reverse_cons]
  | v :: w :: items, stack, rest, read, _, h => by
    rw [itemsDepth] at h
    have hvalue := ofTokens_tokens v (.array read :: stack)
      (.comma :: (itemTokens (w :: items) ++ .closeBracket :: rest))
      (by rw [List.length_cons]; omega)
    have hitems := ofTokens_itemTokens (w :: items) stack rest (v :: read)
      (List.cons_ne_nil w items) (by omega)
    rw [itemTokens_cons v (List.cons_ne_nil w items), List.append_assoc, List.cons_append, hvalue,
      Step.deliver, Step.resume, ofTokens_cons, Step.of, Step.resume, hitems, List.reverse_cons,
      List.append_assoc, List.singleton_append]

theorem ofTokens_memberTokens : (members : List (Text × Value)) → (stack : List Frame) →
    (rest : List Token) → (read : List (Text × Value)) → members ≠ [] →
    stack.length + 1 + membersDepth members ≤ Step.nestingLimit →
    ofTokens (.key read) stack (memberTokens members ++ .closeBrace :: rest) =
      (Step.deliver (.object (read.reverse ++ members)) stack).resume rest
  | [], _, _, _, hne, _ => absurd rfl hne
  | [(key, v)], stack, rest, read, _, h => by
    rw [membersDepth] at h
    have hvalue := ofTokens_tokens v (.object read key :: stack) (.closeBrace :: rest)
      (by rw [List.length_cons]; omega)
    rw [memberTokens, List.cons_append, List.cons_append, ofTokens_key, hvalue, Step.deliver,
      Step.resume, ofTokens_cons, Step.of, List.reverse_cons]
  | (key, v) :: w :: members, stack, rest, read, _, h => by
    rw [membersDepth] at h
    have hvalue := ofTokens_tokens v (.object read key :: stack)
      (.comma :: (memberTokens (w :: members) ++ .closeBrace :: rest))
      (by rw [List.length_cons]; omega)
    have hmembers := ofTokens_memberTokens (w :: members) stack rest ((key, v) :: read)
      (List.cons_ne_nil w members) (by omega)
    rw [memberTokens_cons (key, v) (List.cons_ne_nil w members), memberTokens, List.append_assoc,
      List.cons_append, List.cons_append, List.cons_append, ofTokens_key, hvalue, Step.deliver,
      Step.resume, ofTokens_cons, Step.of, Step.resume, hmembers, List.reverse_cons,
      List.append_assoc, List.singleton_append]

end

/-- What is written for a value is read as the value, when it does not nest too deeply. -/
theorem scan_written {v : Value} {t : Text} (h : v.WrittenAlone t)
    (hdepth : v.depth ≤ Step.nestingLimit) : scan t = .ok (v, []) := by
  obtain ⟨b, s, a, hb, hs, ha, rfl⟩ := h
  have hblank : Token.tokens a = [] := by
    have htokens := Token.tokens_blanks ha []
    rw [List.append_nil] at htokens
    exact htokens.trans (Token.tokens_of_none rfl)
  rw [scan, Token.tokens_blanks hb, tokens_written hs a ha.apart, hblank,
    ofTokens_tokens v [] [] (by simpa using hdepth)]
  rfl

theorem read_written {v : Value} {t : Text} (h : v.WrittenAlone t)
    (hdepth : v.depth ≤ Step.nestingLimit) : read t = .ok v := by
  rw [read, scan_written h hdepth]
  rfl

end Value
end CompletionSnippets.Json
