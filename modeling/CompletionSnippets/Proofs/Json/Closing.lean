import CompletionSnippets.Proofs.Json.Extending
import CompletionSnippets.Proofs.Json.Reading

/-!
# Where a value ends

While an array or object is open, nothing but its closing bracket completes the value that is
being read. So an array is only read from a text that holds its last bracket, and what stands
behind that bracket changes neither the value nor how much of the text is read for it.
-/
namespace CompletionSnippets.Json

/-- The bracket at the end of an array or object. -/
def Value.closer? : Value → Option Char
  | .array _ => some ']'
  | .object _ => some '}'
  | _ => none

def Frame.closer : Frame → Char
  | .array _ => ']'
  | .object _ _ => '}'

def Stage.closer? : Stage → Option Char
  | .value => none
  | .firstItem | .afterItem _ => some ']'
  | .firstKey | .key _ | .colon _ _ | .afterMember _ => some '}'

/-- The bracket at the end of the outermost array or object that is open. -/
def outerCloser? (stage : Stage) (stack : List Frame) : Option Char :=
  match stack.getLast? with
  | some frame => some frame.closer
  | none => stage.closer?

/-- The step after the token goes wrong, or completes the value that ends with the bracket, or
leaves it open. -/
def Step.Keeps (c : Char) (token : Token) : Step → Prop
  | .fault _ => True
  | .complete v => v.closer? = some c ∧ (c, token) ∈ Token.marks
  | .proceed stage stack => token.isBroken = false ∧ outerCloser? stage stack = some c

section Outermost
variable {stage stage' : Stage} {stack : List Frame} {frame : Frame} {c : Char} {v : Value}
  {token : Token}

/-- Inside an array or object the stage does not matter. -/
theorem outerCloser?_cons (stage' : Stage) (h : stage'.closer? = some frame.closer) :
    outerCloser? stage (frame :: stack) = outerCloser? stage' stack := by
  cases stack with
  | nil => exact h.symm
  | cons other stack => rfl

namespace Step

theorem keeps_deliver_cons (hwhole : token.isBroken = false)
    (hopen : outerCloser? stage (frame :: stack) = some c) :
    (deliver v (frame :: stack)).Keeps c token := by
  cases frame with
  | array items =>
    exact ⟨hwhole, (outerCloser?_cons (.afterItem (v :: items)) rfl).symm.trans hopen⟩
  | object members key =>
    exact ⟨hwhole, (outerCloser?_cons (.afterMember ((key, v) :: members)) rfl).symm.trans hopen⟩

/-- The bracket of the innermost array or object delivers it. -/
theorem keeps_deliver {d : Char} (hopen : outerCloser? stage stack = some c)
    (hstage : stage.closer? = some d) (hv : v.closer? = some d) (hmark : (d, token) ∈ Token.marks)
    (hwhole : token.isBroken = false) : (deliver v stack).Keeps c token := by
  cases stack with
  | nil =>
    obtain rfl : d = c := Option.some.inj (hstage.symm.trans hopen)
    exact ⟨hv, hmark⟩
  | cons frame stack => exact keeps_deliver_cons hwhole hopen

theorem keeps_enter (hwhole : token.isBroken = false)
    (hopen : outerCloser? stage' (frame :: stack) = some c) :
    (enter stage (frame :: stack)).Keeps c token := by
  unfold enter
  split
  · exact ⟨hwhole, hopen⟩
  · trivial

theorem keeps_value (hopen : outerCloser? .value (frame :: stack) = some c) :
    (value (frame :: stack) token).Keeps c token := by
  cases token with
  | openBracket => exact keeps_enter rfl hopen
  | openBrace => exact keeps_enter rfl hopen
  | string t => exact keeps_deliver_cons rfl hopen
  | scalar v => exact keeps_deliver_cons rfl hopen
  | broken isString f => trivial
  | closeBracket | closeBrace | comma | colon => trivial

theorem keeps_key {members : List (Text × Value)}
    (hopen : outerCloser? (.key members) stack = some c) :
    (key members stack token).Keeps c token := by
  unfold key
  split
  · exact ⟨rfl, hopen⟩
  · trivial
  · trivial

/-- While an array or object is open, only its bracket completes the value. -/
theorem keeps_of (hopen : outerCloser? stage stack = some c) (token : Token) :
    (Step.of stage stack token).Keeps c token := by
  unfold Step.of
  split
  -- a value, wherever one may stand
  case h_1 =>
    cases stack with
    | nil => cases hopen
    | cons frame stack => exact keeps_value hopen
  case h_3 => exact keeps_value ((outerCloser?_cons _ rfl).trans hopen)
  -- a closing bracket
  case h_2 | h_4 | h_6 | h_10 => exact keeps_deliver hopen rfl rfl (by simp [Token.marks]) rfl
  case h_7 | h_8 => exact keeps_key hopen
  -- a comma or a colon
  case h_5 | h_9 => exact ⟨rfl, (outerCloser?_cons _ rfl).trans hopen⟩
  case h_11 => exact ⟨rfl, hopen⟩
  case h_12 => trivial

end Step

theorem Token.isBroken_of_mark (h : (c, token) ∈ marks) : token.isBroken = false := by
  have hall : ∀ m ∈ marks, m.2.isBroken = false := by simp [marks, isBroken]
  exact hall _ h

theorem Token.openBracket_mem_marks : ('[', openBracket) ∈ marks := by simp [marks]

theorem Token.exists_of_mark {t rest : Text} (h : next? t = some (token, rest))
    (hmark : (c, token) ∈ marks) : ∃ b, Blanks b ∧ t = b ++ c :: rest := by
  obtain ⟨b, d, body, hb, -, rfl, hbegins⟩ := exists_begins h (isBroken_of_mark hmark)
  have hsame : d = c ∧ rest = body := by
    simp only [marks, List.mem_cons, Prod.mk.injEq, List.not_mem_nil, or_false] at hmark
    rcases hmark with ⟨rfl, rfl⟩ | ⟨rfl, rfl⟩ | ⟨rfl, rfl⟩ | ⟨rfl, rfl⟩ | ⟨rfl, rfl⟩ | ⟨rfl, rfl⟩ <;>
    · cases hbegins with
      | mark hd => simpa [marks] using hd
  obtain ⟨rfl, rfl⟩ := hsame
  exact ⟨b, hb, rfl⟩

/-- A value is read from a text that holds its last bracket, and the text behind that bracket is
left as it is. -/
theorem Value.ofTokens_closed {t : Text} {left : List Token}
    (hopen : outerCloser? stage stack = some c)
    (h : ofTokens stage stack (Token.tokens t) = .ok (v, left)) :
    v.closer? = some c ∧ ∃ inside rest, t = inside ++ c :: rest ∧ left = Token.tokens rest ∧
      ∀ s, ofTokens stage stack (Token.tokens (t ++ s)) = .ok (v, Token.tokens (rest ++ s)) := by
  induction hn : t.length using Nat.strongRecOn generalizing t stage stack with
  | ind n ih =>
    match hnext : Token.next? t with
    | none =>
      rw [Token.tokens_of_none hnext] at h
      cases h
    | some (token, rest) =>
      have hkeeps := Step.keeps_of hopen token
      rw [Token.tokens_of_some hnext, ofTokens_cons] at h
      match hstep : Step.of stage stack token with
      | .fault f =>
        rw [hstep] at h
        cases h
      | .complete w =>
        rw [hstep] at h hkeeps
        cases h
        obtain ⟨hcloser, hmark⟩ := hkeeps
        obtain ⟨b, hb, rfl⟩ := Token.exists_of_mark hnext hmark
        refine ⟨hcloser, b, rest, rfl, rfl, fun s => ?_⟩
        rw [List.append_assoc, Token.tokens_blanks hb, List.cons_append, Token.tokens_mark hmark,
          ofTokens_cons, hstep]
        rfl
      | .proceed stage' stack' =>
        rw [hstep] at h hkeeps
        obtain ⟨hwhole, hopen'⟩ := hkeeps
        obtain ⟨hcloser, inside, behind, rfl, hleft, hlonger⟩ :=
          ih _ (hn ▸ Token.next?_length hnext) hopen' h rfl
        obtain ⟨lead, rfl⟩ := Token.next?_isSuffix hnext hwhole
        refine ⟨hcloser, lead ++ inside, behind, by simp, hleft, fun s => ?_⟩
        have hne : inside ++ c :: behind ≠ [] := by simp
        rw [Token.tokens_of_some (Token.next?_append hnext hwhole hne s), ofTokens_cons, hstep]
        exact hlonger s

end Outermost

namespace Token

theorem tokens_eq_nil_iff {t : Text} : tokens t = [] ↔ Blanks t := by
  constructor
  · intro h
    match hnext : next? t with
    | none =>
      unfold next? at hnext
      split at hnext
      · rename_i hdrop
        rw [← List.takeWhile_append_dropWhile (l := t), hdrop, List.append_nil]
        intro c hc
        exact mem_blanks_iff.mpr (List.all_eq_true.mp List.all_takeWhile c hc)
      · cases hnext
    | some (token, rest) =>
      rw [tokens_of_some hnext] at h
      cases h
  · intro h
    have hblanks := tokens_blanks h []
    rw [List.append_nil] at hblanks
    exact hblanks.trans (tokens_of_none rfl)

theorem closer?_of_scalar {t rest : Text} {v : Value} (h : next? t = some (.scalar v, rest)) :
    v.closer? = none := by
  obtain ⟨b, c, body, -, -, -, hbegins⟩ := exists_begins h rfl
  cases hbegins with
  | mark hc => simp [marks] at hc
  | word hc hscan =>
    have hall : ∀ word ∈ words, word.2.2.closer? = none := by simp [words, Value.closer?]
    exact hall _ hc
  | number hc hscan => rfl

end Token

namespace Value
open Token

theorem scan_openBracket {b : Text} (hb : Blanks b) (t : Text) :
    scan (b ++ '[' :: t) = ofTokens .firstItem [] (Token.tokens t) := by
  rw [scan, tokens_blanks hb, tokens_mark openBracket_mem_marks, ofTokens_cons]
  rfl

theorem exists_openBracket {t : Text} {items : List Value} {left : List Token}
    (h : scan t = .ok (.array items, left)) : ∃ b rest, Blanks b ∧ t = b ++ '[' :: rest := by
  match hnext : next? t with
  | none =>
    rw [scan, tokens_of_none hnext] at h
    cases h
  | some (token, rest) =>
    rw [scan, tokens_of_some hnext, ofTokens_cons] at h
    cases token with
    | openBracket =>
      obtain ⟨b, hb, rfl⟩ := exists_of_mark hnext openBracket_mem_marks
      exact ⟨b, rest, hb, rfl⟩
    | openBrace =>
      have hfirst : ofTokens .firstKey [] (Token.tokens rest) = .ok (.array items, left) := h
      have hcloser := (ofTokens_closed (c := '}') rfl hfirst).1
      cases hcloser
    | scalar v =>
      cases h
      have hcloser := closer?_of_scalar hnext
      cases hcloser
    | string | closeBracket | closeBrace | comma | colon | broken => cases h

/-- An array with only blanks behind it stands between two brackets, and a text that ends between
them holds no value. -/
theorem scan_cut {t : Text} {items : List Value} (h : scan t = .ok (.array items, [])) :
    ∃ before inside behind : Text, Blanks before ∧ Blanks behind ∧
      t = before ++ '[' :: (inside ++ ']' :: behind) ∧
      ∀ cut, cut <+: inside → ∃ fault, scan (before ++ '[' :: cut) = .error fault := by
  obtain ⟨before, body, hbefore, rfl⟩ := exists_openBracket h
  rw [scan_openBracket hbefore] at h
  obtain ⟨-, inside, behind, rfl, hnone, -⟩ := ofTokens_closed (c := ']') rfl h
  refine ⟨before, inside, behind, hbefore, tokens_eq_nil_iff.mp hnone.symm, rfl, ?_⟩
  rintro cut ⟨others, rfl⟩
  rw [scan_openBracket hbefore]
  match hcut : ofTokens .firstItem [] (Token.tokens cut) with
  | .error fault => exact ⟨fault, rfl⟩
  | .ok (v, left) =>
    -- the value would end inside `cut` in the longer text too, and leave its last bracket
    obtain ⟨-, inner, rest, -, -, hlonger⟩ := ofTokens_closed (c := ']') rfl hcut
    have hleft := hlonger (others ++ ']' :: behind)
    rw [← List.append_assoc, h] at hleft
    have hblanks : Blanks (rest ++ (others ++ ']' :: behind)) :=
      tokens_eq_nil_iff.mp (Prod.mk.inj (Except.ok.inj hleft)).2.symm
    have hbracket := hblanks ']' (by simp)
    simp at hbracket

end Value
end CompletionSnippets.Json
