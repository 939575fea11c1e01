import CompletionSnippets.Proofs.Json.Scalars

/-!
# The tokens of what is written

A text that is written for a value has the tokens of the value, whichever blanks, escapes and
spellings of numbers were chosen, and reading tokens goes on behind it. Only a number depends
on what follows; behind an item or a member that is a blank, a comma or a closing bracket.
-/
namespace CompletionSnippets.Json

namespace Value

mutual

def tokens : Value → List Token
  | .null => [.scalar .null]
  | .bool b => [.scalar (.bool b)]
  | .number n => [.scalar (.number n)]
  | .string t => [.string t]
  | .array items => .openBracket :: (itemTokens items ++ [.closeBracket])
  | .object members => .openBrace :: (memberTokens members ++ [.closeBrace])

def itemTokens : List Value → List Token
  | [] => []
  | [v] => v.tokens
  | v :: items => v.tokens ++ .comma :: itemTokens items

def memberTokens : List (Text × Value) → List Token
  | [] => []
  | [(key, v)] => .string key :: .colon :: v.tokens
  | (key, v) :: members => .string key :: .colon :: (v.tokens ++ .comma :: memberTokens members)

end

end Value

namespace Token

theorem tokens_cons {c : Char} {rest after : Text} {token : Token} (hc : isBlank c = false)
    (h : startingWith c rest = (token, after)) : tokens (c :: rest) = token :: tokens after := by
  refine tokens_of_some ?_
  rw [next?, List.dropWhile_cons_of_neg (by rw [hc]; decide)]
  exact congrArg some h

/-- The characters that are tokens by themselves. -/
def marks : List (Char × Token) :=
  [('[', .openBracket), (']', .closeBracket), ('{', .openBrace), ('}', .closeBrace), (',', .comma),
    (':', .colon)]

theorem tokens_mark {c : Char} {token : Token} (h : (c, token) ∈ marks) (rest : Text) :
    tokens (c :: rest) = token :: tokens rest := by
  simp only [marks, List.mem_cons, Prod.mk.injEq, List.not_mem_nil, or_false] at h
  rcases h with ⟨rfl, rfl⟩ | ⟨rfl, rfl⟩ | ⟨rfl, rfl⟩ | ⟨rfl, rfl⟩ | ⟨rfl, rfl⟩ | ⟨rfl, rfl⟩ <;>
    exact tokens_cons rfl rfl

theorem apart_mark {c : Char} {token : Token} (h : (c, token) ∈ marks) (rest : Text) :
    Apart (c :: rest) := by
  simp only [marks, List.mem_cons, Prod.mk.injEq, List.not_mem_nil, or_false] at h
  rcases h with ⟨rfl, -⟩ | ⟨rfl, -⟩ | ⟨rfl, -⟩ | ⟨rfl, -⟩ | ⟨rfl, -⟩ | ⟨rfl, -⟩ <;>
    exact apart_cons rfl (by decide) rest

theorem tokens_enclosed {o c : Char} {first last : Token} {inner : Text} {ts : List Token}
    (ho : (o, first) ∈ marks) (hc : (c, last) ∈ marks)
    (h : ∀ rest, Apart rest → tokens (inner ++ rest) = ts ++ tokens rest) (rest : Text) :
    tokens (o :: (inner ++ [c]) ++ rest) = first :: (ts ++ [last]) ++ tokens rest := by
  have hinner := h (c :: rest) (apart_mark hc rest)
  rw [List.cons_append, tokens_mark ho, List.append_assoc, List.singleton_append, hinner,
    tokens_mark hc, List.cons_append, List.append_assoc, List.singleton_append]

theorem tokens_blanks {b : Text} (hb : Blanks b) (t : Text) : tokens (b ++ t) = tokens t := by
  have hblank : ∀ c ∈ b, isBlank c := by
    intro c hc
    have hmem := hb c hc
    simp only [List.mem_cons, List.not_mem_nil, or_false] at hmem
    rcases hmem with rfl | rfl | rfl | rfl <;> rfl
  have hnext : next? (b ++ t) = next? t := by
    rw [next?, next?, List.dropWhile_append_of_pos hblank]
  cases h : next? t with
  | none => rw [tokens_of_none h, tokens_of_none (hnext.trans h)]
  | some found => rw [tokens_of_some h, tokens_of_some (hnext.trans h)]

theorem expect_append (letters rest : Text) : expect letters (letters ++ rest) = .ok rest := by
  induction letters with
  | nil => rfl
  | cons c letters ih => rw [List.cons_append, expect, if_pos rfl, ih]

theorem tokens_string {t body : Text} (h : StringWritten t body) (rest : Text) :
    tokens ('"' :: (body ++ '"' :: rest)) = .string t :: tokens rest := by
  refine tokens_cons rfl ?_
  simp only [startingWith, scanString_written h, bind, Except.bind, pure, Except.pure]
  rfl

theorem startingWith_number {c : Char} {rest after : Text} {n : Number}
    (hc : c = '-' ∨ Text.isDigit c) (hscan : Number.scan (c :: rest) = .ok (n, after)) :
    startingWith c rest = (.scalar (.number n), after) := by
  have hfirst : (c = '-' || Text.isDigit c) = true := by simpa using hc
  unfold startingWith
  split
  -- no other token begins like a number
  case h_11 =>
    simp only [hfirst, hscan, if_true, bind, Except.bind, pure, Except.pure]
    rfl
  all_goals exact absurd hc (by decide)

theorem tokens_number {n : Number} {t : Text} (h : NumberWritten n t) {rest : Text}
    (hrest : Apart rest) : tokens (t ++ rest) = .scalar (.number n) :: tokens rest := by
  have hscan := Number.scan_written h hrest
  obtain ⟨c, s, rfl, hc⟩ := h.exists_cons
  have hblank : isBlank c = false := by
    rcases hc with rfl | hc
    · rfl
    · simp only [Text.isDigit, Bool.and_eq_true, decide_eq_true_eq] at hc
      simp only [isBlank, Bool.or_eq_false_iff, beq_eq_false_iff_ne]
      omega
  exact tokens_cons hblank (startingWith_number hc hscan)

theorem tokens_word {letters : Text} {c : Char} {v : Value} (hc : isBlank c = false)
    (h : ∀ rest, startingWith c rest =
      orBroken false do return (.scalar v, ← expect letters rest)) (rest : Text) :
    tokens (c :: (letters ++ rest)) = .scalar v :: tokens rest := by
  refine tokens_cons hc ?_
  rw [h, expect_append]
  rfl

end Token

namespace Value
open Token

theorem itemTokens_cons (v : Value) {items : List Value} (h : items ≠ []) :
    itemTokens (v :: items) = v.tokens ++ .comma :: itemTokens items := by
  cases items with
  | nil => contradiction
  | cons w items => rw [itemTokens]; nofun

theorem memberTokens_cons (m : Text × Value) {members : List (Text × Value)} (h : members ≠ []) :
    memberTokens (m :: members) = memberTokens [m] ++ .comma :: memberTokens members := by
  cases members with
  | nil => contradiction
  | cons w items => simp [memberTokens]

mutual

-- by induction on what is written, one case for each rule of the grammar
theorem tokens_written {v : Value} {t : Text} : v.Written t → ∀ rest, Apart rest →
    Token.tokens (t ++ rest) = v.tokens ++ Token.tokens rest
  | .null, rest, _ => tokens_word rfl (fun _ => rfl) rest
  | .true, rest, _ => tokens_word rfl (fun _ => rfl) rest
  | .false, rest, _ => tokens_word rfl (fun _ => rfl) rest
  | .number h, rest, hrest => tokens_number h hrest
  | .string h, rest, _ => by
    rw [List.cons_append, List.append_assoc, List.singleton_append, tokens_string h, tokens]
    rfl
  | .emptyArray hb, rest, _ =>
    tokens_enclosed (by simp [marks]) (by simp [marks]) (fun t _ => tokens_blanks hb t) rest
  | .array h, rest, _ =>
    tokens_enclosed (by simp [marks]) (by simp [marks]) (tokens_itemsWritten h) rest
  | .emptyObject hb, rest, _ =>
    tokens_enclosed (by simp [marks]) (by simp [marks]) (fun t _ => tokens_blanks hb t) rest
  | .object h, rest, _ =>
    tokens_enclosed (by simp [marks]) (by simp [marks]) (tokens_membersWritten h) rest

theorem tokens_itemsWritten {items : List Value} {t : Text} : ItemsWritten items t →
    ∀ rest, Apart rest → Token.tokens (t ++ rest) = itemTokens items ++ Token.tokens rest
  | .last (a := a) hb h ha, rest, hrest => by
    have hvalue := tokens_written h (a ++ rest) (ha.apart.append hrest)
    rw [List.append_assoc, tokens_blanks hb, List.append_assoc, hvalue, tokens_blanks ha,
      itemTokens]
  | .cons (a := a) (r := r) hb h ha hitems, rest, hrest => by
    have hcomma : (',', Token.comma) ∈ marks := by simp [marks]
    have hapart := apart_mark hcomma (r ++ rest)
    have hvalue := tokens_written h (a ++ ',' :: (r ++ rest)) (ha.apart.append hapart)
    have hothers := tokens_itemsWritten hitems rest hrest
    rw [List.append_assoc, tokens_blanks hb, List.append_assoc, List.append_assoc, List.cons_append,
      hvalue, tokens_blanks ha, tokens_mark hcomma, hothers, itemTokens_cons _ hitems.ne_nil,
      List.append_assoc, List.cons_append]

theorem tokens_memberWritten {m : Text × Value} {t : Text} : MemberWritten m t →
    ∀ rest, Apart rest → Token.tokens (t ++ rest) = memberTokens [m] ++ Token.tokens rest
  | .mk (a := a) hb hkey hg hi h ha, rest, hrest => by
    have hcolon : (':', Token.colon) ∈ marks := by simp [marks]
    have hvalue := tokens_written h (a ++ rest) (ha.apart.append hrest)
    rw [List.append_assoc, tokens_blanks hb, List.cons_append, List.append_assoc, List.cons_append,
      tokens_string hkey, List.append_assoc, tokens_blanks hg, List.cons_append, tokens_mark hcolon,
      List.append_assoc, tokens_blanks hi, List.append_assoc, hvalue, tokens_blanks ha,
      memberTokens]
    rfl

theorem tokens_membersWritten {members : List (Text × Value)} {t : Text} :
    MembersWritten members t →
    ∀ rest, Apart rest → Token.tokens (t ++ rest) = memberTokens members ++ Token.tokens rest
  | .last h, rest, hrest => tokens_memberWritten h rest hrest
  | .cons (r := r) h hmembers, rest, hrest => by
    have hcomma : (',', Token.comma) ∈ marks := by simp [marks]
    have hapart := apart_mark hcomma (r ++ rest)
    have hfirst := tokens_memberWritten h (',' :: (r ++ rest)) hapart
    have hothers := tokens_membersWritten hmembers rest hrest
    rw [List.append_assoc, List.cons_append, hfirst, tokens_mark hcomma, hothers,
      memberTokens_cons _ hmembers.ne_nil, List.append_assoc, List.cons_append]

end

end Value
end CompletionSnippets.Json
