import CompletionSnippets.Proofs.Nesting.Cuts
import Mathlib.Order.Bounds.Defs

/-!
# Matched brackets

The brackets of a text match when it is made up of characters that are no brackets and of
pairs, an opener and a closer of one family around such a text again. Unlike in a closed
text the two families may not cross. Every opener of a matched text has one partner, and
what stands between the two is matched. A matched text can be parted between its pairs or
inside one of them, and only in the first case is its front part matched.

Behind the opener of a pair nothing that stands before its closer is at top level again,
whatever was open before.
-/
namespace CompletionSnippets

/-- The two families of brackets. -/
inductive Bracket where
  | paren
  | brace
deriving DecidableEq, Repr

namespace Bracket

def opener : Bracket → Char
  | paren => '('
  | brace => '{'

def closer : Bracket → Char
  | paren => ')'
  | brace => '}'

theorem opener_ne_closer (b b' : Bracket) : b.opener ≠ b'.closer := by
  cases b <;> cases b' <;> decide

theorem opener_mem (b : Bracket) : b.opener ∈ ['(', ')', '{', '}'] := by cases b <;> decide

theorem closer_mem (b : Bracket) : b.closer ∈ ['(', ')', '{', '}'] := by cases b <;> decide

theorem opener_inj {b b' : Bracket} (h : b.opener = b'.opener) : b = b' := by
  cases b with
  | paren =>
    cases b' with
    | paren => rfl
    | brace => exact absurd h (by decide)
  | brace =>
    cases b' with
    | paren => exact absurd h (by decide)
    | brace => rfl

theorem char_cases (c : Char) :
    (∃ b : Bracket, c = b.opener) ∨ (∃ b : Bracket, c = b.closer) ∨ c ∉ ['(', ')', '{', '}'] := by
  by_cases hc : c ∈ ['(', ')', '{', '}']
  · simp only [List.mem_cons, List.not_mem_nil, or_false] at hc
    rcases hc with hc | hc | hc | hc
    · exact .inl ⟨.paren, hc⟩
    · exact .inr (.inl ⟨.paren, hc⟩)
    · exact .inl ⟨.brace, hc⟩
    · exact .inr (.inl ⟨.brace, hc⟩)
  · exact .inr (.inr hc)

end Bracket

namespace Text

/-- Each bracket of the text has its partner, and pairs stand in one another or one behind
the other. -/
inductive Matched : Text → Prop
  | nil : Matched []
  | plain {c : Char} {t : Text} (hc : c ∉ ['(', ')', '{', '}']) (ht : Matched t) :
      Matched (c :: t)
  | pair (b : Bracket) {inside t : Text} (hinside : Matched inside) (ht : Matched t) :
      Matched (b.opener :: (inside ++ b.closer :: t))

/-- What stands between two places. -/
def between (t : Text) (i j : Nat) : Text := (t.take j).drop (i + 1)

/-- The brackets at the two places of the text are partners. -/
structure Pair (b : Bracket) (t : Text) (i j : Nat) : Prop where
  lt : i < j
  opens : t[i]? = some b.opener
  closes : t[j]? = some b.closer
  matched : Matched (between t i j)

/-- The text closes the open brackets, the last one first, and all that it opens. -/
def closesAll (opened : List Bracket) : Text → Bool
  | [] => opened.isEmpty
  | c :: t =>
    if c = '(' then closesAll (.paren :: opened) t
    else if c = '{' then closesAll (.brace :: opened) t
    else if c = ')' ∨ c = '}' then
      match opened with
      | [] => false
      | b :: opened => c = b.closer && closesAll opened t
    else closesAll opened t

/-- Matched texts with a closer for each of the open brackets between them. -/
def ClosedInTurn : List Bracket → Text → Prop
  | [], t => Matched t
  | b :: opened, t =>
    ∃ inside rest : Text, t = inside ++ b.closer :: rest ∧ Matched inside ∧ ClosedInTurn opened rest

section Stack
variable {b : Bracket} {opened : List Bracket} {c : Char} {s t : Text}

theorem closesAll_opener : closesAll opened (b.opener :: t) = closesAll (b :: opened) t := by
  cases b <;> rfl

theorem closesAll_closer :
    closesAll opened (b.closer :: t) ↔ ∃ rest, opened = b :: rest ∧ closesAll rest t := by
  have hclose : closesAll opened (b.closer :: t) =
      match opened with
      | [] => false
      | b' :: rest => b.closer = b'.closer && closesAll rest t := by
    cases b <;> rfl
  rw [hclose]
  cases opened with
  | nil => simp
  | cons b' rest => cases b <;> cases b' <;> simp [Bracket.closer]

theorem closesAll_plain (hc : c ∉ ['(', ')', '{', '}']) :
    closesAll opened (c :: t) = closesAll opened t := by
  simp only [List.mem_cons, List.not_mem_nil, or_false, not_or] at hc
  simp [closesAll, hc]

theorem Matched.closesAll_append (h : Matched s) :
    closesAll opened (s ++ t) = closesAll opened t := by
  induction h generalizing opened t with
  | nil => rfl
  | plain hc _ ih => rw [List.cons_append, closesAll_plain hc, ih]
  | pair b _ _ ihinside ih =>
    rw [List.cons_append, closesAll_opener, List.append_assoc, ihinside, List.cons_append,
      Bool.eq_iff_iff, closesAll_closer]
    simp [ih]

theorem Matched.append (hs : Matched s) (ht : Matched t) : Matched (s ++ t) := by
  induction hs with
  | nil => exact ht
  | plain hc _ ih => exact .plain hc ih
  | pair b hinside _ _ ih =>
    rw [List.cons_append, List.append_assoc, List.cons_append]
    exact .pair b hinside ih

theorem ClosedInTurn.append (hs : Matched s) (h : ClosedInTurn opened t) :
    ClosedInTurn opened (s ++ t) := by
  cases opened with
  | nil => exact hs.append h
  | cons b opened =>
    obtain ⟨inside, rest, rfl, hinside, hrest⟩ := h
    exact ⟨s ++ inside, rest, by rw [List.append_assoc], hs.append hinside, hrest⟩

theorem closedInTurn_of_closesAll (h : closesAll opened t) : ClosedInTurn opened t := by
  induction t generalizing opened with
  | nil =>
    rw [List.isEmpty_iff.mp h]
    exact Matched.nil
  | cons c t ih =>
    rcases Bracket.char_cases c with ⟨b, rfl⟩ | ⟨b, rfl⟩ | hc
    · -- the opener, the text up to its closer and the closer are a matched text of their own
      rw [closesAll_opener] at h
      obtain ⟨inside, rest, rfl, hinside, hrest⟩ := ih h
      have happend := ClosedInTurn.append (.pair b hinside .nil) hrest
      rwa [List.cons_append, List.append_assoc] at happend
    · obtain ⟨rest, rfl, hrest⟩ := closesAll_closer.mp h
      exact ⟨[], t, rfl, .nil, ih hrest⟩
    · rw [closesAll_plain hc] at h
      exact ClosedInTurn.append (.plain hc .nil) (ih h)

theorem closesAll_iff_matched : closesAll [] t ↔ Matched t := by
  constructor
  · intro h
    exact closedInTurn_of_closesAll h
  · intro h
    have happend : closesAll [] (t ++ []) = closesAll [] [] := h.closesAll_append
    rw [List.append_nil] at happend
    rw [happend]
    rfl

end Stack

instance (t : Text) : Decidable (Matched t) := decidable_of_iff _ closesAll_iff_matched

instance (b : Bracket) (t : Text) (i j : Nat) : Decidable (Pair b t i j) :=
  decidable_of_iff (i < j ∧ t[i]? = some b.opener ∧ t[j]? = some b.closer ∧ Matched (between t i j))
    ⟨fun ⟨hlt, hopens, hcloses, hmatched⟩ => ⟨hlt, hopens, hcloses, hmatched⟩,
      fun h => ⟨h.1, h.2, h.3, h.4⟩⟩

theorem Closed.enclose {t : Text} (h : Closed t) (b : Bracket) :
    Closed (b.opener :: (t ++ [b.closer])) := by
  cases b with
  | paren => exact h.parenthesize
  | brace =>
    have ho : Balanced '(' ')' ['{'] := by decide
    have hc : Balanced '(' ')' ['}'] := by decide
    exact ⟨(ho.append h.parens).append hc, h.braces.enclose (by decide)⟩

theorem Matched.closed {t : Text} (h : Matched t) : Closed t := by
  induction h with
  | nil => exact closed_of_no_brackets (by simp)
  | plain hc _ ih => exact ih.cons hc
  | pair b _ _ ihinside ih =>
    have happend := (ihinside.enclose b).append ih
    rwa [List.cons_append, List.append_assoc] at happend

theorem Closed.balanced {t : Text} (h : Closed t) (b : Bracket) :
    Balanced b.opener b.closer t := by
  cases b with
  | paren => exact h.parens
  | brace => exact h.braces

theorem matched_of_no_brackets {t : Text} (h : ∀ c ∈ t, c ∉ ['(', ')', '{', '}']) :
    Matched t := by
  induction t with
  | nil => exact .nil
  | cons c t ih =>
    obtain ⟨hc, ht⟩ := List.forall_mem_cons.mp h
    exact .plain hc (ih ht)

theorem not_bracket_of_isBlank {c : Char} (hc : isBlank c) : c ∉ ['(', ')', '{', '}'] := by
  intro hmem
  simp only [List.mem_cons, List.not_mem_nil, or_false] at hmem
  rcases hmem with rfl | rfl | rfl | rfl
  all_goals contradiction

theorem matched_of_isAllBlank {t : Text} (h : t.isAllBlank) : Matched t :=
  matched_of_no_brackets fun c hc => not_bracket_of_isBlank (List.all_eq_true.mp h c hc)

/-- A text parted at a character and somewhere else: the character stands behind the other
place or before it. -/
theorem append_cons_eq_append {x y u v : Text} {c : Char} (h : x ++ c :: y = u ++ v) :
    (∃ r, x = u ++ r ∧ v = r ++ c :: y) ∨ ∃ r, u = x ++ c :: r ∧ y = r ++ v := by
  rcases List.append_eq_append_iff.mp h with ⟨r, hu, hr⟩ | ⟨r, hx, hv⟩
  · cases r with
    | nil => exact .inl ⟨[], by simpa using hu.symm, hr.symm⟩
    | cons d r =>
      obtain ⟨rfl, hy⟩ := List.cons.inj hr
      exact .inr ⟨r, hu, hy⟩
  · exact .inl ⟨r, hx, hv⟩

/-- A text parted at two characters: they are the same one, or one stands behind the other. -/
theorem append_cons_cases {x y u v : Text} {a c : Char} (h : x ++ a :: y = u ++ c :: v) :
    (∃ r, u = x ++ a :: r ∧ y = r ++ c :: v) ∨ (x = u ∧ a = c ∧ y = v) ∨
      ∃ r, x = u ++ c :: r ∧ v = r ++ a :: y := by
  rcases append_cons_eq_append h with ⟨r, hx, hr⟩ | hbehind
  · cases r with
    | nil =>
      obtain ⟨rfl, rfl⟩ := List.cons.inj hr
      exact .inr (.inl ⟨by simpa using hx, rfl, rfl⟩)
    | cons d r =>
      obtain ⟨rfl, hv⟩ := List.cons.inj hr
      exact .inr (.inr ⟨r, hx, hv⟩)
  · exact .inl hbehind

section Partners
variable {b : Bracket} {t before inside behind u v : Text}

theorem Balanced.not_append_closer (h : Balanced b.opener b.closer u) :
    ¬ Balanced b.opener b.closer (u ++ b.closer :: v) := by
  intro hlonger
  have hpart : u ++ [b.closer] <+: u ++ b.closer :: v := ⟨v, by simp⟩
  have hle := covered_iff.mp hlonger.1 _ hpart
  rw [List.count_append, List.count_append, List.count_singleton_self, h.2,
    List.count_cons_of_ne (b.opener_ne_closer b).symm, List.count_nil] at hle
  omega

/-- A closer stands in one place only behind a balanced text. -/
theorem Balanced.closer_unique (hu : Balanced b.opener b.closer u)
    (hinside : Balanced b.opener b.closer inside)
    (h : u ++ b.closer :: v = inside ++ b.closer :: behind) : u = inside ∧ v = behind := by
  rcases append_cons_cases h with ⟨r, rfl, -⟩ | ⟨hu', -, hv⟩ | ⟨r, rfl, -⟩
  · exact absurd hinside hu.not_append_closer
  · exact ⟨hu', hv⟩
  · exact absurd hu hinside.not_append_closer

/-- Every opener of a matched text is followed by a matched text and its closer. -/
theorem Matched.exists_partner (h : Matched t) (ht : t = before ++ b.opener :: v) :
    ∃ inside behind : Text, v = inside ++ b.closer :: behind ∧ Matched inside := by
  induction h generalizing before v with
  | nil => simp at ht
  | @plain c t hc _ ih =>
    cases before with
    | nil =>
      obtain ⟨rfl, -⟩ := List.cons.inj ht
      exact absurd b.opener_mem hc
    | cons d before =>
      obtain ⟨-, ht⟩ := List.cons.inj ht
      exact ih ht
  | @pair b' inside t hinside _ ihinside ih =>
    cases before with
    | nil =>
      obtain ⟨hb, rfl⟩ := List.cons.inj ht
      rw [← Bracket.opener_inj hb]
      exact ⟨inside, t, rfl, hinside⟩
    | cons d before =>
      obtain ⟨-, ht⟩ := List.cons.inj ht
      rcases append_cons_cases ht.symm with ⟨r, hr, rfl⟩ | ⟨-, hb, -⟩ | ⟨r, -, hr⟩
      · obtain ⟨inside', behind, rfl, hinside'⟩ := ihinside hr
        exact ⟨inside', behind ++ b'.closer :: t, by simp, hinside'⟩
      · exact absurd hb (b.opener_ne_closer b')
      · exact ih hr

/-- A matched text is parted between its pairs or inside one of them. -/
theorem Matched.parted (h : Matched t) (ht : t = u ++ v) :
    Matched u ∨ ∃ (b : Bracket) (before inside inside' behind : Text),
      u = before ++ b.opener :: inside ∧ v = inside' ++ b.closer :: behind ∧
        Matched (inside ++ inside') := by
  induction h generalizing u v with
  | nil =>
    rw [(List.append_eq_nil_iff.mp ht.symm).1]
    exact .inl .nil
  | @plain c t hc _ ih =>
    cases u with
    | nil => exact .inl .nil
    | cons d u =>
      rw [List.cons_append] at ht
      obtain ⟨rfl, htail⟩ := List.cons.inj ht
      rcases ih htail with hu | ⟨b, before, inside, inside', behind, rfl, hv, hmatched⟩
      · exact .inl (.plain hc hu)
      · exact .inr ⟨b, c :: before, inside, inside', behind, rfl, hv, hmatched⟩
  | @pair b inside t hinside _ _ ih =>
    cases u with
    | nil => exact .inl .nil
    | cons d u =>
      rw [List.cons_append] at ht
      obtain ⟨rfl, htail⟩ := List.cons.inj ht
      rcases append_cons_eq_append htail with ⟨r, rfl, hv⟩ | ⟨r, rfl, hr⟩
      · exact .inr ⟨b, [], u, r, t, rfl, hv, hinside⟩
      · rcases ih hr with hu | ⟨b', before, inside₁, inside₂, behind, rfl, hv, hmatched⟩
        · exact .inl (.pair b hinside hu)
        · exact .inr ⟨b', b.opener :: (inside ++ b.closer :: before), inside₁, inside₂, behind,
            by simp, hv, hmatched⟩

theorem Matched.of_cons {c : Char} (h : Matched (c :: t)) (hc : c ∉ ['(', ')', '{', '}']) :
    Matched t := by
  cases h with
  | plain _ ht => exact ht
  | pair b => exact absurd b.opener_mem hc

/-- What follows a pair of a matched text that begins with the pair. -/
theorem Matched.of_pair (h : Matched (b.opener :: (inside ++ b.closer :: t)))
    (hinside : Matched inside) : Matched t := by
  generalize hpair : b.opener :: (inside ++ b.closer :: t) = whole at h
  cases h with
  | nil => simp at hpair
  | plain hc =>
    obtain ⟨rfl, -⟩ := List.cons.inj hpair
    exact absurd b.opener_mem hc
  | pair b' hinside' ht =>
    obtain ⟨hb, htail⟩ := List.cons.inj hpair
    obtain rfl := Bracket.opener_inj hb
    have hbalanced := hinside.closed.balanced b
    obtain ⟨-, rfl⟩ := hbalanced.closer_unique (hinside'.closed.balanced b) htail
    exact ht

theorem Matched.of_append_left (hu : Matched u) (h : Matched (u ++ v)) : Matched v := by
  induction hu with
  | nil => exact h
  | plain hc _ ih =>
    rw [List.cons_append] at h
    exact ih (h.of_cons hc)
  | pair b hinside _ _ ih =>
    rw [List.cons_append, List.append_assoc, List.cons_append] at h
    exact ih (h.of_pair hinside)

/-- The front of a matched text is matched when the rest of it is: a pair cannot begin in the
one and end in the other. -/
theorem Matched.of_append_right (h : Matched (u ++ v)) (hv : Matched v) : Matched u := by
  rcases h.parted rfl with hu | ⟨b, before, inside, inside', behind, -, rfl, hpair⟩
  · exact hu
  · have hbalanced := hpair.closed.balanced b
    have hfront := (hbalanced.1.of_isPrefix (List.prefix_append inside inside')).count_le
    have htotal := hbalanced.2
    have hcloser : inside' ++ [b.closer] <+: inside' ++ b.closer :: behind := ⟨behind, by simp⟩
    have hback := ((hv.closed.balanced b).1.of_isPrefix hcloser).count_le
    rw [List.count_append, List.count_append] at htotal hback
    rw [List.count_singleton_self, List.count_cons_of_ne (b.opener_ne_closer b).symm,
      List.count_nil] at hback
    omega

/-- What stands balanced between an opener and a closer of its family stands between
partners. -/
theorem Matched.matched_inside (h : Matched (before ++ b.opener :: (u ++ b.closer :: behind)))
    (hu : Balanced b.opener b.closer u) : Matched u := by
  obtain ⟨inside, behind', hrest, hinside⟩ := h.exists_partner rfl
  obtain ⟨rfl, -⟩ := hu.closer_unique (hinside.closed.balanced b) hrest
  exact hinside

/-- What stands behind an opener, but not behind its closer, is inside brackets. -/
theorem Matched.encloses (h : Matched (u ++ v)) (b : Bracket) (before : Text) :
    Encloses (before ++ b.opener :: u) := by
  have hcovered := (h.closed.balanced b).1.of_isPrefix (List.prefix_append u v)
  have hle := hcovered.count_le
  have hopen : LeavesOpen b.opener b.closer (before ++ b.opener :: u) := by
    refine ⟨b.opener :: u, by simp, ?_⟩
    rw [List.count_cons_self, List.count_cons_of_ne (b.opener_ne_closer b)]
    omega
  cases b with
  | paren => exact .inl hopen
  | brace => exact .inr hopen

end Partners

section Pair
variable {b : Bracket} {t : Text} {i j : Nat}

theorem between_append (before inside behind : Text) (c d : Char) :
    between (before ++ c :: (inside ++ d :: behind)) before.length
      (before.length + 1 + inside.length) = inside := by
  have hwhole : before ++ c :: (inside ++ d :: behind) =
      (before ++ [c]) ++ inside ++ d :: behind := by simp
  have hfront : (before ++ [c]).length = before.length + 1 := by simp
  rw [between, hwhole, ← hfront, ← List.length_append, List.take_left, List.drop_left]

theorem drop_behind (before inside behind : Text) (c d : Char) :
    (before ++ c :: (inside ++ d :: behind)).drop (before.length + 1 + inside.length + 1) =
      behind := by
  have hwhole : before ++ c :: (inside ++ d :: behind) =
      (before ++ c :: (inside ++ [d])) ++ behind := by simp
  have hfront : (before ++ c :: (inside ++ [d])).length =
      before.length + 1 + inside.length + 1 := by
    simp
    omega
  rw [hwhole, ← hfront, List.drop_left]

/-- The parts of a text that a pair parts it into. -/
theorem pair_iff :
    Pair b t i j ↔ ∃ before inside behind : Text,
      t = before ++ b.opener :: (inside ++ b.closer :: behind) ∧ Matched inside ∧
        i = before.length ∧ j = before.length + 1 + inside.length := by
  constructor
  · intro h
    have hi := drop_eq_append_cons (Nat.zero_le i) h.opens
    have hj := drop_eq_append_cons (Nat.succ_le_of_lt h.lt) h.closes
    obtain ⟨hlength, -⟩ := List.getElem?_eq_some_iff.mp h.closes
    have hlt := h.lt
    rw [List.drop_zero, List.drop_zero, hj] at hi
    refine ⟨t.take i, between t i j, t.drop (j + 1), hi, h.matched, ?_, ?_⟩
    · rw [List.length_take]
      omega
    · rw [between, List.length_drop, List.length_take, List.length_take]
      omega
  · rintro ⟨before, inside, behind, rfl, hinside, rfl, rfl⟩
    have hcloses : (before ++ b.opener :: (inside ++ b.closer :: behind))[before.length + 1 +
        inside.length]? = some b.closer := by
      rw [← List.singleton_append, ← List.append_assoc, List.getElem?_append_right (by simp)]
      simp
    exact ⟨by omega, by simp, hcloses, by rwa [between_append]⟩

/-- An opener has only one partner. -/
theorem Pair.unique {b' : Bracket} {j' : Nat} (h : Pair b t i j) (h' : Pair b' t i j') :
    j' = j := by
  obtain ⟨before, inside, behind, rfl, hinside, rfl, rfl⟩ := pair_iff.mp h
  obtain ⟨before', inside', behind', ht, hinside', hi, rfl⟩ := pair_iff.mp h'
  obtain ⟨rfl, htail⟩ := List.append_inj ht hi
  obtain ⟨hb, hbehind⟩ := List.cons.inj htail
  obtain rfl := Bracket.opener_inj hb
  have hbalanced := hinside.closed.balanced b
  obtain ⟨rfl, -⟩ := hbalanced.closer_unique (hinside'.closed.balanced b) hbehind
  rfl

theorem Matched.exists_pair (h : Matched t) (hi : t[i]? = some b.opener) : ∃ j, Pair b t i j := by
  have ht := drop_eq_append_cons (Nat.zero_le i) hi
  rw [List.drop_zero, List.drop_zero] at ht
  obtain ⟨inside, behind, hrest, hinside⟩ := h.exists_partner ht
  obtain ⟨hlength, -⟩ := List.getElem?_eq_some_iff.mp hi
  rw [hrest] at ht
  refine ⟨i + 1 + inside.length, pair_iff.mpr ⟨t.take i, inside, behind, ht, hinside, ?_⟩⟩
  rw [List.length_take, Nat.min_eq_left (Nat.le_of_lt hlength)]
  exact ⟨rfl, rfl⟩

/-- A scan that begins with the opener comes back to top level at the closer, and not
before. -/
theorem Pair.isLeast (h : Pair b t i j) :
    IsLeast {k | i ≤ k ∧ k < t.length ∧ (Depth.after {} ((t.take (k + 1)).drop i)).isTop} j := by
  obtain ⟨before, inside, behind, rfl, hinside, rfl, rfl⟩ := pair_iff.mp h
  have hscanned : ∀ k, ((before ++ b.opener :: (inside ++ b.closer :: behind)).take
      (k + 1)).drop before.length =
        (b.opener :: (inside ++ b.closer :: behind)).take (k + 1 - before.length) := by
    intro k
    rw [List.drop_take, List.drop_left]
  constructor
  · refine ⟨by omega, by simp; omega, ?_⟩
    have hpair : (b.opener :: (inside ++ b.closer :: behind)).take
        (before.length + 1 + inside.length + 1 - before.length) =
          b.opener :: (inside ++ [b.closer]) := by
      rw [show before.length + 1 + inside.length + 1 - before.length = inside.length + 1 + 1 by
        omega, List.take_succ_cons, List.take_length_add_append, List.take_succ_cons,
        List.take_zero]
    rw [hscanned, hpair, (hinside.closed.enclose b).after_eq]
    rfl
  · rintro k ⟨hk, -, htop⟩
    by_contra hlt
    have hfront : (b.opener :: (inside ++ b.closer :: behind)).take (k + 1 - before.length) =
        b.opener :: inside.take (k - before.length) := by
      rw [show k + 1 - before.length = k - before.length + 1 by omega, List.take_succ_cons,
        List.take_append_of_le_length (by omega)]
    have hmatched :
        Matched (inside.take (k - before.length) ++ inside.drop (k - before.length)) := by
      rwa [List.take_append_drop]
    rw [hscanned, hfront, isTop_after_iff] at htop
    exact htop (hmatched.encloses b [])

end Pair

end Text
end CompletionSnippets
