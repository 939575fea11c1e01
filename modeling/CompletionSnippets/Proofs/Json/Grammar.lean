import CompletionSnippets.Json.Value

/-!
# The grammar of JSON

Which texts may be written for a value. Blanks may stand around every item, key and
separator. A character of a string stands for itself, or is escaped: by a letter where
there is one, by its code unit in four hexadecimal digits of either case, or by the two code
units of a pair. A number is its literal, whose exponent may have either mark and a plus
sign; the literal has to lie in the range of doubles.

The members of an object are written in their order, and a key may be written more than once.
Nothing bounds the nesting here; what it is bounded by elsewhere is the depth of the value.
-/
namespace CompletionSnippets.Json

/-- Space, tab, line feed and carriage return, any number of them. -/
def Blanks (b : Text) : Prop := ∀ c ∈ b, c ∈ [' ', '\t', '\n', '\r']

instance (b : Text) : Decidable (Blanks b) := List.decidableBAll (· ∈ [' ', '\t', '\n', '\r']) b

/-- The letters behind a backslash, with the characters that they stand for. -/
def letters : List (Char × Char) :=
  [('"', '"'), ('\\', '\\'), ('/', '/'), ('b', '\x08'), ('f', '\x0c'), ('n', '\n'), ('r', '\r'),
    ('t', '\t')]

def HexDigit (value : Nat) (c : Char) : Prop :=
  value < 16 ∧ (c = value.digitChar ∨ c = value.digitChar.toUpper)

instance (value : Nat) (c : Char) : Decidable (HexDigit value c) :=
  inferInstanceAs (Decidable (value < 16 ∧ (c = value.digitChar ∨ c = value.digitChar.toUpper)))

/-- Four hexadecimal digits denote the number. -/
inductive HexWritten : Nat → Text → Prop
  | mk {w x y z : Nat} {a b c d : Char} (ha : HexDigit w a) (hb : HexDigit x b)
      (hc : HexDigit y c) (hd : HexDigit z d) :
      HexWritten (16 * (16 * (16 * w + x) + y) + z) [a, b, c, d]

/-- The text may stand for the character in a string. -/
inductive CharWritten : Char → Text → Prop
  | plain {c : Char} (printed : 0x20 ≤ c.toNat) (noQuote : c ≠ '"') (noBackslash : c ≠ '\\') :
      CharWritten c [c]
  | letter {letter c : Char} (h : (letter, c) ∈ letters) : CharWritten c ['\\', letter]
  | unit {c : Char} {digits : Text} (h : HexWritten c.toNat digits) :
      CharWritten c ('\\' :: 'u' :: digits)
  | pair {c : Char} {first second : Text} (large : 0x10000 ≤ c.toNat)
      (hfirst : HexWritten (0xD800 + (c.toNat - 0x10000) / 0x400) first)
      (hsecond : HexWritten (0xDC00 + (c.toNat - 0x10000) % 0x400) second) :
      CharWritten c ('\\' :: 'u' :: (first ++ '\\' :: 'u' :: second))

/-- The text may stand for the other one between quotes. -/
inductive StringWritten : Text → Text → Prop
  | nil : StringWritten [] []
  | cons {c : Char} {t s body : Text} (hc : CharWritten c s) (h : StringWritten t body) :
      StringWritten (c :: t) (s ++ body)

def Digits (t : Text) : Prop := t ≠ [] ∧ ∀ c ∈ t, Text.isDigit c

inductive FractionWritten : Text → Text → Prop
  | none : FractionWritten [] []
  | some {digits : Text} (h : Digits digits) : FractionWritten digits ('.' :: digits)

/-- The sign of an exponent; no sign is as good as a plus. -/
inductive SignWritten : Bool → Text → Prop
  | minus : SignWritten true ['-']
  | plus : SignWritten false ['+']
  | none : SignWritten false []

inductive ExponentWritten : Option Exponent → Text → Prop
  | none : ExponentWritten none []
  | some {e : Exponent} {mark : Char} {sign : Text} (hmark : mark = 'e' ∨ mark = 'E')
      (hsign : SignWritten e.negative sign) (hdigits : Digits e.digits) :
      ExponentWritten (some e) (mark :: (sign ++ e.digits))

/-- The text is the literal of the number. -/
inductive NumberWritten (n : Number) : Text → Prop
  | mk {fraction exponent : Text} (digits : Digits n.whole)
      (noLeadingZero : n.whole.head? = some '0' → n.whole.length = 1)
      (hfraction : FractionWritten n.fraction fraction)
      (hexponent : ExponentWritten n.exponent exponent) (inRange : n.inRange) :
      NumberWritten n ((if n.negative then ['-'] else []) ++ (n.whole ++ (fraction ++ exponent)))

theorem Digits.exists_cons {t : Text} (h : Digits t) : ∃ d s, t = d :: s ∧ Text.isDigit d := by
  obtain ⟨hne, hall⟩ := h
  cases t with
  | nil => contradiction
  | cons d s => exact ⟨d, s, rfl, hall d List.mem_cons_self⟩

theorem NumberWritten.exists_cons {n : Number} {t : Text} (h : NumberWritten n t) :
    ∃ c s, t = c :: s ∧ (c = '-' ∨ Text.isDigit c) := by
  cases h with
  | mk hdigits =>
    obtain ⟨d, s, hs, hd⟩ := hdigits.exists_cons
    rw [hs]
    cases n.negative with
    | true => exact ⟨'-', _, rfl, .inl rfl⟩
    | false => exact ⟨d, _, rfl, .inr hd⟩

namespace Value

mutual

/-- The text may be written for the value. -/
inductive Written : Value → Text → Prop
  | null : Written .null ['n', 'u', 'l', 'l']
  | true : Written (.bool true) ['t', 'r', 'u', 'e']
  | false : Written (.bool false) ['f', 'a', 'l', 's', 'e']
  | number {n : Number} {t : Text} (h : NumberWritten n t) : Written (.number n) t
  | string {t body : Text} (h : StringWritten t body) : Written (.string t) ('"' :: (body ++ ['"']))
  | emptyArray {b : Text} (hb : Blanks b) : Written (.array []) ('[' :: (b ++ [']']))
  | array {items : List Value} {t : Text} (h : ItemsWritten items t) :
      Written (.array items) ('[' :: (t ++ [']']))
  | emptyObject {b : Text} (hb : Blanks b) : Written (.object []) ('{' :: (b ++ ['}']))
  | object {members : List (Text × Value)} {t : Text} (h : MembersWritten members t) :
      Written (.object members) ('{' :: (t ++ ['}']))

/-- The text may be written for the items, of which there is at least one. -/
inductive ItemsWritten : List Value → Text → Prop
  | last {v : Value} {b t a : Text} (hb : Blanks b) (h : Written v t) (ha : Blanks a) :
      ItemsWritten [v] (b ++ (t ++ a))
  | cons {v : Value} {items : List Value} {b t a r : Text} (hb : Blanks b) (h : Written v t)
      (ha : Blanks a) (hrest : ItemsWritten items r) :
      ItemsWritten (v :: items) (b ++ (t ++ (a ++ ',' :: r)))

/-- The text may be written for a key with its value. -/
inductive MemberWritten : Text × Value → Text → Prop
  | mk {key body : Text} {v : Value} {b g i t a : Text} (hb : Blanks b)
      (hkey : StringWritten key body) (hg : Blanks g) (hi : Blanks i) (h : Written v t)
      (ha : Blanks a) :
      MemberWritten (key, v) (b ++ '"' :: (body ++ '"' :: (g ++ ':' :: (i ++ (t ++ a)))))

/-- The text may be written for the members, of which there is at least one. -/
inductive MembersWritten : List (Text × Value) → Text → Prop
  | last {m : Text × Value} {t : Text} (h : MemberWritten m t) : MembersWritten [m] t
  | cons {m : Text × Value} {members : List (Text × Value)} {t r : Text}
      (h : MemberWritten m t) (hrest : MembersWritten members r) :
      MembersWritten (m :: members) (t ++ ',' :: r)

end

theorem ItemsWritten.ne_nil {items : List Value} {t : Text} (h : ItemsWritten items t) :
    items ≠ [] := by
  cases h <;> exact List.cons_ne_nil _ _

theorem MembersWritten.ne_nil {members : List (Text × Value)} {t : Text}
    (h : MembersWritten members t) : members ≠ [] := by
  cases h <;> exact List.cons_ne_nil _ _

theorem Written.mem_bracket {items : List Value} {t : Text} (h : Written (.array items) t) :
    '[' ∈ t := by
  cases h <;> exact List.mem_cons_self

/-- The value is all that is written in the text, apart from blanks. -/
def WrittenAlone (v : Value) (t : Text) : Prop :=
  ∃ b s a : Text, Blanks b ∧ v.Written s ∧ Blanks a ∧ t = b ++ (s ++ a)

mutual

def depth : Value → Nat
  | .array items => itemsDepth items + 1
  | .object members => membersDepth members + 1
  | _ => 0

def itemsDepth : List Value → Nat
  | [] => 0
  | v :: items => max v.depth (itemsDepth items)

def membersDepth : List (Text × Value) → Nat
  | [] => 0
  | (_, v) :: members => max v.depth (membersDepth members)

end

theorem itemsDepth_le {items : List Value} {n : Nat} (h : ∀ v ∈ items, v.depth ≤ n) :
    itemsDepth items ≤ n := by
  induction items with
  | nil => exact Nat.zero_le n
  | cons v items ih =>
    obtain ⟨hv, hitems⟩ := List.forall_mem_cons.mp h
    rw [itemsDepth]
    exact Nat.max_le.mpr ⟨hv, ih hitems⟩

theorem membersDepth_le {members : List (Text × Value)} {n : Nat}
    (h : ∀ m ∈ members, m.2.depth ≤ n) : membersDepth members ≤ n := by
  induction members with
  | nil => exact Nat.zero_le n
  | cons m members ih =>
    obtain ⟨hm, hmembers⟩ := List.forall_mem_cons.mp h
    rw [membersDepth]
    exact Nat.max_le.mpr ⟨hm, ih hmembers⟩

end Value
end CompletionSnippets.Json
