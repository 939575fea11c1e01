/-!
# Text

A text is a list of characters, so that every rule on texts is a recursion on a
list. This module holds the class of blank characters, trimming, the length of a
text in UTF-8 bytes, comparison that ignores the case of ASCII letters, and
numerals.
-/
namespace CompletionSnippets

/-- A text is the list of its characters. -/
abbrev Text := List Char

namespace Text

/-- The blank characters are the twenty-five with the Unicode property White_Space. -/
def isBlank (c : Char) : Bool :=
  let n := c.toNat
  n == 0x20 || (0x09 ≤ n && n ≤ 0x0D) || n == 0x85 || n == 0xA0 || n == 0x1680 ||
    (0x2000 ≤ n && n ≤ 0x200A) || n == 0x2028 || n == 0x2029 || n == 0x202F ||
    n == 0x205F || n == 0x3000

/-- A text is blank when it holds blank characters only; the empty text is one. -/
def isAllBlank (t : Text) : Bool := t.all isBlank

def trimStart (t : Text) : Text := t.dropWhile isBlank

def trimEnd (t : Text) : Text := (t.reverse.dropWhile isBlank).reverse

def trim (t : Text) : Text := trimEnd (trimStart t)

def utf8Length (t : Text) : Nat := t.foldr (fun c n => c.utf8Size + n) 0

def utf8 (t : Text) : List UInt8 := t.flatMap String.utf8EncodeChar

/-- The byte of a small letter for the byte of an ASCII capital; all others stay. -/
def lowerByte (b : UInt8) : UInt8 := if 0x41 ≤ b && b ≤ 0x5A then b + 0x20 else b

/-- The text with its ASCII capitals made small; all other characters stay. -/
def lowerAscii (t : Text) : Text := t.map Char.toLower

/-- Whether `t` stands somewhere inside the given text. -/
def occursIn (t : Text) : Text → Bool
  | [] => t.isEmpty
  | c :: rest => t.isPrefixOf (c :: rest) || occursIn t rest

/-- What follows `lead` in a text that begins with it. -/
def strip? : Text → Text → Option Text
  | [], t => some t
  | _ :: _, [] => none
  | a :: lead, c :: t => if a = c then strip? lead t else none

def joinWith (sep : Text) (parts : List Text) : Text := List.intercalate sep parts

/-- Entries of a list stand apart by a comma and a space. -/
def commaSpace : Text := [',', ' ']

/-- The first number that 64 bits do not hold. -/
def wordLimit : Nat := 0x10000000000000000

/-- The decimal numeral of a number, without leading zeros. -/
def decimal (n : Nat) : Text := Nat.toDigits 10 n

def isDigit (c : Char) : Bool := 0x30 ≤ c.toNat && c.toNat ≤ 0x39

/-- The number that a run of digits denotes in base ten. -/
def ofDecimal (t : Text) : Nat := t.foldl (fun n c => 10 * n + (c.toNat - 0x30)) 0

/-- The value of a hexadecimal digit of either case. -/
def hexDigit? (c : Char) : Option Nat :=
  let n := c.toNat
  if 0x30 ≤ n && n ≤ 0x39 then some (n - 0x30)
  else if 0x41 ≤ n && n ≤ 0x46 then some (n - 0x41 + 10)
  else if 0x61 ≤ n && n ≤ 0x66 then some (n - 0x61 + 10)
  else none

/-- Bytes are a text when they are valid UTF-8. -/
def ofUtf8? (bytes : ByteArray) : Option Text := (String.fromUTF8? bytes).map String.toList

theorem trimStart_eq_self_iff {t : Text} :
    trimStart t = t ↔ ∀ c ∈ t.head?, isBlank c = false := by
  constructor
  · intro h c hc
    have := List.head?_dropWhile_not isBlank t
    rw [show t.dropWhile isBlank = t from h, hc] at this
    simpa using this
  · intro h
    match t with
    | [] => rfl
    | c :: t => simp [trimStart, h c rfl]

theorem trimStart_trimStart (t : Text) : trimStart (trimStart t) = trimStart t := by
  rw [trimStart_eq_self_iff]
  intro c hc
  have := List.head?_dropWhile_not isBlank t
  rw [show (t.dropWhile isBlank).head? = some c from hc] at this
  simpa using this

theorem exists_trimEnd_append (t : Text) : ∃ b : Text, b.isAllBlank ∧ t = trimEnd t ++ b := by
  refine ⟨(t.reverse.takeWhile isBlank).reverse, ?_, ?_⟩
  · rw [isAllBlank, List.all_reverse]
    exact List.all_takeWhile
  · rw [trimEnd, ← List.reverse_append, List.takeWhile_append_dropWhile, List.reverse_reverse]

theorem exists_append_trimStart (t : Text) : ∃ b : Text, b.isAllBlank ∧ t = b ++ trimStart t :=
  ⟨t.takeWhile isBlank, List.all_takeWhile, List.takeWhile_append_dropWhile.symm⟩

theorem isAllBlank_iff_trimStart {t : Text} : t.isAllBlank ↔ trimStart t = [] := by
  induction t with
  | nil => simp [isAllBlank, trimStart]
  | cons c t ih =>
    simp only [isAllBlank, trimStart] at ih
    by_cases h : isBlank c <;> simp [isAllBlank, trimStart, h, ih]

/-- A text is blank when trimming leaves nothing of it. -/
theorem isAllBlank_iff_trim {t : Text} : t.isAllBlank ↔ trim t = [] := by
  have hrev : trim t = [] ↔ (trimStart t).isAllBlank := by
    rw [trim, trimEnd, List.reverse_eq_nil_iff, isAllBlank, ← List.all_reverse]
    exact isAllBlank_iff_trimStart.symm
  rw [hrev, isAllBlank_iff_trimStart, isAllBlank_iff_trimStart, trimStart_trimStart]

@[simp] theorem utf8Length_nil : utf8Length [] = 0 := rfl

@[simp] theorem utf8Length_cons (c : Char) (t : Text) :
    utf8Length (c :: t) = c.utf8Size + utf8Length t := rfl

@[simp] theorem utf8Length_append (s t : Text) :
    utf8Length (s ++ t) = utf8Length s + utf8Length t := by
  induction s with
  | nil => simp
  | cons c s ih => simp [ih, Nat.add_assoc]

theorem strip?_eq_some_iff {lead t rest : Text} : strip? lead t = some rest ↔ t = lead ++ rest := by
  induction lead generalizing t with
  | nil => simp [strip?]
  | cons a lead ih =>
    match t with
    | [] => simp [strip?]
    | c :: t =>
      by_cases h : a = c
      · simp [strip?, h, ih]
      · simp [strip?, h, Ne.symm h]

theorem occursIn_iff_isInfix {t s : Text} : occursIn t s ↔ t <:+: s := by
  induction s with
  | nil => simp [occursIn, List.infix_nil]
  | cons c s ih =>
    rw [occursIn, Bool.or_eq_true, ih, List.isPrefixOf_iff_prefix, List.infix_cons_iff]

end Text
end CompletionSnippets
