import CompletionSnippets.Proofs.Yaml.Scalar

/-!
# Plain values under the core schema

A reader of YAML takes a value without quotes for a null, a truth value or a number when the
core schema gives it that form, and for a string otherwise. A text stands in quotes when it
is one of the reserved words or consists of digits and dots, but that does not cover every
form: a tilde, octal and hexadecimal integers, numbers with an exponent, infinities and
not-a-number stand as they are, unless a minus sign is in front. These are all of them; any
other text that stands without quotes is read as the string that it is.
-/
namespace CompletionSnippets.Yaml
open Text

/-- What a value without quotes may be besides a string. -/
inductive Tag where
  | null | bool | int | float
deriving DecidableEq, Repr

def nullWords : List Text := ["null", "Null", "NULL", "~"].map String.toList

def boolWords : List Text :=
  ["true", "True", "TRUE", "false", "False", "FALSE"].map String.toList

def infinityWords : List Text := [".inf", ".Inf", ".INF"].map String.toList

def nanWords : List Text := [".nan", ".NaN", ".NAN"].map String.toList

def isOctalDigit (c : Char) : Bool := "01234567".toList.contains c

def isHexDigit (c : Char) : Bool := "0123456789abcdefABCDEF".toList.contains c

def DigitRun (isDigit : Char → Bool) (t : Text) : Prop := t ≠ [] ∧ ∀ c ∈ t, isDigit c

def Unsigned (s : Text) : Prop := s = [] ∨ s = ['+']

def Sign (s : Text) : Prop := Unsigned s ∨ s = ['-']

/-- A decimal number with or without a point; digits stand on one side of it at least. -/
inductive Mantissa : Text → Prop
  | fraction {fs : Text} (h : DigitRun isDigit fs) : Mantissa ('.' :: fs)
  | whole {ds : Text} (h : DigitRun isDigit ds) : Mantissa ds
  | decimals {ds fs : Text} (h : DigitRun isDigit ds) (hf : ∀ c ∈ fs, isDigit c) :
      Mantissa (ds ++ '.' :: fs)

inductive Exponent : Text → Prop
  | mk {mark : Char} {s ds : Text} (hmark : mark ∈ ['e', 'E']) (hs : Sign s)
      (h : DigitRun isDigit ds) : Exponent (mark :: (s ++ ds))

/-- The core schema resolves the value to the tag. -/
inductive Resolves : Tag → Text → Prop
  | empty : Resolves .null []
  | null {t : Text} (h : t ∈ nullWords) : Resolves .null t
  | bool {t : Text} (h : t ∈ boolWords) : Resolves .bool t
  | decimal {s ds : Text} (hs : Sign s) (h : DigitRun isDigit ds) : Resolves .int (s ++ ds)
  | octal {ds : Text} (h : DigitRun isOctalDigit ds) : Resolves .int ('0' :: 'o' :: ds)
  | hexadecimal {ds : Text} (h : DigitRun isHexDigit ds) : Resolves .int ('0' :: 'x' :: ds)
  | point {s m : Text} (hs : Sign s) (hm : Mantissa m) : Resolves .float (s ++ m)
  | exponent {s m e : Text} (hs : Sign s) (hm : Mantissa m) (he : Exponent e) :
      Resolves .float (s ++ (m ++ e))
  | infinity {s t : Text} (hs : Sign s) (h : t ∈ infinityWords) : Resolves .float (s ++ t)
  | nan {t : Text} (h : t ∈ nanWords) : Resolves .float t

/-- The forms of the core schema that are left without quotes. -/
inductive Unguarded : Text → Prop
  | tilde : Unguarded ['~']
  | octal {ds : Text} (h : DigitRun isOctalDigit ds) : Unguarded ('0' :: 'o' :: ds)
  | hexadecimal {ds : Text} (h : DigitRun isHexDigit ds) : Unguarded ('0' :: 'x' :: ds)
  | exponent {s m e : Text} (hs : Unsigned s) (hm : Mantissa m) (he : Exponent e) :
      Unguarded (s ++ (m ++ e))
  | infinity {s t : Text} (hs : Unsigned s) (h : t ∈ infinityWords) : Unguarded (s ++ t)
  | nan {t : Text} (h : t ∈ nanWords) : Unguarded t

theorem Unguarded.resolves {t : Text} (h : Unguarded t) : ∃ tag, Resolves tag t := by
  cases h with
  | tilde => exact ⟨_, .null (by decide)⟩
  | octal h => exact ⟨_, .octal h⟩
  | hexadecimal h => exact ⟨_, .hexadecimal h⟩
  | exponent hs hm he => exact ⟨_, .exponent (.inl hs) hm he⟩
  | infinity hs h => exact ⟨_, .infinity (.inl hs) h⟩
  | nan h => exact ⟨_, .nan h⟩

/-- A quoted text is longer than the text. -/
theorem length_le_flatMap_escapeChar (t : Text) : t.length ≤ (t.flatMap escapeChar).length := by
  induction t with
  | nil => exact Nat.le_refl 0
  | cons c t ih =>
    have hpos : 1 ≤ (escapeChar c).length := by
      rcases escapeChar_cases c with ⟨x, hc, -, -⟩ | ⟨hc, -⟩
      · simp [hc]
      · simp [hc]
    rw [List.flatMap_cons, List.length_append, List.length_cons]
    omega

theorem scalar_eq_self_iff {t : Text} : scalar t = t ↔ t ≠ [] ∧ needsQuotes t = false := by
  unfold scalar
  split
  · rename_i hempty
    rw [List.isEmpty_iff.mp hempty]
    simp
  rename_i hne
  rw [List.isEmpty_iff] at hne
  split
  · rename_i hquotes
    refine ⟨fun h => ?_, fun h => ?_⟩
    · have hlength := congrArg List.length h
      have hle := length_le_flatMap_escapeChar t
      simp only [List.length_append, List.length_cons, List.length_nil] at hlength
      omega
    · rw [hquotes] at h
      exact absurd h.2 (by decide)
  · rename_i hquotes
    simpa [hne] using hquotes

theorem needsQuotes_of_head {c : Char} (hc : c ∈ indicators) (t : Text) :
    needsQuotes (c :: t) = true := by
  simp [needsQuotes, hc]

theorem needsQuotes_of_reserved {t : Text} (h : t ∈ reservedWords) : needsQuotes t = true := by
  simp [needsQuotes, h]

theorem needsQuotes_of_numeric {s t : Text} (hs : Sign s) (hne : t ≠ [])
    (h : ∀ c ∈ t, isDigit c ∨ c = '.') : needsQuotes (s ++ t) = true := by
  have hall : t.all (fun c => isDigit c || c == '.') = true := by simpa using h
  have hnumeric : looksNumeric (s ++ t) = true := by
    rcases hs with (rfl | rfl) | rfl
    · cases t with
      | nil => contradiction
      | cons c t =>
        -- a sign is neither a digit nor a dot
        unfold looksNumeric
        split
        · rename_i hsplit
          obtain ⟨rfl, -⟩ := List.cons.inj hsplit
          have hsign := h '-' List.mem_cons_self
          exact absurd hsign (by decide)
        · rename_i hsplit
          obtain ⟨rfl, -⟩ := List.cons.inj hsplit
          have hsign := h '+' List.mem_cons_self
          exact absurd hsign (by decide)
        · simpa using hall
    · simpa [looksNumeric, hne] using h
    · simpa [looksNumeric, hne] using h
  simp [needsQuotes, hnumeric]

theorem Mantissa.ne_nil {m : Text} (hm : Mantissa m) : m ≠ [] := by
  cases hm with
  | fraction h => simp
  | whole h => exact h.1
  | decimals h hf => simp

theorem Mantissa.chars {m : Text} (hm : Mantissa m) : ∀ c ∈ m, isDigit c ∨ c = '.' := by
  cases hm with
  | fraction h =>
    intro c hc
    rcases List.mem_cons.mp hc with rfl | hc
    · exact .inr rfl
    · exact .inl (h.2 c hc)
  | whole h => exact fun c hc => .inl (h.2 c hc)
  | decimals h hf =>
    intro c hc
    rcases List.mem_append.mp hc with hc | hc
    · exact .inl (h.2 c hc)
    rcases List.mem_cons.mp hc with rfl | hc
    · exact .inr rfl
    · exact .inl (hf c hc)

/-- Whatever has a form of the core schema is in quotes or is left without them. -/
theorem Resolves.needsQuotes_or_unguarded {tag : Tag} {t : Text} (h : Resolves tag t)
    (hne : t ≠ []) : needsQuotes t = true ∨ Unguarded t := by
  have hminus (t : Text) : needsQuotes ('-' :: t) = true := needsQuotes_of_head (by decide) t
  cases h with
  | empty => contradiction
  | null h =>
    have hwords : ∀ w ∈ nullWords, w ∈ reservedWords ∨ w = ['~'] := by decide
    rcases hwords t h with hreserved | rfl
    · exact .inl (needsQuotes_of_reserved hreserved)
    · exact .inr .tilde
  | bool h =>
    have hwords : ∀ w ∈ boolWords, w ∈ reservedWords := by decide
    exact .inl (needsQuotes_of_reserved (hwords t h))
  | decimal hs h => exact .inl (needsQuotes_of_numeric hs h.1 fun c hc => .inl (h.2 c hc))
  | octal h => exact .inr (.octal h)
  | hexadecimal h => exact .inr (.hexadecimal h)
  | point hs hm => exact .inl (needsQuotes_of_numeric hs hm.ne_nil hm.chars)
  | exponent hs hm he =>
    rcases hs with hs | rfl
    · exact .inr (.exponent hs hm he)
    · exact .inl (hminus _)
  | infinity hs h =>
    rcases hs with hs | rfl
    · exact .inr (.infinity hs h)
    · exact .inl (hminus _)
  | nan h => exact .inr (.nan h)

/-- No character of the text is a blank or a separator. -/
def Inline (t : Text) : Prop := ∀ x ∈ t, x ∉ ' ' :: separators

def startsNumber (c : Char) : Bool := isDigit c || c == '.' || c == '+'

/-- The character is in no decimal number without an exponent. -/
def isTelling (c : Char) : Bool := !(isDigit c || ['.', '+', '-'].contains c)

theorem inline_cons {c : Char} {t : Text} : Inline (c :: t) ↔ c ∉ ' ' :: separators ∧ Inline t :=
  List.forall_mem_cons

theorem inline_append {s t : Text} : Inline (s ++ t) ↔ Inline s ∧ Inline t :=
  List.forall_mem_append

theorem not_mem_of_class {p : Char → Bool} {l : List Char} {c : Char} (hp : l.any p = false)
    (hc : p c) : c ∉ l :=
  fun hmem => List.any_eq_false.mp hp c hmem hc

theorem inline_of_class {p : Char → Bool} {t : Text} (hp : (' ' :: separators).any p = false)
    (h : ∀ x ∈ t, p x) : Inline t :=
  fun x hx => not_mem_of_class hp (h x hx)

/-- A text that begins like a number stands without quotes when it holds something that tells
it from one, and neither a blank nor a separator. -/
theorem not_needsQuotes {t : Text} {c : Char} (hhead : t.head? = some c) (hfirst : startsNumber c)
    (hinline : Inline t) (htelling : ∃ x ∈ t, isTelling x) : needsQuotes t = false := by
  have hindicator : c ∉ indicators := not_mem_of_class (by decide) hfirst
  have hreserved : t ∉ reservedWords := by
    have hall : reservedWords.any (fun w => w.head?.any startsNumber) = false := by decide
    intro hmem
    have hword := List.any_eq_false.mp hall t hmem
    rw [hhead] at hword
    exact hword hfirst
  have hnumeric : looksNumeric t = false := by
    obtain ⟨x, hx, htells⟩ := htelling
    simp only [isTelling, Bool.not_eq_true', Bool.or_eq_false_iff, List.contains_eq_mem,
      decide_eq_false_iff_not, List.mem_cons, List.not_mem_nil, or_false, not_or] at htells
    obtain ⟨hdigit, hdot, hplus, hminus⟩ := htells
    unfold looksNumeric
    rw [Bool.and_eq_false_iff, List.all_eq_false]
    -- the character stands behind the sign
    refine .inr ⟨x, ?_, by simp [hdigit, hdot]⟩
    split
    · exact (List.mem_cons.mp hx).resolve_left hminus
    · exact (List.mem_cons.mp hx).resolve_left hplus
    · exact hx
  have hlast : t.getLast? ≠ some ' ' := by
    intro h
    exact hinline ' ' (List.mem_of_mem_getLast? h) List.mem_cons_self
  have hseparators : t.any separators.contains = false := by
    rw [List.any_eq_false]
    intro x hx hcontains
    exact hinline x hx (List.mem_cons_of_mem _ (List.contains_iff_mem.mp hcontains))
  simp [needsQuotes, hhead, hindicator, hreserved, hnumeric, hlast, hseparators]

theorem DigitRun.inline {ds : Text} (h : DigitRun isDigit ds) : Inline ds :=
  inline_of_class (by decide) h.2

theorem Sign.inline {s : Text} (hs : Sign s) : Inline s := by
  rcases hs with (rfl | rfl) | rfl
  · exact nofun
  · exact inline_cons.mpr ⟨by decide, nofun⟩
  · exact inline_cons.mpr ⟨by decide, nofun⟩

theorem Mantissa.inline {m : Text} (hm : Mantissa m) : Inline m := by
  refine inline_of_class (p := fun c => isDigit c || c == '.') (by decide) fun x hx => ?_
  simpa using hm.chars x hx

/-- The letters that mark an exponent or another base are no separators and in no decimal
number. -/
theorem letter_of_mem {c : Char} (h : c ∈ ['e', 'E', 'o', 'x']) :
    c ∉ ' ' :: separators ∧ isTelling c := by
  have hall : ['e', 'E', 'o', 'x'].all isTelling := by decide
  refine ⟨not_mem_of_class (p := ['e', 'E', 'o', 'x'].contains) (by decide) ?_, ?_⟩
  · exact List.contains_iff_mem.mpr h
  · exact List.all_eq_true.mp hall c h

theorem Exponent.inline_and_telling {e : Text} (he : Exponent e) :
    Inline e ∧ ∃ x ∈ e, isTelling x := by
  cases he with
  | mk hmark hs h =>
    obtain ⟨hbreak, htells⟩ := letter_of_mem (List.mem_append_left ['o', 'x'] hmark)
    exact ⟨inline_cons.mpr ⟨hbreak, inline_append.mpr ⟨hs.inline, h.inline⟩⟩,
      _, List.mem_cons_self, htells⟩

/-- An integer in another base is told from a decimal one by its second character. -/
theorem not_needsQuotes_prefixed {p : Char → Bool} {mark : Char} {ds : Text}
    (hmark : mark ∈ ['o', 'x']) (hp : (' ' :: separators).any p = false) (h : DigitRun p ds) :
    needsQuotes ('0' :: mark :: ds) = false := by
  obtain ⟨hbreak, htells⟩ := letter_of_mem (List.mem_append_right ['e', 'E'] hmark)
  have hinline : Inline ('0' :: mark :: ds) :=
    inline_cons.mpr ⟨by decide, inline_cons.mpr ⟨hbreak, inline_of_class hp h.2⟩⟩
  exact not_needsQuotes rfl rfl hinline ⟨mark, by simp, htells⟩

theorem not_needsQuotes_exponent {s m e : Text} (hs : Unsigned s) (hm : Mantissa m)
    (he : Exponent e) : needsQuotes (s ++ (m ++ e)) = false := by
  obtain ⟨heinline, x, hx, htells⟩ := he.inline_and_telling
  have hsign : Sign s := .inl hs
  have hinline : Inline (s ++ (m ++ e)) :=
    inline_append.mpr ⟨hsign.inline, inline_append.mpr ⟨hm.inline, heinline⟩⟩
  have htelling : ∃ x ∈ s ++ (m ++ e), isTelling x := ⟨x, by simp [hx], htells⟩
  rcases hs with rfl | rfl
  · cases m with
    | nil => exact absurd rfl hm.ne_nil
    | cons c m =>
      have hfirst : startsNumber c := by
        rcases hm.chars c List.mem_cons_self with hdigit | rfl
        · simp [startsNumber, hdigit]
        · decide
      exact not_needsQuotes rfl hfirst hinline htelling
  · exact not_needsQuotes rfl rfl hinline htelling

theorem Unguarded.scalar_eq {t : Text} (h : Unguarded t) : scalar t = t := by
  rw [scalar_eq_self_iff]
  cases h with
  | tilde => decide
  | octal h => exact ⟨by simp, not_needsQuotes_prefixed (by decide) (by decide) h⟩
  | hexadecimal h => exact ⟨by simp, not_needsQuotes_prefixed (by decide) (by decide) h⟩
  | exponent hs hm he => exact ⟨by simp [hm.ne_nil], not_needsQuotes_exponent hs hm he⟩
  | infinity hs h =>
    have hall : ∀ w ∈ infinityWords, w ≠ [] ∧ needsQuotes w = false ∧
        needsQuotes ('+' :: w) = false := by decide
    obtain ⟨hne, hunsigned, hplus⟩ := hall _ h
    rcases hs with rfl | rfl
    · exact ⟨hne, hunsigned⟩
    · exact ⟨by simp, hplus⟩
  | nan h =>
    have hall : ∀ w ∈ nanWords, w ≠ [] ∧ needsQuotes w = false := by decide
    exact hall _ h

/-- The texts that stand without quotes and are not read as strings are exactly the forms
that are left unguarded. -/
theorem plain_resolves_iff (t : Text) :
    (scalar t = t ∧ ∃ tag, Resolves tag t) ↔ Unguarded t := by
  constructor
  · rintro ⟨hplain, tag, h⟩
    obtain ⟨hne, hquotes⟩ := scalar_eq_self_iff.mp hplain
    refine (h.needsQuotes_or_unguarded hne).resolve_left ?_
    rw [hquotes]
    decide
  · exact fun h => ⟨h.scalar_eq, h.resolves⟩

/-- A tilde is a null, `1e5` and `.inf` are floats and `0x1F` is an integer, all of them
without quotes. -/
theorem plain_not_string :
    (scalar ['~'] = ['~'] ∧ Resolves .null ['~']) ∧
      (scalar "1e5".toList = "1e5".toList ∧ Resolves .float "1e5".toList) ∧
      (scalar ".inf".toList = ".inf".toList ∧ Resolves .float ".inf".toList) ∧
      (scalar "0x1F".toList = "0x1F".toList ∧ Resolves .int "0x1F".toList) := by
  have hone : DigitRun isDigit ['1'] := ⟨by decide, by simp [isDigit]⟩
  have hfive : DigitRun isDigit ['5'] := ⟨by decide, by simp [isDigit]⟩
  have hhex : DigitRun isHexDigit ['1', 'F'] := ⟨by decide, by simp [isHexDigit]⟩
  have hnone : Sign [] := .inl (.inl rfl)
  have hexponent : Exponent ['e', '5'] := .mk (by decide) hnone hfive
  exact ⟨⟨by decide, .null (by decide)⟩, ⟨by decide, .exponent hnone (.whole hone) hexponent⟩,
    ⟨by decide, .infinity hnone (by decide)⟩, ⟨by decide, .hexadecimal hhex⟩⟩

end CompletionSnippets.Yaml
