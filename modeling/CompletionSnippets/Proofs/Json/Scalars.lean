import CompletionSnippets.Json.Token
import CompletionSnippets.Proofs.Json.Grammar
import CompletionSnippets.Proofs.Numerals

/-!
# Written strings and numbers

The scanners of strings and numbers come to the end of what was written and not further. A
string ends at its closing quote, whichever way its characters are escaped, and a number ends
because nothing follows that could go on with it.
-/
namespace CompletionSnippets.Json

namespace Token

theorem toNat_bounds (c : Char) :
    c.toNat < 0xD800 ∨ 0xDFFF < c.toNat ∧ c.toNat < 0x110000 := c.valid

theorem pair_none_toNat (c : Char) : pair none c.toNat = .char c := by
  have h := toNat_bounds c
  have hsecond : ¬ (0xDC00 ≤ c.toNat ∧ c.toNat ≤ 0xDFFF) := by omega
  have hfirst : ¬ (0xD800 ≤ c.toNat ∧ c.toNat ≤ 0xDBFF) := by omega
  simp [pair, hsecond, hfirst, Char.ofNat_toNat]

theorem pair_halves {c : Char} (h : 0x10000 ≤ c.toNat) :
    pair none (0xD800 + (c.toNat - 0x10000) / 0x400) =
        .firstHalf (0xD800 + (c.toNat - 0x10000) / 0x400) ∧
      pair (some (0xD800 + (c.toNat - 0x10000) / 0x400))
        (0xDC00 + (c.toNat - 0x10000) % 0x400) = .char c := by
  have hc := toNat_bounds c
  have hnot : ¬ 0xDC00 ≤ 0xD800 + (c.toNat - 0x10000) / 0x400 := by omega
  have hfirst : 0xD800 + (c.toNat - 0x10000) / 0x400 ≤ 0xDBFF := by omega
  have hsecond : 0xDC00 + (c.toNat - 0x10000) % 0x400 ≤ 0xDFFF := by omega
  have hwhole : 0x10000 + (0xD800 + (c.toNat - 0x10000) / 0x400 - 0xD800) * 0x400 +
      (0xDC00 + (c.toNat - 0x10000) % 0x400 - 0xDC00) = c.toNat := by omega
  constructor
  · simp only [pair, Nat.le_add_right, hnot, hfirst, decide_true, decide_false, Bool.and_self,
      Bool.false_and, if_true, Bool.false_eq_true, if_false]
  · simp only [pair, Nat.le_add_right, hsecond, hwhole, decide_true, Bool.and_self, if_true,
      Char.ofNat_toNat]

theorem scanString_quote (read rest : Text) :
    scanString read none ('"' :: rest) = .ok (read.reverse, rest) := by
  rw [scanString] <;> simp

theorem scanString_plain {c : Char} (printed : 0x20 ≤ c.toNat) (noQuote : c ≠ '"')
    (noBackslash : c ≠ '\\') (read rest : Text) :
    scanString read none (c :: rest) = scanString (c :: read) none rest := by
  have hprinted : ¬ c.toNat < 0x20 := by omega
  rw [scanString]
  · simp only [Option.isSome_none, Bool.false_eq_true, noQuote, hprinted, if_false]
  all_goals simp [noBackslash]

theorem scanString_letter {letter c : Char} (h : unescape? letter = some c) (read rest : Text) :
    scanString read none ('\\' :: letter :: rest) = scanString (c :: read) none rest := by
  have hne : letter ≠ 'u' := by
    rintro rfl
    contradiction
  simp [scanString, hne, h]

theorem unescape?_of_mem {letter c : Char} (h : (letter, c) ∈ letters) :
    unescape? letter = some c := by
  have hall : ∀ e ∈ letters, unescape? e.1 = some e.2 := by decide
  exact hall _ h

theorem hexDigit?_of_hexDigit {n : Nat} {c : Char} (h : HexDigit n c) :
    Text.hexDigit? c = some n := by
  have hall : ∀ m < 16, Text.hexDigit? m.digitChar = some m ∧
      Text.hexDigit? m.digitChar.toUpper = some m := by decide
  obtain ⟨hn, rfl | rfl⟩ := h
  · exact (hall n hn).1
  · exact (hall n hn).2

theorem exists_codeUnit? {n : Nat} {digits : Text} (h : HexWritten n digits) :
    ∃ a b c d, digits = [a, b, c, d] ∧ codeUnit? a b c d = some n := by
  induction h with
  | mk ha hb hc hd =>
    refine ⟨_, _, _, _, rfl, ?_⟩
    simp [codeUnit?, hexDigit?_of_hexDigit ha, hexDigit?_of_hexDigit hb, hexDigit?_of_hexDigit hc,
      hexDigit?_of_hexDigit hd]

theorem scanString_unit {n : Nat} {c : Char} {firstHalf : Option Nat} {digits : Text}
    (h : HexWritten n digits) (hpair : pair firstHalf n = .char c) (read rest : Text) :
    scanString read firstHalf ('\\' :: 'u' :: (digits ++ rest)) =
      scanString (c :: read) none rest := by
  obtain ⟨w, x, y, z, rfl, hunit⟩ := exists_codeUnit? h
  simp only [List.cons_append, List.nil_append, scanString, hunit, Option.map_some, hpair]

theorem scanString_firstHalf {n : Nat} {digits : Text} (h : HexWritten n digits)
    (hpair : pair none n = .firstHalf n) (read rest : Text) :
    scanString read none ('\\' :: 'u' :: (digits ++ rest)) = scanString read (some n) rest := by
  obtain ⟨w, x, y, z, rfl, hunit⟩ := exists_codeUnit? h
  simp only [List.cons_append, List.nil_append, scanString, hunit, Option.map_some, hpair]

theorem scanString_char {c : Char} {s : Text} (h : CharWritten c s) (read rest : Text) :
    scanString read none (s ++ rest) = scanString (c :: read) none rest := by
  cases h with
  | plain printed noQuote noBackslash =>
    exact scanString_plain printed noQuote noBackslash read rest
  | letter hmem => exact scanString_letter (unescape?_of_mem hmem) read rest
  | unit hdigits => exact scanString_unit hdigits (pair_none_toNat c) read rest
  | @pair _ first second large hfirst hsecond =>
    obtain ⟨hopen, hclose⟩ := pair_halves large
    have hbody := scanString_firstHalf hfirst hopen read ('\\' :: 'u' :: (second ++ rest))
    rw [scanString_unit hsecond hclose] at hbody
    simpa only [List.append_assoc, List.cons_append] using hbody

/-- A string is read to its closing quote. -/
theorem scanString_written {t body : Text} (h : StringWritten t body) (read rest : Text) :
    scanString read none (body ++ '"' :: rest) = .ok (read.reverse ++ t, rest) := by
  induction h generalizing read with
  | nil => rw [List.nil_append, scanString_quote, List.append_nil]
  | cons hc _ ih =>
    rw [List.append_assoc, scanString_char hc, ih, List.reverse_cons, List.append_assoc]
    rfl

end Token

/-- No number goes on in the text. -/
def Apart (t : Text) : Prop := ∀ c ∈ t.head?, Text.isDigit c = false ∧ c ∉ ['.', 'e', 'E']

theorem apart_cons {c : Char} (hdigit : Text.isDigit c = false) (hc : c ∉ ['.', 'e', 'E'])
    (t : Text) : Apart (c :: t) := by
  intro d hd
  cases hd
  exact ⟨hdigit, hc⟩

theorem Apart.append {s t : Text} (hs : Apart s) (ht : Apart t) : Apart (s ++ t) := by
  cases s with
  | nil => exact ht
  | cons c s => exact hs

theorem Blanks.apart {b : Text} (hb : Blanks b) : Apart b := by
  intro c hc
  have hmem := hb c (List.mem_of_mem_head? hc)
  simp only [List.mem_cons, List.not_mem_nil, or_false] at hmem
  rcases hmem with rfl | rfl | rfl | rfl <;> decide

namespace Number
open Text

theorem scanDigits_append {digits rest : Text} (h : Digits digits) (hrest : NoDigitFirst rest) :
    scanDigits (digits ++ rest) = .ok (digits, rest) := by
  obtain ⟨hne, hall⟩ := h
  cases digits with
  | nil => contradiction
  | cons d digits =>
    have hd : isDigit d := hall d List.mem_cons_self
    obtain ⟨htake, hdrop⟩ := span_digits hall hrest
    rw [List.cons_append] at htake hdrop
    rw [List.cons_append, scanDigits, if_pos hd, htake, hdrop]

theorem scanMinus_append {whole : Text} (h : Digits whole) (negative : Bool) (rest : Text) :
    scanMinus ((if negative then ['-'] else []) ++ (whole ++ rest)) =
      (negative, whole ++ rest) := by
  obtain ⟨d, s, rfl, hd⟩ := h.exists_cons
  cases negative with
  | true => rfl
  | false =>
    unfold scanMinus
    split
    · rename_i hminus
      cases hminus
      contradiction
    · rfl

theorem scanWhole_append {whole rest : Text} (h : Digits whole)
    (hzero : whole.head? = some '0' → whole.length = 1) (hrest : NoDigitFirst rest) :
    scanWhole (whole ++ rest) = .ok (whole, rest) := by
  simp only [scanWhole, scanDigits_append h hrest, bind, Except.bind]
  by_cases h0 : whole.head? = some '0'
  · simp [pure, Except.pure, hzero h0]
  · simp [pure, Except.pure, h0]

theorem scanFraction_append {fraction t rest : Text} (h : FractionWritten fraction t)
    (hrest : NoDigitFirst rest) (hdot : '.' ∉ rest.head?) :
    scanFraction (t ++ rest) = .ok (fraction, rest) := by
  cases h with
  | some hdigits => exact scanDigits_append hdigits hrest
  | none =>
    rw [List.nil_append]
    unfold scanFraction
    split
    · exact absurd rfl hdot
    · rfl

theorem scanSign_append {negative : Bool} {sign digits : Text} (h : SignWritten negative sign)
    (hdigits : Digits digits) (rest : Text) :
    scanSign (sign ++ (digits ++ rest)) = (negative, digits ++ rest) := by
  cases h with
  | minus => rfl
  | plus => rfl
  | none =>
    obtain ⟨d, s, rfl, hd⟩ := hdigits.exists_cons
    unfold scanSign
    split
    · rename_i hminus
      cases hminus
      contradiction
    · rename_i hplus
      cases hplus
      contradiction
    · rfl

theorem scanExponent_append {exponent : Option Exponent} {t rest : Text}
    (h : ExponentWritten exponent t) (hrest : Apart rest) :
    scanExponent (t ++ rest) = .ok (exponent, rest) := by
  cases h with
  | none =>
    rw [List.nil_append]
    unfold scanExponent
    split
    · exact absurd (by simp) (hrest _ rfl).2
    · exact absurd (by simp) (hrest _ rfl).2
    · rfl
  | @some e mark sign hmark hsign hdigits =>
    have hscan := scanDigits_append hdigits fun c hc => (hrest c hc).1
    have hsigned := scanSign_append hsign hdigits rest
    rcases hmark with rfl | rfl <;>
      simp only [List.cons_append, List.append_assoc, scanExponent, hsigned, hscan, bind,
        Except.bind, pure, Except.pure]

/-- Behind the digits of a number its exponent follows, or nothing that goes on with it. -/
theorem exponent_follows {exponent : Option Exponent} {t rest : Text}
    (h : ExponentWritten exponent t) (hrest : Apart rest) :
    NoDigitFirst (t ++ rest) ∧ '.' ∉ (t ++ rest).head? := by
  cases h with
  | none => exact ⟨fun c hc => (hrest c hc).1, fun hdot => (hrest _ hdot).2 List.mem_cons_self⟩
  | some hmark hsign hdigits =>
    rcases hmark with rfl | rfl <;> exact ⟨fun c hc => by cases hc; rfl, by simp⟩

theorem fraction_follows {fraction t rest : Text} (h : FractionWritten fraction t)
    (hrest : NoDigitFirst rest) : NoDigitFirst (t ++ rest) := by
  cases h with
  | none => exact hrest
  | some hdigits => exact fun c hc => by cases hc; rfl

/-- A number is read back when nothing follows that could go on with it. -/
theorem scan_written {n : Number} {t rest : Text} (h : NumberWritten n t) (hrest : Apart rest) :
    scan (t ++ rest) = .ok (n, rest) := by
  cases h with
  | @mk fraction exponent hdigits noLeadingZero hfraction hexponent inRange =>
    obtain ⟨hexp, hdot⟩ := exponent_follows hexponent hrest
    have hminus := scanMinus_append hdigits n.negative (fraction ++ (exponent ++ rest))
    have hwhole := scanWhole_append hdigits noLeadingZero (fraction_follows hfraction hexp)
    have hpoint := scanFraction_append hfraction hexp hdot
    have hpower := scanExponent_append hexponent hrest
    simp only [scan, List.append_assoc, hminus, hwhole, hpoint, hpower, bind, Except.bind, inRange,
      if_true]
    rfl

end Number

end CompletionSnippets.Json
