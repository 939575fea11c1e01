import CompletionSnippets.Text

/-!
# JSON numbers

A number literal is kept as its parts. It stands for a natural number when it is
written with digits only; whatever else it may be, it has to lie in the range of
binary floating-point numbers of double precision.

The range is that of the usual reading in one pass. The digits are taken into a
64-bit significand for as long as it holds them, the others only count as powers
of ten. Significand and power of ten are each rounded to 53 bits, ties to even,
and the number is out of range when their product would be rounded to infinity.
-/
namespace CompletionSnippets.Json

/-- Why a text is not JSON: it ends too early, or it goes on wrongly. -/
inductive Fault where
  | ended
  | malformed
deriving DecidableEq, Repr

structure Exponent where
  negative : Bool
  digits : Text
deriving DecidableEq, Repr

/-- A number literal by its parts; a literal without a fraction has no fraction
digits. -/
structure Number where
  negative : Bool
  whole : Text
  fraction : Text
  exponent : Option Exponent
deriving DecidableEq, Repr

namespace Number

def ofNat (n : Nat) : Number where
  negative := false
  whole := Text.decimal n
  fraction := []
  exponent := none

/-- The natural number that a literal of digits stands for, when it has 64 bits. -/
def natural? (n : Number) : Option Nat :=
  let value := Text.ofDecimal n.whole
  if !n.negative && n.fraction.isEmpty && n.exponent.isNone && value < Text.wordLimit then
    some value
  else none

def render (n : Number) : Text :=
  (if n.negative then ['-'] else []) ++ n.whole ++
    (if n.fraction.isEmpty then [] else '.' :: n.fraction) ++
    match n.exponent with
    | none => []
    | some e => 'e' :: (if e.negative then ['-'] else []) ++ e.digits

/-- Digits appended to a significand for as long as it stays below 2^64, and the
digits that it does not take. -/
def absorb (significand : Nat) : Text → Nat × Text
  | [] => (significand, [])
  | d :: digits =>
    let next := 10 * significand + Text.ofDecimal [d]
    if next < Text.wordLimit then absorb next digits else (significand, d :: digits)

/-- A natural number rounded to 53 significant bits, ties to even. -/
def roundToDouble (n : Nat) : Nat :=
  if n.log2 < 53 then n
  else
    let unit := Nat.pow 2 (n.log2 - 52)
    let quotient := n / unit
    let twice := 2 * (n % unit)
    let up := unit < twice || (twice == unit && quotient % 2 == 1)
    (if up then quotient + 1 else quotient) * unit

/-- Whether the literal lies in the range of doubles. A significand alone always
does, so only a positive power of ten can lead out of it. -/
def inRange (n : Number) : Bool :=
  let (significand, restWhole) := absorb 0 n.whole
  let (significand, restFraction) := absorb significand n.fraction
  let shift : Int := restWhole.length - (n.fraction.length - restFraction.length : Nat)
  let power : Int := match n.exponent with
    | none => shift
    | some e =>
      let size : Int := Text.ofDecimal e.digits
      if e.negative then shift - size else shift + size
  significand == 0 || power ≤ 0 ||
    (power ≤ 308 &&
      roundToDouble significand * roundToDouble (Nat.pow 10 power.toNat) <
        Nat.pow 2 1024 - Nat.pow 2 970)

/-- The digits that a text begins with, at least one, and the rest. -/
def scanDigits (t : Text) : Except Fault (Text × Text) :=
  match t with
  | [] => .error .ended
  | c :: _ =>
    if Text.isDigit c then .ok (t.takeWhile Text.isDigit, t.dropWhile Text.isDigit)
    else .error .malformed

def scanWhole (t : Text) : Except Fault (Text × Text) := do
  let (digits, rest) ← scanDigits t
  if digits.head? = some '0' && digits.length != 1 then .error .malformed
  else return (digits, rest)

def scanFraction (t : Text) : Except Fault (Text × Text) :=
  match t with
  | '.' :: rest => scanDigits rest
  | _ => .ok ([], t)

def scanMinus (t : Text) : Bool × Text :=
  match t with
  | '-' :: rest => (true, rest)
  | _ => (false, t)

/-- Whether the sign of an exponent is a minus, and the text behind the sign. -/
def scanSign (t : Text) : Bool × Text :=
  match t with
  | '-' :: rest => (true, rest)
  | '+' :: rest => (false, rest)
  | _ => (false, t)

def scanExponent (t : Text) : Except Fault (Option Exponent × Text) :=
  match t with
  | 'e' :: rest | 'E' :: rest => do
    let (digits, after) ← scanDigits (scanSign rest).2
    return (some { negative := (scanSign rest).1, digits }, after)
  | _ => .ok (none, t)

def scan (t : Text) : Except Fault (Number × Text) := do
  let (whole, rest) ← scanWhole (scanMinus t).2
  let (fraction, rest) ← scanFraction rest
  let (exponent, rest) ← scanExponent rest
  let number : Number := { negative := (scanMinus t).1, whole, fraction, exponent }
  if number.inRange then return (number, rest) else .error .malformed

theorem scanDigits_length {t digits rest : Text} (h : scanDigits t = .ok (digits, rest)) :
    rest.length < t.length := by
  match t with
  | [] => simp [scanDigits] at h
  | c :: t =>
    simp only [scanDigits] at h
    split at h
    · rename_i hc
      obtain ⟨-, rfl⟩ := Prod.mk.inj (Except.ok.inj h)
      rw [List.dropWhile_cons_of_pos hc, List.length_cons]
      exact Nat.lt_succ_of_le (List.dropWhile_suffix _).length_le
    · simp at h

theorem scanWhole_length {t digits rest : Text} (h : scanWhole t = .ok (digits, rest)) :
    rest.length < t.length := by
  simp only [scanWhole, bind, Except.bind, pure, Except.pure] at h
  split at h
  · simp at h
  · rename_i found hd
    split at h
    · simp at h
    · cases h; exact scanDigits_length hd

theorem scanFraction_length {t digits rest : Text} (h : scanFraction t = .ok (digits, rest)) :
    rest.length ≤ t.length := by
  simp only [scanFraction] at h
  split at h
  · have := scanDigits_length h
    simp only [List.length_cons]; omega
  · cases h; exact Nat.le_refl _

theorem scanMinus_length (t : Text) : (scanMinus t).2.length ≤ t.length := by
  unfold scanMinus; split <;> simp

theorem scanSign_length (t : Text) : (scanSign t).2.length ≤ t.length := by
  unfold scanSign; split <;> simp

theorem scanExponent_length {t rest : Text} {e : Option Exponent}
    (h : scanExponent t = .ok (e, rest)) : rest.length ≤ t.length := by
  simp only [scanExponent, bind, Except.bind, pure, Except.pure] at h
  split at h
  case h_3 => cases h; exact Nat.le_refl _
  all_goals
    rename_i body
    split at h
    · simp at h
    · rename_i found hd
      cases h
      have h1 := scanDigits_length hd
      have h2 := scanSign_length body
      simp only [List.length_cons]; omega

theorem scan_length {t rest : Text} {n : Number} (h : scan t = .ok (n, rest)) :
    rest.length < t.length := by
  simp only [scan, bind, Except.bind, pure, Except.pure] at h
  split at h
  · simp at h
  rename_i whole hw
  split at h
  · simp at h
  rename_i fraction hf
  split at h
  · simp at h
  rename_i exponent he
  split at h
  · cases h
    have h0 := scanMinus_length t
    have h1 := scanWhole_length hw
    have h2 := scanFraction_length hf
    have h3 := scanExponent_length he
    omega
  · simp at h

end Number
end CompletionSnippets.Json
