import CompletionSnippets.Json.Value

/-!
# JSON tokens

The tokens of a text are its brackets, separators, strings and other scalars,
with the blanks between them left out. Where the text cannot be read on, the list
of tokens ends with a broken one. It says what went wrong, and whether it began
as a string, because in places where no value may stand that alone decides which
fault the text has.
-/
namespace CompletionSnippets.Json

inductive Token where
  | openBracket
  | closeBracket
  | openBrace
  | closeBrace
  | comma
  | colon
  | string (t : Text)
  /-- `null`, a truth value or a number. -/
  | scalar (v : Value)
  /-- A token that cannot be read to its end. -/
  | broken (isString : Bool) (fault : Fault)
deriving Repr

namespace Token

/-- The blanks between tokens: space, tab, line feed and carriage return. -/
def isBlank (c : Char) : Bool :=
  let n := c.toNat
  n == 0x20 || n == 0x09 || n == 0x0A || n == 0x0D

/-- The rest of a text that begins with the given letters. -/
def expect : Text → Text → Except Fault Text
  | [], rest => .ok rest
  | _ :: _, [] => .error .ended
  | a :: letters, c :: rest => if a = c then expect letters rest else .error .malformed

def unescape? (letter : Char) : Option Char :=
  match letter with
  | '"' => some '"'
  | '\\' => some '\\'
  | '/' => some '/'
  | 'b' => some '\x08'
  | 'f' => some '\x0c'
  | 'n' => some '\n'
  | 'r' => some '\r'
  | 't' => some '\t'
  | _ => none

/-- The code unit that four hexadecimal digits denote. -/
def codeUnit? (a b c d : Char) : Option Nat := do
  let digits ← [a, b, c, d].mapM Text.hexDigit?
  return digits.foldl (fun n digit => 16 * n + digit) 0

/-- What an escaped code unit adds to a string. -/
inductive Unit16 where
  /-- The unit, with the half before it if there was one, is a character. -/
  | char (c : Char)
  /-- The unit is the first half of a character. -/
  | firstHalf (unit : Nat)
  /-- The unit has no partner. -/
  | unpaired
deriving DecidableEq, Repr

/-- The meaning of a code unit behind an open first half, or behind none. -/
def pair (firstHalf : Option Nat) (unit : Nat) : Unit16 :=
  let isFirst := 0xD800 ≤ unit && unit ≤ 0xDBFF
  let isSecond := 0xDC00 ≤ unit && unit ≤ 0xDFFF
  match firstHalf with
  | none => if isSecond then .unpaired else if isFirst then .firstHalf unit else .char (.ofNat unit)
  | some first =>
    if isSecond then .char (.ofNat (0x10000 + (first - 0xD800) * 0x400 + (unit - 0xDC00)))
    else .unpaired

/-- The string whose opening quote stands before the text, and what follows its
closing quote. The characters so far are carried in reverse, together with a
first half that waits for its second. Four bytes have to be left for the digits
of a code unit; with fewer the text ends too early, whatever they are. -/
def scanString (read : Text) (firstHalf : Option Nat) : Text → Except Fault (Text × Text)
  | [] => .error .ended
  | '\\' :: 'u' :: a :: b :: c :: d :: rest =>
    match (codeUnit? a b c d).map (pair firstHalf) with
    | some (.char c) => scanString (c :: read) none rest
    | some (.firstHalf unit) => scanString read (some unit) rest
    | _ => .error .malformed
  | ['\\'] => .error .ended
  | '\\' :: letter :: rest =>
    if letter = 'u' then
      if Text.utf8Length rest < 4 then .error .ended else .error .malformed
    else match firstHalf, unescape? letter with
      | none, some c => scanString (c :: read) none rest
      | _, _ => .error .malformed
  | c :: rest =>
    if firstHalf.isSome then .error .malformed
    else if c = '"' then .ok (read.reverse, rest)
    else if c.toNat < 0x20 then .error .malformed
    else scanString (c :: read) none rest

/-- A token that was read, with the rest of the text, or the token of a fault,
after which nothing is read. -/
def orBroken (isString : Bool) : Except Fault (Token × Text) → Token × Text
  | .ok found => found
  | .error fault => (.broken isString fault, [])

def startingWith (c : Char) (rest : Text) : Token × Text :=
  match c with
  | '[' => (.openBracket, rest)
  | ']' => (.closeBracket, rest)
  | '{' => (.openBrace, rest)
  | '}' => (.closeBrace, rest)
  | ',' => (.comma, rest)
  | ':' => (.colon, rest)
  | '"' => orBroken true do
    let (t, rest) ← scanString [] none rest
    return (.string t, rest)
  | 'n' => orBroken false do return (.scalar .null, ← expect ['u', 'l', 'l'] rest)
  | 't' => orBroken false do return (.scalar (.bool true), ← expect ['r', 'u', 'e'] rest)
  | 'f' => orBroken false do return (.scalar (.bool false), ← expect ['a', 'l', 's', 'e'] rest)
  | c =>
    if c = '-' || Text.isDigit c then orBroken false do
      let (n, rest) ← Number.scan (c :: rest)
      return (.scalar (.number n), rest)
    else (.broken false .malformed, [])

/-- The first token of a text and what follows it, unless the text is blank. -/
def next? (t : Text) : Option (Token × Text) :=
  match t.dropWhile isBlank with
  | [] => none
  | c :: rest => some (startingWith c rest)

theorem expect_length {letters t rest : Text} (h : expect letters t = .ok rest) :
    rest.length ≤ t.length := by
  induction letters generalizing t with
  | nil => cases h; exact Nat.le_refl _
  | cons a letters ih =>
    match t with
    | [] => simp [expect] at h
    | c :: t =>
      simp only [expect] at h
      split at h
      · exact Nat.le_succ_of_le (ih h)
      · simp at h

theorem scanString_length {read t s rest : Text} {firstHalf : Option Nat}
    (h : scanString read firstHalf t = .ok (s, rest)) : rest.length < t.length := by
  fun_induction scanString read firstHalf t with
  | case2 read firstHalf a b c d after ch hu ih =>
    have := ih h; simp only [List.length_cons]; omega
  | case3 read firstHalf a b c d after unit hu ih =>
    have := ih h; simp only [List.length_cons]; omega
  | case8 read letter after hu hl ch he ih => have := ih h; simp only [List.length_cons]; omega
  | case11 read firstHalf after => cases h; simp
  | case13 read firstHalf c after => rename_i ih; have := ih h; simp only [List.length_cons]; omega
  | case1 | case4 | case5 | case6 | case7 | case9 | case10 | case12 => simp at h

theorem startingWith_length (c : Char) (t : Text) : (startingWith c t).2.length ≤ t.length := by
  have broken (isString : Bool) (found : Except Fault (Token × Text))
      (h : ∀ token rest, found = .ok (token, rest) → rest.length ≤ t.length) :
      (orBroken isString found).2.length ≤ t.length := by
    match found with
    | .ok (token, rest) => exact h token rest rfl
    | .error fault => simp [orBroken]
  unfold startingWith
  split
  case h_7 =>
    refine broken _ _ fun token rest h => ?_
    simp only [bind, Except.bind, pure, Except.pure] at h
    split at h
    · simp at h
    · rename_i found hs; cases h; exact Nat.le_of_lt (scanString_length hs)
  case h_11 =>
    split
    · refine broken _ _ fun token rest h => ?_
      simp only [bind, Except.bind, pure, Except.pure] at h
      split at h
      · simp at h
      · rename_i found hs; cases h; exact Nat.le_of_lt_succ (Number.scan_length hs)
    · simp
  case h_8 | h_9 | h_10 =>
    refine broken _ _ fun token rest h => ?_
    simp only [bind, Except.bind, pure, Except.pure] at h
    split at h
    · simp at h
    · rename_i found hs; cases h; exact expect_length hs
  all_goals exact Nat.le_refl _

theorem next?_length {t rest : Text} {token : Token} (h : next? t = some (token, rest)) :
    rest.length < t.length := by
  unfold next? at h
  split at h
  · simp at h
  · rename_i c body hb
    have h1 : (c :: body).length ≤ t.length := hb ▸ (List.dropWhile_suffix _).length_le
    have h2 := startingWith_length c body
    rw [Option.some.inj h] at h2
    exact Nat.lt_of_le_of_lt h2 h1

/-- The tokens already read, which are given in reverse, and those of a text. -/
def appendTokens (read : List Token) (t : Text) : List Token :=
  match _found : next? t with
  | none => read.reverse
  | some (token, rest) => appendTokens (token :: read) rest
termination_by t.length
decreasing_by exact next?_length _found

def tokens (t : Text) : List Token := appendTokens [] t

theorem appendTokens_of_none {read : List Token} {t : Text} (h : next? t = none) :
    appendTokens read t = read.reverse := by
  rw [appendTokens]; split <;> simp_all

theorem appendTokens_of_some {read : List Token} {t rest : Text} {token : Token}
    (h : next? t = some (token, rest)) :
    appendTokens read t = appendTokens (token :: read) rest := by
  rw [appendTokens]; split <;> simp_all

theorem appendTokens_eq (read : List Token) (t : Text) :
    appendTokens read t = read.reverse ++ tokens t := by
  induction hn : t.length using Nat.strongRecOn generalizing read t with
  | ind n ih =>
    match h : next? t with
    | none => rw [tokens, appendTokens_of_none h, appendTokens_of_none h]; simp
    | some (token, rest) =>
      have shorter := hn ▸ next?_length h
      rw [tokens, appendTokens_of_some h, appendTokens_of_some h, ih _ shorter _ _ rfl,
        ih _ shorter [token] _ rfl]
      simp

theorem tokens_of_none {t : Text} (h : next? t = none) : tokens t = [] :=
  appendTokens_of_none h

theorem tokens_of_some {t rest : Text} {token : Token} (h : next? t = some (token, rest)) :
    tokens t = token :: tokens rest := by
  rw [tokens, appendTokens_of_some h, appendTokens_eq]; rfl

end Token
end CompletionSnippets.Json
