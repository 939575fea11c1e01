import CompletionSnippets.Proofs.Json.Lexing

/-!
# Reading on in a longer text

What a scanner has read does not change when more text follows, as long as it left something of
the text it had: then it stopped at a character that is still there.
-/
namespace CompletionSnippets.Json

/-- A scan leaves an end of the text. Where it leaves something, it reads the same in a longer
text, and leaves what follows too. -/
structure Stable {α : Type} (scan : Text → Except Fault (α × Text)) : Prop where
  isSuffix : ∀ {t x rest}, scan t = .ok (x, rest) → rest <:+ t
  append : ∀ {t x rest}, scan t = .ok (x, rest) → rest ≠ [] →
    ∀ s, scan (t ++ s) = .ok (x, rest ++ s)

theorem bind_eq_ok_iff {α β : Type} {x : Except Fault α} {f : α → Except Fault β} {found : β} :
    (x >>= f) = .ok found ↔ ∃ first, x = .ok first ∧ f first = .ok found := by
  cases x with
  | error fault =>
    constructor
    · rintro ⟨⟩
    · rintro ⟨_, ⟨⟩, _⟩
  | ok first =>
    constructor
    · intro h
      exact ⟨first, rfl, h⟩
    · rintro ⟨_, ⟨⟩, h⟩
      exact h

namespace Number

theorem scanDigits_eq_ok {t digits rest : Text} (h : scanDigits t = .ok (digits, rest)) :
    t = digits ++ rest ∧ Digits digits ∧ Text.NoDigitFirst rest := by
  cases t with
  | nil => cases h
  | cons c t =>
    simp only [scanDigits] at h
    split at h
    · rename_i hc
      cases h
      refine ⟨List.takeWhile_append_dropWhile.symm, ⟨?_, ?_⟩, ?_⟩
      · rw [List.takeWhile_cons_of_pos hc]
        exact List.cons_ne_nil _ _
      · exact List.all_eq_true.mp List.all_takeWhile
      · intro d hd
        have hnot := List.head?_dropWhile_not Text.isDigit (c :: t)
        rw [hd] at hnot
        simpa using hnot
    · cases h

theorem stable_scanDigits : Stable scanDigits where
  isSuffix h := ⟨_, (scanDigits_eq_ok h).1.symm⟩
  append h hrest s := by
    obtain ⟨rfl, hdigits, hnext⟩ := scanDigits_eq_ok h
    rw [List.append_assoc]
    apply scanDigits_append hdigits
    obtain ⟨c, rest, rfl⟩ := List.exists_cons_of_ne_nil hrest
    exact hnext

theorem scanWhole_eq_ok_iff {t digits rest : Text} :
    scanWhole t = .ok (digits, rest) ↔ scanDigits t = .ok (digits, rest) ∧
      ¬ (digits.head? = some '0' && digits.length != 1) = true := by
  rw [scanWhole, bind_eq_ok_iff]
  constructor
  · rintro ⟨⟨digits', rest'⟩, hdigits, h⟩
    simp only at h
    split at h
    · cases h
    · rename_i hzero
      cases h
      exact ⟨hdigits, hzero⟩
  · rintro ⟨hdigits, hzero⟩
    exact ⟨(digits, rest), hdigits, if_neg hzero⟩

theorem stable_scanWhole : Stable scanWhole where
  isSuffix h := stable_scanDigits.isSuffix (scanWhole_eq_ok_iff.mp h).1
  append h hrest s := by
    obtain ⟨hdigits, hzero⟩ := scanWhole_eq_ok_iff.mp h
    exact scanWhole_eq_ok_iff.mpr ⟨stable_scanDigits.append hdigits hrest s, hzero⟩

theorem scanMinus_isSuffix (t : Text) : (scanMinus t).2 <:+ t := by
  unfold scanMinus
  split
  · exact List.suffix_cons _ _
  · exact List.suffix_refl _

theorem scanSign_isSuffix (t : Text) : (scanSign t).2 <:+ t := by
  unfold scanSign
  split
  · exact List.suffix_cons _ _
  · exact List.suffix_cons _ _
  · exact List.suffix_refl _

theorem scanMinus_append_right {t : Text} (h : t ≠ []) (s : Text) :
    scanMinus (t ++ s) = ((scanMinus t).1, (scanMinus t).2 ++ s) := by
  obtain ⟨c, t, rfl⟩ := List.exists_cons_of_ne_nil h
  by_cases hc : c = '-'
  · subst hc
    rfl
  · simp [scanMinus, hc]

theorem scanSign_append_right {t : Text} (h : t ≠ []) (s : Text) :
    scanSign (t ++ s) = ((scanSign t).1, (scanSign t).2 ++ s) := by
  obtain ⟨c, t, rfl⟩ := List.exists_cons_of_ne_nil h
  by_cases hminus : c = '-'
  · subst hminus
    rfl
  by_cases hplus : c = '+'
  · subst hplus
    rfl
  · simp [scanSign, hminus, hplus]

theorem scanFraction_of_ne {c : Char} (hc : c ≠ '.') (t : Text) :
    scanFraction (c :: t) = .ok ([], c :: t) := by
  simp [scanFraction, hc]

theorem stable_scanFraction : Stable scanFraction where
  isSuffix {t digits rest} h := by
    unfold scanFraction at h
    split at h
    · exact (stable_scanDigits.isSuffix h).trans (List.suffix_cons _ _)
    · cases h
      exact List.suffix_refl _
  append {t digits rest} h hrest s := by
    cases t with
    | nil =>
      cases h
      exact absurd rfl hrest
    | cons c t =>
      by_cases hc : c = '.'
      · subst hc
        exact stable_scanDigits.append h hrest s
      · rw [scanFraction_of_ne hc] at h
        cases h
        exact scanFraction_of_ne hc (t ++ s)

theorem scanExponent_of_ne {c : Char} (hsmall : c ≠ 'e') (hlarge : c ≠ 'E') (t : Text) :
    scanExponent (c :: t) = .ok (none, c :: t) := by
  simp [scanExponent, hsmall, hlarge]

theorem scanExponent_eq_ok_iff {c : Char} (hc : c = 'e' ∨ c = 'E') {t rest : Text}
    {e : Option Exponent} : scanExponent (c :: t) = .ok (e, rest) ↔
      ∃ digits, scanDigits (scanSign t).2 = .ok (digits, rest) ∧
        e = some { negative := (scanSign t).1, digits } := by
  have hscan : scanExponent (c :: t) = do
      let found ← scanDigits (scanSign t).2
      return (some { negative := (scanSign t).1, digits := found.1 }, found.2) := by
    rcases hc with rfl | rfl <;> rfl
  rw [hscan, bind_eq_ok_iff]
  constructor
  · rintro ⟨⟨digits, after⟩, hdigits, ⟨⟩⟩
    exact ⟨digits, hdigits, rfl⟩
  · rintro ⟨digits, hdigits, rfl⟩
    exact ⟨(digits, rest), hdigits, rfl⟩

theorem stable_scanExponent : Stable scanExponent where
  isSuffix {t e rest} h := by
    cases t with
    | nil =>
      cases h
      exact List.suffix_refl _
    | cons c t =>
      by_cases hc : c = 'e' ∨ c = 'E'
      · obtain ⟨digits, hdigits, -⟩ := (scanExponent_eq_ok_iff hc).mp h
        have hsign := (stable_scanDigits.isSuffix hdigits).trans (scanSign_isSuffix t)
        exact hsign.trans (List.suffix_cons c t)
      · rw [not_or] at hc
        rw [scanExponent_of_ne hc.1 hc.2] at h
        cases h
        exact List.suffix_refl _
  append {t e rest} h hrest s := by
    cases t with
    | nil =>
      cases h
      exact absurd rfl hrest
    | cons c t =>
      by_cases hc : c = 'e' ∨ c = 'E'
      · obtain ⟨digits, hdigits, he⟩ := (scanExponent_eq_ok_iff hc).mp h
        have ht : t ≠ [] := by
          rintro rfl
          cases hdigits
        have hsign := scanSign_append_right ht s
        rw [List.cons_append]
        refine (scanExponent_eq_ok_iff hc).mpr ⟨digits, ?_, ?_⟩
        · rw [hsign]
          exact stable_scanDigits.append hdigits hrest s
        · rw [hsign]
          exact he
      · rw [not_or] at hc
        rw [scanExponent_of_ne hc.1 hc.2] at h
        cases h
        exact scanExponent_of_ne hc.1 hc.2 (t ++ s)

/-- A number is what its parts are, read one behind the other. -/
theorem scan_eq_ok_iff {t rest : Text} {n : Number} :
    scan t = .ok (n, rest) ↔ ∃ behindWhole behindFraction,
      (scanMinus t).1 = n.negative ∧ scanWhole (scanMinus t).2 = .ok (n.whole, behindWhole) ∧
      scanFraction behindWhole = .ok (n.fraction, behindFraction) ∧
      scanExponent behindFraction = .ok (n.exponent, rest) ∧ n.inRange := by
  simp only [scan, bind_eq_ok_iff]
  constructor
  · rintro ⟨⟨whole, behindWhole⟩, hwhole, ⟨fraction, behindFraction⟩, hfraction,
      ⟨exponent, behindExponent⟩, hexponent, h⟩
    split at h
    · rename_i hrange
      cases h
      exact ⟨behindWhole, behindFraction, rfl, hwhole, hfraction, hexponent, hrange⟩
    · cases h
  · rintro ⟨behindWhole, behindFraction, hminus, hwhole, hfraction, hexponent, hrange⟩
    refine ⟨(n.whole, behindWhole), hwhole, (n.fraction, behindFraction), hfraction,
      (n.exponent, rest), hexponent, ?_⟩
    simp only [hminus, hrange, if_true]
    rfl

theorem stable_scan : Stable scan where
  isSuffix {t n rest} h := by
    obtain ⟨behindWhole, behindFraction, -, hwhole, hfraction, hexponent, -⟩ := scan_eq_ok_iff.mp h
    have hfirst : behindWhole <:+ t :=
      (stable_scanWhole.isSuffix hwhole).trans (scanMinus_isSuffix t)
    have hsecond : behindFraction <:+ t := (stable_scanFraction.isSuffix hfraction).trans hfirst
    exact (stable_scanExponent.isSuffix hexponent).trans hsecond
  append {t n rest} h hrest s := by
    obtain ⟨behindWhole, behindFraction, hminus, hwhole, hfraction, hexponent, hrange⟩ :=
      scan_eq_ok_iff.mp h
    -- something was left in the end, so something was left by every scan before
    have hbehindFraction : behindFraction ≠ [] := by
      rintro rfl
      exact hrest (List.suffix_nil.mp (stable_scanExponent.isSuffix hexponent))
    have hbehindWhole : behindWhole ≠ [] := by
      rintro rfl
      exact hbehindFraction (List.suffix_nil.mp (stable_scanFraction.isSuffix hfraction))
    have ht : t ≠ [] := by
      rintro rfl
      cases hwhole
    have hlonger := scanMinus_append_right ht s
    refine scan_eq_ok_iff.mpr ⟨behindWhole ++ s, behindFraction ++ s, ?_, ?_,
      stable_scanFraction.append hfraction hbehindFraction s,
      stable_scanExponent.append hexponent hrest s, hrange⟩
    · rw [hlonger]
      exact hminus
    · rw [hlonger]
      exact stable_scanWhole.append hwhole hbehindWhole s

end Number

namespace Token

theorem expect_eq_ok {letters t rest : Text} (h : expect letters t = .ok rest) :
    t = letters ++ rest := by
  induction letters generalizing t with
  | nil =>
    cases h
    rfl
  | cons a letters ih =>
    cases t with
    | nil => cases h
    | cons c t =>
      rw [expect] at h
      split at h
      · rename_i hc
        rw [hc, ih h, List.cons_append]
      · cases h

theorem scanString_isSuffix {read t x rest : Text} {firstHalf : Option Nat}
    (h : scanString read firstHalf t = .ok (x, rest)) : rest <:+ t := by
  fun_induction scanString read firstHalf t with
  | case1 | case4 | case5 | case6 | case7 | case9 | case10 | case12 => cases h
  | case2 read firstHalf a b c d after ch hu ih =>
    exact (ih h).trans ⟨['\\', 'u', a, b, c, d], rfl⟩
  | case3 read firstHalf a b c d after unit hu ih =>
    exact (ih h).trans ⟨['\\', 'u', a, b, c, d], rfl⟩
  | case8 read letter after hu hl ch he ih => exact (ih h).trans ⟨['\\', letter], rfl⟩
  | case11 read firstHalf after hnone =>
    cases h
    exact List.suffix_cons _ _
  | case13 read firstHalf c after hunit hlast hletter hnone hquote hcontrol ih =>
    exact (ih h).trans (List.suffix_cons c after)

theorem scanString_append {read t x rest : Text} {firstHalf : Option Nat}
    (h : scanString read firstHalf t = .ok (x, rest)) (s : Text) :
    scanString read firstHalf (t ++ s) = .ok (x, rest ++ s) := by
  fun_induction scanString read firstHalf t with
  | case1 | case4 | case5 | case6 | case7 | case9 | case10 | case12 => cases h
  | case2 read firstHalf a b c d after ch hu ih =>
    simp only [List.cons_append, scanString, hu, ih h]
  | case3 read firstHalf a b c d after unit hu ih =>
    simp only [List.cons_append, scanString, hu, ih h]
  | case8 read letter after hu hl ch he ih =>
    exact (scanString_letter he read (after ++ s)).trans (ih h)
  | case11 read firstHalf after hnone =>
    cases h
    rw [Option.not_isSome_iff_eq_none.mp hnone]
    exact scanString_quote read (rest ++ s)
  | case13 read firstHalf c after hunit hlast hletter hnone hquote hcontrol ih =>
    have hbackslash : c ≠ '\\' := by
      rintro rfl
      cases after with
      | nil => exact hlast rfl rfl
      | cons letter after => exact hletter letter after rfl rfl
    have hplain := scanString_plain (Nat.le_of_not_lt hcontrol) hquote hbackslash read (after ++ s)
    rw [Option.not_isSome_iff_eq_none.mp hnone]
    exact hplain.trans (ih h)

def isBroken : Token → Bool
  | .broken _ _ => true
  | _ => false

def words : List (Char × Text × Value) :=
  [('n', ['u', 'l', 'l'], .null), ('t', ['r', 'u', 'e'], .bool true),
    ('f', ['a', 'l', 's', 'e'], .bool false)]

/-- The character and the text behind it begin with the token, which is not broken. -/
inductive Begins (c : Char) (t : Text) : Token → Text → Prop
  | mark {token : Token} (h : (c, token) ∈ marks) : Begins c t token t
  | string {x rest : Text} (hc : c = '"') (h : scanString [] none t = .ok (x, rest)) :
      Begins c t (.string x) rest
  | word {letters rest : Text} {v : Value} (hc : (c, letters, v) ∈ words)
      (h : expect letters t = .ok rest) : Begins c t (.scalar v) rest
  | number {n : Number} {rest : Text} (hc : c = '-' ∨ Text.isDigit c)
      (h : Number.scan (c :: t) = .ok (n, rest)) : Begins c t (.scalar (.number n)) rest

theorem eq_ok_of_orBroken {isString : Bool} {found : Except Fault (Token × Text)} {token : Token}
    {rest : Text} (h : orBroken isString found = (token, rest)) (hwhole : token.isBroken = false) :
    found = .ok (token, rest) := by
  cases found with
  | ok found => exact congrArg Except.ok h
  | error fault =>
    cases h
    contradiction

theorem begins_of_startingWith {c : Char} {t rest : Text} {token : Token}
    (h : startingWith c t = (token, rest)) (hwhole : token.isBroken = false) :
    Begins c t token rest := by
  unfold startingWith at h
  split at h
  case h_7 =>
    obtain ⟨⟨x, left⟩, hscan, ⟨⟩⟩ := bind_eq_ok_iff.mp (eq_ok_of_orBroken h hwhole)
    exact .string rfl hscan
  case h_8 | h_9 | h_10 =>
    obtain ⟨left, hscan, ⟨⟩⟩ := bind_eq_ok_iff.mp (eq_ok_of_orBroken h hwhole)
    exact .word (by simp [words]) hscan
  case h_11 =>
    split at h
    · rename_i hc
      obtain ⟨⟨n, left⟩, hscan, ⟨⟩⟩ := bind_eq_ok_iff.mp (eq_ok_of_orBroken h hwhole)
      exact .number (by simpa using hc) hscan
    · cases h
      contradiction
  all_goals
    cases h
    exact .mark (by simp [marks])

theorem Begins.startingWith_eq {c : Char} {t rest : Text} {token : Token}
    (h : Begins c t token rest) : startingWith c t = (token, rest) := by
  cases h with
  | mark hc =>
    simp only [marks, List.mem_cons, Prod.mk.injEq, List.not_mem_nil, or_false] at hc
    rcases hc with ⟨rfl, rfl⟩ | ⟨rfl, rfl⟩ | ⟨rfl, rfl⟩ | ⟨rfl, rfl⟩ | ⟨rfl, rfl⟩ | ⟨rfl, rfl⟩ <;>
      rfl
  | string hc hscan =>
    subst hc
    simp only [startingWith, hscan, bind, Except.bind, pure, Except.pure]
    rfl
  | word hc hscan =>
    simp only [words, List.mem_cons, Prod.mk.injEq, List.not_mem_nil, or_false] at hc
    rcases hc with ⟨rfl, rfl, rfl⟩ | ⟨rfl, rfl, rfl⟩ | ⟨rfl, rfl, rfl⟩ <;>
    · simp only [startingWith, hscan, bind, Except.bind, pure, Except.pure]
      rfl
  | number hc hscan => exact startingWith_number hc hscan

theorem Begins.isSuffix {c : Char} {t rest : Text} {token : Token} (h : Begins c t token rest) :
    rest <:+ c :: t := by
  cases h with
  | mark hc => exact List.suffix_cons c t
  | string hc hscan => exact (scanString_isSuffix hscan).trans (List.suffix_cons c t)
  | word hc hscan => exact ⟨c :: _, congrArg _ (expect_eq_ok hscan).symm⟩
  | number hc hscan => exact Number.stable_scan.isSuffix hscan

theorem Begins.append {c : Char} {t rest : Text} {token : Token} (h : Begins c t token rest)
    (hrest : rest ≠ []) (s : Text) : Begins c (t ++ s) token (rest ++ s) := by
  cases h with
  | mark hc => exact .mark hc
  | string hc hscan => exact .string hc (scanString_append hscan s)
  | word hc hscan =>
    obtain rfl := expect_eq_ok hscan
    refine .word hc ?_
    rw [List.append_assoc]
    exact expect_append _ _
  | number hc hscan => exact .number hc (Number.stable_scan.append hscan hrest s)

theorem mem_blanks_iff {c : Char} : c ∈ [' ', '\t', '\n', '\r'] ↔ isBlank c := by
  simp only [isBlank, List.mem_cons, List.not_mem_nil, or_false, Bool.or_eq_true, beq_iff_eq,
    ← Char.toNat_inj, or_assoc]
  rfl

theorem next?_blanks {b : Text} (hb : Blanks b) (t : Text) : next? (b ++ t) = next? t := by
  rw [next?, next?, List.dropWhile_append_of_pos fun c hc => mem_blanks_iff.mp (hb c hc)]

theorem exists_begins {t rest : Text} {token : Token} (h : next? t = some (token, rest))
    (hwhole : token.isBroken = false) :
    ∃ b c body, Blanks b ∧ isBlank c = false ∧ t = b ++ c :: body ∧ Begins c body token rest := by
  unfold next? at h
  split at h
  · cases h
  · rename_i c body hdrop
    have hblank : isBlank c = false := by
      have hnot := List.head?_dropWhile_not isBlank t
      rw [hdrop] at hnot
      simpa using hnot
    have hb : Blanks (t.takeWhile isBlank) := fun d hd =>
      mem_blanks_iff.mpr (List.all_eq_true.mp List.all_takeWhile d hd)
    refine ⟨_, c, body, hb, hblank, ?_, begins_of_startingWith (Option.some.inj h) hwhole⟩
    rw [← hdrop, List.takeWhile_append_dropWhile]

theorem next?_isSuffix {t rest : Text} {token : Token} (h : next? t = some (token, rest))
    (hwhole : token.isBroken = false) : rest <:+ t := by
  obtain ⟨b, c, body, -, -, rfl, hbegins⟩ := exists_begins h hwhole
  exact hbegins.isSuffix.trans (List.suffix_append b (c :: body))

theorem next?_append {t rest : Text} {token : Token} (h : next? t = some (token, rest))
    (hwhole : token.isBroken = false) (hrest : rest ≠ []) (s : Text) :
    next? (t ++ s) = some (token, rest ++ s) := by
  obtain ⟨b, c, body, hb, hc, rfl, hbegins⟩ := exists_begins h hwhole
  rw [List.append_assoc, next?_blanks hb, List.cons_append, next?,
    List.dropWhile_cons_of_neg (by rw [hc]; decide)]
  exact congrArg some (hbegins.append hrest s).startingWith_eq

end Token
end CompletionSnippets.Json
