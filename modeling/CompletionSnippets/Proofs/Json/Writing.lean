import CompletionSnippets.Json.Writer
import CompletionSnippets.Proofs.Json.Grammar
import CompletionSnippets.Proofs.Numerals

/-!
# What the writer writes

The writer writes one of the texts that may be written for a value, and it writes no character
below U+0020. Both are shown of a value when they hold of the values in it: strings are escaped
by the rules, and a natural number of 64 bits is its numeral.
-/
namespace CompletionSnippets.Json

namespace Number

theorem digits_decimal (n : Nat) : Digits (Text.decimal n) :=
  ⟨Text.decimal_ne_nil n, fun _ hc => Text.isDigit_of_mem_decimal hc⟩

theorem head?_decimal_ne_zero {n : Nat} (h : 0 < n) : (Text.decimal n).head? ≠ some '0' := by
  induction n using Nat.strongRecOn with
  | ind n ih =>
  rw [Text.decimal, Nat.toDigits_eq_if (by decide)]
  split
  · rename_i hlt
    have hall : ∀ d < 10, 0 < d → [d.digitChar].head? ≠ some '0' := by decide
    exact hall n hlt h
  · obtain ⟨c, t, hcons⟩ := List.exists_cons_of_ne_nil (Text.decimal_ne_nil (n / 10))
    have hhigher := ih (n / 10) (by omega) (by omega)
    rw [Text.decimal] at hcons hhigher
    rw [hcons] at hhigher ⊢
    exact hhigher

theorem length_decimal_of_head? {n : Nat} (h : (Text.decimal n).head? = some '0') :
    (Text.decimal n).length = 1 := by
  cases n with
  | zero => rfl
  | succ n => exact absurd h (head?_decimal_ne_zero (Nat.succ_pos n))

theorem ofDecimal_singleton (c : Char) : Text.ofDecimal [c] = c.toNat - 0x30 := by
  simp [Text.ofDecimal]

theorem absorb_of_lt {significand : Nat} {t : Text}
    (h : t.foldl (fun n c => 10 * n + (c.toNat - 0x30)) significand < Text.wordLimit) :
    ∃ value, absorb significand t = (value, []) := by
  have hgrows : ∀ (t : Text) (n : Nat), n ≤ t.foldl (fun n c => 10 * n + (c.toNat - 0x30)) n := by
    intro t
    induction t with
    | nil => exact Nat.le_refl
    | cons c t ih =>
      intro n
      have hn := ih (10 * n + (c.toNat - 0x30))
      rw [List.foldl_cons]
      omega
  induction t generalizing significand with
  | nil => exact ⟨significand, rfl⟩
  | cons c t ih =>
    rw [List.foldl_cons] at h
    have hnext := Nat.lt_of_le_of_lt (hgrows t _) h
    rw [absorb, ofDecimal_singleton]
    simp only [if_pos hnext]
    exact ih h

theorem inRange_ofNat {n : Nat} (h : n < Text.wordLimit) : (ofNat n).inRange := by
  rw [← Text.ofDecimal_decimal n] at h
  obtain ⟨value, hvalue⟩ := absorb_of_lt h
  -- no digit is left over and there is no exponent, so the power of ten is zero
  have hpower : (([] : Text).length : Int) - (([] : Text).length - ([] : Text).length : Nat) ≤ 0 :=
    by decide
  simp only [inRange, ofNat, hvalue, absorb, hpower, decide_true, Bool.or_true, Bool.true_or]

theorem numberWritten_ofNat {n : Nat} (h : n < Text.wordLimit) :
    NumberWritten (ofNat n) (Text.decimal n) := by
  have hwritten := NumberWritten.mk (n := ofNat n) (digits_decimal n) length_decimal_of_head?
    .none .none (inRange_ofNat h)
  simpa [ofNat] using hwritten

theorem natural?_lt {literal : Number} {n : Nat} (h : literal.natural? = some n) :
    n < Text.wordLimit := by
  obtain ⟨hword, hn⟩ := Option.ite_none_right_eq_some.mp h
  rw [Bool.and_eq_true, decide_eq_true_iff] at hword
  exact Option.some.inj hn ▸ hword.2

theorem natural?_ofNat {n : Nat} (h : n < Text.wordLimit) : (ofNat n).natural? = some n := by
  simp [natural?, ofNat, Text.ofDecimal_decimal, h]

theorem render_ofNat (n : Nat) : (ofNat n).render = Text.decimal n := by
  simp [render, ofNat]

end Number

namespace Value

theorem hexWritten_control {n : Nat} (h : n < 0x20) :
    HexWritten n ['0', '0', (n / 16).digitChar, (n % 16).digitChar] := by
  have hhex := HexWritten.mk (w := 0) (x := 0) (y := n / 16) (z := n % 16) ⟨by decide, .inl rfl⟩
    ⟨by decide, .inl rfl⟩ ⟨by omega, .inl rfl⟩ ⟨by omega, .inl rfl⟩
  have hn : 16 * (16 * (16 * 0 + 0) + n / 16) + n % 16 = n := by omega
  rwa [hn] at hhex

theorem charWritten_escapeChar (c : Char) : CharWritten c (escapeChar c) := by
  unfold escapeChar
  split
  case h_8 noQuote noBackslash _ _ _ _ _ =>
    split
    · rename_i hcontrol
      exact .unit (hexWritten_control hcontrol)
    · rename_i hcontrol
      exact .plain (Nat.le_of_not_lt hcontrol) noQuote noBackslash
  all_goals exact .letter (by decide)

theorem stringWritten_escape (t : Text) : StringWritten t (t.flatMap escapeChar) := by
  induction t with
  | nil => exact .nil
  | cons c t ih => exact .cons (charWritten_escapeChar c) ih

theorem written_string (t : Text) : Written (.string t) (renderString t) := by
  rw [renderString, List.cons_append]
  exact .string (stringWritten_escape t)

/-- No character of the text is a control character of ASCII. -/
def Printed (t : Text) : Prop := ∀ c ∈ t, 0x20 ≤ c.toNat

theorem printed_append {s t : Text} : Printed (s ++ t) ↔ Printed s ∧ Printed t :=
  List.forall_mem_append

theorem printed_cons {c : Char} {t : Text} : Printed (c :: t) ↔ 0x20 ≤ c.toNat ∧ Printed t :=
  List.forall_mem_cons

theorem printed_escapeChar (c : Char) : Printed (escapeChar c) := by
  have hdigit : ∀ d < 16, 0x20 ≤ d.digitChar.toNat := by decide
  unfold escapeChar
  split
  case h_8 =>
    split
    · rename_i hcontrol
      have hhigh := hdigit (c.toNat / 16) (by omega)
      have hlow := hdigit (c.toNat % 16) (by omega)
      simp [hhigh, hlow, Printed]
    · rename_i hcontrol
      simp only [Printed, List.mem_singleton, forall_eq]
      omega
  all_goals simp [Printed]

theorem printed_renderString (t : Text) : Printed (renderString t) := by
  have hescaped : Printed (t.flatMap escapeChar) := by
    intro c hc
    obtain ⟨d, -, hd⟩ := List.mem_flatMap.mp hc
    exact printed_escapeChar d c hd
  exact printed_append.mpr ⟨printed_cons.mpr ⟨by decide, hescaped⟩, by simp [Printed]⟩

/-- For a value of at most the given depth the writer keeps to the grammar and to one line. -/
structure Rendered (depth : Nat) (v : Value) : Prop where
  written : v.Written v.render
  printed : Printed v.render
  depth_le : v.depth ≤ depth

theorem Rendered.mono {depth depth' : Nat} {v : Value} (h : Rendered depth v)
    (hle : depth ≤ depth') : Rendered depth' v :=
  ⟨h.written, h.printed, Nat.le_trans h.depth_le hle⟩

section Rendered
variable (depth : Nat)

theorem rendered_string (t : Text) : Rendered depth (.string t) := by
  refine ⟨?_, ?_, Nat.zero_le depth⟩
  · rw [render]
    exact written_string t
  · rw [render]
    exact printed_renderString t

theorem rendered_bool (b : Bool) : Rendered depth (.bool b) := by
  cases b with
  | false => exact ⟨.false, by simp [Printed, render], Nat.zero_le depth⟩
  | true => exact ⟨.true, by simp [Printed, render], Nat.zero_le depth⟩

theorem rendered_natural {n : Nat} (h : n < Text.wordLimit) : Rendered depth (.natural n) := by
  have hdigits : Printed (Text.decimal n) := by
    intro c hc
    have hc := Text.isDigit_of_mem_decimal hc
    simp only [Text.isDigit, Bool.and_eq_true, decide_eq_true_eq] at hc
    omega
  refine ⟨?_, ?_, Nat.zero_le depth⟩
  · rw [natural, render, Number.render_ofNat]
    exact .number (Number.numberWritten_ofNat h)
  · rw [natural, render, Number.render_ofNat]
    exact hdigits

variable {depth}

theorem blanks_nil : Blanks [] := nofun

theorem renderItems_cons (v : Value) {items : List Value} (h : items ≠ []) :
    renderItems (v :: items) = v.render ++ ',' :: renderItems items := by
  cases items with
  | nil => contradiction
  | cons w items => rw [renderItems]; nofun

theorem rendered_items {items : List Value} (hne : items ≠ []) (h : ∀ v ∈ items, Rendered depth v) :
    ItemsWritten items (renderItems items) ∧ Printed (renderItems items) := by
  induction items with
  | nil => contradiction
  | cons v items ih =>
    obtain ⟨hv, hitems⟩ := List.forall_mem_cons.mp h
    by_cases hrest : items = []
    · subst hrest
      have hlast := ItemsWritten.last blanks_nil hv.written blanks_nil
      rw [List.append_nil, List.nil_append] at hlast
      rw [renderItems]
      exact ⟨hlast, hv.printed⟩
    · obtain ⟨hwritten, hprinted⟩ := ih hrest hitems
      rw [renderItems_cons v hrest]
      refine ⟨.cons blanks_nil hv.written blanks_nil hwritten, ?_⟩
      exact printed_append.mpr ⟨hv.printed, printed_cons.mpr ⟨by decide, hprinted⟩⟩

theorem rendered_array {items : List Value} (h : ∀ v ∈ items, Rendered depth v) :
    Rendered (depth + 1) (.array items) := by
  have hdepth := Nat.succ_le_succ (itemsDepth_le fun v hv => (h v hv).depth_le)
  by_cases hne : items = []
  · subst hne
    exact ⟨.emptyArray blanks_nil, by simp [Printed, render, renderItems], hdepth⟩
  · obtain ⟨hwritten, hprinted⟩ := rendered_items hne h
    refine ⟨?_, ?_, hdepth⟩
    · rw [render, List.cons_append]
      exact .array hwritten
    · rw [render]
      exact printed_append.mpr ⟨printed_cons.mpr ⟨by decide, hprinted⟩, by simp [Printed]⟩

def renderMember (m : Text × Value) : Text := renderString m.1 ++ ':' :: m.2.render

theorem renderMembers_cons (m : Text × Value) {members : List (Text × Value)} (h : members ≠ []) :
    renderMembers (m :: members) = renderMember m ++ ',' :: renderMembers members := by
  cases members with
  | nil => contradiction
  | cons w members => rw [renderMembers, renderMember]; nofun

theorem rendered_member {m : Text × Value} (h : Rendered depth m.2) :
    MemberWritten m (renderMember m) ∧ Printed (renderMember m) := by
  have hwritten := MemberWritten.mk blanks_nil (stringWritten_escape m.1) blanks_nil blanks_nil
    h.written blanks_nil
  constructor
  · simpa [renderMember, renderString] using hwritten
  · exact printed_append.mpr ⟨printed_renderString m.1, printed_cons.mpr ⟨by decide, h.printed⟩⟩

theorem rendered_members {members : List (Text × Value)} (hne : members ≠ [])
    (h : ∀ m ∈ members, Rendered depth m.2) :
    MembersWritten members (renderMembers members) ∧ Printed (renderMembers members) := by
  induction members with
  | nil => contradiction
  | cons m members ih =>
    obtain ⟨hm, hmembers⟩ := List.forall_mem_cons.mp h
    obtain ⟨hfirst, hprinted⟩ := rendered_member hm
    by_cases hrest : members = []
    · subst hrest
      rw [renderMembers]
      exact ⟨.last hfirst, hprinted⟩
    · obtain ⟨hothers, hprinted'⟩ := ih hrest hmembers
      rw [renderMembers_cons m hrest]
      exact ⟨.cons hfirst hothers,
        printed_append.mpr ⟨hprinted, printed_cons.mpr ⟨by decide, hprinted'⟩⟩⟩

theorem rendered_object {members : List (Text × Value)} (h : ∀ m ∈ members, Rendered depth m.2) :
    Rendered (depth + 1) (.object members) := by
  have hdepth := Nat.succ_le_succ (membersDepth_le fun m hm => (h m hm).depth_le)
  by_cases hne : members = []
  · subst hne
    exact ⟨.emptyObject blanks_nil, by simp [Printed, render, renderMembers], hdepth⟩
  · obtain ⟨hwritten, hprinted⟩ := rendered_members hne h
    refine ⟨?_, ?_, hdepth⟩
    · rw [render, List.cons_append]
      exact .object hwritten
    · rw [render]
      exact printed_append.mpr ⟨printed_cons.mpr ⟨by decide, hprinted⟩, by simp [Printed]⟩

end Rendered

end Value
end CompletionSnippets.Json
