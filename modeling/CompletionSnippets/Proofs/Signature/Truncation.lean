import CompletionSnippets.Proofs.Signature.Unlimited
import Mathlib.Algebra.GroupWithZero.Nat

/-!
# The nesting limit as a truncation

A signature is truncated below a number of levels when each function type at the
level after the last is replaced by its text, and nothing else is touched. The
entries of the signature itself are the first level. Reading with the nesting limit
gives exactly the truncation of what reading to any depth gives, with one notice for
each function type that was replaced, and it fails on exactly the same texts.

The argument is one simulation for a single entry, by induction on the levels that
are left; lists of entries and the outermost function type follow from it.
-/
namespace CompletionSnippets

mutual

/-- How many function types stand inside each other in an entry. -/
def Entry.depth : Entry → Nat
  | .plain _ _ _ => 0
  | .func _ _ s => s.depth + 1

/-- How many function types stand inside each other below the outermost one. -/
def Signature.depth : Signature → Nat
  | ⟨_, params, results⟩ => max (Entry.depthOfAll params) (Entry.depthOfAll results)

def Entry.depthOfAll : List Entry → Nat
  | [] => 0
  | e :: es => max e.depth (Entry.depthOfAll es)

end

namespace Entry

theorem depthOfAll_le_iff {n : Nat} {es : List Entry} :
    depthOfAll es ≤ n ↔ ∀ e ∈ es, e.depth ≤ n := by
  induction es with
  | nil => simp [depthOfAll]
  | cons e es ih => rw [depthOfAll, Nat.max_le, ih, List.forall_mem_cons]

end Entry

theorem Signature.depth_le_iff {n : Nat} {s : Signature} :
    s.depth ≤ n ↔ (∀ e ∈ s.params, e.depth ≤ n) ∧ ∀ e ∈ s.results, e.depth ≤ n := by
  cases s
  rw [depth, Nat.max_le, Entry.depthOfAll_le_iff, Entry.depthOfAll_le_iff]

namespace Entry

/-- The entry with the function types below the given number of levels, its own among
them, replaced by their text. -/
def truncate : Nat → Entry → Entry
  | _, .plain raw identifier type => .plain raw identifier type
  | 0, .func raw identifier s => .plain raw identifier s.raw
  | levels + 1, .func raw identifier s =>
    .func raw identifier
      { raw := s.raw
        params := s.params.map (truncate levels)
        results := s.results.map (truncate levels) }

/-- The number of function types that stand just below the given number of levels. -/
def functionsBelow : Nat → Entry → Nat
  | _, .plain _ _ _ => 0
  | 0, .func _ _ _ => 1
  | levels + 1, .func _ _ s =>
    (s.params.map (functionsBelow levels)).sum + (s.results.map (functionsBelow levels)).sum

end Entry

namespace Signature

/-- The signature with the function types below the given number of levels replaced by
their text. -/
def truncate (levels : Nat) (s : Signature) : Signature where
  raw := s.raw
  params := s.params.map (Entry.truncate levels)
  results := s.results.map (Entry.truncate levels)

/-- The number of function types at the level after the given number of levels, where
the entries of the signature are at level one. -/
def functionsBelow (levels : Nat) (s : Signature) : Nat :=
  (s.params.map (Entry.functionsBelow levels)).sum +
    (s.results.map (Entry.functionsBelow levels)).sum

end Signature

namespace Entry

@[simp] theorem truncate_plain (levels : Nat) (raw identifier type : Text) :
    truncate levels (.plain raw identifier type) = .plain raw identifier type := by
  cases levels <;> rfl

@[simp] theorem truncate_func_succ (levels : Nat) (raw identifier : Text) (s : Signature) :
    truncate (levels + 1) (.func raw identifier s) =
      .func raw identifier (s.truncate levels) := rfl

@[simp] theorem functionsBelow_plain (levels : Nat) (raw identifier type : Text) :
    functionsBelow levels (.plain raw identifier type) = 0 := by
  cases levels <;> rfl

@[simp] theorem functionsBelow_func_succ (levels : Nat) (raw identifier : Text)
    (s : Signature) :
    functionsBelow (levels + 1) (.func raw identifier s) = s.functionsBelow levels := rfl

theorem map_truncate_eq_self_iff {levels : Nat} {es : List Entry}
    (h : ∀ e, truncate levels e = e ↔ functionsBelow levels e = 0) :
    es.map (truncate levels) = es ↔ (es.map (functionsBelow levels)).sum = 0 := by
  induction es with
  | nil => simp
  | cons e es ih => simp [h e, ih]

end Entry

namespace Signature
variable {levels : Nat}

-- Each fact on truncated signatures holds when it holds of their entries, which are
-- at one level less; the entries have it by induction on the levels.
theorem truncate_eq_self_of_entries
    (h : ∀ e, Entry.truncate levels e = e ↔ Entry.functionsBelow levels e = 0) (s : Signature) :
    s.truncate levels = s ↔ s.functionsBelow levels = 0 := by
  rw [functionsBelow, Nat.add_eq_zero_iff, ← Entry.map_truncate_eq_self_iff h,
    ← Entry.map_truncate_eq_self_iff h]
  cases s
  simp [truncate]

theorem depth_truncate_of_entries (h : ∀ e, (Entry.truncate levels e).depth ≤ levels)
    (s : Signature) : (s.truncate levels).depth ≤ levels := by
  rw [depth_le_iff]
  simp only [truncate, List.forall_mem_map]
  exact ⟨fun e _ => h e, fun e _ => h e⟩

theorem functionsBelow_of_entries
    (h : ∀ e : Entry, e.depth ≤ levels → e.functionsBelow levels = 0) {s : Signature}
    (hs : s.depth ≤ levels) : s.functionsBelow levels = 0 := by
  rw [depth_le_iff] at hs
  rw [functionsBelow, Nat.add_eq_zero_iff]
  simp only [List.sum_eq_zero_iff_forall_eq_nat, List.forall_mem_map]
  exact ⟨fun e he => h e (hs.1 e he), fun e he => h e (hs.2 e he)⟩

end Signature

namespace Entry

/-- Truncation leaves exactly those entries alone that have nothing below the levels. -/
theorem truncate_eq_self_iff (levels : Nat) (e : Entry) :
    truncate levels e = e ↔ functionsBelow levels e = 0 := by
  induction levels generalizing e with
  | zero => cases e <;> simp [truncate, functionsBelow]
  | succ levels ih =>
    cases e with
    | plain raw identifier type => simp
    | func raw identifier s =>
      have hs := Signature.truncate_eq_self_of_entries ih s
      simp only [truncate_func_succ, functionsBelow_func_succ, func.injEq, true_and, hs]

theorem depth_truncate_le (levels : Nat) (e : Entry) : (truncate levels e).depth ≤ levels := by
  induction levels generalizing e with
  | zero => cases e <;> simp [truncate, depth]
  | succ levels ih =>
    cases e with
    | plain raw identifier type => simp [depth]
    | func raw identifier s =>
      rw [truncate_func_succ, depth, Nat.add_le_add_iff_right]
      exact Signature.depth_truncate_of_entries ih s

theorem functionsBelow_of_depth_le (levels : Nat) (e : Entry) (h : e.depth ≤ levels) :
    functionsBelow levels e = 0 := by
  induction levels generalizing e with
  | zero => cases e <;> simp_all [depth, functionsBelow]
  | succ levels ih =>
    cases e with
    | plain raw identifier type => simp
    | func raw identifier s =>
      rw [depth, Nat.add_le_add_iff_right] at h
      exact Signature.functionsBelow_of_entries ih h

end Entry

namespace Signature

theorem truncate_eq_self_iff (levels : Nat) (s : Signature) :
    s.truncate levels = s ↔ s.functionsBelow levels = 0 :=
  truncate_eq_self_of_entries (Entry.truncate_eq_self_iff levels) s

theorem depth_truncate_le (levels : Nat) (s : Signature) : (s.truncate levels).depth ≤ levels :=
  depth_truncate_of_entries (Entry.depth_truncate_le levels) s

theorem truncate_of_depth_le {levels : Nat} {s : Signature} (h : s.depth ≤ levels) :
    s.truncate levels = s := by
  rw [truncate_eq_self_iff]
  exact functionsBelow_of_entries (Entry.functionsBelow_of_depth_le levels) h

end Signature

namespace Entry

theorem ofToken_of_none (levels : Nat) {token : Text}
    (h : Outline.of? (divide token.trim).2 = none) :
    ofToken levels token = .plain token.trim (divide token.trim).1 (divide token.trim).2 := by
  cases levels <;> simp only [ofToken, h]

theorem ofToken_zero_of_some {token : Text} {o : Outline}
    (h : Outline.of? (divide token.trim).2 = some o) :
    ofToken 0 token = .plain token.trim (divide token.trim).1 (divide token.trim).2 := by
  simp only [ofToken, h]

theorem ofToken_succ_of_some (levels : Nat) {token : Text} {o : Outline}
    (h : Outline.of? (divide token.trim).2 = some o) :
    ofToken (levels + 1) token =
      .func token.trim (divide token.trim).1 (Signature.ofOutline levels o) := by
  simp only [ofToken, h]
  rfl

theorem keptAsText_of_none (levels : Nat) {token : Text}
    (h : Outline.of? (divide token.trim).2 = none) : keptAsText levels token = 0 := by
  cases levels <;> simp only [keptAsText, h]

theorem keptAsText_zero_of_some {token : Text} {o : Outline}
    (h : Outline.of? (divide token.trim).2 = some o) : keptAsText 0 token = 1 := by
  unfold keptAsText
  simp only [h]

theorem keptAsText_succ_of_some (levels : Nat) {token : Text} {o : Outline}
    (h : Outline.of? (divide token.trim).2 = some o) :
    keptAsText (levels + 1) token = (o.paramTokens.map (keptAsText levels)).sum +
      (o.resultTokens.map (keptAsText levels)).sum := by
  conv_lhs => unfold keptAsText
  simp only [h]
  rfl

end Entry

theorem Signature.ofOutline_of_tokens {levels : Nat}
    (h : ∀ token, Entry.ofToken levels token = (Entry.ofTokenUnlimited token).truncate levels)
    (o : Outline) : ofOutline levels o = (ofOutlineUnlimited o).truncate levels := by
  simp only [ofOutline, ofOutlineUnlimited, truncate, List.map_map]
  congr 1
  · exact List.map_congr_left fun x _ => h x
  · exact List.map_congr_left fun x _ => h x

theorem Signature.keptAsText_of_tokens {levels : Nat}
    (h : ∀ token,
      Entry.keptAsText levels token = (Entry.ofTokenUnlimited token).functionsBelow levels)
    (o : Outline) :
    (o.paramTokens.map (Entry.keptAsText levels)).sum +
      (o.resultTokens.map (Entry.keptAsText levels)).sum =
    (ofOutlineUnlimited o).functionsBelow levels := by
  simp only [functionsBelow, ofOutlineUnlimited, List.map_map]
  congr 2
  · exact List.map_congr_left fun x _ => h x
  · exact List.map_congr_left fun x _ => h x

namespace Entry

/-- The simulation: what is read with some levels left is the truncation, below these
levels, of what is read to any depth. -/
theorem ofToken_eq_truncate (levels : Nat) (token : Text) :
    ofToken levels token = (ofTokenUnlimited token).truncate levels := by
  induction levels generalizing token with
  | zero =>
    cases h : Outline.of? (divide token.trim).2 with
    | none => rw [ofTokenUnlimited_of_none h, ofToken_of_none _ h, truncate_plain]
    | some o =>
      -- the text that is kept is the whole of the outline that is not used
      have hwhole : o.whole = (divide token.trim).2 := by
        obtain ⟨w, rest, -, -, rfl⟩ := Outline.of?_eq_some_iff.mp h
        exact trim_divide (Text.trim_trim token)
      rw [ofTokenUnlimited_of_some h, ofToken_zero_of_some h, truncate,
        Signature.ofOutlineUnlimited, hwhole]
  | succ levels ih =>
    cases h : Outline.of? (divide token.trim).2 with
    | none => rw [ofTokenUnlimited_of_none h, ofToken_of_none _ h, truncate_plain]
    | some o =>
      rw [ofTokenUnlimited_of_some h, truncate_func_succ, ← Signature.ofOutline_of_tokens ih,
        ofToken_succ_of_some _ h]

/-- A function type is kept as text exactly where the truncation replaces it. -/
theorem keptAsText_eq_functionsBelow (levels : Nat) (token : Text) :
    keptAsText levels token = (ofTokenUnlimited token).functionsBelow levels := by
  induction levels generalizing token with
  | zero =>
    cases h : Outline.of? (divide token.trim).2 with
    | none => rw [ofTokenUnlimited_of_none h, keptAsText_of_none _ h, functionsBelow_plain]
    | some o => rw [ofTokenUnlimited_of_some h, keptAsText_zero_of_some h, functionsBelow]
  | succ levels ih =>
    cases h : Outline.of? (divide token.trim).2 with
    | none => rw [ofTokenUnlimited_of_none h, keptAsText_of_none _ h, functionsBelow_plain]
    | some o =>
      rw [ofTokenUnlimited_of_some h, functionsBelow_func_succ,
        ← Signature.keptAsText_of_tokens ih, keptAsText_succ_of_some _ h]

end Entry

namespace Signature

theorem ofOutline_eq_truncate (levels : Nat) (o : Outline) :
    ofOutline levels o = (ofOutlineUnlimited o).truncate levels :=
  ofOutline_of_tokens (Entry.ofToken_eq_truncate levels) o

theorem notices_of_outline {t : Text} {o : Outline} (h : Outline.of? t = some o) :
    notices t = List.replicate ((ofOutlineUnlimited o).functionsBelow nestingLimit)
      (.nestedDeeperThan nestingLimit) := by
  rw [← keptAsText_of_tokens (Entry.keptAsText_eq_functionsBelow nestingLimit), ← List.sum_append,
    ← List.map_append, notices, h]
  rfl

end Signature
end CompletionSnippets
