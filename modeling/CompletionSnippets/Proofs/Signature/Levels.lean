import CompletionSnippets.Proofs.Signature.RoundTrip

/-!
# The limit of nesting

Reading with the limit and reading to any depth differ at one level only, the one behind the
256th: a function type that stands there is kept as text, and each of them is noticed. A tower of
function types, each the only parameter of the next, is read whole as long as no more than 256 of
them stand below the outermost.
-/
namespace CompletionSnippets.Signature

theorem nestingLimit_eq : nestingLimit = 256 := rfl

/-- Reading with the nesting limit fails where reading to any depth fails, and otherwise
gives the truncation of its result, with one notice for each function type that the
truncation replaces. -/
theorem read_eq_truncate (t : Text) :
    match readUnlimited t with
    | .error e => read t = .error e ∧ notices t = []
    | .ok s =>
      read t = .ok (s.truncate 256) ∧
      notices t = List.replicate (s.functionsBelow 256) (.nestedDeeperThan 256) ∧
      (notices t = [] ↔ read t = .ok s) ∧
      (s.truncate 256).depth ≤ 256 := by
  cases h : Outline.of? t with
  | none => simp [readUnlimited, read, ofText?, notices, h]
  | some o =>
    have hread : read t = .ok ((ofOutlineUnlimited o).truncate 256) := by
      simp only [read, ofText?, h, Option.map_some, ofOutline_eq_truncate, nestingLimit_eq]
    have hnotices := notices_of_outline h
    rw [nestingLimit_eq] at hnotices
    simp only [readUnlimited, h]
    refine ⟨hread, hnotices, ?_, depth_truncate_le _ _⟩
    rw [hnotices, hread, List.replicate_eq_nil_iff, Except.ok.injEq, truncate_eq_self_iff]

/-- Function types that take one another, the given number of them below the outermost. -/
def tower : Nat → Grammar.Func
  | 0 => .mk [] .none
  | n + 1 => .mk [.func none (tower n)] .none

theorem functionsBelow_tower (levels n : Nat) :
    (tower n).signature.functionsBelow levels = if levels < n then 1 else 0 := by
  induction n generalizing levels with
  | zero => rfl
  | succ n ih =>
    cases levels with
    | zero => rfl
    | succ levels =>
      have hbelow : (tower (n + 1)).signature.functionsBelow (levels + 1) =
          (tower n).signature.functionsBelow levels := rfl
      simp only [hbelow, ih, Nat.add_lt_add_iff_right]

theorem readUnlimited_print (f : Grammar.Func) : readUnlimited f.print = .ok f.signature := by
  simp only [readUnlimited, f.of?_print, f.read_outline]

theorem read_eq_truncate_tower :
    readUnlimited (tower 257).print = .ok (tower 257).signature ∧
      read (tower 257).print = .ok ((tower 257).signature.truncate 256) ∧
      notices (tower 257).print = [.nestedDeeperThan 256] ∧
      read (tower 257).print ≠ .ok (tower 257).signature ∧
      read (tower 256).print = .ok (tower 256).signature ∧ notices (tower 256).print = [] := by
  have hone : (tower 257).signature.functionsBelow 256 = 1 := by
    rw [functionsBelow_tower, if_pos (by decide)]
  have hnone : (tower 256).signature.functionsBelow 256 = 0 := by
    rw [functionsBelow_tower, if_neg (by decide)]
  -- nothing but these counts is needed of the towers, and nothing should be evaluated
  generalize tower 257 = deep at hone ⊢
  generalize tower 256 = whole at hnone ⊢
  have hdeep := read_eq_truncate deep.print
  rw [readUnlimited_print] at hdeep
  obtain ⟨hread, hnotices, hiff, -⟩ := hdeep
  rw [hone] at hnotices
  have hwhole := read_eq_truncate whole.print
  rw [readUnlimited_print] at hwhole
  obtain ⟨-, hnothing, hsame, -⟩ := hwhole
  rw [hnone] at hnothing
  refine ⟨readUnlimited_print deep, hread, hnotices, fun hdeepSame => ?_, hsame.mp hnothing,
    hnothing⟩
  rw [hiff.mpr hdeepSame] at hnotices
  contradiction

end CompletionSnippets.Signature
