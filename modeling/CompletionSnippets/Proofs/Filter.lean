import CompletionSnippets.Filter
import CompletionSnippets.Proofs.Trimming

/-!
# Filters of several terms

A bar between two filters means "or". A filter without a bar takes its text as it is, and one
with bars takes the trimmed parts between them; the two ways agree on a text that is trimmed
and not empty, so such texts may stand alone or between bars. Blank parts add no term, and a
term that is not blank never occurs in the empty name.
-/
namespace CompletionSnippets.Filter

/-- The text asks for the same alone and between bars. -/
def Joinable (written : Text) : Prop :=
  '|' ∈ written ∨ written ≠ [] ∧ written.trim = written

instance (written : Text) : Decidable (Joinable written) :=
  inferInstanceAs (Decidable (_ ∨ _))

/-- The parts between the bars of a text. -/
def partsOf (written : Text) : List Text := written.splitOn '|'

theorem mem_termsOf {written t : Text} :
    t ∈ termsOf written ↔ ∃ part ∈ partsOf written, ¬ part.isAllBlank ∧ part.trim = t := by
  rw [termsOf, List.mem_filter, List.mem_map, Bool.not_eq_true', List.isEmpty_eq_false_iff]
  constructor
  · rintro ⟨⟨part, hpart, rfl⟩, hne⟩
    exact ⟨part, hpart, fun hblank => hne (Text.isAllBlank_iff_trim.mp hblank), rfl⟩
  · rintro ⟨part, hpart, hblank, rfl⟩
    exact ⟨⟨part, hpart, rfl⟩, fun hnil => hblank (Text.isAllBlank_iff_trim.mpr hnil)⟩

theorem termsOf_eq_nil_iff {written : Text} :
    termsOf written = [] ↔ ∀ part ∈ partsOf written, part.isAllBlank := by
  rw [List.eq_nil_iff_forall_not_mem]
  constructor
  · intro h part hpart
    by_contra hblank
    exact h part.trim (mem_termsOf.mpr ⟨part, hpart, hblank, rfl⟩)
  · intro h t ht
    obtain ⟨part, hpart, hblank, -⟩ := mem_termsOf.mp ht
    exact hblank (h part hpart)

/-- The terms on the two sides of a bar are found apart. -/
theorem termsOf_append (p q : Text) : termsOf (p ++ '|' :: q) = termsOf p ++ termsOf q := by
  rw [termsOf, List.splitOn_append_cons_self, List.map_append, List.filter_append]
  rfl

theorem termsOf_of_trimmed {t : Text} (hbar : '|' ∉ t) (hne : t ≠ []) (htrim : t.trim = t) :
    termsOf t = [t] := by
  have hsplit : t.splitOn '|' = [t] := by
    apply List.splitOnP_eq_singleton
    intro c hc
    rw [beq_eq_false_iff_ne]
    rintro rfl
    exact hbar hc
  rw [termsOf, hsplit, List.map_singleton, htrim, List.filter_singleton,
    List.isEmpty_eq_false_iff.mpr hne]
  rfl

variable {engine : PatternEngine}

theorem build_of_bar {written : Text} (h : '|' ∈ written) :
    build engine written false =
      if (termsOf written).isEmpty then .error .noTerm else .ok (.terms (termsOf written)) := by
  simp [build, h]

theorem build_of_noBar {written : Text} (h : '|' ∉ written) :
    build engine written false = .ok (.literal written) := by
  simp [build, h]

theorem build_eq_error_iff {written : Text} (h : '|' ∈ written) {fault : FilterFault} :
    build engine written false = .error fault ↔
      fault = .noTerm ∧ ∀ part ∈ partsOf written, part.isAllBlank := by
  rw [build_of_bar h, ← termsOf_eq_nil_iff, ← List.isEmpty_iff]
  split
  · rename_i hnil
    simp [hnil, eq_comm]
  · rename_i hne
    simp [hne]

/-- The text makes no filter, and these words say why: the engine refuses it as a pattern, or it has
bars and nothing but blanks between them. -/
inductive Unbuildable (engine : PatternEngine) (written : Text) : Bool → Text → Prop
  | noPattern {words : Text} : engine written = .error words →
    Unbuildable engine written true ("Invalid regex: ".toList ++ words)
  | noTerm : '|' ∈ written → (∀ part ∈ partsOf written, part.isAllBlank) →
    Unbuildable engine written false "Empty filter pattern".toList

theorem Unbuildable.unique {written words words' : Text} {isPattern : Bool}
    (h : Unbuildable engine written isPattern words)
    (h' : Unbuildable engine written isPattern words') : words = words' := by
  cases h with
  | noPattern hrefused =>
    cases h' with
    | noPattern hrefused' => rw [Except.error.inj (hrefused.symm.trans hrefused')]
  | noTerm => cases h'; rfl

theorem unbuildable_iff {written words : Text} {isPattern : Bool} :
    Unbuildable engine written isPattern words ↔
      ∃ fault, build engine written isPattern = .error fault ∧ fault.message = words := by
  constructor
  · rintro (hrefused | ⟨hbar, hblank⟩)
    · exact ⟨.noPattern _, by simp [build, hrefused], rfl⟩
    · exact ⟨.noTerm, (build_eq_error_iff hbar).mpr ⟨rfl, hblank⟩, rfl⟩
  · rintro ⟨fault, hbuild, rfl⟩
    cases isPattern with
    | true =>
      cases hengine : engine written with
      | ok occursIn => simp [build, hengine] at hbuild
      | error words =>
        obtain rfl : FilterFault.noPattern words = fault := by simpa [build, hengine] using hbuild
        exact .noPattern hengine
    | false =>
      by_cases hbar : '|' ∈ written
      · obtain ⟨rfl, hblank⟩ := (build_eq_error_iff hbar).mp hbuild
        exact .noTerm hbar hblank
      · rw [build_of_noBar hbar] at hbuild
        contradiction

/-- A filter that is built from a joinable text keeps the names that hold one of its terms. -/
theorem Joinable.keeps_eq {written : Text} (h : Joinable written) {f : Filter}
    (hf : build engine written false = .ok f) (name : Text) :
    f.keeps name = (termsOf written).any (holdsTerm name) := by
  by_cases hbar : '|' ∈ written
  · rw [build_of_bar hbar] at hf
    split at hf
    · cases hf
    · obtain rfl := Except.ok.inj hf
      rfl
  · obtain ⟨hne, htrim⟩ := h.resolve_left hbar
    rw [build_of_noBar hbar] at hf
    obtain rfl := Except.ok.inj hf
    rw [termsOf_of_trimmed hbar hne htrim, List.any_cons, List.any_nil, Bool.or_false]
    rfl

theorem Joinable.termsOf_ne_nil {written : Text} (h : Joinable written) {f : Filter}
    (hf : build engine written false = .ok f) : termsOf written ≠ [] := by
  by_cases hbar : '|' ∈ written
  · intro hnil
    rw [build_of_bar hbar, hnil] at hf
    cases hf
  · obtain ⟨hne, htrim⟩ := h.resolve_left hbar
    rw [termsOf_of_trimmed hbar hne htrim]
    exact List.cons_ne_nil written []

theorem holdsTerm_iff {name term : Text} :
    holdsTerm name term ↔ term.lowerAscii <:+: name.lowerAscii :=
  Text.occursIn_iff_isInfix

theorem holdsTerm_nil {term : Text} (h : term ≠ []) : holdsTerm [] term = false := by
  rw [← Bool.not_eq_true, holdsTerm_iff]
  intro hinfix
  exact h (List.map_eq_nil_iff.mp (List.infix_nil.mp hinfix))

theorem keeps_iff_of_bar {written : Text} (h : '|' ∈ written) {f : Filter}
    (hf : build engine written false = .ok f) (name : Text) :
    f.keeps name ↔ ∃ part ∈ partsOf written, ¬ part.isAllBlank ∧ holdsTerm name part.trim := by
  rw [Joinable.keeps_eq (.inl h) hf, List.any_eq_true]
  constructor
  · rintro ⟨t, ht, hholds⟩
    obtain ⟨part, hpart, hblank, rfl⟩ := mem_termsOf.mp ht
    exact ⟨part, hpart, hblank, hholds⟩
  · rintro ⟨part, hpart, hblank, hholds⟩
    exact ⟨part.trim, mem_termsOf.mpr ⟨part, hpart, hblank, rfl⟩, hholds⟩

/-- Two filters with a bar between them keep what one of them keeps. A text with a bar is refused
just when all parts between its bars are blank, and else keeps what holds one of the others, so
never every name. -/
theorem build_joined :
    (∀ engine, ∀ p q : Text, ∀ f g : Filter, Joinable p → Joinable q →
      build engine p false = .ok f → build engine q false = .ok g →
      ∃ h, build engine (p ++ '|' :: q) false = .ok h ∧
        ∀ name, h.keeps name = (f.keeps name || g.keeps name)) ∧
    FilterFault.noTerm.message = "Empty filter pattern".toList ∧
    ∀ engine, ∀ written : Text, '|' ∈ written →
      (∀ fault, build engine written false = .error fault ↔
        fault = .noTerm ∧ ∀ part ∈ partsOf written, part.isAllBlank) ∧
      ∀ f, build engine written false = .ok f → f.keeps [] = false ∧
        ∀ name, f.keeps name ↔ ∃ part ∈ partsOf written,
          ¬ part.isAllBlank ∧ part.trim.lowerAscii <:+: name.lowerAscii := by
  refine ⟨fun engine p q f g hp hq hf hg => ?_, rfl, fun engine written hbar =>
    ⟨fun fault => build_eq_error_iff hbar, fun f hf => ⟨?_, fun name => ?_⟩⟩⟩
  · have hbar : '|' ∈ p ++ '|' :: q := List.mem_append_right p List.mem_cons_self
    have hne : termsOf (p ++ '|' :: q) ≠ [] := by
      rw [termsOf_append]
      exact List.append_ne_nil_of_left_ne_nil (hp.termsOf_ne_nil hf) _
    have hbuild : build engine (p ++ '|' :: q) false =
        .ok (.terms (termsOf (p ++ '|' :: q))) := by
      rw [build_of_bar hbar, if_neg (mt List.isEmpty_iff.mp hne)]
    refine ⟨_, hbuild, fun name => ?_⟩
    rw [Joinable.keeps_eq (.inl hbar) hbuild, termsOf_append, List.any_append, hp.keeps_eq hf,
      hq.keeps_eq hg]
  · rw [← Bool.not_eq_true, keeps_iff_of_bar hbar hf]
    rintro ⟨part, -, hblank, hholds⟩
    rw [holdsTerm_nil (mt Text.isAllBlank_iff_trim.mpr hblank)] at hholds
    contradiction
  · simp only [keeps_iff_of_bar hbar hf, holdsTerm_iff]

/-- The engine for patterns of letters alone, which occur where they stand. -/
def letters : PatternEngine := fun written =>
  if written.all Char.isAlpha then .ok written.occursIn else .error "no letter".toList

def spaced : Text := "Print| |\u3000scan\t".toList

theorem build_joined_spaced :
    Joinable spaced ∧ Joinable ['é', ' ', 'F'] ∧
      build letters spaced false = .ok (.terms ["Print".toList, "scan".toList]) ∧
      build letters ['é', ' ', 'F'] false = .ok (.literal ['é', ' ', 'F']) ∧
      (∃ h, build letters (spaced ++ '|' :: ['é', ' ', 'F']) false = .ok h ∧
        ∀ name, h.keeps name = ((terms ["Print".toList, "scan".toList]).keeps name ||
          (literal ['é', ' ', 'F']).keeps name)) ∧
      build letters " |\u3000| ".toList false = .error .noTerm := by
  have hspaced : Joinable spaced := by decide
  have hterm : Joinable ['é', ' ', 'F'] := by decide
  have hbuild : build letters spaced false = .ok (.terms ["Print".toList, "scan".toList]) := rfl
  have hliteral : build letters ['é', ' ', 'F'] false = .ok (.literal ['é', ' ', 'F']) := rfl
  have hblank : ∀ part ∈ partsOf " |\u3000| ".toList, part.isAllBlank := by decide
  obtain ⟨hjoin, -, hbar⟩ := build_joined
  exact ⟨hspaced, hterm, hbuild, hliteral, hjoin letters _ _ _ _ hspaced hterm hbuild hliteral,
    ((hbar letters _ (by decide)).1 .noTerm).mpr ⟨rfl, hblank⟩⟩

end CompletionSnippets.Filter
