import CompletionSnippets.Proofs.Candidate.FieldLines
import Mathlib.Data.List.Infix

/-!
# Rows that are no candidates

A row is bad when it is not blank and its line lacks a mark behind the category or behind
the name, or lacks one of these two fields. The marks are counted from the left, so that of
three commas in a row the first two are the mark.

A text with a bad row is refused as a whole, and the first of its bad rows is named, by its
text and by its number, whatever stands behind it. In a text without bad rows every row that
is not blank is one candidate.
-/
namespace CompletionSnippets
open Text

namespace Candidate

/-- The number of marks in the text, counted from the left; no two of them overlap. -/
def markCount : Text → Nat
  | [] => 0
  | ',' :: ',' :: rest => markCount rest + 1
  | _ :: rest => markCount rest

/-- The line of the row has less than two marks, or nothing before the first of them, or
nothing between the first two. -/
def BadRow (row : Text) : Prop :=
  ¬ row.isAllBlank ∧
    (markCount (trim row) < 2 ∨ fieldMark <+: trim row ∨
      ∃ field ∈ (trim row).inits, Cuttable field ∧ field ++ fieldMark ++ fieldMark <+: trim row)

instance (row : Text) : Decidable (BadRow row) := inferInstanceAs (Decidable (_ ∧ _))

/-- The row is the first bad one of the text, and `before` and `behind` is what stands around
it, the ends of its neighbours included. -/
structure FirstBad (t before row behind : Text) : Prop where
  text : t = before ++ row ++ behind
  start : before = [] ∨ ['\n'] <:+ before
  oneRow : '\n' ∉ row
  stop : behind = [] ∨ ['\n'] <+: behind
  bad : BadRow row
  first : ∀ r ∈ before.splitOn '\n', ¬ BadRow r

theorem markCount_eq (before t : Text) :
    markCount t = match breakAtCommas? before t with
      | none => 0
      | some (_, rest) => markCount rest + 1 := by
  fun_induction breakAtCommas? before t with
  | case1 => rfl
  | case2 => rfl
  | case3 before c t hnext ih => rw [markCount.eq_3 _ _ hnext, ih]

theorem markCount_of_none {t : Text} (h : breakAtCommas? [] t = none) : markCount t = 0 := by
  rw [markCount_eq [], h]

theorem markCount_of_some {t field rest : Text} (h : breakAtCommas? [] t = some (field, rest)) :
    markCount t = markCount rest + 1 := by
  rw [markCount_eq [], h]

theorem cuttable_nil : Cuttable [] := by decide

theorem Cuttable.cons {c : Char} {field rest : Text} (h : Cuttable field)
    (hnext : ∀ r, c = ',' → field ++ (fieldMark ++ rest) ≠ ',' :: r) : Cuttable (c :: field) := by
  constructor
  · intro hmark
    rcases List.infix_cons_iff.mp hmark with ⟨r, hfront⟩ | hmark
    · obtain ⟨rfl, rfl⟩ := List.cons.inj hfront
      exact hnext _ rfl rfl
    · exact h.noMark hmark
  · intro hlast
    cases field with
    | nil =>
      obtain rfl : c = ',' := Option.some.inj hlast
      exact hnext _ rfl rfl
    | cons d field =>
      rw [List.getLast?_cons_cons] at hlast
      exact h.noComma hlast

theorem cuttable_of_breakAtCommas? {before t field rest : Text}
    (h : breakAtCommas? before t = some (field, rest)) :
    ∃ w, field = before.reverse ++ w ∧ t = w ++ (fieldMark ++ rest) ∧ Cuttable w := by
  fun_induction breakAtCommas? before t with
  | case1 => simp at h
  | case2 before rest' =>
    obtain ⟨rfl, rfl⟩ := Prod.mk.inj (Option.some.inj h)
    exact ⟨[], by simp, rfl, cuttable_nil⟩
  | case3 before c t hnext ih =>
    obtain ⟨w, rfl, rfl, hw⟩ := ih h
    exact ⟨c :: w, by simp, rfl, hw.cons hnext⟩

/-- A field is cut off just before the first mark. -/
theorem breakAtCommas?_iff {t field rest : Text} :
    breakAtCommas? [] t = some (field, rest) ↔
      t = field ++ (fieldMark ++ rest) ∧ Cuttable field := by
  constructor
  · intro h
    obtain ⟨w, rfl, ht, hw⟩ := cuttable_of_breakAtCommas? h
    exact ⟨ht, hw⟩
  · rintro ⟨rfl, hfield⟩
    exact breakAtCommas?_append hfield [] rest

/-- The line holds a category and a name, with a mark behind each. -/
structure Parted (line category name rest : Text) : Prop where
  text : line = category ++ (fieldMark ++ (name ++ (fieldMark ++ rest)))
  category : Cuttable category
  name : Cuttable name

section Line
variable {line category name rest : Text} {c : Candidate}

theorem Parted.breakAtCommas? (h : Parted line category name rest) :
    breakAtCommas? [] line = some (category, name ++ (fieldMark ++ rest)) :=
  breakAtCommas?_iff.mpr ⟨h.text, h.category⟩

theorem Parted.breakAtCommas?_behind (h : Parted line category name rest) :
    Candidate.breakAtCommas? [] (name ++ (fieldMark ++ rest)) = some (name, rest) :=
  breakAtCommas?_iff.mpr ⟨rfl, h.name⟩

theorem two_le_markCount_iff :
    2 ≤ markCount line ↔ ∃ category name rest, Parted line category name rest := by
  constructor
  · intro h
    cases hline : Candidate.breakAtCommas? [] line with
    | none =>
      rw [markCount_of_none hline] at h
      omega
    | some parts =>
      obtain ⟨category, behind⟩ := parts
      rw [markCount_of_some hline] at h
      cases hbehind : Candidate.breakAtCommas? [] behind with
      | none =>
        rw [markCount_of_none hbehind] at h
        omega
      | some parts =>
        obtain ⟨name, rest⟩ := parts
        obtain ⟨rfl, hcategory⟩ := breakAtCommas?_iff.mp hline
        obtain ⟨rfl, hname⟩ := breakAtCommas?_iff.mp hbehind
        exact ⟨category, name, rest, rfl, hcategory, hname⟩
  · rintro ⟨category, name, rest, h⟩
    rw [markCount_of_some h.breakAtCommas?, markCount_of_some h.breakAtCommas?_behind]
    omega

theorem Parted.mark_prefix_iff (h : Parted line category name rest) :
    fieldMark <+: line ↔ category = [] := by
  constructor
  · rintro ⟨r, rfl⟩
    have hfirst : Candidate.breakAtCommas? [] (fieldMark ++ r) = some ([], r) := rfl
    rw [h.breakAtCommas?] at hfirst
    exact (Prod.mk.inj (Option.some.inj hfirst)).1
  · rintro rfl
    exact ⟨_, h.text.symm⟩

theorem Parted.two_marks_iff (h : Parted line category name rest) :
    (∃ field ∈ line.inits, Cuttable field ∧ field ++ fieldMark ++ fieldMark <+: line) ↔
      name = [] := by
  constructor
  · rintro ⟨field, -, hfield, r, rfl⟩
    have hfirst : Candidate.breakAtCommas? [] (field ++ fieldMark ++ fieldMark ++ r) =
        some (field, fieldMark ++ r) := breakAtCommas?_iff.mpr ⟨by simp, hfield⟩
    rw [h.breakAtCommas?] at hfirst
    have hname := h.breakAtCommas?_behind
    have hempty : Candidate.breakAtCommas? [] (fieldMark ++ r) = some ([], r) := rfl
    rw [(Prod.mk.inj (Option.some.inj hfirst)).2, hempty] at hname
    exact (Prod.mk.inj (Option.some.inj hname)).1.symm
  · rintro rfl
    refine ⟨category, ?_, h.category, rest, ?_⟩
    · rw [List.mem_inits, h.text]
      exact List.prefix_append _ _
    · rw [h.text]
      simp

/-- A row is not bad when it is blank or category and name are there. -/
theorem badRow_iff {row : Text} :
    BadRow row ↔ ¬ row.isAllBlank ∧
      ∀ category name rest, Parted (trim row) category name rest → category = [] ∨ name = [] := by
  refine and_congr_right fun _ => ?_
  constructor
  · intro hbad category name rest h
    have hcount : ¬ markCount (trim row) < 2 := by
      rw [Nat.not_lt, two_le_markCount_iff]
      exact ⟨category, name, rest, h⟩
    rw [← h.mark_prefix_iff, ← h.two_marks_iff]
    exact hbad.resolve_left hcount
  · intro hall
    by_cases hcount : markCount (trim row) < 2
    · exact .inl hcount
    · rw [Nat.not_lt, two_le_markCount_iff] at hcount
      obtain ⟨category, name, rest, h⟩ := hcount
      rw [h.mark_prefix_iff, h.two_marks_iff]
      exact .inr (hall category name rest h)

theorem exists_of_fields {cuts : Nat} {a b : Text} {more : List Text}
    (h : fields (cuts + 1) line = a :: b :: more) :
    ∃ behind, Candidate.breakAtCommas? [] line = some (a, behind) ∧
      fields cuts behind = b :: more := by
  unfold fields at h
  cases hline : Candidate.breakAtCommas? [] line with
  | none => simp [hline] at h
  | some parts =>
    rw [hline] at h
    obtain ⟨rfl, hmore⟩ := List.cons.inj h
    exact ⟨parts.2, rfl, hmore⟩

theorem parted_of_ofLine? (h : ofLine? line = some c) :
    c.category ≠ [] ∧ c.name ≠ [] ∧ ∃ rest, Parted line c.category c.name rest := by
  obtain ⟨hfields, hfilled⟩ := Option.filter_eq_some_iff.mp h
  have hlist : ∃ x more, fields 3 line = c.category :: c.name :: x :: more := by
    split at hfields
    · rename_i hlist
      obtain rfl := Option.some.inj hfields
      exact ⟨_, _, hlist⟩
    · rename_i hlist
      obtain rfl := Option.some.inj hfields
      exact ⟨_, _, hlist⟩
    · contradiction
  obtain ⟨x, more, hlist⟩ := hlist
  obtain ⟨behind, hfirst, hmore⟩ := exists_of_fields hlist
  obtain ⟨rest, hsecond, -⟩ := exists_of_fields hmore
  obtain ⟨rfl, hcategory⟩ := breakAtCommas?_iff.mp hfirst
  obtain ⟨rfl, hname⟩ := breakAtCommas?_iff.mp hsecond
  simp only [Bool.and_eq_true, Bool.not_eq_true', List.isEmpty_eq_false_iff] at hfilled
  exact ⟨hfilled.1, hfilled.2, rest, rfl, hcategory, hname⟩

theorem not_mark_of_breakAtCommas? {before t : Text}
    (h : Candidate.breakAtCommas? before t = none) : ¬ fieldMark <:+: t := by
  fun_induction Candidate.breakAtCommas? before t with
  | case1 => decide
  | case2 => contradiction
  | case3 before c t hnext ih =>
    intro hmark
    rcases List.infix_cons_iff.mp hmark with ⟨r, hfront⟩ | hmark
    · obtain ⟨rfl, rfl⟩ := List.cons.inj hfront
      exact hnext _ rfl rfl
    · exact ih h hmark

/-- A trimmed line with a category and a name is written for a candidate. -/
theorem Parted.exists_lineOf (h : Parted line category name rest) (hline : trim line = line)
    (hrow : '\n' ∉ line) (hcategory : category ≠ []) (hname : name ≠ []) :
    ∃ c : Candidate, c.FitsLine ∧ LineOf c line := by
  have htext := h.text
  obtain ⟨hstart, hend⟩ := trim_eq_self_iff.mp hline
  have hcategoryStart : trimStart category = category := by
    refine trimStart_eq_self_of_isPrefix ?_ hstart
    rw [htext]
    exact List.prefix_append _ _
  cases hrest : Candidate.breakAtCommas? [] rest with
  | none =>
    have hlast : trimEnd rest = rest := by
      refine trimEnd_eq_self_of_isSuffix ⟨category ++ fieldMark ++ name ++ fieldMark, ?_⟩ hend
      rw [htext]
      simp
    have hwritten : line = joinWith fieldMark [category, name, rest] := by
      rw [htext, joinWith_fields, joinWith_singleton]
    refine ⟨{ category, name, type := rest }, ?_, ?_⟩
    · refine ⟨hcategory, hname, h.category, h.name, not_mark_of_breakAtCommas? hrest,
        hcategoryStart, ?_⟩
      rw [htext] at hrow
      simp_all
    · rw [hwritten]
      exact .withoutPackage rfl hlast
  | some parts =>
    obtain ⟨type, package⟩ := parts
    obtain ⟨rfl, htype⟩ := breakAtCommas?_iff.mp hrest
    have hlast : trimEnd package = package := by
      refine trimEnd_eq_self_of_isSuffix
        ⟨category ++ fieldMark ++ name ++ fieldMark ++ type ++ fieldMark, ?_⟩ hend
      rw [htext]
      simp
    have hwritten : line = joinWith fieldMark [category, name, type, package] := by
      rw [htext, joinWith_fields, joinWith_cons_cons, joinWith_singleton]
    refine ⟨{ category, name, type, package }, ?_, ?_⟩
    · refine ⟨hcategory, hname, h.category, h.name, htype.noMark, hcategoryStart, ?_⟩
      rw [htext] at hrow
      simp_all
    · rw [hwritten]
      exact .withPackage htype.noComma hlast

/-- What a row that is not blank comes to: no candidate when it is bad, else one for which
its line is written. -/
theorem ofLine?_cases {row : Text} (hblank : ¬ row.isAllBlank) (hrow : '\n' ∉ row) :
    (BadRow row ∧ ofLine? (trim row) = none) ∨
      (¬ BadRow row ∧ ∃ c, ofLine? (trim row) = some c ∧ c.FitsLine ∧ LineOf c (trim row)) := by
  by_cases hbad : BadRow row
  · refine .inl ⟨hbad, ?_⟩
    rw [Option.eq_none_iff_forall_ne_some]
    intro c hc
    obtain ⟨hcategory, hname, rest, hparted⟩ := parted_of_ofLine? hc
    rcases (badRow_iff.mp hbad).2 _ _ rest hparted with hempty | hempty
    · exact hcategory hempty
    · exact hname hempty
  · refine .inr ⟨hbad, ?_⟩
    rw [badRow_iff, not_and] at hbad
    have hgood := hbad hblank
    push Not at hgood
    obtain ⟨category, name, rest, hparted, hcategory, hname⟩ := hgood
    have htrimmed : '\n' ∉ trim row := fun hmem => hrow ((trim_isInfix row).subset hmem)
    obtain ⟨c, hc, hline⟩ := hparted.exists_lineOf (trim_trim row) htrimmed hcategory hname
    exact ⟨c, ofLine?_eq_some hc hline, hc, hline⟩

end Line

/-- A text is one row, or a row with its end and another text behind it. -/
theorem rowInduction {motive : Text → Prop} (last : ∀ row, '\n' ∉ row → motive row)
    (more : ∀ row t, '\n' ∉ row → motive t → motive (row ++ '\n' :: t)) (t : Text) :
    motive t := by
  induction hlength : t.length using Nat.strong_induction_on generalizing t with
  | _ n ih =>
    by_cases hmem : '\n' ∈ t
    · obtain ⟨row, rest, rfl, hrow⟩ := List.eq_append_cons_of_mem hmem
      rw [List.length_append, List.length_cons] at hlength
      exact more row rest hrow (ih rest.length (by omega) rest rfl)
    · exact last t hmem

theorem lineFeed_not_mem_of_mem_splitOn {t row : Text} (h : row ∈ t.splitOn '\n') :
    '\n' ∉ row := by
  induction t using rowInduction with
  | last t ht =>
    rw [List.splitOn_eq_singleton ht, List.mem_singleton] at h
    rwa [h]
  | more first t hfirst ih =>
    rw [List.splitOn_append_cons_self_of_not_mem hfirst] at h
    rcases List.mem_cons.mp h with rfl | h
    · exact hfirst
    · exact ih h

theorem length_splitOn_lineFeed (t : Text) : (t.splitOn '\n').length = t.count '\n' + 1 := by
  induction t using rowInduction with
  | last t ht => rw [List.splitOn_eq_singleton ht, List.count_eq_zero_of_not_mem ht]; rfl
  | more first t hfirst ih =>
    rw [List.splitOn_append_cons_self_of_not_mem hfirst, List.length_cons, ih, List.count_append,
      List.count_cons_self, List.count_eq_zero_of_not_mem hfirst, Nat.zero_add]

theorem not_badRow_nil : ¬ BadRow [] := by decide

theorem exists_firstBad {t row : Text} (h : row ∈ t.splitOn '\n') (hbad : BadRow row) :
    ∃ before row behind, FirstBad t before row behind := by
  have hnone : ∀ r ∈ ([] : Text).splitOn '\n', ¬ BadRow r := by
    rw [List.splitOn_nil, List.forall_mem_singleton]
    exact not_badRow_nil
  induction t using rowInduction with
  | last t ht =>
    rw [List.splitOn_eq_singleton ht, List.mem_singleton] at h
    subst h
    exact ⟨[], row, [], by simp, .inl rfl, ht, .inl rfl, hbad, hnone⟩
  | more first t hfirst ih =>
    rw [List.splitOn_append_cons_self_of_not_mem hfirst] at h
    by_cases hbadFirst : BadRow first
    · exact ⟨[], first, '\n' :: t, rfl, .inl rfl, hfirst, .inr ⟨t, rfl⟩, hbadFirst, hnone⟩
    rcases List.mem_cons.mp h with rfl | h
    · exact absurd hbad hbadFirst
    · obtain ⟨before, row, behind, hrest⟩ := ih h
      refine ⟨first ++ '\n' :: before, row, behind, ?_, .inr ?_, hrest.oneRow, hrest.stop,
        hrest.bad, ?_⟩
      · rw [hrest.text]
        simp
      · rcases hrest.start with rfl | hstart
        · exact List.suffix_append first _
        · exact hstart.trans ⟨first ++ ['\n'], by simp⟩
      · rw [List.splitOn_append_cons_self_of_not_mem hfirst, List.forall_mem_cons]
        exact ⟨hbadFirst, hrest.first⟩

/-- The rows of a text with a bad one: those before it are as many as their ends. -/
theorem FirstBad.exists_rows {t before row behind : Text} (h : FirstBad t before row behind) :
    ∃ front back, t.splitOn '\n' = front ++ row :: back ∧ front.length = before.count '\n' ∧
      ∀ r ∈ front, ¬ BadRow r := by
  have hback : ∃ back, (row ++ behind).splitOn '\n' = row :: back := by
    rcases h.stop with rfl | ⟨t, rfl⟩
    · rw [List.append_nil]
      exact ⟨[], List.splitOn_eq_singleton h.oneRow⟩
    · exact ⟨_, List.splitOn_append_cons_self_of_not_mem h.oneRow t⟩
  obtain ⟨back, hback⟩ := hback
  have htext := h.text
  have hfirst := h.first
  rw [List.append_assoc] at htext
  rcases h.start with rfl | ⟨x, rfl⟩
  · rw [htext]
    exact ⟨[], back, hback, rfl, by simp⟩
  · rw [List.append_assoc, List.singleton_append] at htext
    rw [List.splitOn_append_cons_self, List.forall_mem_append] at hfirst
    refine ⟨x.splitOn '\n', back, ?_, ?_, hfirst.1⟩
    · rw [htext, List.splitOn_append_cons_self, hback]
    · rw [length_splitOn_lineFeed, List.count_append, List.count_singleton_self]

def filled (rows : List Text) : List Text := rows.filter fun row => !row.isAllBlank

/-- Rows that are not bad are taken in, one candidate for each that is not blank, and what
is behind them decides on the rest. -/
theorem ofLines_append {front : List Text} (hfront : ∀ row ∈ front, '\n' ∉ row ∧ ¬ BadRow row) :
    ∃ cs, List.Forall₂ (fun row c => c.FitsLine ∧ LineOf c (trim row)) (filled front) cs ∧
      ∀ number rows, ofLines number (front ++ rows) =
        (ofLines (number + front.length) rows).map (cs ++ ·) := by
  induction front with
  | nil =>
    refine ⟨[], .nil, fun number rows => ?_⟩
    show ofLines number rows = (ofLines number rows).map id
    cases ofLines number rows <;> rfl
  | cons row front ih =>
    obtain ⟨⟨hrow, hgood⟩, hfront⟩ := List.forall_mem_cons.mp hfront
    obtain ⟨cs, hcs, happend⟩ := ih hfront
    have hnumber : ∀ number, number + 1 + front.length = number + (row :: front).length := by
      intro number
      rw [List.length_cons]
      omega
    by_cases hblank : row.isAllBlank
    · refine ⟨cs, by simpa [filled, hblank] using hcs, fun number rows => ?_⟩
      rw [List.cons_append, ofLines_blank (isAllBlank_iff_trim.mp hblank), happend, hnumber]
    · rcases ofLine?_cases hblank hrow with ⟨hbad, -⟩ | ⟨-, c, -, hc, hline⟩
      · exact absurd hbad hgood
      · have hfilled : filled (row :: front) = row :: filled front := by simp [filled, hblank]
        refine ⟨c :: cs, ?_, fun number rows => ?_⟩
        · rw [hfilled]
          exact .cons ⟨hc, hline⟩ hcs
        · rw [List.cons_append, ofLines_line hc hline (trim_trim row).symm, happend, hnumber]
          cases ofLines (number + (row :: front).length) rows <;> rfl

theorem ofLines_badRow {row : Text} (h : BadRow row) (hrow : '\n' ∉ row) (number : Nat)
    (rows : List Text) :
    ofLines number (row :: rows) = .error { number, text := trim row } := by
  have hempty : (trim row).isEmpty = false := by
    rw [List.isEmpty_eq_false_iff, Ne, ← isAllBlank_iff_trim]
    exact h.1
  rcases ofLine?_cases h.1 hrow with ⟨-, hnone⟩ | ⟨hgood, -⟩
  · simp only [ofLines, hempty, hnone, Bool.false_eq_true, if_false]
  · exact absurd h hgood

end Candidate

namespace Reply

/-- The first bad row of a text is named, whatever is behind it, by its line and by the
number of line feeds before it; and a text without one is taken in, one candidate for each
row that is not blank in their order, unless it only reports a crash. -/
theorem ofText_fieldLines (t : Text) :
    (∀ before row behind, Candidate.FirstBad t before row behind →
      ofText .fieldLines t =
        .error (.badLine { number := 1 + before.count '\n', text := trim row })) ∧
    ((∀ before row behind, ¬ Candidate.FirstBad t before row behind) →
      ∃ cs, List.Forall₂ (fun row c => c.FitsLine ∧ Candidate.LineOf c (trim row))
          (Candidate.filled (t.splitOn '\n')) cs ∧
        ((∀ c, cs = [c] → c.category ≠ Candidate.crashCategory) →
          ofText .fieldLines t = .ok { prefixLength := 0, candidates := cs }) ∧
        ∀ c, cs = [c] → c.category = Candidate.crashCategory →
          ofText .fieldLines t = .error (.crashed c.type)) := by
  constructor
  · intro before row behind h
    obtain ⟨front, back, hrows, hlength, hgood⟩ := h.exists_rows
    have hfront : ∀ r ∈ front, '\n' ∉ r ∧ ¬ Candidate.BadRow r := by
      intro r hr
      have hmem : r ∈ t.splitOn '\n' := by
        rw [hrows]
        exact List.mem_append_left _ hr
      exact ⟨Candidate.lineFeed_not_mem_of_mem_splitOn hmem, hgood r hr⟩
    obtain ⟨cs, -, happend⟩ := Candidate.ofLines_append hfront
    have hlines : Candidate.ofLines 1 (t.splitOn '\n') =
        .error { number := 1 + before.count '\n', text := trim row } := by
      rw [hrows, happend, Candidate.ofLines_badRow h.bad h.oneRow, hlength]
      rfl
    rw [ofText, written, ofFieldLines, hlines]
    rfl
  · intro hnone
    have hrows : ∀ row ∈ t.splitOn '\n', '\n' ∉ row ∧ ¬ Candidate.BadRow row := by
      intro row hrow
      refine ⟨Candidate.lineFeed_not_mem_of_mem_splitOn hrow, fun hbad => ?_⟩
      obtain ⟨before, row, behind, h⟩ := Candidate.exists_firstBad hrow hbad
      exact hnone before row behind h
    obtain ⟨cs, hcs, happend⟩ := Candidate.ofLines_append hrows
    have hlines : Candidate.ofLines 1 (t.splitOn '\n') = .ok cs := by
      have hall := happend 1 []
      rw [List.append_nil] at hall
      rw [hall, Candidate.ofLines, Except.map, List.append_nil]
    have hwritten : written .fieldLines t = .ok { prefixLength := 0, candidates := cs } := by
      rw [written, ofFieldLines, hlines]
      rfl
    exact ⟨cs, hcs, ofText_of_written hwritten⟩

def soundRows : Text := "\r\n func,,f,,int\r\n\u3000\n".toList

/-- Only the first two of its commas are a mark. -/
def spoiledRow : Text := "\tx,,,y\r".toList

/-- The report of a crash and another bad row. -/
def rowsBehind : Text := "\nPANIC,,p,,t\n,,".toList

theorem ofText_fieldLines_spoiled :
    Candidate.FirstBad (soundRows ++ spoiledRow ++ rowsBehind) soundRows spoiledRow rowsBehind ∧
      ofText .fieldLines (soundRows ++ spoiledRow ++ rowsBehind) =
        .error (.badLine { number := 4, text := "x,,,y".toList }) ∧
      (∀ before row behind, ¬ Candidate.FirstBad soundRows before row behind) ∧
      (∃ cs, List.Forall₂ (fun row c => c.FitsLine ∧ Candidate.LineOf c (trim row))
        (Candidate.filled (soundRows.splitOn '\n')) cs) ∧
      ofText .fieldLines soundRows =
        .ok { candidates :=
          [{ category := "func".toList, name := ['f'], type := "int".toList }] } := by
  have hfirst : Candidate.FirstBad (soundRows ++ spoiledRow ++ rowsBehind)
      soundRows spoiledRow rowsBehind :=
    ⟨rfl, .inr (by decide), by decide, .inr (by decide), by decide, by decide⟩
  have hsound : ∀ before row behind, ¬ Candidate.FirstBad soundRows before row behind := by
    intro before row behind h
    obtain ⟨front, back, hrows, -, -⟩ := h.exists_rows
    have hall : ∀ r ∈ soundRows.splitOn '\n', ¬ Candidate.BadRow r := by decide
    rw [hrows] at hall
    exact hall row (by simp) h.bad
  have hspoiled := (ofText_fieldLines _).1 _ _ _ hfirst
  obtain ⟨cs, hcs, -⟩ := (ofText_fieldLines soundRows).2 hsound
  exact ⟨hfirst, hspoiled, hsound, ⟨cs, hcs⟩, rfl⟩

end Reply
end CompletionSnippets
