import CompletionSnippets.Candidate.Intake
import CompletionSnippets.Proofs.Joining
import CompletionSnippets.Proofs.Trimming
import Mathlib.Data.List.Forall2

/-!
# Replies in lines of fields

A candidate is written in a line of three fields when its package is empty, and in a line of
four fields in any case. The commas between the fields can be told from those inside them when
no field but the last ends in a comma or holds two in a row. What remains behind the third cut
is the package, so the package may hold two commas as well.

Lines stand in a text one below the other, each with any blanks around it, and rows of blanks
may stand among them. A row ends with a line feed, which a carriage return may precede; the
last row needs no end. However a list of candidates is laid out in this way, it is taken in as
it was, unless it only reports a crash.
-/
namespace CompletionSnippets
open Text

namespace Candidate

/-- What stands between neighbouring fields. -/
def fieldMark : Text := [',', ',']

/-- The first mark in the text is one that is put behind the field. -/
structure Cuttable (field : Text) : Prop where
  noMark : ¬ fieldMark <:+: field
  noComma : field.getLast? ≠ some ','

/-- The candidate can be written in a line. -/
structure FitsLine (c : Candidate) : Prop where
  category_ne_nil : c.category ≠ []
  name_ne_nil : c.name ≠ []
  category : Cuttable c.category
  name : Cuttable c.name
  type : ¬ fieldMark <:+: c.type
  start : trimStart c.category = c.category
  oneRow : ∀ field ∈ [c.category, c.name, c.type, c.package], '\n' ∉ field

instance (t : Text) : Decidable (fieldMark <:+: t) := decidable_of_iff _ occursIn_iff_isInfix

instance (field : Text) : Decidable (Cuttable field) :=
  decidable_of_iff (¬ fieldMark <:+: field ∧ field.getLast? ≠ some ',')
    ⟨fun h => ⟨h.1, h.2⟩, fun h => ⟨h.noMark, h.noComma⟩⟩

instance (c : Candidate) : Decidable c.FitsLine :=
  decidable_of_iff (c.category ≠ [] ∧ c.name ≠ [] ∧ Cuttable c.category ∧ Cuttable c.name ∧
      ¬ fieldMark <:+: c.type ∧ trimStart c.category = c.category ∧
      ∀ field ∈ [c.category, c.name, c.type, c.package], '\n' ∉ field)
    ⟨fun ⟨hc, hn, hcut, hcut', ht, hs, hr⟩ => ⟨hc, hn, hcut, hcut', ht, hs, hr⟩,
      fun h => ⟨h.1, h.2, h.3, h.4, h.5, h.6, h.7⟩⟩

/-- The line is written for the candidate. No blank ends its last field. -/
inductive LineOf (c : Candidate) : Text → Prop
  | withoutPackage (hpackage : c.package = []) (hlast : trimEnd c.type = c.type) :
      LineOf c (joinWith fieldMark [c.category, c.name, c.type])
  | withPackage (htype : c.type.getLast? ≠ some ',') (hlast : trimEnd c.package = c.package) :
      LineOf c (joinWith fieldMark [c.category, c.name, c.type, c.package])

theorem breakAtCommas?_append {field : Text} (h : Cuttable field) (before rest : Text) :
    breakAtCommas? before (field ++ (fieldMark ++ rest)) =
      some (before.reverse ++ field, rest) := by
  induction field generalizing before with
  | nil => simp [fieldMark, breakAtCommas?]
  | cons c field ih =>
    have hfield : Cuttable field := by
      refine ⟨fun hmark => h.noMark (hmark.trans (List.suffix_cons c field).isInfix), ?_⟩
      intro hlast
      apply h.noComma
      rw [List.getLast?_cons, hlast]
      rfl
    -- a comma in front is neither the whole field nor followed by another one
    have hnext : ∀ r, c = ',' → field ++ (fieldMark ++ rest) ≠ ',' :: r := by
      rintro r rfl hr
      cases field with
      | nil => exact h.noComma rfl
      | cons d field =>
        obtain rfl : d = ',' := (List.cons.inj hr).1
        exact h.noMark ⟨[], field, rfl⟩
    rw [List.cons_append, breakAtCommas?.eq_3 _ _ _ hnext, ih hfield]
    simp

theorem breakAtCommas?_eq_none {t : Text} (h : ¬ fieldMark <:+: t) (before : Text) :
    breakAtCommas? before t = none := by
  fun_induction breakAtCommas? before t with
  | case1 => rfl
  | case2 before rest => exact absurd ⟨[], rest, rfl⟩ h
  | case3 before c t _ ih =>
    exact ih fun hmark => h (hmark.trans (List.suffix_cons c t).isInfix)

theorem fields_append {field : Text} (h : Cuttable field) (cuts : Nat) (rest : Text) :
    fields (cuts + 1) (field ++ (fieldMark ++ rest)) = field :: fields cuts rest := by
  conv_lhs => unfold fields
  rw [breakAtCommas?_append h]
  rfl

theorem fields_zero (t : Text) : fields 0 t = [t] := by unfold fields; rfl

theorem fields_of_noMark {t : Text} (h : ¬ fieldMark <:+: t) (cuts : Nat) :
    fields cuts t = [t] := by
  unfold fields
  rw [breakAtCommas?_eq_none h]
  cases cuts <;> rfl

section Line
variable {c : Candidate} {line : Text}

theorem joinWith_fields (a b c : Text) (rest : List Text) :
    joinWith fieldMark (a :: b :: c :: rest) =
      a ++ (fieldMark ++ (b ++ (fieldMark ++ joinWith fieldMark (c :: rest)))) := by
  rw [joinWith_cons_cons, joinWith_cons_cons]

/-- A line is read as the candidate that it is written for. -/
theorem ofLine?_eq_some (hc : c.FitsLine) (h : LineOf c line) : ofLine? line = some c := by
  have hfields : fields 3 line = [c.category, c.name, c.type] ∧ c.package = [] ∨
      fields 3 line = [c.category, c.name, c.type, c.package] := by
    cases h with
    | withoutPackage hpackage =>
      refine .inl ⟨?_, hpackage⟩
      rw [joinWith_fields, fields_append hc.category, fields_append hc.name, joinWith_singleton,
        fields_of_noMark hc.type]
    | withPackage htype =>
      refine .inr ?_
      rw [joinWith_fields, fields_append hc.category, fields_append hc.name, joinWith_cons_cons,
        fields_append ⟨hc.type, htype⟩, joinWith_singleton, fields_zero]
  have hfilled : (!c.category.isEmpty && !c.name.isEmpty) = true := by
    simp [hc.category_ne_nil, hc.name_ne_nil]
  cases c with
  | mk category name type package =>
    rcases hfields with ⟨hfields, rfl⟩ | hfields
    · simp only [ofLine?, hfields, Option.filter_some, hfilled, if_true]
    · simp only [ofLine?, hfields, Option.filter_some, hfilled, if_true]

theorem LineOf.exists_last (h : LineOf c line) :
    ∃ middle last : Text, line = c.category ++ (fieldMark ++ middle ++ fieldMark ++ last) ∧
      trimEnd last = last := by
  cases h with
  | withoutPackage _ hlast =>
    refine ⟨c.name, c.type, ?_, hlast⟩
    rw [joinWith_fields, joinWith_singleton]
    simp only [List.append_assoc]
  | withPackage _ hlast =>
    refine ⟨c.name ++ fieldMark ++ c.type, c.package, ?_, hlast⟩
    rw [joinWith_fields, joinWith_cons_cons, joinWith_singleton]
    simp only [List.append_assoc]

theorem LineOf.trim_eq (hc : c.FitsLine) (h : LineOf c line) : trim line = line := by
  obtain ⟨middle, last, rfl, hlast⟩ := h.exists_last
  rw [trim_eq_self_iff]
  constructor
  · exact trimStart_append hc.category_ne_nil hc.start _
  · have hmark : trimEnd (c.category ++ (fieldMark ++ middle ++ fieldMark)) =
        c.category ++ (fieldMark ++ middle ++ fieldMark) := by
      rw [← List.append_assoc]
      exact trimEnd_append (by decide) (by decide) _
    rw [← List.append_assoc, trimEnd_append_right hmark, hlast]

theorem LineOf.ne_nil (hc : c.FitsLine) (h : LineOf c line) : line ≠ [] := by
  obtain ⟨middle, last, rfl, -⟩ := h.exists_last
  exact List.append_ne_nil_of_left_ne_nil hc.category_ne_nil _

theorem LineOf.lineFeed_not_mem (hc : c.FitsLine) (h : LineOf c line) : '\n' ∉ line := by
  have hjoined : ∀ parts : List Text, parts ⊆ [c.category, c.name, c.type, c.package] →
      '\n' ∉ joinWith fieldMark parts := by
    intro parts hparts hmem
    rcases mem_of_mem_intercalate hmem with hmark | ⟨field, hfield, hin⟩
    · exact absurd hmark (by decide)
    · exact hc.oneRow field (hparts hfield) hin
  cases h with
  | withoutPackage => exact hjoined _ (by simp)
  | withPackage => exact hjoined _ (List.Subset.refl _)

end Line

/-- The row is the line with blanks around it. -/
inductive RowOf (line : Text) : Text → Prop
  | mk (before after : Text) (hbefore : before.isAllBlank) (hafter : after.isAllBlank)
      (honeRow : '\n' ∉ before ++ after) : RowOf line (before ++ line ++ after)

/-- What may stand at the end of a row. -/
inductive RowEnd : Text → Prop
  | lineFeed : RowEnd ['\n']
  | carriageReturn : RowEnd ['\r', '\n']

/-- The lines stand in the text one below the other; all other rows are blank. -/
inductive LaidOut : List Text → Text → Prop
  | lastBlank {row : Text} (hrow : RowOf [] row) : LaidOut [] row
  | lastLine {line row : Text} (hrow : RowOf line row) : LaidOut [line] row
  | blank {row rowEnd t : Text} {lines : List Text} (hrow : RowOf [] row) (hend : RowEnd rowEnd)
      (h : LaidOut lines t) : LaidOut lines (row ++ rowEnd ++ t)
  | line {line row rowEnd t : Text} {lines : List Text} (hrow : RowOf line row)
      (hend : RowEnd rowEnd) (h : LaidOut lines t) : LaidOut (line :: lines) (row ++ rowEnd ++ t)

theorem RowOf.trim_eq {line row : Text} (h : RowOf line row) : trim row = trim line := by
  obtain ⟨_, _, hbefore, hafter, -⟩ := h
  rw [trim_append_blanks hafter, trim_append_of_isAllBlank hbefore]

theorem RowOf.lineFeed_not_mem {line row : Text} (h : RowOf line row) (hline : '\n' ∉ line) :
    '\n' ∉ row := by
  obtain ⟨_, _, -, -, honeRow⟩ := h
  simp only [List.mem_append, not_or] at honeRow ⊢
  exact ⟨⟨honeRow.1, hline⟩, honeRow.2⟩

/-- A carriage return at the end of a row is one of the blanks behind its line. -/
theorem RowOf.exists_splitOn {line row rowEnd : Text} (h : RowOf line row) (hline : '\n' ∉ line)
    (hend : RowEnd rowEnd) (t : Text) :
    ∃ row', (row ++ rowEnd ++ t).splitOn '\n' = row' :: t.splitOn '\n' ∧ trim row' = trim line := by
  have hrow := h.lineFeed_not_mem hline
  cases hend with
  | lineFeed =>
    refine ⟨row, ?_, h.trim_eq⟩
    rw [List.append_assoc]
    exact List.splitOn_append_cons_self_of_not_mem hrow t
  | carriageReturn =>
    refine ⟨row ++ ['\r'], ?_, ?_⟩
    · have hlonger : '\n' ∉ row ++ ['\r'] := by simp [hrow]
      rw [← List.splitOn_append_cons_self_of_not_mem hlonger t]
      simp
    · rw [trim_append_blanks rfl, h.trim_eq]

theorem ofLines_blank {row : Text} (h : trim row = []) (number : Nat) (rows : List Text) :
    ofLines number (row :: rows) = ofLines (number + 1) rows := by
  simp only [ofLines, h, List.isEmpty_nil, if_true]

theorem ofLines_line {c : Candidate} {line row : Text} (hc : c.FitsLine) (hline : LineOf c line)
    (h : trim row = trim line) (number : Nat) (rows : List Text) :
    ofLines number (row :: rows) = (ofLines (number + 1) rows).map (c :: ·) := by
  have hempty : line.isEmpty = false := by
    rw [List.isEmpty_eq_false_iff]
    exact hline.ne_nil hc
  rw [hline.trim_eq hc] at h
  simp only [ofLines, h, hempty, ofLine?_eq_some hc hline, Bool.false_eq_true, if_false]
  cases ofLines (number + 1) rows <;> rfl

/-- The candidates are found in any layout of their lines, whatever the number of its first
row. -/
theorem ofLines_laidOut {cs : List Candidate} {lines : List Text} {t : Text}
    (hcs : ∀ c ∈ cs, c.FitsLine) (hlines : List.Forall₂ LineOf cs lines) (ht : LaidOut lines t)
    (number : Nat) : ofLines number (t.splitOn '\n') = .ok cs := by
  induction ht generalizing cs number with
  | lastBlank hrow =>
    cases hlines
    rw [List.splitOn_eq_singleton (hrow.lineFeed_not_mem (by simp)), ofLines_blank hrow.trim_eq]
    rfl
  | lastLine hrow =>
    obtain _ | ⟨hline, hrest⟩ := hlines
    cases hrest
    have hc := hcs _ List.mem_cons_self
    rw [List.splitOn_eq_singleton (hrow.lineFeed_not_mem (hline.lineFeed_not_mem hc)),
      ofLines_line hc hline hrow.trim_eq]
    rfl
  | blank hrow hend _ ih =>
    obtain ⟨row', hsplit, htrim⟩ := hrow.exists_splitOn (by simp) hend _
    rw [hsplit, ofLines_blank htrim, ih hcs hlines]
  | line hrow hend _ ih =>
    obtain _ | ⟨hline, hrest⟩ := hlines
    obtain ⟨hc, hcs⟩ := List.forall_mem_cons.mp hcs
    obtain ⟨row', hsplit, htrim⟩ := hrow.exists_splitOn (hline.lineFeed_not_mem hc) hend _
    rw [hsplit, ofLines_line hc hline htrim, ih hcs hrest]
    rfl

end Candidate

namespace Reply

/-- Candidates written in lines, in any layout, are taken in as they were, or as the report of a
crash when they are nothing else. -/
theorem ofText_laidOut {cs : List Candidate} {lines : List Text} {t : Text}
    (hcs : ∀ c ∈ cs, c.FitsLine) (hlines : List.Forall₂ Candidate.LineOf cs lines)
    (ht : Candidate.LaidOut lines t) :
    ((∀ c, cs = [c] → c.category ≠ Candidate.crashCategory) →
      ofText .fieldLines t = .ok { prefixLength := 0, candidates := cs }) ∧
    ∀ c, cs = [c] → c.category = Candidate.crashCategory →
      ofText .fieldLines t = .error (.crashed c.type) := by
  have hwritten : written .fieldLines t = .ok { prefixLength := 0, candidates := cs } := by
    rw [written, ofFieldLines, Candidate.ofLines_laidOut hcs hlines ht 1]
    rfl
  exact ofText_of_written hwritten

/-- A candidate with commas wherever a field may have them. -/
def edged : Candidate where
  category := "func".toList
  name := ",Fprint".toList
  type := ", b".toList
  package := ",,p,,".toList

/-- A candidate whose line may end in a comma, as no package is written. -/
def bare : Candidate where
  category := ",var".toList
  name := "x,y".toList
  type := [',']

def edgedLines : List Text := ["func,,,Fprint,,, b,,,,p,,".toList, ",var,,x,y,,,".toList]

def edgedText : Text :=
  "\u3000\r\n func,,,Fprint,,, b,,,,p,,\t\r\n\n\x0b,var,,x,y,,,".toList

theorem laidOut_edged : Candidate.LaidOut edgedLines edgedText := by
  have hrows : edgedText = ['\u3000'] ++ [] ++ [] ++ ['\r', '\n'] ++
      ([' '] ++ "func,,,Fprint,,, b,,,,p,,".toList ++ ['\t'] ++ ['\r', '\n'] ++
        ([] ++ [] ++ [] ++ ['\n'] ++ (['\x0b'] ++ ",var,,x,y,,,".toList ++ []))) := by decide
  rw [hrows]
  exact .blank (.mk _ _ rfl rfl (by decide)) .carriageReturn
    (.line (.mk _ _ rfl rfl (by decide)) .carriageReturn
      (.blank (.mk _ _ rfl rfl (by decide)) .lineFeed
        (.lastLine (.mk _ _ rfl rfl (by decide)))))

def crashed : Candidate := { category := Candidate.crashCategory, name := ['p'], type := ['t'] }

theorem laidOut_crashed : Candidate.LaidOut ["PANIC,,p,,t".toList] "\tPANIC,,p,,t\r".toList := by
  have hrow : "\tPANIC,,p,,t\r".toList = ['\t'] ++ "PANIC,,p,,t".toList ++ ['\r'] := by decide
  rw [hrow]
  exact .lastLine (.mk _ _ rfl rfl (by decide))

theorem ofText_laidOut_edged :
    (∀ c ∈ [edged, bare], c.FitsLine) ∧
      List.Forall₂ Candidate.LineOf [edged, bare] edgedLines ∧
      Candidate.LaidOut edgedLines edgedText ∧
      ofText .fieldLines edgedText = .ok { prefixLength := 0, candidates := [edged, bare] } ∧
      ofText .fieldLines "\tPANIC,,p,,t\r".toList = .error (.crashed ['t']) := by
  have hfits : ∀ c ∈ [edged, bare], c.FitsLine := by decide
  have hlines : List.Forall₂ Candidate.LineOf [edged, bare] edgedLines :=
    .cons (.withPackage (by decide) (by decide)) (.cons (.withoutPackage rfl (by decide)) .nil)
  have hcrashed : List.Forall₂ Candidate.LineOf [crashed] ["PANIC,,p,,t".toList] :=
    .cons (.withoutPackage rfl (by decide)) .nil
  obtain ⟨hok, -⟩ := ofText_laidOut hfits hlines laidOut_edged
  obtain ⟨-, hcrash⟩ := ofText_laidOut (by decide) hcrashed laidOut_crashed
  exact ⟨hfits, hlines, laidOut_edged, hok nofun, hcrash crashed rfl rfl⟩

end Reply
end CompletionSnippets
