import CompletionSnippets.Proofs.Numerals
import CompletionSnippets.Proofs.Yaml.Scalar

/-!
# Reading reports

A written report is read line by line. The key of a line is what stands before its first
colon and blank, or the whole line when there is no such place, and the value is what
stands behind. Each key sets one part of the report: some begin the summary, the list of
suggestions or the next suggestion, all others fill in a field of what was begun last. A
field whose line is missing keeps what it began with: zero, false, the empty text, nothing.

The reader keeps the suggestions with the latest first. It fails on keys that it does not
know, on values that are not well formed, and on a last line without an end.
-/
namespace CompletionSnippets.Yaml
open Text

/-- The lines of a text in which every line has its end. -/
def lines? (t : Text) : Option (List Text) :=
  if (t.splitOn '\n').getLast? = some [] then some (t.splitOn '\n').dropLast else none

def cutLine : Text → Text × Text
  | [] => ([], [])
  | c :: rest =>
    if c = ':' ∧ rest.head? = some ' ' then ([], rest.tail)
    else (c :: (cutLine rest).1, (cutLine rest).2)

/-- What a line is about. -/
inductive Key where
  | summary | elapsedMs | timeout | mode | candidates | suggestionCount | prefixLength
  | error
  | suggestions | text | displayText | snippet | type | leftLabel | rightLabel
  | replacementPrefix | package
deriving DecidableEq, Repr

namespace Key

def written : Key → String
  | summary => "meta:"
  | elapsedMs => "  elapsedMs"
  | timeout => "  timeout"
  | mode => "  mode"
  | candidates => "  candidates"
  | suggestionCount => "  suggestions"
  | prefixLength => "  prefixLength"
  | error => "error"
  | suggestions => "suggestions:"
  | text => "- text"
  | displayText => "  displayText"
  | snippet => "  snippet"
  | type => "  type"
  | leftLabel => "  leftLabel"
  | rightLabel => "  rightLabel"
  | replacementPrefix => "  replacementPrefix"
  | package => "  package"

def all : List Key :=
  [summary, elapsedMs, timeout, mode, candidates, suggestionCount, prefixLength, error,
    suggestions, text, displayText, snippet, type, leftLabel, rightLabel, replacementPrefix,
    package]

def ofWritten? (t : Text) : Option Key := all.find? fun k => k.written.toList == t

end Key

def kind? (t : Text) : Option Kind :=
  [Kind.function, .var, .const, .type, .package, .other].find? fun k => k.label == t

def freshSummary : Summary where
  elapsedMs := 0
  timedOut := false
  detail := []
  candidates := 0
  suggestions := 0
  prefixLength := none

def freshSuggestion (text : Text) : Suggestion where
  text := text
  displayText := []
  snippet := none
  kind := .other
  leftLabel := []
  rightLabel := []
  replaced := []
  package := []

def onSummary (r : Report) (change : Summary → Summary) : Report :=
  { r with summary := r.summary.map change }

def onLatest (r : Report) (change : Suggestion → Suggestion) : Report :=
  { r with suggestions := r.suggestions.map (List.modifyHead change) }

/-- The report after a line with the given key and value. -/
def set (r : Report) (key : Key) (value : Text) : Option Report :=
  match key with
  | .summary => some { r with summary := some freshSummary }
  | .elapsedMs => some (onSummary r fun s => { s with elapsedMs := ofDecimal value })
  | .timeout => some (onSummary r fun s => { s with timedOut := value == "true".toList })
  | .mode => some (onSummary r fun s => { s with detail := value })
  | .candidates => some (onSummary r fun s => { s with candidates := ofDecimal value })
  | .suggestionCount => some (onSummary r fun s => { s with suggestions := ofDecimal value })
  | .prefixLength => some (onSummary r fun s => { s with prefixLength := some (ofDecimal value) })
  | .error => (readScalar value).map fun t => { r with error := some t }
  | .suggestions => some { r with suggestions := some [] }
  | .text => (readScalar value).map fun t =>
      { r with suggestions := r.suggestions.map (freshSuggestion t :: ·) }
  | .displayText => (readScalar value).map fun t =>
      onLatest r fun s => { s with displayText := t }
  | .snippet => (readScalar value).map fun t => onLatest r fun s => { s with snippet := some t }
  | .type => (kind? value).map fun k => onLatest r fun s => { s with kind := k }
  | .leftLabel => (readScalar value).map fun t => onLatest r fun s => { s with leftLabel := t }
  | .rightLabel => (readScalar value).map fun t => onLatest r fun s => { s with rightLabel := t }
  | .replacementPrefix => (readScalar value).map fun t =>
      onLatest r fun s => { s with replaced := t }
  | .package => (readScalar value).map fun t => onLatest r fun s => { s with package := t }

def readLine (r : Report) (line : Text) : Option Report :=
  (Key.ofWritten? (cutLine line).1).bind fun key => set r key (cutLine line).2

/-- The report that a text is. -/
def read? (t : Text) : Option Report := do
  let r ← (← lines? t).foldlM readLine {}
  return { r with suggestions := r.suggestions.map List.reverse }

/-- The lines are found again when none of them holds a line end. -/
theorem lines?_flatMap {lines : List Text} (h : ∀ line ∈ lines, '\n' ∉ line) :
    lines? (lines.flatMap fun line => line ++ ['\n']) = some lines := by
  have hjoin : (lines.flatMap fun line => line ++ ['\n']) =
      List.intercalate ['\n'] (lines ++ [[]]) := by
    induction lines with
    | nil => rfl
    | cons line lines ih =>
      have hrest := ih fun l hl => h l (List.mem_cons_of_mem _ hl)
      rw [List.flatMap_cons, hrest, List.cons_append,
        List.intercalate_cons_of_ne_nil (by simp)]
  have hall : ∀ line ∈ lines ++ [[]], '\n' ∉ line := by
    rw [List.forall_mem_append]
    exact ⟨h, by simp⟩
  have hsplit := List.splitOn_intercalate '\n' hall (by simp)
  rw [lines?, hjoin, hsplit, List.getLast?_concat, if_pos rfl, List.dropLast_concat]

/-- A line is cut behind its key, since no key holds a colon. -/
theorem cutLine_append {key : Text} (h : ':' ∉ key) (value : Text) :
    cutLine (key ++ ':' :: ' ' :: value) = (key, value) := by
  induction key with
  | nil => simp [cutLine]
  | cons c key ih =>
    have hc : c ≠ ':' := fun hc => h (by simp [hc])
    have hrest := ih fun hmem => h (List.mem_cons_of_mem c hmem)
    simp [cutLine, hc, hrest]

theorem Key.ofWritten?_written (key : Key) : ofWritten? key.written.toList = some key := by
  cases key <;> decide

theorem kind?_label (kind : Kind) : kind? kind.label = some kind := by
  cases kind <;> decide

/-- The lines stay apart, and reading them takes the one report to the other. -/
structure Reads (r : Report) (lines : List Text) (r' : Report) : Prop where
  apart : ∀ line ∈ lines, '\n' ∉ line
  run : lines.foldlM readLine r = some r'

theorem Reads.nil (r : Report) : Reads r [] r := ⟨by simp, rfl⟩

theorem Reads.append {r r' r'' : Report} {a b : List Text} (ha : Reads r a r')
    (hb : Reads r' b r'') : Reads r (a ++ b) r'' where
  apart := List.forall_mem_append.mpr ⟨ha.apart, hb.apart⟩
  run := by
    rw [List.foldlM_append, ha.run]
    exact hb.run

/-- A line with a key and a value sets what the key stands for. -/
theorem reads_field (key : Key) (hcolon : ':' ∉ key.written.toList) {value : Text}
    (hvalue : '\n' ∉ value) {r r' : Report} (h : set r key value = some r') :
    Reads r [field key.written value] r' := by
  have hline : field key.written value = key.written.toList ++ ':' :: ' ' :: value := by
    simp [field]
  have hkey : '\n' ∉ key.written.toList := by cases key <;> decide
  constructor
  · simp [hline, hkey, hvalue]
  · rw [List.foldlM_cons, readLine, hline, cutLine_append hcolon, Key.ofWritten?_written,
      Option.bind_some, h]
    rfl

theorem reads_text (key : Key) (hcolon : ':' ∉ key.written.toList) {t : Text}
    {r r' : Report} (h : set r key (scalar t) = some r') :
    Reads r [field key.written (scalar t)] r' :=
  reads_field key hcolon (newline_not_mem_scalar t) h

theorem reads_optionalField (key : Key) (hcolon : ':' ∉ key.written.toList) {t : Text}
    {r r' : Report} (hempty : t = [] → r = r') (h : set r key (scalar t) = some r') :
    Reads r (optionalField key.written t) r' := by
  unfold optionalField
  split
  · rename_i ht
    rw [hempty (List.isEmpty_iff.mp ht)]
    exact .nil r'
  · exact reads_text key hcolon h

theorem newline_not_mem_decimal (n : Nat) : '\n' ∉ decimal n := by
  intro h
  exact absurd (isDigit_of_mem_decimal h) (by decide)

theorem reads_number (key : Key) (hcolon : ':' ∉ key.written.toList) {n : Nat}
    {r r' : Report} (h : set r key (decimal n) = some r') :
    Reads r [field key.written (decimal n)] r' :=
  reads_field key hcolon (newline_not_mem_decimal n) h

end CompletionSnippets.Yaml
