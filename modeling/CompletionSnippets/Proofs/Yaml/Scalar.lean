import CompletionSnippets.Report.Yaml

/-!
# Reading the values of lines

A value of two single quotes is the empty text, a value that begins with a double quote is
what stands between its quotes, and any other value is the text itself. So every text is
read back from what stands for it in its line, and none of them breaks the line: quotes
are there whenever the text could be taken for something else, and a line end has a
spelling of its own between them.
-/
namespace CompletionSnippets.Yaml
open Text

def unescapeChar (c : Char) : Char :=
  match c with
  | 'n' => '\n'
  | 'r' => '\r'
  | 't' => '\t'
  | c => c

def readQuoted : Text → Option Text
  | [] => none
  | '\\' :: c :: rest => (readQuoted rest).map (unescapeChar c :: ·)
  | c :: rest =>
    if c = '"' then (if rest = [] then some [] else none)
    else (readQuoted rest).map (c :: ·)

/-- The text that a value stands for. -/
def readScalar (value : Text) : Option Text :=
  if value = ['\'', '\''] then some []
  else if value.head? = some '"' then readQuoted value.tail
  else some value

/-- A character between quotes is spelled with a backslash, or it stands as it is and is
neither a quote nor a backslash; either way it ends no line. -/
theorem escapeChar_cases (c : Char) :
    (∃ x, escapeChar c = ['\\', x] ∧ unescapeChar x = c ∧ x ≠ '\n') ∨
      (escapeChar c = [c] ∧ c ≠ '\\' ∧ c ≠ '"' ∧ c ≠ '\n') := by
  unfold escapeChar
  split
  · exact .inl ⟨'"', rfl, rfl, by decide⟩
  · exact .inl ⟨'\\', rfl, rfl, by decide⟩
  · exact .inl ⟨'n', rfl, rfl, by decide⟩
  · exact .inl ⟨'r', rfl, rfl, by decide⟩
  · exact .inl ⟨'t', rfl, rfl, by decide⟩
  · rename_i hquote hslash hline _ _
    exact .inr ⟨rfl, hslash, hquote, hline⟩

theorem readQuoted_escaped (t : Text) : readQuoted (t.flatMap escapeChar ++ ['"']) = some t := by
  induction t with
  | nil => rfl
  | cons c t ih =>
    rw [List.flatMap_cons, List.append_assoc]
    rcases escapeChar_cases c with ⟨x, hc, hx, -⟩ | ⟨hc, hslash, hquote, -⟩
    · rw [hc, List.cons_append, List.singleton_append, readQuoted, ih, Option.map_some, hx]
    · rw [hc, List.singleton_append, readQuoted]
      · rw [if_neg hquote, ih, Option.map_some]
      · exact fun _ _ h _ => hslash h

theorem plain_of_not_needsQuotes {t : Text} (h : needsQuotes t = false) :
    t.head?.any indicators.contains = false ∧ t.any separators.contains = false := by
  simp only [needsQuotes, Bool.or_eq_false_iff] at h
  exact ⟨h.1.1.1.1, h.2⟩

theorem readScalar_scalar (t : Text) : readScalar (scalar t) = some t := by
  unfold scalar
  split
  · rename_i hempty
    rw [List.isEmpty_iff.mp hempty]
    rfl
  split
  · simp [readScalar, readQuoted_escaped]
  · rename_i hquotes
    have hfirst := (plain_of_not_needsQuotes (Bool.eq_false_iff.mpr hquotes)).1
    -- neither form of quotes is taken for one, since no plain text begins with a quote
    have hsingle : t ≠ ['\'', '\''] := by
      rintro rfl
      exact absurd hfirst (by decide)
    have hdouble : t.head? ≠ some '"' := by
      intro h
      rw [h] at hfirst
      exact absurd hfirst (by decide)
    rw [readScalar, if_neg hsingle, if_neg hdouble]

theorem newline_not_mem_escapeChar (c : Char) : '\n' ∉ escapeChar c := by
  rcases escapeChar_cases c with ⟨x, hc, -, hx⟩ | ⟨hc, -, -, hline⟩
  · simp [hc, hx.symm]
  · simp [hc, hline.symm]

theorem newline_not_mem_scalar (t : Text) : '\n' ∉ scalar t := by
  unfold scalar
  split
  · decide
  split
  · simp [newline_not_mem_escapeChar]
  · rename_i hquotes
    have hsep := (plain_of_not_needsQuotes (Bool.eq_false_iff.mpr hquotes)).2
    intro hmem
    rw [List.any_eq_false] at hsep
    exact hsep _ hmem (by decide)

end CompletionSnippets.Yaml
