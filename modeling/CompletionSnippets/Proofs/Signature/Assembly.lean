import CompletionSnippets.Proofs.Nesting.Pieces
import CompletionSnippets.Proofs.Signature.KeptText

/-!
# Function types put together

The tokens of an outline are pieces with balanced parentheses, but for a bare result, which
may be anything that is not one pair of parentheses. Conversely such pieces, joined behind
the keyword, have an outline with these tokens. What stands behind the parameters is told
apart as before: nothing, one bare text, or pieces in parentheses.

So a function type may be written again from the texts of its entries. Whoever writes it
has to see to it that a text is left bare only where it is not one pair of parentheses.
-/
namespace CompletionSnippets.Outline
open Text

theorem tokens_splitTopLevel {t : Text} (h : Balanced '(' ')' t) :
    Pieces ',' (splitTopLevel ',' (trim t)) ∧
      ∀ x ∈ splitTopLevel ',' (trim t), Balanced '(' ')' x :=
  ⟨pieces_splitTopLevel ',' (trim t),
    fun _ hx => balanced_of_mem_splitTopLevel (balanced_trim_iff.mpr h) hx⟩

theorem tokens_paramTokens {t : Text} {o : Outline} (h : of? t = some o) :
    Pieces ',' o.paramTokens ∧ ∀ x ∈ o.paramTokens, Balanced '(' ')' x := by
  obtain ⟨w, rest, -, hw, rfl⟩ := of?_eq_some_iff.mp h
  exact tokens_splitTopLevel hw

theorem tokens_resultTokens {t : Text} {o : Outline} (h : of? t = some o) :
    (Pieces ',' o.resultTokens ∧ ∀ x ∈ o.resultTokens, Balanced '(' ')' x) ∨
      ∃ r, o.results = .single r ∧ o.resultTokens = [r] ∧ trim r = r ∧ r ≠ [] := by
  obtain ⟨w, rest, -, -, rfl⟩ := of?_eq_some_iff.mp h
  unfold resultTokens
  rcases resultText_cases (trim rest) with ⟨-, hr⟩ | ⟨inside, -, hb, hr⟩ | ⟨hne, -, hr⟩
  · rw [hr]
    exact .inl ⟨⟨by simp, by simp, by simp, by simp⟩, by simp⟩
  · rw [hr]
    exact .inl (tokens_splitTopLevel hb)
  · rw [hr]
    exact .inr ⟨trim rest, rfl, rfl, trim_trim rest, hne⟩

/-- The tokens of the results in a text behind the parameters. -/
def resultTokensOf (tail : Text) : List Text :=
  resultTokens { whole := [], params := [], results := resultText (trim tail) }

theorem resultTokensOf_of_isAllBlank {tail : Text} (h : tail.isAllBlank) :
    resultTokensOf tail = [] := by
  rw [resultTokensOf, isAllBlank_iff_trim.mp h]
  rfl

theorem resultTokensOf_bare {t : Text} (htrim : trim t = t) (hne : t ≠ []) (h : ¬ Enclosed t) :
    resultTokensOf (' ' :: t) = [t] := by
  rw [resultTokensOf, trim_space_cons, htrim, resultText_of_not_enclosed hne h]
  rfl

theorem balanced_joinWith {ts : List Text} (h : ∀ t ∈ ts, Balanced '(' ')' t) :
    Balanced '(' ')' (joinWith commaSpace ts) := by
  induction ts with
  | nil => decide
  | cons t ts ih =>
    rw [List.forall_mem_cons] at h
    cases ts with
    | nil =>
      rw [joinWith_singleton]
      exact h.1
    | cons u ts =>
      have hsep : Balanced '(' ')' commaSpace := by decide
      rw [joinWith_cons_cons]
      exact h.1.append (hsep.append (ih h.2))

theorem resultTokensOf_list {ts : List Text} (hts : Pieces ',' ts)
    (hb : ∀ t ∈ ts, Balanced '(' ')' t) :
    resultTokensOf (' ' :: ('(' :: joinWith commaSpace ts ++ [')'])) = ts := by
  have htrim : trim ('(' :: joinWith commaSpace ts ++ [')']) =
      '(' :: joinWith commaSpace ts ++ [')'] :=
    trim_eq_self_of_ends (by rfl : isBlank '(' = false) (by rfl : isBlank ')' = false) rfl
      List.getLast?_concat
  rw [resultTokensOf, trim_space_cons, htrim, resultText_of_enclosed (balanced_joinWith hb)]
  exact (splitTopLevel_trim _).trans (hts.splitTopLevel_joinWith [' '] rfl)

theorem of?_assembled {params : Text} (hp : Balanced '(' ')' params) (tail : Text) :
    ∃ o, of? (opening ++ params ++ ')' :: tail) = some o ∧ o.params = trim params ∧
      o.results = resultText (trim tail) := by
  -- only the blanks at the end of the tail can be trimmed
  have hhead : trimStart (opening ++ params ++ ')' :: tail) = opening ++ params ++ ')' :: tail := by
    rw [trimStart_eq_self_iff]
    rintro c ⟨⟩
    rfl
  have hclosed : trimEnd (opening ++ params ++ [')']) = opening ++ params ++ [')'] := by
    rw [trimEnd_eq_self_iff, List.getLast?_concat]
    rintro c ⟨⟩
    rfl
  have htrim : trim (opening ++ params ++ ')' :: tail) =
      opening ++ params ++ ')' :: trimEnd tail := by
    have hsplit : ∀ t : Text, opening ++ params ++ ')' :: t = opening ++ params ++ [')'] ++ t :=
      fun t => by simp
    rw [trim, hhead, hsplit tail, trimEnd_append_right hclosed, ← hsplit]
  obtain ⟨blanks, hblanks, htail⟩ := exists_trimEnd_append tail
  have hresults : trim (trimEnd tail) = trim tail := by
    conv_rhs => rw [htail]
    rw [trim_append_blanks hblanks]
  refine ⟨_, of?_eq_some_iff.mpr ⟨params, trimEnd tail, htrim, hp, rfl⟩, rfl, ?_⟩
  rw [hresults]

/-- A function type put together from the texts of its parameters and a text behind them is
read with entries of exactly these texts. -/
theorem exists_read_assembled {ts : List Text} (hts : Pieces ',' ts)
    (hb : ∀ t ∈ ts, Balanced '(' ')' t) (tail : Text) :
    ∃ s, Signature.read (opening ++ joinWith commaSpace ts ++ ')' :: tail) = .ok s ∧
      s.params = ts.map (Entry.ofToken Signature.nestingLimit) ∧
      s.results = (resultTokensOf tail).map (Entry.ofToken Signature.nestingLimit) := by
  obtain ⟨o, ho, hparams, hresults⟩ := of?_assembled (balanced_joinWith hb) tail
  have hptokens : o.paramTokens = ts := by
    rw [paramTokens, hparams, splitTopLevel_trim]
    exact hts.splitTopLevel_joinWith [' '] rfl
  have hrtokens : o.resultTokens = resultTokensOf tail := by
    rw [resultTokensOf, resultTokens, resultTokens, hresults]
  refine ⟨Signature.ofOutline Signature.nestingLimit o, ?_, ?_, ?_⟩
  · rw [Signature.read, Signature.ofText?, ho, Option.map_some]
  · rw [Signature.ofOutline, hptokens]
  · rw [Signature.ofOutline, hrtokens]

end CompletionSnippets.Outline
