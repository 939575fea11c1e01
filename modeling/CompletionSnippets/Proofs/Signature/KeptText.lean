import CompletionSnippets.Proofs.Nesting.Enclosure
import CompletionSnippets.Proofs.Signature.Truncation

/-!
# The text that a signature keeps

Reading a function type takes its text apart and loses nothing of it. At every node the
text is the keyword, the texts of the parameters in parentheses, and the results: none, a
list in parentheses, or one text. Texts in a list are separated by single commas, and only
blanks stand around them. An entry's text is its type, or its identifier, blanks, and its
type. Stray closers, brackets that stay open and empty entries are no exception.

The node is followed down from the outermost function type: each one was read from a text
with an outline, so it is enough to know what an outline keeps and how an entry is divided.
-/
namespace CompletionSnippets

namespace Text

/-- The given texts stand in the other text between single commas, with nothing but blanks
around each of them. Blanks alone list no text. -/
inductive Lists : List Text → Text → Prop
  | none {b : Text} (hb : b.isAllBlank) : Lists [] b
  | last {b x a : Text} (hb : b.isAllBlank) (ha : a.isAllBlank) : Lists [x] (b ++ x ++ a)
  | cons {b x a t : Text} {xs : List Text} (hb : b.isAllBlank) (ha : a.isAllBlank)
      (hne : xs ≠ []) (h : Lists xs t) : Lists (x :: xs) (b ++ x ++ a ++ ',' :: t)

theorem Lists.pad_left {xs : List Text} {t b : Text} (h : Lists xs t) (hb : b.isAllBlank) :
    Lists xs (b ++ t) := by
  cases h with
  | none ht => exact .none (isAllBlank_append.mpr ⟨hb, ht⟩)
  | last hb' ha =>
    simp only [← List.append_assoc]
    exact .last (isAllBlank_append.mpr ⟨hb, hb'⟩) ha
  | cons hb' ha hne h =>
    simp only [← List.append_assoc]
    exact .cons (isAllBlank_append.mpr ⟨hb, hb'⟩) ha hne h

theorem Lists.pad_right {xs : List Text} {t a : Text} (h : Lists xs t) (ha : a.isAllBlank) :
    Lists xs (t ++ a) := by
  induction h with
  | none ht => exact .none (isAllBlank_append.mpr ⟨ht, ha⟩)
  | last hb ha' =>
    rw [List.append_assoc]
    exact .last hb (isAllBlank_append.mpr ⟨ha', ha⟩)
  | cons hb ha' hne _ ih =>
    rw [List.append_assoc, List.cons_append]
    exact .cons hb ha' hne ih

/-- The blanks at the ends of a text go to its first and its last entry. -/
theorem lists_of_trim {xs : List Text} {t : Text} (h : Lists xs t.trim) : Lists xs t := by
  obtain ⟨b, a, hb, ha, ht⟩ := exists_pad t
  rw [ht]
  exact (h.pad_left hb).pad_right ha

/-- A scan cuts at commas only, so its segments, trimmed, are listed in the text. -/
theorem lists_segments (d : Depth) (current t : Text) :
    Lists ((segments ',' d current t).map trim) (current.reverse ++ t) := by
  induction t generalizing d current with
  | nil =>
    obtain ⟨b, a, hb, ha, ht⟩ := exists_pad current.reverse
    rw [segments, List.map_singleton, List.append_nil]
    conv => rhs; rw [ht]
    exact .last hb ha
  | cons c t ih =>
    rw [segments]
    split
    · rename_i hc
      have hcomma : c = ',' := by simp_all
      obtain ⟨b, a, hb, ha, ht⟩ := exists_pad current.reverse
      have hne := segments_ne_nil ',' d [] t
      rw [List.map_cons, hcomma]
      conv => rhs; rw [ht]
      exact .cons hb ha (by simpa using hne) (ih d [])
    · have h := ih (d.step c) (c :: current)
      rwa [List.reverse_cons, List.append_assoc] at h

theorem lists_splitTopLevel (t : Text) : Lists (splitTopLevel ',' t) t := by
  unfold splitTopLevel
  split
  · rename_i hb
    exact .none hb
  · exact lists_segments {} [] t

end Text

open Text Outline

theorem Outline.whole_eq_trim {t : Text} {o : Outline} (h : of? t = some o) : o.whole = t.trim := by
  obtain ⟨w, rest, -, -, rfl⟩ := of?_eq_some_iff.mp h
  rfl

namespace Entry

/-- An entry's text, its identifier and its type. The blanks between these two are the
first ones outside brackets. -/
inductive Divided : Text → Text → Text → Prop
  | unnamed (type : Text) : Divided type [] type
  | named {identifier gap type : Text} (ne_nil : identifier ≠ [])
      (noBlank : NoneExposed isBlank identifier) (outside : ¬ Encloses identifier)
      (gap_ne_nil : gap ≠ []) (blank : gap.isAllBlank) :
      Divided (identifier ++ gap ++ type) identifier type

theorem divided_divide {raw : Text} (h : raw.trim = raw) :
    Divided raw (divide raw).1 (divide raw).2 := by
  unfold divide
  split
  · exact .unnamed raw
  split
  · rename_i first rest hb
    obtain ⟨rfl, hblank, houtside, c, hc, hcblank⟩ := breakAtBlank?_iff.mp hb
    obtain ⟨gap, hgap, hrest⟩ := exists_append_trimStart rest
    -- nothing that is trimmed begins with the blank that was found
    have hbegins : ∀ u : Text, trimStart u = u → u.head? ≠ some c := by
      intro u hu hfirst
      have hc' := trimStart_eq_self_iff.mp hu c hfirst
      rw [hcblank] at hc'
      contradiction
    have hfirst : first ≠ [] := by
      rintro rfl
      exact hbegins rest (trim_eq_self_iff.mp h).1 hc
    have hgapne : gap ≠ [] := by
      rintro rfl
      exact hbegins rest hrest.symm hc
    have hdivided : Divided (first ++ gap ++ trimStart rest) first (trimStart rest) :=
      .named hfirst hblank houtside hgapne hgap
    rwa [List.append_assoc, ← hrest] at hdivided
  · exact .unnamed raw

/-- An entry keeps its type as text, or its type has an outline and is read for one level
less. -/
theorem ofToken_cases (levels : Nat) (token : Text) :
    ofToken levels token = .plain token.trim (divide token.trim).1 (divide token.trim).2 ∨
      ∃ below o, levels = below + 1 ∧ of? (divide token.trim).2 = some o ∧
        ofToken levels token =
          .func token.trim (divide token.trim).1 (Signature.ofOutline below o) := by
  cases ho : of? (divide token.trim).2 with
  | none => exact .inl (ofToken_of_none levels ho)
  | some o =>
    cases levels with
    | zero => exact .inl (ofToken_zero_of_some ho)
    | succ below => exact .inr ⟨below, o, rfl, rfl, ofToken_succ_of_some below ho⟩

theorem raw_ofToken (levels : Nat) (token : Text) : (ofToken levels token).raw = token.trim := by
  rcases ofToken_cases levels token with h | ⟨below, o, -, -, h⟩
  · rw [h, raw]
  · rw [h, raw]

theorem identifier_ofToken (levels : Nat) (token : Text) :
    (ofToken levels token).identifier = (divide token.trim).1 := by
  rcases ofToken_cases levels token with h | ⟨below, o, -, -, h⟩
  · rw [h, identifier]
  · rw [h, identifier]

/-- The type's text is kept whether or not it was read further. -/
theorem type_ofToken (levels : Nat) (token : Text) :
    (ofToken levels token).type = (divide token.trim).2 := by
  rcases ofToken_cases levels token with h | ⟨below, o, -, ho, h⟩
  · rw [h, type]
  · rw [h, type, Signature.ofOutline, whole_eq_trim ho, trim_divide (trim_trim token)]

theorem divided_ofToken (levels : Nat) (token : Text) :
    Divided (ofToken levels token).raw (ofToken levels token).identifier
      (ofToken levels token).type := by
  rw [raw_ofToken, identifier_ofToken, type_ofToken]
  exact divided_divide (trim_trim token)

/-- The signature of an entry was read from the entry's type, for one level less. -/
theorem outline_of_signature? {levels : Nat} {token : Text} {g : Signature}
    (h : (ofToken levels token).signature? = some g) :
    ∃ below o, levels = below + 1 ∧ of? (divide token.trim).2 = some o ∧
      g = Signature.ofOutline below o := by
  rcases ofToken_cases levels token with hplain | ⟨below, o, hbelow, ho, hfunc⟩
  · rw [hplain] at h
    contradiction
  · rw [hfunc] at h
    exact ⟨below, o, hbelow, ho, (Option.some.inj h).symm⟩

theorem exists_outline_of_signature? {levels : Nat} {token : Text} {g : Signature}
    (h : (ofToken levels token).signature? = some g) :
    ∃ below t o, levels = below + 1 ∧ of? t = some o ∧ g = Signature.ofOutline below o := by
  obtain ⟨below, o, hbelow, ho, hg⟩ := outline_of_signature? h
  exact ⟨below, _, o, hbelow, ho, hg⟩

end Entry

namespace Signature

/-- The function type stands so many levels below the outermost one. -/
inductive NodeAt (s : Signature) : Nat → Signature → Prop
  | root : NodeAt s 0 s
  | entry {n : Nat} {f g : Signature} {e : Entry} (hf : NodeAt s n f)
      (he : e ∈ f.params ++ f.results) (hg : e.signature? = some g) : NodeAt s (n + 1) g

/-- The entry stands at the level; those of the outermost function type are at level one. -/
inductive EntryAt (s : Signature) : Nat → Entry → Prop
  | mk {n : Nat} {f : Signature} {e : Entry} (hf : s.NodeAt n f)
      (he : e ∈ f.params ++ f.results) : EntryAt s (n + 1) e

/-- The text behind the parameters, when the results have the given texts. -/
inductive ResultsWritten : List Text → Text → Prop
  | none : ResultsWritten [] []
  | list {xs : List Text} {inside : Text} (h : Lists xs inside) :
      ResultsWritten xs ('(' :: inside ++ [')'])
  | single {x : Text} (hne : x ≠ []) : ResultsWritten [x] x

/-- The text of a function type is put together from the texts of its entries. -/
def TextKept (s : Signature) : Prop :=
  ∃ params gap tail : Text,
    s.raw = opening ++ params ++ ')' :: (gap ++ tail) ∧
      Lists (s.params.map Entry.raw) params ∧ gap.isAllBlank ∧
      ResultsWritten (s.results.map Entry.raw) tail

end Signature

namespace Outline

theorem map_trim_splitTopLevel (sep : Char) (t : Text) :
    (splitTopLevel sep t).map trim = splitTopLevel sep t := by
  unfold splitTopLevel
  split
  · rfl
  · simp [trim_trim]

theorem resultsWritten_resultTokens {o : Outline} {t : Text} (ht : t.trim = t)
    (ho : o.results = resultText t) :
    Signature.ResultsWritten (o.resultTokens.map trim) t := by
  rw [resultTokens, ho]
  rcases resultText_cases t with ⟨rfl, hr⟩ | ⟨inside, rfl, -, hr⟩ | ⟨hne, -, hr⟩
  · exact .none
  · simp only [hr, map_trim_splitTopLevel]
    exact .list (lists_of_trim (lists_splitTopLevel (trim inside)))
  · simp only [hr, List.map_singleton, ht]
    exact .single hne

end Outline

namespace Signature

theorem map_raw_ofToken (levels : Nat) (tokens : List Text) :
    (tokens.map (Entry.ofToken levels)).map Entry.raw = tokens.map trim := by
  rw [List.map_map]
  exact List.map_congr_left fun token _ => Entry.raw_ofToken levels token

/-- Whatever has an outline keeps its text. -/
theorem textKept_ofOutline (levels : Nat) {t : Text} {o : Outline} (h : of? t = some o) :
    (ofOutline levels o).TextKept := by
  obtain ⟨w, rest, ht, -, rfl⟩ := of?_eq_some_iff.mp h
  obtain ⟨gap, hgap, hrest⟩ := exists_append_trimStart rest
  -- the text is trimmed, so only blanks in front are taken from what follows the parameters
  have htrim : trim rest = trimStart rest := by
    have hsuffix : trimStart rest <:+ trim t := by
      rw [ht]
      exact (trimStart_isSuffix rest).trans ⟨opening ++ w ++ [')'], by simp⟩
    rw [trim]
    exact trimEnd_eq_self_of_isSuffix hsuffix (trimEnd_trim t)
  refine ⟨w, gap, trim rest, ?_, ?_, hgap, ?_⟩
  · rw [htrim, ← hrest]
    exact ht
  · rw [ofOutline, map_raw_ofToken, paramTokens, map_trim_splitTopLevel]
    exact lists_of_trim (lists_splitTopLevel (trim w))
  · rw [ofOutline, map_raw_ofToken]
    exact resultsWritten_resultTokens (trim_trim rest) rfl

/-- Every node was read from a text with an outline, for as many levels as are left. The text
has what the outermost one has, if the types of entries inherit it. -/
theorem NodeAt.exists_outline_of_inherited {P : Text → Prop}
    (hP : ∀ t o token, P t → of? t = some o → token ∈ o.paramTokens ++ o.resultTokens →
      P (Entry.divide token.trim).2)
    {levels n : Nat} {t : Text} {o : Outline} {f : Signature} (ht : P t) (ho : of? t = some o)
    (h : NodeAt (ofOutline levels o) n f) :
    ∃ left t' o', left + n = levels ∧ P t' ∧ of? t' = some o' ∧ f = ofOutline left o' := by
  induction h with
  | root => exact ⟨levels, t, o, rfl, ht, ho, rfl⟩
  | entry hf he hg ih =>
    obtain ⟨left, t', o', rfl, ht', ho', rfl⟩ := ih
    simp only [ofOutline, ← List.map_append] at he
    obtain ⟨token, htoken, rfl⟩ := List.mem_map.mp he
    obtain ⟨below, o'', rfl, ho'', rfl⟩ := Entry.outline_of_signature? hg
    exact ⟨below, _, o'', by omega, hP t' o' token ht' ho' htoken, ho'', rfl⟩

theorem NodeAt.exists_outline {levels n : Nat} {t : Text} {o : Outline} {f : Signature}
    (ho : of? t = some o) (h : NodeAt (ofOutline levels o) n f) :
    ∃ left t' o', left + n = levels ∧ of? t' = some o' ∧ f = ofOutline left o' := by
  have hP : ∀ (t : Text) o token, True → of? t = some o →
      token ∈ o.paramTokens ++ o.resultTokens → True := fun _ _ _ h _ _ => h
  obtain ⟨left, t', o', hlevels, -, ho', hf⟩ := h.exists_outline_of_inherited hP trivial ho
  exact ⟨left, t', o', hlevels, ho', hf⟩

/-- Every entry is what a token of such an outline is read as. -/
theorem EntryAt.exists_token_of_inherited {P : Text → Prop}
    (hP : ∀ t o token, P t → of? t = some o → token ∈ o.paramTokens ++ o.resultTokens →
      P (Entry.divide token.trim).2)
    {levels level : Nat} {t : Text} {o : Outline} {e : Entry} (ht : P t) (ho : of? t = some o)
    (h : EntryAt (ofOutline levels o) level e) :
    ∃ left t' o' token, left + level = levels + 1 ∧ P t' ∧ of? t' = some o' ∧
      token ∈ o'.paramTokens ++ o'.resultTokens ∧ e = Entry.ofToken left token := by
  obtain ⟨hf, he⟩ := h
  obtain ⟨left, t', o', rfl, ht', ho', rfl⟩ := hf.exists_outline_of_inherited hP ht ho
  simp only [ofOutline, ← List.map_append] at he
  obtain ⟨token, htoken, rfl⟩ := List.mem_map.mp he
  exact ⟨left, t', o', token, rfl, ht', ho', htoken, rfl⟩

theorem exists_outline_of_read {t : Text} {s : Signature} (h : read t = .ok s) :
    ∃ o, of? t = some o ∧ s = ofOutline nestingLimit o := by
  unfold read ofText? at h
  cases ho : of? t with
  | none => simp [ho] at h
  | some o =>
    rw [ho] at h
    exact ⟨o, rfl, (Except.ok.inj h).symm⟩

/-- A text that is read is kept whole: at every node the text of the function type is put
together from the texts of its entries, and the text of each entry from its parts. -/
theorem read_keeps_text {t : Text} {s : Signature} (h : read t = .ok s) :
    s.raw = t.trim ∧ ∀ n f, s.NodeAt n f → f.TextKept ∧
      ∀ e ∈ f.params ++ f.results,
        e.raw.trim = e.raw ∧ Entry.Divided e.raw e.identifier e.type := by
  obtain ⟨o, ho, rfl⟩ := exists_outline_of_read h
  refine ⟨whole_eq_trim ho, ?_⟩
  intro n f hf
  obtain ⟨left, t', o', -, ho', rfl⟩ := hf.exists_outline ho
  refine ⟨textKept_ofOutline left ho', ?_⟩
  intro e he
  simp only [ofOutline, ← List.map_append] at he
  obtain ⟨token, -, rfl⟩ := List.mem_map.mp he
  refine ⟨?_, Entry.divided_ofToken left token⟩
  rw [Entry.raw_ofToken, trim_trim]

/-- A function type with a stray closer, a brace that stays open, an empty parameter, an
empty result and blanks of several kinds. -/
def crooked : Signature :=
  let int : Text := ['i', 'n', 't']
  { raw := "func( \x7da\u3000int,, f func(y ...int)\u2003func() ,z \x7bq, r )\t( n int , )".toList
    params := [
      .plain "\x7da\u3000int".toList ['\x7d', 'a'] int,
      .plain [] [] [],
      .func "f func(y ...int)\u2003func()".toList ['f'] {
        raw := "func(y ...int)\u2003func()".toList
        params := [.plain "y ...int".toList ['y'] "...int".toList]
        results := [.func "func()".toList [] { raw := "func()".toList, params := [], results := [] }] },
      .plain "z \x7bq, r".toList ['z'] "\x7bq, r".toList]
    results := [.plain "n int".toList ['n'] int, .plain [] [] []] }

theorem read_keeps_text_crooked :
    read ('\u00a0' :: crooked.raw ++ [' ']) = .ok crooked ∧
      crooked.raw = trim ('\u00a0' :: crooked.raw ++ [' ']) ∧
      ∀ n f, crooked.NodeAt n f → f.TextKept ∧
        ∀ e ∈ f.params ++ f.results,
          e.raw.trim = e.raw ∧ Entry.Divided e.raw e.identifier e.type :=
  have h : read ('\u00a0' :: crooked.raw ++ [' ']) = .ok crooked := by cbv
  ⟨h, read_keeps_text h⟩

end Signature
end CompletionSnippets
