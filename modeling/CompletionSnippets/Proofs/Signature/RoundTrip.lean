import CompletionSnippets.Proofs.Signature.Grammar
import CompletionSnippets.Proofs.Signature.Spacing

/-!
# Reading what was written

Every declaration of the grammar, written out, is read as the signature that it
denotes. The written text of a declaration has the outline that its parts make up:
the parameters come apart at their commas, the results by their shape, and each item
at the blank behind its name. So reading to any depth gives the signature back, by
induction on the declaration. The nesting limit then only asks that the declaration
be no deeper than the limit, since truncation leaves such signatures alone.
-/
namespace CompletionSnippets.Grammar
open Text Outline

theorem Phrase.of?_text (p : Phrase) : of? p.text = none := by
  cases h : of? p.text with
  | none => rfl
  | some o =>
    obtain ⟨w, rest, ht, -, -⟩ := of?_eq_some_iff.mp h
    rw [p.trimmed] at ht
    exact absurd ⟨w ++ ')' :: rest, by rw [ht, List.append_assoc]⟩ p.notFunc

theorem Func.opening_prefix_print (f : Func) : opening <+: f.print := by
  obtain ⟨params, results⟩ := f
  exact ⟨_, (List.append_assoc ..).symm⟩

/-- The outline of a declaration, put together from its parts. -/
def Func.outline : Func → Outline
  | .mk params results =>
    { whole := (Func.mk params results).print
      params := joinWith commaSpace (printAll params)
      results := resultText (trim results.print) }

theorem Func.of?_print (f : Func) : of? f.print = some f.outline := by
  obtain ⟨params, results⟩ := f
  have hparams := listable_printAll params
  have hclosed := closed_joinWith fun t ht => (hparams t ht).closed
  rw [of?_eq_some_iff]
  refine ⟨_, results.print, (Func.mk params results).listable_print.trimmed, hclosed.parens, ?_⟩
  rw [(Func.mk params results).listable_print.trimmed, trim_joinWith hparams, outline]

theorem Func.paramTokens_outline (params : List Item) (results : Results) :
    (Func.mk params results).outline.paramTokens = printAll params :=
  splitTopLevel_joinWith (listable_printAll params)

/-- The entries of the results as they are written. -/
def Results.tokens : Results → List Text
  | .none => []
  | .bare type _ _ => [type.text]
  | .bareFunc type => [type.print]
  | .list items => printAll items

theorem Func.not_enclosed_print (f : Func) : ¬ Enclosed f.print := by
  rintro ⟨inside, hf, -⟩
  obtain ⟨rest, hrest⟩ := f.opening_prefix_print
  rw [hf] at hrest
  exact absurd (congrArg List.head? hrest) (by simp [opening])

theorem resultText_space_cons {t : Text} (ht : Listable t) (h : ¬ Enclosed t) :
    resultText (trim (' ' :: t)) = .single t := by
  rw [trim_space_cons, ht.trimmed, resultText_of_not_enclosed ht.ne_nil h]

/-- Each of the three ways to write results is told apart from the others. -/
theorem Func.resultTokens_outline (params : List Item) (results : Results) :
    (Func.mk params results).outline.resultTokens = results.tokens := by
  unfold resultTokens Func.outline
  cases results with
  | none => rfl
  | bare type noBlank notEnclosed =>
    simp only [Results.print, resultText_space_cons type.listable notEnclosed, Results.tokens]
  | bareFunc type =>
    simp only [Results.print, resultText_space_cons type.listable_print type.not_enclosed_print,
      Results.tokens]
  | list items =>
    have hitems := listable_printAll items
    have hclosed := closed_joinWith fun t ht => (hitems t ht).closed
    have htrim := (listable_parenthesize hclosed).trimmed
    simp only [Results.print, trim_space_cons, htrim, resultText_of_enclosed hclosed.parens,
      trim_joinWith hitems, splitTopLevel_joinWith hitems, Results.tokens]

theorem divide_behind_some (w : Word) {t : Text} (ht : Listable t) :
    Entry.divide (behind (some w) t) = (w.text, t) := by
  have hblank := w.closed.unbroken w.noBlank
  have htrim := (trim_eq_self_iff.mp ht.trimmed).1
  exact Entry.divide_spaced w.ne_nil w.notFunc hblank (w.closed.after_eq {}) htrim w.trimStart_text

theorem divide_phrase (p : Phrase) (hblank : NoneOutside isBlank p.text) :
    Entry.divide p.text = ([], p.text) := by
  have hexposed := unbroken_iff_noneExposed.mp (p.closed.unbroken hblank)
  exact Entry.divide_unnamed (trim_eq_self_iff.mp p.trimmed).1 (.inr hexposed)

theorem divide_behind_print (name : Option Word) (f : Func) :
    Entry.divide (behind name f.print) = (nameText name, f.print) := by
  cases name with
  | some w => exact divide_behind_some w f.listable_print
  | none =>
    have htrim := (trim_eq_self_iff.mp f.listable_print.trimmed).1
    exact Entry.divide_unnamed htrim (.inl f.opening_prefix_print)

theorem read_plain {t name type : Text} (ht : Listable t) (hd : Entry.divide t = (name, type))
    (ho : of? type = none) : Entry.ofTokenUnlimited t = .plain t name type := by
  rw [Entry.ofTokenUnlimited_of_none (by rw [ht.trimmed, hd, ho]), ht.trimmed, hd]

theorem read_func {t name : Text} {f : Func} (ht : Listable t)
    (hd : Entry.divide t = (name, f.print)) :
    Entry.ofTokenUnlimited t = .func t name (Signature.ofOutlineUnlimited f.outline) := by
  rw [Entry.ofTokenUnlimited_of_some (by rw [ht.trimmed, hd, f.of?_print]), ht.trimmed, hd]

mutual

theorem Item.ofTokenUnlimited_print : (item : Item) → Entry.ofTokenUnlimited item.print = item.entry
  | .named name type =>
    read_plain (listable_behind (some name) type.listable)
      (divide_behind_some name type.listable) type.of?_text
  | .unnamed type noBlank => read_plain type.listable (divide_phrase type noBlank) type.of?_text
  | .func name type => by
    have hlist := listable_behind name type.listable_print
    rw [Item.print, read_func hlist (divide_behind_print name type), type.read_outline, Item.entry]

theorem Results.map_read_tokens :
    (results : Results) → results.tokens.map Entry.ofTokenUnlimited = results.entries
  | .none => rfl
  | .bare type noBlank _ => by
    rw [Results.tokens, List.map_singleton,
      read_plain type.listable (divide_phrase type noBlank) type.of?_text, Results.entries]
  | .bareFunc type => by
    have hdivide := divide_behind_print none type
    rw [Results.tokens, List.map_singleton, read_func type.listable_print hdivide,
      type.read_outline, Results.entries, nameText]
  | .list items => map_read_printAll items

theorem Func.read_outline : (f : Func) → Signature.ofOutlineUnlimited f.outline = f.signature
  | .mk params results => by
    rw [Signature.ofOutlineUnlimited, Func.paramTokens_outline, Func.resultTokens_outline,
      map_read_printAll params, results.map_read_tokens, Func.signature]
    rfl

theorem map_read_printAll :
    (items : List Item) → (printAll items).map Entry.ofTokenUnlimited = entriesAll items
  | [] => rfl
  | item :: items => by
    rw [printAll, List.map_cons, item.ofTokenUnlimited_print, map_read_printAll items, entriesAll]

end

/-- A declaration that is no deeper than the nesting limit, written out and read, gives
the signature that it denotes. -/
theorem read_print (f : Func) (h : f.signature.depth ≤ 256) :
    Signature.read f.print = .ok f.signature := by
  have hlimit : f.signature.depth ≤ Signature.nestingLimit := h
  have houtline := Signature.ofOutline_eq_truncate Signature.nestingLimit f.outline
  rw [f.read_outline, Signature.truncate_of_depth_le hlimit] at houtline
  simp only [Signature.read, Signature.ofText?, f.of?_print, Option.map_some, houtline]

/-- `func(fn func(int) error, c chan int) func() (n int)`. -/
def curried : Func :=
  let int : Phrase := ⟨['i', 'n', 't'], by decide, by decide, by decide, by decide, by decide⟩
  let error : Phrase :=
    ⟨['e', 'r', 'r', 'o', 'r'], by decide, by decide, by decide, by decide, by decide⟩
  let chanInt : Phrase := ⟨['c', 'h', 'a', 'n', ' ', 'i', 'n', 't'], by decide, by decide,
    by decide, by decide, by decide⟩
  let fn : Word := ⟨['f', 'n'], by decide, by decide, by decide, by decide, by decide⟩
  let c : Word := ⟨['c'], by decide, by decide, by decide, by decide, by decide⟩
  let n : Word := ⟨['n'], by decide, by decide, by decide, by decide, by decide⟩
  let callback : Func :=
    .mk [.unnamed int (by decide)] (.bare error (by decide) (by simp [Enclosed, error]))
  .mk [.func (some fn) callback, .named c chanInt] (.bareFunc (.mk [] (.list [.named n int])))

theorem read_print_curried :
    curried.signature.depth ≤ 256 ∧
      curried.print = "func(fn func(int) error, c chan int) func() (n int)".toList ∧
      Signature.read curried.print = .ok curried.signature :=
  ⟨by decide, by decide, read_print curried (by decide)⟩

end CompletionSnippets.Grammar
