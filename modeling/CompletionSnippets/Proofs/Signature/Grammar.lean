import CompletionSnippets.Proofs.Nesting.Listing
import CompletionSnippets.Proofs.Outline
import CompletionSnippets.Signature.Basic

/-!
# The grammar of signatures

A declared function type has a list of items as parameters, and as results nothing,
one bare type, or a list of items. An item is a plain type or again a declared
function type, with a name before it or without. Names and plain types are texts of
which the grammar asks only that they be closed and keep commas, and blanks where
these would divide an item, inside brackets. Nothing bounds the length of a list or
the depth of a declaration.

A declaration is written with a comma and a space between items and a space before a
name's type and before the results. It denotes the signature whose every node keeps
the text that the node is written as.
-/
namespace CompletionSnippets.Grammar
open Text Outline

/-- A plain type: any closed text that shows no comma and does not begin like a
function type. -/
structure Phrase where
  text : Text
  ne_nil : text ≠ []
  trimmed : trim text = text
  closed : Closed text
  noComma : NoneOutside (· == ',') text
  notFunc : ¬ opening <+: text

/-- A name: a closed text that shows neither comma nor blank and does not begin like a
function type. -/
structure Word where
  text : Text
  ne_nil : text ≠ []
  closed : Closed text
  noComma : NoneOutside (· == ',') text
  noBlank : NoneOutside isBlank text
  notFunc : ¬ opening <+: text

mutual

/-- An entry of a list of parameters or results. -/
inductive Item where
  /-- A plain type with a name. -/
  | named (name : Word) (type : Phrase)
  /-- A plain type alone; a blank in it would divide it. -/
  | unnamed (type : Phrase) (noBlank : NoneOutside isBlank type.text)
  /-- A function type, with or without a name. -/
  | func (name : Option Word) (type : Func)

/-- What a function type declares after its parameters. -/
inductive Results where
  | none
  /-- One plain type; in parentheses it would be a list. -/
  | bare (type : Phrase) (noBlank : NoneOutside isBlank type.text)
      (notEnclosed : ¬ Enclosed type.text)
  /-- One function type. -/
  | bareFunc (type : Func)
  /-- Any number of items in parentheses. -/
  | list (items : List Item)

/-- A declared function type. -/
inductive Func where
  | mk (params : List Item) (results : Results)

end

/-- A type as it is written behind a name, if there is one. -/
def behind : Option Word → Text → Text
  | none, type => type
  | some name, type => name.text ++ ' ' :: type

mutual

def Item.print : Item → Text
  | .named name type => behind (some name) type.text
  | .unnamed type _ => type.text
  | .func name type => behind name type.print

def Results.print : Results → Text
  | .none => []
  | .bare type _ _ => ' ' :: type.text
  | .bareFunc type => ' ' :: type.print
  | .list items => ' ' :: ('(' :: joinWith commaSpace (printAll items) ++ [')'])

def Func.print : Func → Text
  | .mk params results =>
    opening ++ joinWith commaSpace (printAll params) ++ ')' :: results.print

def printAll : List Item → List Text
  | [] => []
  | item :: items => item.print :: printAll items

end

/-- The text of a name; without a name it is empty. -/
def nameText : Option Word → Text
  | none => []
  | some name => name.text

mutual

/-- The entry that an item denotes. -/
def Item.entry : Item → Entry
  | .named name type => .plain (behind (some name) type.text) name.text type.text
  | .unnamed type _ => .plain type.text [] type.text
  | .func name type => .func (behind name type.print) (nameText name) type.signature

def Results.entries : Results → List Entry
  | .none => []
  | .bare type _ _ => [.plain type.text [] type.text]
  | .bareFunc type => [.func type.print [] type.signature]
  | .list items => entriesAll items

/-- The signature that a declaration denotes. -/
def Func.signature : Func → Signature
  | .mk params results =>
    { raw := (Func.mk params results).print
      params := entriesAll params
      results := results.entries }

def entriesAll : List Item → List Entry
  | [] => []
  | item :: items => item.entry :: entriesAll items

end

theorem Phrase.listable (p : Phrase) : Listable p.text where
  ne_nil := p.ne_nil
  trimmed := p.trimmed
  closed := p.closed
  unbroken := p.closed.unbroken p.noComma

theorem Word.trimStart_text (w : Word) : trimStart w.text = w.text := by
  have hne := w.ne_nil
  have hblank := w.noBlank
  rw [trimStart_eq_self_iff]
  cases h : w.text with
  | nil => simp [h] at hne
  | cons c t =>
    rintro _ ⟨⟩
    rw [h] at hblank
    exact hblank ⟨0, by simp⟩ ⟨rfl, rfl⟩

theorem listable_behind {t : Text} (name : Option Word) (ht : Listable t) :
    Listable (behind name t) := by
  cases name with
  | none => exact ht
  | some w =>
    have hspace : Closed [' '] := by decide
    have hsep : Unbroken (· == ',') {} [' '] := by simp [Unbroken]
    refine ⟨?_, ?_, w.closed.append (hspace.append ht.closed), ?_⟩
    · exact List.append_ne_nil_of_left_ne_nil w.ne_nil _
    · rw [trim_eq_self_iff]
      refine ⟨trimStart_append w.ne_nil w.trimStart_text _, ?_⟩
      rw [show behind (some w) t = w.text ++ [' '] ++ t by simp [behind]]
      exact trimEnd_append ht.ne_nil (trim_eq_self_iff.mp ht.trimmed).2 _
    · rw [behind, unbroken_append, w.closed.after_eq, ← List.singleton_append, unbroken_append]
      exact ⟨w.closed.unbroken w.noComma, hsep, ht.unbroken⟩

/-- What the results look like behind the closing parenthesis of the parameters. -/
structure Trailing (t : Text) : Prop where
  trimEnd : trimEnd t = t
  closed : Closed t
  unbroken : Unbroken (· == ',') {} t

theorem trailing_nil : Trailing [] := ⟨rfl, by decide, trivial⟩

theorem trailing_space_cons {t : Text} (ht : Listable t) : Trailing (' ' :: t) where
  trimEnd := trimEnd_append ht.ne_nil (trim_eq_self_iff.mp ht.trimmed).2 [' ']
  closed := ht.closed.cons (by decide)
  unbroken := ⟨by simp, ht.unbroken⟩

theorem listable_parenthesize {t : Text} (ht : Closed t) : Listable ('(' :: t ++ [')']) where
  ne_nil := by simp
  trimmed := trim_eq_self_of_ends (by rfl : isBlank '(' = false) (by rfl : isBlank ')' = false) rfl
    List.getLast?_concat
  closed := ht.parenthesize
  unbroken := ht.unbroken_parenthesize rfl rfl

theorem listable_print_mk {params results : Text} (hp : Closed params) (hr : Trailing results) :
    Listable (opening ++ params ++ ')' :: results) := by
  -- the keyword stands before a pair of parentheses
  have hsplit : opening ++ params ++ ')' :: results =
      ['f', 'u', 'n', 'c'] ++ ('(' :: params ++ [')']) ++ results := by
    simp [opening]
  have hkey : Closed ['f', 'u', 'n', 'c'] := by decide
  have hpair := listable_parenthesize hp
  rw [hsplit]
  refine ⟨by simp, ?_, (hkey.append hpair.closed).append hr.closed, ?_⟩
  · rw [trim_eq_self_iff]
    refine ⟨by rw [trimStart_eq_self_iff]; rintro c ⟨⟩; rfl, ?_⟩
    by_cases hne : results = []
    · rw [hne, List.append_nil]
      exact trimEnd_append hpair.ne_nil (trim_eq_self_iff.mp hpair.trimmed).2 _
    · exact trimEnd_append hne hr.trimEnd _
  · rw [unbroken_append, unbroken_append, hkey.after_eq, (hkey.append hpair.closed).after_eq]
    exact ⟨⟨by simp [Unbroken], hpair.unbroken⟩, hr.unbroken⟩

mutual

theorem Item.listable_print : (item : Item) → Listable item.print
  | .named name type => listable_behind (some name) type.listable
  | .unnamed type _ => type.listable
  | .func name type => listable_behind name type.listable_print

theorem Results.trailing_print : (results : Results) → Trailing results.print
  | .none => trailing_nil
  | .bare type _ _ => trailing_space_cons type.listable
  | .bareFunc type => trailing_space_cons type.listable_print
  | .list items => by
    refine trailing_space_cons (listable_parenthesize (closed_joinWith fun t ht => ?_))
    exact (listable_printAll items t ht).closed

theorem Func.listable_print : (f : Func) → Listable f.print
  | .mk params results =>
    listable_print_mk (closed_joinWith fun t ht => (listable_printAll params t ht).closed)
      results.trailing_print

theorem listable_printAll : (items : List Item) → ∀ t ∈ printAll items, Listable t
  | [] => by simp [printAll]
  | item :: items => by
    rw [printAll, List.forall_mem_cons]
    exact ⟨item.listable_print, listable_printAll items⟩

end

end CompletionSnippets.Grammar
