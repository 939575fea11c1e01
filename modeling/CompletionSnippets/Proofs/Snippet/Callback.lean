import CompletionSnippets.Proofs.Signature.Assembly
import CompletionSnippets.Proofs.Signature.Spacing
import CompletionSnippets.Proofs.Snippet.ShownText

/-!
# What a callback declares

The literal that stands for a parameter of function type begins with a heading: the
parameters of the function type, declared one by one, and the types of its results. The
heading is again a function type, and it declares what the parameter does: parameters with
the same identifiers and types, and results of the same types. Empty entries, braces that do
not match, variadic parameters and types kept as text are no exception.

A result loses its identifier in the heading, and what is left of it must not be divided or
taken for a list. It is not when its type shows no blank, unless it begins like a function
type, and when an only result is not itself in parentheses.
-/
namespace CompletionSnippets
open Text Outline

namespace Entry

theorem declared_eq (e : Entry) :
    ∃ gap : Text, gap.isAllBlank ∧ e.declared = e.identifier ++ gap ++ e.type := by
  by_cases h : e.identifier = []
  · exact ⟨[], rfl, by rw [declared, if_pos h, h, List.nil_append, List.nil_append]⟩
  · refine ⟨[' '], rfl, ?_⟩
    rw [declared, if_neg h, List.append_assoc, List.singleton_append]

section Read
variable (levels : Nat) {token : Text}

theorem scan_declared (h : Unbroken (· == ',') {} token) :
    Unbroken (· == ',') {} (ofToken levels token).declared ∧
      Depth.after {} (ofToken levels token).declared = Depth.after {} token := by
  obtain ⟨hidentifier, htype, hafter⟩ := scan_parts levels h
  obtain ⟨gap, hgap, hdeclared⟩ := (ofToken levels token).declared_eq
  rw [hdeclared, unbroken_spaced hgap (after_identifier levels token),
    after_spaced hgap (after_identifier levels token)]
  exact ⟨⟨hidentifier, htype⟩, hafter⟩

theorem balanced_declared (h : Balanced '(' ')' token) :
    Balanced '(' ')' (ofToken levels token).declared := by
  obtain ⟨gap, hgap, hdeclared⟩ := (ofToken levels token).declared_eq
  rw [hdeclared, balanced_spaced hgap (after_identifier levels token)]
  exact balanced_parts levels h

theorem trim_ne_nil_of_named (hne : (ofToken levels token).identifier ≠ []) : trim token ≠ [] := by
  rw [identifier_ofToken] at hne
  intro hnil
  rw [hnil] at hne
  contradiction

theorem declared_ne_nil (hne : trim token ≠ []) : (ofToken levels token).declared ≠ [] := by
  obtain ⟨gap, -, hdeclared⟩ := (ofToken levels token).declared_eq
  rw [hdeclared]
  exact List.append_ne_nil_of_right_ne_nil _ (type_ne_nil levels hne)

theorem trim_declared (token : Text) :
    trim (ofToken levels token).declared = (ofToken levels token).declared := by
  unfold declared
  split
  · exact trim_type levels token
  rename_i hne
  have htype := type_ne_nil levels (trim_ne_nil_of_named levels hne)
  rw [trim_eq_self_iff]
  constructor
  · exact trimStart_append hne (trimStart_identifier levels token) _
  · rw [← List.singleton_append, ← List.append_assoc]
    exact trimEnd_append htype (trim_eq_self_iff.mp (trim_type levels token)).2 _

theorem divide_declared (token : Text) :
    divide (ofToken levels token).declared =
      ((ofToken levels token).identifier, (ofToken levels token).type) := by
  unfold declared
  split
  · rename_i hnil
    have hwhole := trim_eq_type_of_unnamed levels hnil
    have htype := type_ofToken levels token
    rw [← hwhole] at htype ⊢
    exact Prod.ext (identifier_ofToken levels token).symm htype.symm
  · rename_i hne
    obtain ⟨-, hblank, hafter⟩ := (divided_ofToken levels token).exists_gap
    exact divide_spaced hne (not_opening_identifier levels hne) hblank hafter
      (trim_eq_self_iff.mp (trim_type levels token)).1 (trimStart_identifier levels token)

end Read
end Entry

namespace Signature

/-- A function literal of the signature without its body. -/
def heading (s : Signature) : Text :=
  opening ++ joinWith commaSpace (s.params.map Entry.declared) ++
    ')' :: resultTypes (s.results.map Entry.type)

def emptyBody : Text := [' ', '{', '\n', '\t', '\n', '}']

theorem literal_eq (s : Signature) : s.literal = s.heading ++ emptyBody := by
  simp [literal, heading, emptyBody]

section Heading
variable {levels : Nat} {t : Text} {o : Outline}

theorem declared_paramTokens (levels : Nat) (ho : of? t = some o) :
    let declared := o.paramTokens.map fun x => (Entry.ofToken levels x).declared
    Pieces ',' declared ∧ ∀ x ∈ declared, Balanced '(' ')' x := by
  obtain ⟨hpieces, hbalanced⟩ := tokens_paramTokens ho
  refine ⟨hpieces.map ?_ ?_ ?_, List.forall_mem_map.mpr fun x hx => ?_⟩
  · exact fun x _ => Entry.trim_declared levels x
  · exact fun x hx => Entry.scan_declared levels (hpieces.unbroken x hx)
  · intro x hx hnil
    rw [← hpieces.trimmed x hx]
    by_contra hne
    exact Entry.declared_ne_nil levels hne hnil
  · exact Entry.balanced_declared levels (hbalanced x hx)

theorem typed_tokens (levels : Nat) {ts : List Text} (hts : Pieces ',' ts)
    (hb : ∀ x ∈ ts, Balanced '(' ')' x) :
    let types := ts.map fun x => (Entry.ofToken levels x).type
    Pieces ',' types ∧ ∀ x ∈ types, Balanced '(' ')' x := by
  refine ⟨hts.map ?_ ?_ ?_, List.forall_mem_map.mpr fun x hx => ?_⟩
  · exact fun x _ => Entry.trim_type levels x
  · exact fun x hx => (Entry.scan_parts levels (hts.unbroken x hx)).2
  · intro x hx hnil
    rw [← hts.trimmed x hx]
    by_contra hne
    exact Entry.type_ne_nil levels hne hnil
  · exact (Entry.balanced_parts levels (hb x hx)).2

/-- The types of results are told apart again, unless an only one is in parentheses. -/
theorem resultTokensOf_resultTypes (ho : of? t = some o)
    (honly : ∀ x, o.resultTokens = [x] → ¬ Enclosed (Entry.ofToken levels x).type) :
    resultTokensOf (resultTypes (o.resultTokens.map fun x => (Entry.ofToken levels x).type)) =
      o.resultTokens.map fun x => (Entry.ofToken levels x).type := by
  have htokens := tokens_resultTokens ho
  generalize o.resultTokens = ts at htokens honly
  match ts with
  | [] => exact resultTokensOf_of_isAllBlank rfl
  | [x] =>
    have hne : trim x ≠ [] := by
      rcases htokens with ⟨hpieces, -⟩ | ⟨r, -, hr, htrim, hne⟩
      · rw [hpieces.trimmed x List.mem_cons_self]
        rintro rfl
        exact hpieces.ne_blank rfl
      · obtain rfl := List.singleton_inj.mp hr
        rwa [htrim]
    exact resultTokensOf_bare (Entry.trim_type levels x) (Entry.type_ne_nil levels hne)
      (honly x rfl)
  | x :: y :: ts =>
    rcases htokens with ⟨hpieces, hbalanced⟩ | ⟨r, -, hr, -⟩
    · obtain ⟨hptypes, hbtypes⟩ := typed_tokens levels hpieces hbalanced
      exact resultTokensOf_list hptypes hbtypes
    · simp at hr

/-- The heading of what was read is read with the same identifiers and types. -/
theorem exists_read_heading (ho : of? t = some o)
    (hresults : ∀ r ∈ (ofOutline levels o).results, opening <+: r.type ∨ NoneExposed isBlank r.type)
    (honly : ∀ r, (ofOutline levels o).results = [r] → ¬ Enclosed r.type) :
    ∃ h, read (ofOutline levels o).heading = .ok h ∧
      h.params.map (fun e => (e.identifier, e.type)) =
        (ofOutline levels o).params.map (fun e => (e.identifier, e.type)) ∧
      h.results.map Entry.type = (ofOutline levels o).results.map Entry.type := by
  obtain ⟨hpieces, hbalanced⟩ := declared_paramTokens levels ho
  obtain ⟨h, hread, hparams, hrtypes⟩ := exists_read_assembled hpieces hbalanced
    (resultTypes ((ofOutline levels o).results.map Entry.type))
  have hheading : (ofOutline levels o).heading =
      opening ++
          joinWith commaSpace (o.paramTokens.map fun x => (Entry.ofToken levels x).declared) ++
        ')' :: resultTypes ((ofOutline levels o).results.map Entry.type) := by
    rw [heading, ofOutline, List.map_map]
    rfl
  rw [← hheading] at hread
  have htypes : (ofOutline levels o).results.map Entry.type =
      o.resultTokens.map fun x => (Entry.ofToken levels x).type := List.map_map
  have hsingle : ∀ x, o.resultTokens = [x] → ¬ Enclosed (Entry.ofToken levels x).type := by
    intro x hx
    exact honly (Entry.ofToken levels x) (by rw [ofOutline, hx, List.map_singleton])
  refine ⟨h, hread, ?_, ?_⟩
  · rw [hparams, ofOutline, List.map_map, List.map_map, List.map_map]
    refine List.map_congr_left fun x _ => ?_
    simp only [Function.comp_apply, Entry.identifier_ofToken nestingLimit,
      Entry.type_ofToken nestingLimit, Entry.trim_declared, Entry.divide_declared]
  · rw [hrtypes, htypes, resultTokensOf_resultTypes ho hsingle, List.map_map, List.map_map]
    refine List.map_congr_left fun x hx => ?_
    have hdivide := Entry.divide_unnamed (trim_eq_self_iff.mp (Entry.trim_type levels x)).1
      (hresults _ (List.mem_map_of_mem hx))
    simp only [Function.comp_apply, Entry.type_ofToken nestingLimit, Entry.trim_type, hdivide]

end Heading
end Signature

namespace Entry
variable {e : Entry} {s : Signature}

theorem type_of_signature? (h : e.signature? = some s) : e.type = s.raw := by
  cases e with
  | plain raw identifier type => cases h
  | func raw identifier signature =>
    obtain rfl := Option.some.inj h
    rfl

theorem argument_of_signature? (h : e.signature? = some s) : e.argument = s.literal := by
  cases e with
  | plain raw identifier type => cases h
  | func raw identifier signature =>
    obtain rfl := Option.some.inj h
    rfl

end Entry

theorem Signature.isInfix_of_mem_texts {levels : Nat} {t x : Text} {o : Outline}
    (htokens : ∀ token, ∀ y ∈ (Entry.ofToken levels token).texts, y <:+: token)
    (ho : of? t = some o) (hx : x ∈ (ofOutline levels o).texts) : x <:+: t := by
  rw [ofOutline, texts, List.mem_cons, List.mem_append, Entry.mem_textsOfAll,
    Entry.mem_textsOfAll] at hx
  rcases hx with rfl | ⟨e, he, hx⟩ | ⟨e, he, hx⟩
  · rw [whole_eq_trim ho]
    exact trim_isInfix t
  · obtain ⟨token, htoken, rfl⟩ := List.mem_map.mp he
    exact (htokens token x hx).trans (isInfix_of_mem_tokens ho (.inl htoken))
  · obtain ⟨token, htoken, rfl⟩ := List.mem_map.mp he
    exact (htokens token x hx).trans (isInfix_of_mem_tokens ho (.inr htoken))

theorem Entry.isInfix_of_mem_texts (levels : Nat) (token : Text) :
    ∀ x ∈ (ofToken levels token).texts, x <:+: token := by
  induction levels using Nat.strong_induction_on generalizing token with
  | _ levels ih =>
  have hraw := trim_isInfix token
  obtain ⟨gap, -, hparts⟩ := (divided_ofToken levels token).exists_gap.1
  rw [raw_ofToken, identifier_ofToken, type_ofToken] at hparts
  have hidentifier : (divide token.trim).1 <:+: token.trim :=
    ⟨[], gap ++ (divide token.trim).2, by rw [List.nil_append, ← List.append_assoc, ← hparts]⟩
  have htype : (divide token.trim).2 <:+: token.trim :=
    ⟨(divide token.trim).1 ++ gap, [], by rw [List.append_nil, ← hparts]⟩
  intro x hx
  rcases ofToken_cases levels token with hplain | ⟨below, o, rfl, ho, hfunc⟩
  · rw [hplain, texts] at hx
    simp only [List.mem_cons, List.not_mem_nil, or_false] at hx
    rcases hx with rfl | rfl | rfl
    · exact hraw
    · exact hidentifier.trans hraw
    · exact htype.trans hraw
  · rw [hfunc, texts, List.mem_cons, List.mem_cons] at hx
    rcases hx with rfl | rfl | hx
    · exact hraw
    · exact hidentifier.trans hraw
    · have hbelow := Signature.isInfix_of_mem_texts (ih below (Nat.lt_succ_self below)) ho hx
      exact (hbelow.trans htype).trans hraw

theorem Signature.unmarked_of_read {t : Text} {s : Signature} (h : read t = .ok s)
    (ht : Text.Unmarked t) : s.Unmarked := by
  obtain ⟨o, ho, rfl⟩ := exists_outline_of_read h
  intro x hx c hc
  exact ht c ((isInfix_of_mem_texts (Entry.isInfix_of_mem_texts nestingLimit) ho hx).mem hc)

namespace Snippet
open Template

theorem exists_mem_placeholders (detail : Detail) (first : Nat) {e : Entry} {es : List Entry}
    (h : e ∈ es) : ∃ number, placeholder detail number e ∈ placeholders detail first es := by
  induction h generalizing first with
  | head es => exact ⟨first, List.mem_cons_self⟩
  | tail e' _ ih =>
    obtain ⟨number, hmem⟩ := ih (first + stopCount detail e')
    exact ⟨number, List.mem_cons_of_mem _ hmem⟩

theorem exists_mem_template (name : Text) {s : Signature} {e : Entry} (h : e ∈ s.required) :
    ∃ number, placeholder .nameAndType number e ∈ (ofSignature name s .nameAndType).template := by
  obtain ⟨number, hmem⟩ := exists_mem_placeholders .nameAndType 1 h
  refine ⟨number, ?_⟩
  have hslot := List.mem_map_of_mem (f := fun piece => [piece]) hmem
  have harguments := mem_intercalate_of_mem [.text commaSpace] hslot List.mem_cons_self
  rw [template_ofSignature]
  exact List.mem_cons_of_mem _ (List.mem_append_left _ harguments)

/-- A function type does not begin with three dots, so its entry has a placeholder. -/
theorem mem_required {levels : Nat} {o : Outline} {e : Entry} {g : Signature}
    (he : e ∈ (Signature.ofOutline levels o).params) (hg : e.signature? = some g) :
    e ∈ (Signature.ofOutline levels o).required := by
  refine List.mem_filter.mpr ⟨he, ?_⟩
  obtain ⟨token, -, rfl⟩ := List.mem_map.mp he
  obtain ⟨below, t, o', -, ho', rfl⟩ := Entry.exists_outline_of_signature? hg
  obtain ⟨w, rest, ht, -, rfl⟩ := of?_eq_some_iff.mp ho'
  have htype : (Entry.ofToken levels token).type = opening ++ w ++ ')' :: rest := by
    rw [Entry.type_of_signature? hg, ← ht]
    rfl
  rw [Entry.isVariadic, htype]
  rfl

/-- The callback of a parameter declares what the parameter does. Without its stops it is a
heading and an empty body, and the heading is read as a function type: its parameters have
the identifiers and the types of the parameter's own, its results have their types. -/
theorem heading_of_callback {t : Text} {f g : Signature} {e : Entry} (name : Text)
    (hread : Signature.read t = .ok f) (hmarks : Text.Unmarked t)
    (he : e ∈ f.params) (hg : e.signature? = some g)
    (hresults : ∀ r ∈ g.results, opening <+: r.type ∨ NoneExposed isBlank r.type)
    (honly : ∀ r, g.results = [r] → ¬ Enclosed r.type) :
    ∃ heading h,
      (∃ number, placeholder .nameAndType number e ∈ (ofType name t .nameAndType).template) ∧
      (∀ number, (Mark.read? [] (render [placeholder .nameAndType number e])).map Mark.shown =
        some (heading ++ Signature.emptyBody)) ∧
      Signature.read heading = .ok h ∧
      h.params.map (fun p => (p.identifier, p.type)) =
        g.params.map (fun p => (p.identifier, p.type)) ∧
      h.results.map Entry.type = g.results.map Entry.type := by
  have hunmarked := (Signature.unmarked_of_read hread hmarks).param he
  obtain ⟨o, ho, rfl⟩ := Signature.exists_outline_of_read hread
  have hrequired := mem_required he hg
  have htype : ofType name t .nameAndType =
      ofSignature name (Signature.ofOutline Signature.nestingLimit o) .nameAndType := by
    simp only [ofType, Signature.ofText?, ho, Option.map_some]
  have hargument : e.argument = g.heading ++ Signature.emptyBody := by
    rw [Entry.argument_of_signature? hg, Signature.literal_eq]
  obtain ⟨token, -, rfl⟩ := List.mem_map.mp he
  obtain ⟨below, t', o', -, ho', rfl⟩ := Entry.exists_outline_of_signature? hg
  obtain ⟨h, hheading, hparams, htypes⟩ := Signature.exists_read_heading ho' hresults honly
  refine ⟨_, h, ?_, fun number => ?_, hheading, hparams, htypes⟩
  · rw [htype]
    exact exists_mem_template name hrequired
  · have hlegible : Legible [placeholder .nameAndType number (Entry.ofToken _ token)] :=
      leads_placeholder .nameAndType number hunmarked [] trivial
    have hshown := shownText_placeholder_nameAndType number
      (Entry.ofToken Signature.nestingLimit token)
    rw [Mark.read?_render hlegible, Option.map_some, ← hargument, ← hshown]
    rfl

/-- `func(a }x int,, ys ...func(), m map{ ) (err error, , k []int)`, with a stray closer, an
empty parameter, a variadic one, a brace that stays open and an empty result. -/
def tangled : Signature :=
  { raw := "func(a \x7dx int,, ys ...func(), m map\x7b ) (err error, , k\u3000[]int)".toList
    params := [
      .plain "a \x7dx int".toList ['a'] "\x7dx int".toList,
      .plain [] [] [],
      .plain "ys ...func()".toList ['y', 's'] "...func()".toList,
      .plain "m map\x7b".toList ['m'] "map\x7b".toList]
    results := [
      .plain "err error".toList "err".toList "error".toList,
      .plain [] [] [],
      .plain "k\u3000[]int".toList ['k'] "[]int".toList] }

def tangledParam : Entry := .func ("cb ".toList ++ tangled.raw) ['c', 'b'] tangled

def entangled : Signature :=
  { raw := "func(n int, ".toList ++ tangledParam.raw ++ ") bool".toList
    params := [.plain "n int".toList ['n'] "int".toList, tangledParam]
    results := [.plain "bool".toList [] "bool".toList] }

theorem heading_of_callback_tangled :
    Signature.read entangled.raw = .ok entangled ∧ Text.Unmarked entangled.raw ∧
      (∀ r ∈ tangled.results, opening <+: r.type ∨ NoneExposed isBlank r.type) ∧
      (∀ r, tangled.results = [r] → ¬ Enclosed r.type) ∧
      tangled.heading = "func(a \x7dx int, , ys ...func(), m map\x7b) (error, , []int)".toList ∧
      ∃ heading h,
        (∃ number, placeholder .nameAndType number tangledParam ∈
          (ofType "Walk".toList entangled.raw .nameAndType).template) ∧
        (∀ number, (Mark.read? [] (render [placeholder .nameAndType number tangledParam])).map
          Mark.shown = some (heading ++ Signature.emptyBody)) ∧
        Signature.read heading = .ok h ∧
        h.params.map (fun p => (p.identifier, p.type)) =
          tangled.params.map (fun p => (p.identifier, p.type)) ∧
        h.results.map Entry.type = tangled.results.map Entry.type := by
  have hread : Signature.read entangled.raw = .ok entangled := by cbv
  have hmarks : Text.Unmarked entangled.raw := by decide
  have hresults : ∀ r ∈ tangled.results, opening <+: r.type ∨ NoneExposed isBlank r.type := by
    decide
  have honly : ∀ r, tangled.results = [r] → ¬ Enclosed r.type := by
    intro r hr
    have hlength : 3 = 1 := congrArg List.length hr
    contradiction
  have hparam : tangledParam ∈ entangled.params := by simp [entangled]
  exact ⟨hread, hmarks, hresults, honly, by decide,
    heading_of_callback "Walk".toList hread hmarks hparam rfl hresults honly⟩

end Snippet
end CompletionSnippets
