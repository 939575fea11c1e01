import CompletionSnippets.Proofs.Nesting.Offsets
import CompletionSnippets.Proofs.Signature.Truncation

/-!
# Reading signatures by byte offsets

A signature can be read with slices of its text: the closing parenthesis, the first blank and
the separators are found as offsets, the parameters, the results, the identifier and the type
are slices between them, and so on for each entry, down to the last level. No slice that is
asked for is missing, whatever the text, and what is read is the signature that is read without
offsets.
-/
namespace CompletionSnippets
open Text

namespace Outline

/-- The offset of the parenthesis before which no more is open than was at first; the depth is
the number of parentheses open now, which a closer with nothing to close makes negative. -/
def closeOffset? (depth : Int) : List (Nat × Char) → Option Nat
  | [] => none
  | (offset, c) :: rest =>
    if c = '(' then closeOffset? (depth + 1) rest
    else if c = ')' then
      if depth - 1 = 0 then some offset else closeOffset? (depth - 1) rest
    else closeOffset? depth rest

/-- The offset of the parenthesis that closes the one at the given offset, by a slice of the
text. -/
def partnerOffset? (t : Text) (opened : Nat) : Option (Option Nat) := do
  let behind ← sliceFrom? t opened
  return (closeOffset? 0 (charOffsets 0 behind)).map (opened + ·)

/-- The trimmed text after the parameters, with the inside of a list taken as a slice. -/
def resultSlices? (rest : Text) : Option ResultText :=
  match rest with
  | [] => return .none
  | '(' :: _ => do
    if (← partnerOffset? rest 0) = some (utf8Length rest - 1) then
      return .list (trim (← slice? rest 1 (utf8Length rest - 1)))
    else return .single rest
  | _ => return .single rest

/-- The outline of a text, by slices of it. -/
def ofSlices? (t : Text) : Option (Option Outline) :=
  let whole := t.trim
  if opening.isPrefixOf whole then do
    let opened := utf8Length opening - 1
    match ← partnerOffset? whole opened with
    | none => return none
    | some closed =>
      let params := trim (← slice? whole (opened + 1) closed)
      let results ← resultSlices? (trim (← sliceFrom? whole (closed + 1)))
      return some { whole, params, results }
  else return none

/-- The search by offsets finds the same parenthesis. What was passed stands at `start`. -/
theorem closeOffset?_eq (opened start : Nat) (passed t : Text) :
    closeOffset? (opened + 1) (charOffsets (start + utf8Length passed) t) =
      (closeParen? passed opened t).map fun parts => start + utf8Length parts.1 := by
  induction t generalizing opened passed with
  | nil => rfl
  | cons c t ih =>
    have hstart : start + utf8Length passed + c.utf8Size = start + utf8Length (c :: passed) := by
      rw [utf8Length_cons]
      omega
    simp only [charOffsets, closeOffset?, closeParen?, hstart]
    by_cases hclose : c = ')'
    · subst hclose
      rw [if_neg (by decide), if_pos rfl, if_pos rfl]
      cases opened with
      | zero => simp [utf8Length_reverse]
      | succ opened =>
        rw [if_neg (by omega), ← ih]
        congr 1
        omega
    rw [if_neg hclose, if_neg hclose]
    by_cases hopen : c = '('
    · rw [if_pos hopen, if_pos hopen, ← ih]
      rfl
    · rw [if_neg hopen, if_neg hopen, ← ih]

/-- The partner of a parenthesis stands behind what the search without offsets passes over. -/
theorem partnerOffset?_eq (before inner : Text) :
    partnerOffset? (before ++ '(' :: inner) (utf8Length before) =
      some ((closeParen? [] 0 inner).map fun parts => utf8Length (before ++ '(' :: parts.1)) := by
  have hscan := closeOffset?_eq 0 ('('.utf8Size) [] inner
  rw [utf8Length_nil, Nat.add_zero] at hscan
  have hfirst : closeOffset? 0 (charOffsets 0 ('(' :: inner)) =
      closeOffset? ((0 : Nat) + 1) (charOffsets '('.utf8Size inner) := rfl
  simp only [partnerOffset?, sliceFrom?_append, hfirst, hscan, Option.bind_eq_bind,
    Option.bind_some, Option.map_map, Function.comp_def, utf8Length_append, utf8Length_cons]
  rfl

theorem append_of_closeParen?_nil {inner inside rest : Text}
    (h : closeParen? [] 0 inner = some (inside, rest)) : inside ++ ')' :: rest = inner := by
  rw [append_of_closeParen? h, List.reverse_nil, List.nil_append]

theorem partnerOffset?_zero (inner : Text) : ∃ partner,
    partnerOffset? ('(' :: inner) 0 = some partner ∧
      (partner = some (utf8Length ('(' :: inner) - 1) ↔
        ∃ inside, closeParen? [] 0 inner = some (inside, [])) := by
  have hclose : ')'.utf8Size = 1 := rfl
  refine ⟨_, partnerOffset?_eq [] inner, ?_⟩
  rw [Option.map_eq_some_iff]
  constructor
  · rintro ⟨⟨inside, behind⟩, hfound, hlength⟩
    obtain rfl := append_of_closeParen?_nil hfound
    cases behind with
    | nil => exact ⟨inside, hfound⟩
    | cons c behind =>
      have hpos := c.utf8Size_pos
      simp only [List.nil_append, utf8Length_cons, utf8Length_append, hclose] at hlength
      omega
  · rintro ⟨inside, hfound⟩
    obtain rfl := append_of_closeParen?_nil hfound
    refine ⟨(inside, []), hfound, ?_⟩
    simp only [List.nil_append, utf8Length_cons, utf8Length_append, utf8Length_nil, hclose]
    omega

/-- The inside of a pair of parentheses is the slice without its first and its last byte. -/
theorem slice?_inside (inside : Text) :
    slice? ('(' :: (inside ++ [')'])) 1 (utf8Length ('(' :: (inside ++ [')'])) - 1) =
      some inside := by
  have hlength : utf8Length ('(' :: (inside ++ [')'])) - 1 = utf8Length (['('] ++ inside) := by
    have hclose : ')'.utf8Size = 1 := rfl
    simp only [List.singleton_append, utf8Length_cons, utf8Length_append, utf8Length_nil, hclose]
    omega
  rw [hlength]
  exact slice?_append ['('] inside [')']

theorem resultSlices?_open (inner : Text) :
    resultSlices? ('(' :: inner) = some (resultText ('(' :: inner)) := by
  obtain ⟨partner, hpartner, hlast⟩ := partnerOffset?_zero inner
  simp only [resultSlices?, resultText, hpartner, Option.bind_eq_bind, Option.bind_some]
  split
  · rename_i hwhole
    obtain ⟨inside, hfound⟩ := hlast.mp hwhole
    obtain rfl := append_of_closeParen?_nil hfound
    rw [hfound, slice?_inside]
    rfl
  · rename_i hpart
    split
    · rename_i inside hfound
      exact absurd (hlast.mpr ⟨inside, hfound⟩) hpart
    · rfl

theorem resultSlices?_eq (rest : Text) : resultSlices? rest = some (resultText rest) := by
  cases rest with
  | nil => rfl
  | cons c rest =>
    by_cases hopen : c = '('
    · subst hopen
      exact resultSlices?_open rest
    · simp [resultSlices?, resultText, hopen]

theorem slice?_params (inside rest : Text) :
    slice? (opening ++ (inside ++ ')' :: rest)) (utf8Length opening - 1 + 1)
      (utf8Length (opening ++ inside)) = some inside := by
  rw [← List.append_assoc]
  exact slice?_append opening inside (')' :: rest)

theorem sliceFrom?_results (inside rest : Text) :
    sliceFrom? (opening ++ (inside ++ ')' :: rest)) (utf8Length (opening ++ inside) + 1) =
      some rest := by
  have hclosed : utf8Length (opening ++ inside) + 1 = utf8Length (opening ++ inside ++ [')']) := by
    rw [utf8Length_append (opening ++ inside)]
    rfl
  have hwhole : opening ++ (inside ++ ')' :: rest) = opening ++ inside ++ [')'] ++ rest := by
    simp only [List.append_assoc, List.singleton_append]
  rw [hclosed, hwhole]
  exact sliceFrom?_append (opening ++ inside ++ [')']) rest

theorem ofSlices?_eq (t : Text) : ofSlices? t = some (of? t) := by
  simp only [ofSlices?, of?]
  cases hstrip : strip? opening t.trim with
  | none =>
    have hnot : ¬ opening.isPrefixOf t.trim := by
      rw [List.isPrefixOf_iff_prefix]
      rintro ⟨inner, hinner⟩
      rw [strip?_eq_some_iff.mpr hinner.symm] at hstrip
      cases hstrip
    rw [if_neg hnot]
    rfl
  | some inner =>
    have hwhole : t.trim = opening ++ inner := strip?_eq_some_iff.mp hstrip
    have hopening : opening.isPrefixOf t.trim :=
      List.isPrefixOf_iff_prefix.mpr ⟨inner, hwhole.symm⟩
    have hpartner : partnerOffset? (opening ++ inner) (utf8Length opening - 1) =
        some ((closeParen? [] 0 inner).map fun parts => utf8Length (opening ++ parts.1)) :=
      partnerOffset?_eq "func".toList inner
    rw [if_pos hopening, hwhole, hpartner]
    cases hfound : closeParen? [] 0 inner with
    | none => simp [hfound]
    | some parts =>
      obtain ⟨inside, rest⟩ := parts
      obtain rfl := append_of_closeParen?_nil hfound
      simp only [Option.map_some, Option.bind_eq_bind, Option.bind_some, hfound,
        slice?_params, sliceFrom?_results, resultSlices?_eq]
      rfl

def resultTokenSlices? (o : Outline) : Option (List Text) :=
  match o.results with
  | .none => return []
  | .list inside => splitSlices? ',' inside
  | .single result => return [result]

theorem resultTokenSlices?_eq (o : Outline) : o.resultTokenSlices? = some o.resultTokens := by
  unfold resultTokenSlices? resultTokens
  cases o.results with
  | none => rfl
  | list inside => exact splitSlices?_eq ',' inside
  | single result => rfl

/-- The signature with the outline, its lists split by slices and its entries read as given. -/
def readSlices? (readEntry : Text → Option Entry) (o : Outline) : Option Signature := do
  let params ← (← splitSlices? ',' o.params).mapM readEntry
  let results ← (← o.resultTokenSlices?).mapM readEntry
  return { raw := o.whole, params, results }

theorem readSlices?_some (readEntry : Text → Entry) (o : Outline) :
    o.readSlices? (fun token => some (readEntry token)) = some
      { raw := o.whole
        params := o.paramTokens.map readEntry
        results := o.resultTokens.map readEntry } := by
  have hentries (tokens : List Text) :
      tokens.mapM (fun token => some (readEntry token)) = some (tokens.map readEntry) :=
    List.mapM_pure
  simp only [readSlices?, splitSlices?_eq, resultTokenSlices?_eq, hentries, Option.bind_eq_bind,
    Option.bind_some]
  rfl

end Outline

namespace Entry

/-- The identifier and the type text of a trimmed entry, as slices before and behind the offset of
its first blank. -/
def divideSlices? (raw : Text) : Option (Text × Text) :=
  if Outline.startsFunc raw then return ([], raw)
  else match blankOffset? {} (charOffsets 0 raw) with
    | some offset => do
      return (← slice? raw 0 offset, trimStart (← sliceFrom? raw offset))
    | none => return ([], raw)

/-- The identifier and the type text of a trimmed entry and the outline of its type, by slices. -/
def headSlices? (raw : Text) : Option ((Text × Text) × Option Outline) := do
  let (identifier, type) ← divideSlices? raw
  return ((identifier, type), ← Outline.ofSlices? type)

/-- The entry that a token denotes, read by slices for the given number of levels. -/
def ofSlices? (levels : Nat) (token : Text) : Option Entry :=
  match headSlices? token.trim, levels with
  | none, _ => none
  | some ((identifier, _), some o), levels + 1 => do
    return .func token.trim identifier (← o.readSlices? (ofSlices? levels))
  | some ((identifier, type), _), _ => return .plain token.trim identifier type

theorem divideSlices?_eq (raw : Text) : divideSlices? raw = some (divide raw) := by
  unfold divideSlices? divide
  split
  · rfl
  rw [blankOffset?_charOffsets, firstTopLevelBlank?]
  cases hbreak : breakAtBlank? {} [] raw with
  | none => rfl
  | some parts =>
    obtain ⟨identifier, rest⟩ := parts
    obtain rfl : identifier ++ rest = raw := append_of_breakAtBlank? hbreak
    have hidentifier := slice?_append [] identifier rest
    simp only [List.nil_append, utf8Length_nil] at hidentifier
    simp only [Option.map_some, hidentifier, sliceFrom?_append, Option.bind_eq_bind,
      Option.bind_some]
    rfl

theorem headSlices?_eq (raw : Text) :
    headSlices? raw = some (divide raw, Outline.of? (divide raw).2) := by
  simp only [headSlices?, divideSlices?_eq, Outline.ofSlices?_eq, Option.bind_eq_bind,
    Option.bind_some]
  rfl

theorem ofSlices?_eq (levels : Nat) (token : Text) :
    ofSlices? levels token = some (ofToken levels token) := by
  induction levels generalizing token with
  | zero =>
    unfold ofSlices?
    rw [headSlices?_eq]
    cases h : Outline.of? (divide token.trim).2 with
    | none =>
      rw [ofToken_of_none 0 h]
      rfl
    | some o =>
      rw [ofToken_zero_of_some h]
      rfl
  | succ levels ih =>
    have hread : ofSlices? levels = fun token => some (ofToken levels token) := funext ih
    unfold ofSlices?
    rw [headSlices?_eq]
    cases h : Outline.of? (divide token.trim).2 with
    | none =>
      rw [ofToken_of_none (levels + 1) h]
      rfl
    | some o =>
      rw [ofToken_succ_of_some levels h]
      simp only [hread, Outline.readSlices?_some]
      rfl

end Entry

namespace Signature

/-- The signature that a text denotes, read by slices, if it is a function type. -/
def ofSlices? (t : Text) : Option (Option Signature) := do
  match ← Outline.ofSlices? t with
  | none => return none
  | some o => return some (← o.readSlices? (Entry.ofSlices? nestingLimit))

theorem ofSlices?_eq (t : Text) : ofSlices? t = some (ofText? t) := by
  have hread : Entry.ofSlices? nestingLimit = fun token =>
      some (Entry.ofToken nestingLimit token) := funext (Entry.ofSlices?_eq nestingLimit)
  simp only [ofSlices?, ofText?, Outline.ofSlices?_eq, Option.bind_eq_bind, Option.bind_some, hread,
    Outline.readSlices?_some]
  cases Outline.of? t with
  | none => rfl
  | some o => rfl

/-- No slice is missing when a text is split, outlined, or read as an entry or as a signature, for
however many levels, and the slices make up what is read without offsets. There is a slice exactly
between two boundaries of the text that are in order, and the offset at which an entry is divided
is the length of what stands before its first blank without an unmatched opener before it. -/
theorem slices_exist (t : Text) :
    (∀ start stop, (slice? t start stop).isSome ↔
      start ≤ stop ∧ stop ≤ utf8Length t ∧ Boundary t start ∧ Boundary t stop) ∧
    (∀ start stop inside, slice? t start stop = some inside ↔
      ∃ before behind, t = before ++ inside ++ behind ∧
        utf8Length before = start ∧ utf8Length (before ++ inside) = stop) ∧
    (∀ sep, splitSlices? sep t = some (splitTopLevel sep t)) ∧
    Outline.ofSlices? t = some (Outline.of? t) ∧
    (∀ levels, Entry.ofSlices? levels t = some (Entry.ofToken levels t)) ∧
    ofSlices? t = some (ofText? t) ∧
    blankOffset? {} (charOffsets 0 t) = firstTopLevelBlank? t ∧
    ∀ offset, firstTopLevelBlank? t = some offset ↔
      ∃ before c behind, t = before ++ c :: behind ∧ offset = utf8Length before ∧ isBlank c ∧
        ¬ HasUnmatchedOpener before ∧
        ∀ p d r, before = p ++ d :: r → isBlank d → HasUnmatchedOpener p :=
  ⟨fun _ _ => isSome_slice?_iff, fun _ _ _ => slice?_eq_some_iff, fun sep => splitSlices?_eq sep t,
    Outline.ofSlices?_eq t, fun levels => Entry.ofSlices?_eq levels t, ofSlices?_eq t,
    blankOffset?_charOffsets t, fun _ => firstTopLevelBlank?_eq_some_iff⟩

end Signature
end CompletionSnippets
