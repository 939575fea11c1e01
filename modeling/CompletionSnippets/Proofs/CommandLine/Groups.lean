import CompletionSnippets.CommandLine.Basic
import Mathlib.Data.List.Basic

/-!
# Groups of arguments

Arguments that spell groups of options, each setting with its value, are read as these
groups, whatever the values look like. What they ask for depends on the last value of each
setting and on which flags are there, and on nothing else: not on how an option is spelled,
not on the order of different options. Only then the settings are held against each other,
in a fixed order of precedence.

Whatever groups come first, an argument that ends the reading has the same effect: a request
for help or for the version, a setting without its value, a value that is no number of
seconds, or an argument without meaning.
-/
namespace CompletionSnippets.CommandLine
open Text

/-- All spellings of a word, the full one first. -/
def Word.spellings : Word → List Text
  | .setting .input => ["--input".toList, "-i".toList]
  | .setting .name => ["--name".toList]
  | .setting .type => ["--type".toList]
  | .setting .detail => ["--mode".toList]
  | .setting .typed => ["--prefix".toList]
  | .setting .filter => ["--f".toList]
  | .setting .out => ["--out".toList, "-o".toList]
  | .setting .timeout => ["--timeout".toList]
  | .flag .fieldLines => ["--csv".toList]
  | .flag .pattern => ["--regex".toList]
  | .flag .json => ["--json".toList]
  | .flag .verbose => ["--verbose".toList, "-v".toList]
  | .help => ["--help".toList, "-h".toList, "-?".toList]
  | .version => ["--version".toList, "-V".toList]

/-- The arguments spell the groups, one behind the other. The value of a setting may be any
text. -/
inductive Spelled : List Group → List Text → Prop
  | nil : Spelled [] []
  | setting {s : Setting} {word : Text} (value : Text) {gs : List Group} {args : List Text}
      (hword : word ∈ (Word.setting s).spellings) (h : Spelled gs args) :
      Spelled (.setting s value :: gs) (word :: value :: args)
  | flag {f : Flag} {word : Text} {gs : List Group} {args : List Text}
      (hword : word ∈ (Word.flag f).spellings) (h : Spelled gs args) :
      Spelled (.flag f :: gs) (word :: args)

/-- The value is the numeral of a number of 64 bits, with or without a plus sign. -/
def Seconds (value : Text) (n : Nat) : Prop :=
  ∃ digits : Text, (value = digits ∨ value = '+' :: digits) ∧ digits ≠ [] ∧
    (∀ c ∈ digits, isDigit c) ∧ n = ofDecimal digits ∧ n < wordLimit

/-- Every timeout of the groups is a number of seconds. -/
def Timed (gs : List Group) : Prop :=
  ∀ value, .setting .timeout value ∈ gs → ∃ n, Seconds value n

def Group.option : Group → Setting ⊕ Flag
  | .setting s _ => .inl s
  | .flag f => .inr f

/-- The value that a group gives to the setting. -/
def Group.valueOf? (s : Setting) : Group → Option Text
  | .setting s' value => if s' = s then some value else none
  | .flag _ => none

/-- The value that the last group of the setting gives to it. -/
def last (gs : List Group) (s : Setting) : Option Text := (gs.filterMap (Group.valueOf? s)).getLast?

/-- Every field of the request is what its last group says, or its default. -/
structure Asked (gs : List Group) (r : Request) : Prop where
  stdin : r.source = .stdin ↔ last gs .input = none ∨ last gs .input = some ['-']
  file : ∀ path, r.source = .file path ↔ last gs .input = some path ∧ path ≠ ['-']
  fieldLines : r.format = .fieldLines ↔ .flag .fieldLines ∈ gs
  single : ∀ name type, r.single = some (name, type) ↔
    last gs .name = some name ∧ last gs .type = some type
  detail : r.detail = (last gs .detail).getD "nameAndType".toList
  typed : r.typed = (last gs .typed).getD []
  filter : r.filter = last gs .filter
  pattern : r.isPattern ↔ .flag .pattern ∈ gs
  json : r.reportFormat = .json ↔ .flag .json ∈ gs
  out : r.out = last gs .out
  timeout : ∀ n, r.timeout = some n ↔ ∃ value, last gs .timeout = some value ∧ Seconds value n
  verbose : r.verbose ↔ .flag .verbose ∈ gs

/-- The settings go together so far that there is a name just when there is a type, and no
input beside them. -/
structure Compatible (gs : List Group) : Prop where
  pair : (last gs .name).isSome ↔ (last gs .type).isSome
  input : (last gs .name).isSome → last gs .input = none

/-- What the groups come to. A name and a type without each other are the first fault, an
input beside them the second and a pattern without a filter the last. -/
inductive Settled (gs : List Group) : Except UsageFault Request → Prop
  | nameWithoutType (hname : (last gs .name).isSome) (htype : last gs .type = none) :
      Settled gs (.error .nameWithoutType)
  | typeWithoutName (hname : last gs .name = none) (htype : (last gs .type).isSome) :
      Settled gs (.error .typeWithoutName)
  | inputWithName (hname : (last gs .name).isSome) (htype : (last gs .type).isSome)
      (hinput : (last gs .input).isSome) : Settled gs (.error .inputWithName)
  | patternWithoutFilter (h : Compatible gs) (hpattern : .flag .pattern ∈ gs)
      (hfilter : last gs .filter = none) : Settled gs (.error .patternWithoutFilter)
  | request (h : Compatible gs) (hfilter : .flag .pattern ∈ gs → (last gs .filter).isSome)
      {r : Request} (hr : Asked gs r) : Settled gs (.ok r)

/-- Arguments that end the reading at once, and what it comes to there. -/
inductive Ends : List Text → Except UsageFault Action → Prop
  | help {word : Text} (hword : word ∈ Word.help.spellings) (rest : List Text) :
      Ends (word :: rest) (.ok .help)
  | version {word : Text} (hword : word ∈ Word.version.spellings) (rest : List Text) :
      Ends (word :: rest) (.ok .version)
  | missingValue {s : Setting} {word : Text} (hword : word ∈ (Word.setting s).spellings) :
      Ends [word] (.error (.missingValue s))
  | badTimeout {word value : Text} (hword : word ∈ (Word.setting .timeout).spellings)
      (hvalue : ∀ n, ¬ Seconds value n) (rest : List Text) :
      Ends (word :: value :: rest) (.error (.badTimeout value))
  | unknownOption {word : Text} (hword : ∀ w : Word, word ∉ w.spellings) (rest : List Text) :
      Ends (word :: rest) (.error (.unknownOption word))

theorem word?_of_mem_spellings {argument : Text} {w : Word} (h : argument ∈ w.spellings) :
    word? argument = some w := by
  have hsetting : ∀ s, ∀ a ∈ (Word.setting s).spellings, word? a = some (.setting s) := by
    intro s
    cases s <;> decide
  have hflag : ∀ f, ∀ a ∈ (Word.flag f).spellings, word? a = some (.flag f) := by
    intro f
    cases f <;> decide
  have hhelp : ∀ a ∈ Word.help.spellings, word? a = some .help := by decide
  have hversion : ∀ a ∈ Word.version.spellings, word? a = some .version := by decide
  cases w with
  | setting s => exact hsetting s argument h
  | flag f => exact hflag f argument h
  | help => exact hhelp argument h
  | version => exact hversion argument h

theorem word?_eq_none {argument : Text} (h : ∀ w : Word, argument ∉ w.spellings) :
    word? argument = none := by
  have hspelled : ∀ entry ∈ words, entry.1 ∈ entry.2.spellings := by decide
  rw [word?, List.lookup_eq_none_iff]
  intro entry hentry
  rw [bne_iff_ne]
  rintro rfl
  exact h entry.2 (hspelled entry hentry)

theorem number_eq_some_iff {digits : Text} {n : Nat} :
    (if !digits.isEmpty && digits.all isDigit && ofDecimal digits < wordLimit then
      some (ofDecimal digits) else none) = some n ↔
        digits ≠ [] ∧ (∀ c ∈ digits, isDigit c) ∧ n = ofDecimal digits ∧ n < wordLimit := by
  rw [Option.ite_none_right_eq_some, Option.some.injEq]
  simp only [Bool.and_eq_true, Bool.not_eq_true', List.isEmpty_eq_false_iff, List.all_eq_true,
    decide_eq_true_eq]
  constructor
  · rintro ⟨⟨⟨hne, hdigits⟩, hbound⟩, rfl⟩
    exact ⟨hne, hdigits, rfl, hbound⟩
  · rintro ⟨hne, hdigits, rfl, hbound⟩
    exact ⟨⟨⟨hne, hdigits⟩, hbound⟩, rfl⟩

/-- A value gives a number of seconds just when it is its numeral. -/
theorem seconds?_eq_some_iff {value : Text} {n : Nat} :
    seconds? value = some n ↔ Seconds value n := by
  constructor
  · intro h
    unfold seconds? at h
    split at h
    · exact ⟨_, .inr rfl, number_eq_some_iff.mp h⟩
    · exact ⟨value, .inl rfl, number_eq_some_iff.mp h⟩
  · rintro ⟨digits, hvalue, hnumber⟩
    have hplus : ∀ rest, digits ≠ '+' :: rest := by
      rintro rest rfl
      exact absurd (hnumber.2.1 '+' List.mem_cons_self) (by decide)
    rcases hvalue with rfl | rfl
    · unfold seconds?
      split
      · exact absurd rfl (hplus _)
      · exact number_eq_some_iff.mpr hnumber
    · exact number_eq_some_iff.mpr hnumber

theorem seconds?_eq_none_iff {value : Text} : seconds? value = none ↔ ∀ n, ¬ Seconds value n := by
  simp only [Option.eq_none_iff_forall_ne_some, Ne, seconds?_eq_some_iff]

instance (value : Text) (n : Nat) : Decidable (Seconds value n) :=
  decidable_of_iff _ seconds?_eq_some_iff

section Scan
variable {before gs : List Group} {s : Setting} {f : Flag} {word value : Text}
  {args rest : List Text}

theorem scan_setting (hword : word ∈ (Word.setting s).spellings)
    (hvalue : s = .timeout → ∃ n, Seconds value n) :
    scan before (word :: value :: rest) = scan (.setting s value :: before) rest := by
  have htime : ¬ (s = .timeout ∧ seconds? value = none) := by
    rintro ⟨hs, hnone⟩
    obtain ⟨n, hn⟩ := hvalue hs
    exact seconds?_eq_none_iff.mp hnone n hn
  rw [scan, word?_of_mem_spellings hword]
  exact if_neg htime

theorem scan_flag (hword : word ∈ (Word.flag f).spellings) :
    scan before (word :: rest) = scan (.flag f :: before) rest := by
  rw [scan, word?_of_mem_spellings hword]

theorem Timed.of_cons {g : Group} (h : Timed (g :: gs)) : Timed gs :=
  fun value hvalue => h value (List.mem_cons_of_mem _ hvalue)

/-- The groups that arguments spell are read one after the other. -/
theorem scan_spelled (h : Spelled gs args) (htimes : Timed gs) :
    scan before (args ++ rest) = scan (gs.reverse ++ before) rest := by
  induction h generalizing before with
  | nil => rfl
  | @setting s word value gs args hword _ ih =>
    have hvalue : s = .timeout → ∃ n, Seconds value n := by
      rintro rfl
      exact htimes value List.mem_cons_self
    rw [List.cons_append, List.cons_append, scan_setting hword hvalue, ih htimes.of_cons]
    simp
  | @flag f word gs args hword _ ih =>
    rw [List.cons_append, scan_flag hword, ih htimes.of_cons]
    simp

end Scan

section Request
variable {gs gs' : List Group} {s : Setting} {f : Flag}

theorem value?_reverse : value? gs.reverse s = last gs s := by
  rw [last, List.getLast?_filterMap, value?]
  rfl

theorem contains_reverse : gs.reverse.contains (.flag f) ↔ .flag f ∈ gs := by
  rw [List.contains_iff_mem, List.mem_reverse]

/-- The request of groups depends on the last values and the flags alone. -/
theorem request_congr (hlast : ∀ s, last gs s = last gs' s)
    (hflags : ∀ f, Group.flag f ∈ gs ↔ Group.flag f ∈ gs') :
    request gs.reverse = request gs'.reverse := by
  have hcontains : ∀ f, gs.reverse.contains (.flag f) = gs'.reverse.contains (.flag f) := by
    intro f
    rw [Bool.eq_iff_iff, contains_reverse, contains_reverse, hflags]
  simp only [request, value?_reverse, hlast, hcontains]

/-- The request with the values that count, for the given single function. -/
def requestOf (gs : List Group) (single : Option (Text × Text)) : Request where
  source := sourceOf (last gs .input)
  format := if gs.reverse.contains (.flag .fieldLines) then .fieldLines else .json
  single
  detail := (last gs .detail).getD Detail.standard.label
  typed := (last gs .typed).getD []
  filter := last gs .filter
  isPattern := gs.reverse.contains (.flag .pattern)
  reportFormat := if gs.reverse.contains (.flag .json) then .json else .yaml
  out := last gs .out
  timeout := (last gs .timeout).bind seconds?
  verbose := gs.reverse.contains (.flag .verbose)

/-- What is left to check when the single function, or its absence, is settled. -/
def checked (gs : List Group) (single : Option (Text × Text)) : Except UsageFault Request :=
  if gs.reverse.contains (.flag .pattern) && (last gs .filter).isNone then
    .error .patternWithoutFilter
  else .ok (requestOf gs single)

theorem sourceOf_eq_stdin_iff {input : Option Text} :
    sourceOf input = .stdin ↔ input = none ∨ input = some ['-'] := by
  unfold sourceOf
  split
  · simp
  · simp
  · simp_all

theorem sourceOf_eq_file_iff {input : Option Text} {path : Text} :
    sourceOf input = .file path ↔ input = some path ∧ path ≠ ['-'] := by
  unfold sourceOf
  split
  · simp
  · simp [eq_comm]
  · rename_i path' hdash
    rw [Source.file.injEq, Option.some.injEq]
    constructor
    · rintro rfl
      exact ⟨rfl, fun h => hdash h⟩
    · exact fun h => h.1

theorem asked_requestOf {single : Option (Text × Text)}
    (hsingle : ∀ name type, single = some (name, type) ↔
      last gs .name = some name ∧ last gs .type = some type) : Asked gs (requestOf gs single) where
  stdin := sourceOf_eq_stdin_iff
  file _ := sourceOf_eq_file_iff
  fieldLines := by
    simp [requestOf]
  single := hsingle
  detail := rfl
  typed := rfl
  filter := rfl
  pattern := contains_reverse
  json := by
    simp [requestOf]
  out := rfl
  timeout := by
    intro n
    simp only [requestOf, Option.bind_eq_some_iff, seconds?_eq_some_iff]
  verbose := contains_reverse

theorem settled_checked {single : Option (Text × Text)} (h : Compatible gs)
    (hsingle : ∀ name type, single = some (name, type) ↔
      last gs .name = some name ∧ last gs .type = some type) : Settled gs (checked gs single) := by
  unfold checked
  split
  · rename_i hfault
    obtain ⟨hpattern, hfilter⟩ := Bool.and_eq_true_iff.mp hfault
    exact .patternWithoutFilter h (contains_reverse.mp hpattern)
      (Option.isNone_iff_eq_none.mp hfilter)
  · rename_i hnone
    refine .request h (fun hpattern => ?_) (asked_requestOf hsingle)
    simpa [hpattern, Option.isSome_iff_ne_none] using hnone

/-- Names and types without each other, then an input beside them, are told before anything
else. -/
theorem request_reverse (gs : List Group) :
    request gs.reverse = match last gs .name, last gs .type with
      | some _, none => .error .nameWithoutType
      | none, some _ => .error .typeWithoutName
      | none, none => checked gs none
      | some name, some type =>
        if (last gs .input).isSome then .error .inputWithName
        else checked gs (some (name, type)) := by
  simp only [request, value?_reverse, checked, requestOf]
  cases last gs .name <;> cases last gs .type <;> cases last gs .input <;>
    cases gs.reverse.contains (.flag .pattern) && (last gs .filter).isNone <;> rfl

theorem request_settled (gs : List Group) : Settled gs (request gs.reverse) := by
  rw [request_reverse]
  split
  · rename_i hname htype
    exact .nameWithoutType (by rw [hname]; rfl) htype
  · rename_i hname htype
    exact .typeWithoutName hname (by rw [htype]; rfl)
  · rename_i hname htype
    exact settled_checked ⟨by simp [hname, htype], by simp [hname]⟩ (by simp [hname])
  · rename_i name type hname htype
    split
    · rename_i hinput
      exact .inputWithName (by rw [hname]; rfl) (by rw [htype]; rfl) hinput
    · rename_i hinput
      refine settled_checked ⟨by simp [hname, htype], fun _ => ?_⟩ (by simp [hname, htype])
      simpa using hinput

theorem Asked.unique {r r' : Request} (h : Asked gs r) (h' : Asked gs r') : r = r' := by
  have hsource : r.source = r'.source := by
    cases hr : r.source with
    | stdin => exact (h'.stdin.mpr (h.stdin.mp hr)).symm
    | file path => exact ((h'.file path).mpr ((h.file path).mp hr)).symm
  have hformat : r.format = r'.format := by
    have hiff := h.fieldLines.trans h'.fieldLines.symm
    cases hr : r.format <;> cases hr' : r'.format <;> simp_all
  have hreport : r.reportFormat = r'.reportFormat := by
    have hiff := h.json.trans h'.json.symm
    cases hr : r.reportFormat <;> cases hr' : r'.reportFormat <;> simp_all
  have hsingle : r.single = r'.single :=
    Option.ext fun p => (h.single p.1 p.2).trans (h'.single p.1 p.2).symm
  have htimeout : r.timeout = r'.timeout :=
    Option.ext fun n => (h.timeout n).trans (h'.timeout n).symm
  have hpattern : r.isPattern = r'.isPattern :=
    Bool.eq_iff_iff.mpr (h.pattern.trans h'.pattern.symm)
  have hverbose : r.verbose = r'.verbose :=
    Bool.eq_iff_iff.mpr (h.verbose.trans h'.verbose.symm)
  have hdetail := h.detail.trans h'.detail.symm
  have htyped := h.typed.trans h'.typed.symm
  have hfilter := h.filter.trans h'.filter.symm
  have hout := h.out.trans h'.out.symm
  cases r
  cases r'
  simp_all

theorem Settled.unique {answer answer' : Except UsageFault Request} (h : Settled gs answer)
    (h' : Settled gs answer') : answer = answer' := by
  cases h <;> cases h' <;> grind [Compatible.pair, Compatible.input, Asked.unique]

end Request

def finish : Scan → Except UsageFault Action
  | .groups gs => (request gs).map .run
  | .help => .ok .help
  | .version => .ok .version

theorem read_eq (args : List Text) : read args = (scan [] args).bind finish := by
  unfold read
  cases scan [] args with
  | error => rfl
  | ok reading =>
    cases reading with
    | groups gs =>
      show (do return CommandLine.Action.run (← request gs)) =
        (request gs).map CommandLine.Action.run
      cases request gs <;> rfl
    | help => rfl
    | version => rfl

section Read
variable {gs gs' : List Group} {args : List Text}

/-- What ends the reading does so behind any groups. -/
theorem Ends.finish_scan {ending : List Text} {answer : Except UsageFault Action}
    (h : Ends ending answer) (before : List Group) : (scan before ending).bind finish = answer := by
  cases h with
  | help hword => simp only [scan, word?_of_mem_spellings hword]; rfl
  | version hword => simp only [scan, word?_of_mem_spellings hword]; rfl
  | missingValue hword => simp only [scan, word?_of_mem_spellings hword]; rfl
  | badTimeout hword hvalue =>
    have hnone := seconds?_eq_none_iff.mpr hvalue
    simp only [scan, word?_of_mem_spellings hword, hnone, and_self, if_true]
    rfl
  | unknownOption hword => simp only [scan, word?_eq_none hword]; rfl

theorem mem_filter_option_iff {g : Group} : g ∈ gs ↔ g ∈ gs.filter (·.option = g.option) := by
  simp

theorem last_filter (s : Setting) : last (gs.filter (·.option = .inl s)) s = last gs s := by
  have hvalue : ∀ g : Group, (if g.option = .inl s then g.valueOf? s else none) = g.valueOf? s := by
    intro g
    cases g with
    | setting s' value => by_cases hs : s' = s <;> simp [Group.option, Group.valueOf?, hs]
    | flag f => rfl
  rw [last, last, List.filterMap_filter]
  simp only [decide_eq_true_eq, hvalue]

/-- Groups that are the same option by option ask for the same. -/
theorem request_of_same (hsame : ∀ o, gs'.filter (·.option = o) = gs.filter (·.option = o)) :
    request gs'.reverse = request gs.reverse := by
  apply request_congr
  · intro s
    rw [← last_filter, hsame, last_filter]
  · intro f
    rw [mem_filter_option_iff, hsame, ← mem_filter_option_iff]

theorem read_append (hargs : Spelled gs args) (htimes : Timed gs) (ending : List Text) :
    read (args ++ ending) = (scan gs.reverse ending).bind finish := by
  rw [read_eq, scan_spelled hargs htimes, List.append_nil]

theorem read_eq_request (hargs : Spelled gs args) (htimes : Timed gs) :
    read args = (request gs.reverse).map .run := by
  have hread := read_append hargs htimes []
  rwa [List.append_nil] at hread

/-- Arguments that spell groups come to what the last groups of the settings and the flags
ask for, or to the first fault in them, and so do those of other groups that are the same
option by option. Behind such arguments each that ends the reading does so; the message for
a missing value names the setting in full. -/
theorem read_spelled (hargs : Spelled gs args) (htimes : Timed gs) :
    (∃ answer, (∀ a, Settled gs a ↔ a = answer) ∧ read args = answer.map .run) ∧
      (∀ gs' args', Spelled gs' args' →
        (∀ o, gs'.filter (·.option = o) = gs.filter (·.option = o)) → read args' = read args) ∧
      (∀ ending answer, Ends ending answer → read (args ++ ending) = answer) ∧
      ∀ s full, (Word.setting s).spellings.head? = some full →
        (UsageFault.missingValue s).message = "Missing value for ".toList ++ full := by
  refine ⟨⟨request gs.reverse, fun a => ?_, read_eq_request hargs htimes⟩, ?_, ?_, ?_⟩
  · refine ⟨fun h => h.unique (request_settled gs), ?_⟩
    rintro rfl
    exact request_settled gs
  · intro gs' args' hargs' hsame
    have htimes' : Timed gs' := by
      intro value hvalue
      rw [mem_filter_option_iff, hsame, ← mem_filter_option_iff] at hvalue
      exact htimes value hvalue
    rw [read_eq_request hargs' htimes', read_eq_request hargs htimes, request_of_same hsame]
  · intro ending answer hends
    rw [read_append hargs htimes, hends.finish_scan]
  · intro s full hfull
    cases s <;> cases hfull <;> rfl

/-- A request for help that stands where a value is due is that value, and the later input
counts, in either order; behind these groups another request for help is one, and a name
without its value is a fault. -/
theorem read_spelled_crowded :
    let args := ["-i", "--help", "--timeout", "+07", "--csv", "-i", "b", "-v"].map String.toList
    let args' := ["--verbose", "-i", "--help", "--csv", "--input", "b", "--timeout", "+07"].map
      String.toList
    read args = .ok (.run
      { source := .file ['b'], format := .fieldLines, single := none,
        detail := "nameAndType".toList, typed := [], filter := none, isPattern := false,
        reportFormat := .yaml, out := none, timeout := some 7, verbose := true }) ∧
      read args' = read args ∧
      read (args ++ ["-?".toList, "--bogus".toList]) = .ok .help ∧
      read (args ++ ["--name".toList]) = .error (.missingValue .name) := by
  intro args args'
  let gs : List Group := [.setting .input "--help".toList, .setting .timeout "+07".toList,
    .flag .fieldLines, .setting .input ['b'], .flag .verbose]
  let gs' : List Group := [.flag .verbose, .setting .input "--help".toList, .flag .fieldLines,
    .setting .input ['b'], .setting .timeout "+07".toList]
  have hargs : Spelled gs args :=
    .setting _ (by decide) <| .setting _ (by decide) <| .flag (by decide) <|
      .setting _ (by decide) <| .flag (by decide) .nil
  have hargs' : Spelled gs' args' :=
    .flag (by decide) <| .setting _ (by decide) <| .flag (by decide) <|
      .setting _ (by decide) <| .setting _ (by decide) .nil
  have htimes : Timed gs := by
    intro value hvalue
    obtain rfl : value = "+07".toList := by simpa [gs] using hvalue
    exact ⟨7, by decide⟩
  have hsame : ∀ o, gs'.filter (·.option = o) = gs.filter (·.option = o) := by
    rintro (s | f)
    · cases s <;> decide
    · cases f <;> decide
  have hname : last gs .name = none := by decide
  have hasked : Asked gs (requestOf gs none) := asked_requestOf (by simp [hname])
  have hsettled : Settled gs (.ok (requestOf gs none)) :=
    .request ⟨by decide, by decide⟩ (by decide) hasked
  obtain ⟨⟨answer, hanswer, hread⟩, horder, hends, -⟩ := read_spelled hargs htimes
  obtain rfl := (hanswer _).mp hsettled
  exact ⟨hread, horder gs' args' hargs' hsame, hends _ _ (.help (by decide) _),
    hends _ _ (.missingValue (by decide))⟩

end Read

end CompletionSnippets.CommandLine
