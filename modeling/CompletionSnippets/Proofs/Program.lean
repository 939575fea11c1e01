import CompletionSnippets.Program
import CompletionSnippets.Proofs.Directory
import CompletionSnippets.Proofs.Filter
import CompletionSnippets.Proofs.Machine
import CompletionSnippets.Proofs.Report.Json
import CompletionSnippets.Proofs.Yaml.RoundTrip

/-!
# What a run leaves behind

A request is answered by one report, and the report is written to one place. Whether the
report is an error alone is known from the filter and the input: the relations below say when
a request is refused and with which words, and which reply its input is decoded to, without
the order in which a run finds out. The text of the report is then at one place only, where the
report can be read back from it, and the exit code tells whether there is an error in it or
whether it could not be written.

All of that holds for any lawful file system, any engine for patterns and any words for texts
that are no reply.
-/
namespace CompletionSnippets

theorem Selection.suggestions_made (s : Selection) (cs : List Candidate) :
    ∃ kept : List Candidate, kept.Sublist cs ∧
      s.suggestions false cs = kept.map (Suggestion.ofCandidate s.detail s.typed) := by
  induction cs with
  | nil => exact ⟨[], .slnil, rfl⟩
  | cons c cs ih =>
    obtain ⟨kept, hkept, hmade⟩ := ih
    rw [suggestions, if_neg Bool.false_ne_true] at hmade ⊢
    rw [List.filterMap_cons, suggestion?, hmade]
    split
    · exact ⟨kept, hkept.cons c, rfl⟩
    · rename_i suggestion hsome
      obtain ⟨-, hsuggestion⟩ := Option.ite_none_right_eq_some.mp hsome
      exact ⟨c :: kept, hkept.cons_cons c, by rw [List.map_cons, Option.some.inj hsuggestion]⟩

/-- Suggestions may be made one by one. -/
theorem Selection.flatten_suggestions (s : Selection) (cs : List Candidate) :
    (cs.map fun c => s.suggestions false [c]).flatten = s.suggestions false cs := by
  induction cs with
  | nil => rfl
  | cons c cs ih =>
    simp only [suggestions, Bool.false_eq_true, if_false] at ih ⊢
    rw [List.map_cons, List.flatten_cons, ih, ← List.filterMap_append]
    rfl

namespace Reply

theorem prefixLength_lt_of_ofValue? {v : Json.Value} {reply : Reply} (h : ofValue? v = some reply) :
    reply.prefixLength < Text.wordLimit := by
  unfold ofValue? at h
  split at h
  · obtain rfl := Option.some.inj h
    decide
  · obtain ⟨n, hn, h⟩ := Option.bind_eq_some_iff.mp h
    obtain ⟨cs, -, h⟩ := Option.bind_eq_some_iff.mp h
    obtain rfl := Option.some.inj h
    exact Json.Number.natural?_lt hn
  · contradiction

theorem prefixLength_lt_of_ofJson {t : Text} {reply : Reply} (h : ofJson t = .ok reply) :
    reply.prefixLength < Text.wordLimit := by
  unfold ofJson at h
  split at h
  · obtain rfl := Except.ok.inj h
    decide
  split at h
  · contradiction
  split at h
  · contradiction
  rename_i hvalue
  split at h
  · obtain rfl := Except.ok.inj h
    exact prefixLength_lt_of_ofValue? hvalue
  · contradiction

theorem prefixLength_lt_of_written {format : ReplyFormat} {t : Text} {reply : Reply}
    (h : written format t = .ok reply) : reply.prefixLength < Text.wordLimit := by
  cases format with
  | json =>
    cases hjson : ofJson t with
    | error fault => simp [written, hjson, Except.mapError] at h
    | ok reply' =>
      obtain rfl : reply' = reply := by simpa [written, hjson, Except.mapError] using h
      exact prefixLength_lt_of_ofJson hjson
  | fieldLines =>
    cases hlines : Candidate.ofLines 1 (t.splitOn '\n') with
    | error line => simp [written, ofFieldLines, hlines, bind, Except.bind, Except.mapError] at h
    | ok cs =>
      obtain rfl : { candidates := cs } = reply := by
        simpa [written, ofFieldLines, hlines, bind, Except.bind, Except.mapError, pure,
          Except.pure] using h
      exact Nat.zero_lt_succ _

theorem written_of_ofText {format : ReplyFormat} {t : Text} {reply : Reply}
    (h : ofText format t = .ok reply) : written format t = .ok reply := by
  unfold ofText at h
  cases hwritten : written format t with
  | error fault => simp [hwritten, bind, Except.bind] at h
  | ok reply' =>
    simp only [hwritten, bind, Except.bind] at h
    split at h
    · contradiction
    · exact h

end Reply

namespace CommandLine.Request

variable {σ : Type} {libs : Libraries} {fs : FileSystem σ} {view : FileView σ} {before : Scene σ}
  {r : Request}

/-- What comes of reading the input. -/
inductive Yields (fs : FileSystem σ) (before : Scene σ) : Source → Except FileFault ByteArray → Prop
  | stdin : Yields fs before .stdin before.stdin
  | file {path : Text} {result : Except FileFault ByteArray} :
    fs.ReadsAs before.files path result → Yields fs before (.file path) result

/-- The bytes are those of the file that the input is read from, if it is a file. -/
def Genuine (view : FileView σ) (before : Scene σ) (r : Request) (bytes : ByteArray) : Prop :=
  ∀ path file, r.source = .file path → view.leads before.files path = some file →
    view.content before.files file = some bytes

/-- There is no filter, or one that can be built. -/
def FilterStands (libs : Libraries) (r : Request) : Prop :=
  ∀ written words, r.filter = some written →
    ¬ Filter.Unbuildable libs.patterns written r.isPattern words

/-- The request cannot be met, and these words say why: its filter cannot be built, or else
its input cannot be read, is no text or holds no reply. -/
inductive Refused (libs : Libraries) (fs : FileSystem σ) (before : Scene σ) (r : Request) :
    Text → Prop
  | filter {written words : Text} :
    r.filter = some written → Filter.Unbuildable libs.patterns written r.isPattern words →
    Refused libs fs before r words
  | unread {fault : FileFault} :
    r.FilterStands libs → r.single = none → Yields fs before r.source (.error fault) →
    Refused libs fs before r ("failed to read input: ".toList ++ fault.words)
  | notText {bytes : ByteArray} :
    r.FilterStands libs → r.single = none → Yields fs before r.source (.ok bytes) →
    Text.ofUtf8? bytes = none → Refused libs fs before r "input is not valid UTF-8".toList
  | noReply {bytes : ByteArray} {t : Text} {fault : IntakeFault} :
    r.FilterStands libs → r.single = none → Yields fs before r.source (.ok bytes) →
    Text.ofUtf8? bytes = some t → Reply.ofText r.format t = .error fault →
    Refused libs fs before r (fault.message (libs.jsonWords t))

/-- The candidates of the request: the single function that it names, or what its input
is decoded to. -/
inductive Decodes (fs : FileSystem σ) (view : FileView σ) (before : Scene σ) (r : Request) :
    Reply → Prop
  | single {name type : Text} :
    r.single = some (name, type) →
    Decodes fs view before r { candidates := [{ category := "func".toList, name, type }] }
  | input {bytes : ByteArray} {t : Text} {reply : Reply} :
    r.single = none → Yields fs before r.source (.ok bytes) → r.Genuine view before bytes →
    Text.ofUtf8? bytes = some t → Reply.ofText r.format t = .ok reply →
    Decodes fs view before r reply

/-- Suggestions for some of the candidates, in their order, and a summary that agrees with
both. The length of what was typed is known from an input in JSON only. -/
structure Sums (r : Request) (reply : Reply) (suggestions : List Suggestion)
    (summary : Summary) : Prop where
  made : ∃ kept : List Candidate, kept.Sublist reply.candidates ∧
    suggestions = kept.map (Suggestion.ofCandidate (Detail.ofSetting r.detail) r.typed)
  timedOut : summary.timedOut = false
  detail : summary.detail = (Detail.ofSetting r.detail).label
  suggestions : summary.suggestions = suggestions.length
  candidates : summary.candidates = reply.candidates.length
  suggestions_le : summary.suggestions ≤ summary.candidates
  prefixLength : ∀ n, summary.prefixLength = some n ↔
    r.single = none ∧ r.format = .json ∧ n = reply.prefixLength

/-- The report that answers the request: an error alone when the request is refused, and
only then, and otherwise a summary with suggestions. -/
structure Answers (libs : Libraries) (fs : FileSystem σ) (view : FileView σ) (before : Scene σ)
    (r : Request) (report : Report) : Prop where
  refused : ∀ message, Refused libs fs before r message →
    report = { summary := none, error := some message, suggestions := none }
  answered : (∀ message, ¬ Refused libs fs before r message) → ∃ reply suggestions summary,
    Decodes fs view before r reply ∧ r.Sums reply suggestions summary ∧
      report = { summary := some summary, error := none, suggestions := some suggestions }

/-- The text is the report in the format that is asked for, and the report can be read back
from it. In JSON its numbers have to have 64 bits, as the number of candidates in memory has. -/
inductive Shows (report : Report) : ReportFormat → Text → Prop
  | yaml {text : Text} : text = Yaml.render report → Yaml.read? text = some report.condensed →
    Shows report .yaml text
  | json {text : Text} : text = report.renderJson →
    ((∀ s ∈ report.summary, s.candidates < Text.wordLimit) →
      ∃ members, Json.Value.read text = .ok (.object members) ∧ report.ToldBy members) →
    Shows report .json text

/-- The text is at the place that was asked for and nowhere else, and the exit code is the one
that goes with it. Of all files only the one that was asked for may be another than before. When
the text cannot be written there, the exit code is one and a complaint is all there is to see. -/
inductive Delivered (fs : FileSystem σ) (view : FileView σ) (before : Scene σ) (r : Request)
    (text : Text) (code : Nat) : Nat → Scene σ → Prop
  | stdout {after : Scene σ} :
    r.out = none → after.printed = text → after.complaints = [] → after.files = before.files →
    Delivered fs view before r text code code after
  | file {path : Text} {after : Scene σ} :
    r.out = some path → after.printed = [] → after.complaints = [] →
    fs.write before.files path (String.ofList text).toUTF8 = (.ok (), after.files) →
    (∀ file, view.leads before.files path = some file → view.leads after.files path = some file ∧
      view.content after.files file = some (String.ofList text).toUTF8) →
    (∀ file, view.leads before.files path ≠ some file →
      view.content after.files file = view.content before.files file) →
    Delivered fs view before r text code code after
  | unwritten {path : Text} {fault : FileFault} {after : Scene σ} :
    r.out = some path → after.printed = [] → after.complaints = writeFailure path fault →
    fs.write before.files path (String.ofList text).toUTF8 = (.error fault, after.files) →
    (∀ file, view.leads before.files path ≠ some file →
      view.content after.files file = view.content before.files file) →
    Delivered fs view before r text code 1 after

/-- The time that is given to the run, if any, is longer than the run. -/
def Unexpired (r : Request) (times : Nat → Nat) : Prop :=
  ∀ seconds ∈ r.timeout, ∀ n, times n < times 0 + 1000 * seconds

theorem Yields.unique {source : Source} {result result' : Except FileFault ByteArray}
    (h : Yields fs before source result) (h' : Yields fs before source result') :
    result = result' := by
  cases h with
  | stdin => cases h'; rfl
  | file hreads =>
    cases h' with
    | file hreads' => exact hreads.unique hreads'

theorem Yields.genuine (hlawful : fs.Lawful view) {bytes : ByteArray}
    (h : Yields fs before r.source (.ok bytes)) : r.Genuine view before bytes := by
  intro path file hsource hleads
  rw [hsource] at h
  cases h with
  | file hreads => exact hreads.content hlawful hleads

theorem Refused.cases {words : Text} (h : Refused libs fs before r words) :
    (∃ written, r.filter = some written ∧
      Filter.Unbuildable libs.patterns written r.isPattern words) ∨
    r.FilterStands libs ∧ r.single = none ∧ ∃ input fault,
      Yields fs before r.source input ∧ r.replyOf libs input = .error (fault, words) := by
  cases h with
  | filter hwritten hrefused => exact .inl ⟨_, hwritten, hrefused⟩
  | unread hfilter hsingle hyields => exact .inr ⟨hfilter, hsingle, _, _, hyields, rfl⟩
  | notText hfilter hsingle hyields htext =>
    refine .inr ⟨hfilter, hsingle, _, .notText, hyields, ?_⟩
    simp only [replyOf, inputText, htext]
    rfl
  | @noReply _ _ fault hfilter hsingle hyields htext hreply =>
    refine .inr ⟨hfilter, hsingle, _, fault, hyields, ?_⟩
    simp only [replyOf, inputText, htext, hreply]
    rfl

/-- What an input yields is a reply, or the request is refused for it. -/
theorem decodes_or_refused (hlawful : fs.Lawful view) (hfilter : r.FilterStands libs)
    (hsingle : r.single = none) {input : Except FileFault ByteArray}
    (hyields : Yields fs before r.source input) :
    match r.replyOf libs input with
    | .ok reply => Decodes fs view before r reply
    | .error (_, words) => Refused libs fs before r words := by
  cases input with
  | error fault => exact .unread hfilter hsingle hyields
  | ok bytes =>
    simp only [replyOf, inputText]
    cases htext : Text.ofUtf8? bytes with
    | none => exact .notText hfilter hsingle hyields htext
    | some t =>
      dsimp only
      cases hreply : Reply.ofText r.format t with
      | error fault => exact .noReply hfilter hsingle hyields htext hreply
      | ok reply => exact .input hsingle hyields (hyields.genuine hlawful) htext hreply

theorem Decodes.cases {reply : Reply} (h : Decodes fs view before r reply) (libs : Libraries) :
    r.single.isSome ∨
      ∃ input, Yields fs before r.source input ∧ r.replyOf libs input = .ok reply := by
  cases h with
  | single hsingle => exact .inl (by rw [hsingle]; rfl)
  | input _ hyields _ htext hreply =>
    refine .inr ⟨_, hyields, ?_⟩
    simp only [replyOf, inputText, htext, hreply]
    rfl

theorem Refused.unique {words words' : Text} (h : Refused libs fs before r words)
    (h' : Refused libs fs before r words') : words = words' := by
  rcases h.cases with ⟨written, hwritten, hrefused⟩ | ⟨hfilter, -, input, fault, hyields, hreply⟩
  · rcases h'.cases with ⟨written', hwritten', hrefused'⟩ | ⟨hfilter', -⟩
    · obtain rfl := Option.some.inj (hwritten.symm.trans hwritten')
      exact hrefused.unique hrefused'
    · exact absurd hrefused (hfilter' written words hwritten)
  · rcases h'.cases with ⟨written', hwritten', hrefused'⟩ | ⟨-, -, _, _, hyields', hreply'⟩
    · exact absurd hrefused' (hfilter written' words' hwritten')
    · obtain rfl := hyields.unique hyields'
      rw [hreply] at hreply'
      exact (Prod.mk.inj (Except.error.inj hreply')).2

theorem Decodes.not_refused {reply : Reply} (h : Decodes fs view before r reply)
    (hfilter : r.FilterStands libs) (words : Text) : ¬ Refused libs fs before r words := by
  intro hrefused
  rcases hrefused.cases with ⟨written, hwritten, hno⟩ | ⟨-, hsingle, input, fault, hyields, hreply⟩
  · exact hfilter written words hwritten hno
  · rcases h.cases libs with hsome | ⟨input', hyields', hreply'⟩
    · rw [hsingle] at hsome
      contradiction
    · obtain rfl := hyields.unique hyields'
      rw [hreply] at hreply'
      contradiction

/-- The filter cannot be built and the request is refused for it, or it stands. -/
theorem buildFilter_spec (libs : Libraries) (fs : FileSystem σ) (before : Scene σ) (r : Request) :
    match r.buildFilter libs.patterns with
    | .ok _ => r.FilterStands libs
    | .error fault => Refused libs fs before r fault.message := by
  unfold buildFilter
  cases hwritten : r.filter with
  | none =>
    show r.FilterStands libs
    intro written words hsome
    rw [hwritten] at hsome
    contradiction
  | some written =>
    cases hbuild : Filter.build libs.patterns written r.isPattern with
    | error fault =>
      simp only [hbuild, Except.map]
      exact .filter hwritten (Filter.unbuildable_iff.mpr ⟨fault, hbuild, rfl⟩)
    | ok f =>
      simp only [hbuild, Except.map]
      intro written' words hsome hno
      obtain rfl := Option.some.inj (hwritten.symm.trans hsome)
      obtain ⟨fault, hfault, -⟩ := Filter.unbuildable_iff.mp hno
      rw [hbuild] at hfault
      contradiction

theorem tellsPrefixLength_iff : r.tellsPrefixLength ↔ r.single = none ∧ r.format = .json := by
  rw [tellsPrefixLength, Bool.and_eq_true, Option.isNone_iff_eq_none, beq_iff_eq]

/-- The report of a run that made its suggestions answers with a summary of them. -/
theorem sums_reportOf (r : Request) (filter : Option Filter) (reply : Reply) (elapsedMs : Nat) :
    ∃ suggestions summary, r.Sums reply suggestions summary ∧ summary.elapsedMs = elapsedMs ∧
      r.reportOf reply ((r.selection filter).suggestions false reply.candidates) elapsedMs false =
        { summary := some summary, error := none, suggestions := some suggestions } := by
  have hmade := (r.selection filter).suggestions_made reply.candidates
  have hlength : ((r.selection filter).suggestions false reply.candidates).length ≤
      reply.candidates.length := by
    obtain ⟨kept, hkept, hsuggestions⟩ := hmade
    rw [hsuggestions, List.length_map]
    exact hkept.length_le
  refine ⟨_, _, ⟨hmade, rfl, rfl, rfl, rfl, hlength, fun n => ?_⟩, rfl, rfl⟩
  rw [← and_assoc, ← tellsPrefixLength_iff, eq_comm (a := n)]
  simp only [Option.ite_none_right_eq_some, Option.some.injEq]

theorem gives_tell (notices : List Notice) :
    Gives before (r.tell fs.machine notices) fun _ => True :=
  .forM FileSystem.gives_note _

theorem gives_input : Gives before (r.input fs.machine) (Yields fs before r.source) := by
  unfold input
  cases r.source with
  | stdin => exact FileSystem.gives_stdin.of_eq .stdin
  | file path => exact (FileSystem.gives_contents path).mono fun _ => .file

theorem gives_load (hlawful : fs.Lawful view) (hfilter : r.FilterStands libs) :
    Gives before (r.load fs.machine libs) fun
      | .ok reply => Decodes fs view before r reply
      | .error (_, words) => Refused libs fs before r words := by
  unfold load
  cases hsingle : r.single with
  | some single => exact .pure (.single hsingle)
  | none =>
    refine gives_input.bind fun input hyields => ?_
    have hspec := decodes_or_refused hlawful hfilter hsingle hyields
    cases hreply : r.replyOf libs input with
    | error fault => exact .pure (by rwa [hreply] at hspec)
    | ok reply =>
      exact (gives_tell _).bind fun _ _ => .pure (by rwa [hreply] at hspec)

theorem gives_suggest {start : Nat} (hopen : ∀ n, r.isOver start (before.times n) = false)
    (s : Selection) (c : Candidate) :
    Gives before (r.suggest fs.machine s start c) (· = s.suggestions false [c]) := by
  refine FileSystem.gives_clock.bind fun now hnow => ?_
  obtain ⟨n, rfl⟩ := hnow
  rw [hopen]
  dsimp only
  split
  · exact .pure rfl
  · exact (gives_tell _).bind fun _ _ => .pure rfl

/-- A request that is refused is answered with the words of the refusal. -/
theorem Refused.answers {words : Text} (h : Refused libs fs before r words) :
    Answers libs fs view before r (.ofError words) where
  refused words' h' := by rw [h.unique h']; rfl
  answered hmet := absurd h (hmet words)

theorem Decodes.answers {reply : Reply} {suggestions : List Suggestion} {summary : Summary}
    (h : Decodes fs view before r reply) (hfilter : r.FilterStands libs)
    (hsums : r.Sums reply suggestions summary) :
    Answers libs fs view before r
      { summary := some summary, error := none, suggestions := some suggestions } where
  refused words hrefused := absurd hrefused (h.not_refused hfilter words)
  answered _ := ⟨reply, suggestions, summary, h, hsums, rfl⟩

theorem gives_work (hlawful : fs.Lawful view) (hfilter : r.FilterStands libs) {start : Nat}
    (hopen : ∀ n, r.isOver start (before.times n) = false) (filter : Option Filter) :
    Gives before (r.work fs.machine libs filter start)
      fun report => Answers libs fs view before r report ∧
        ∀ s ∈ report.summary, s.elapsedMs < Text.wordLimit := by
  refine (gives_load hlawful hfilter).bind fun loaded hloaded => ?_
  cases loaded with
  | error refusal => exact (gives_tell _).bind fun _ _ => .pure ⟨hloaded.answers, by nofun⟩
  | ok reply =>
    refine (Gives.mapM (fun c => gives_suggest hopen (r.selection filter) c) _).bind_eq ?_
    rw [Selection.flatten_suggestions]
    refine FileSystem.gives_clock.bind fun now hnow => ?_
    obtain ⟨n, rfl⟩ := hnow
    refine (gives_tell _).bind fun _ _ => .pure ?_
    rw [hopen]
    obtain ⟨suggestions, summary, hsums, helapsed, hreport⟩ :=
      r.sums_reportOf filter reply ((before.times n - start) % Text.wordLimit)
    rw [hreport]
    refine ⟨hloaded.answers hfilter hsums, fun s hs => ?_⟩
    obtain rfl := Option.some.inj hs
    rw [helapsed]
    exact Nat.mod_lt _ (by decide)

theorem isOver_of_unexpired {times : Nat → Nat} (h : r.Unexpired times) (n : Nat) :
    r.isOver (times 0) (times n) = false := by
  unfold isOver
  cases htimeout : r.timeout with
  | none => rfl
  | some seconds => simpa using h seconds htimeout n

theorem looks_tell (notices : List Notice) (scene : Scene σ) :
    (r.tell fs.machine notices scene).2.looks = scene.looks := by
  unfold tell
  induction notices.filter fun n => r.heeds n.severity generalizing scene with
  | nil => rfl
  | cons n ns ih => exact ih _

/-- A request whose time does not run out is answered, and nothing is touched for that. -/
theorem answer_answers (libs : Libraries) (hlawful : fs.Lawful view) (hlooks : before.looks = 0)
    (hopen : r.Unexpired before.times) :
    (Answers libs fs view before r (r.answer fs.machine libs before).1 ∧
      ∀ s ∈ (r.answer fs.machine libs before).1.summary, s.elapsedMs < Text.wordLimit) ∧
      before.Untouched (r.answer fs.machine libs before).2 := by
  have hbuilt := r.buildFilter_spec libs fs before
  -- the scene after the notices on the detail
  obtain ⟨scene, hscene⟩ :
      ∃ scene, scene = (r.tell fs.machine (Detail.notices r.detail) before).2 := ⟨_, rfl⟩
  have htold : before.Untouched scene := hscene ▸ (gives_tell _ before (.refl before)).2
  have hlooked : scene.looks = 0 := by rw [hscene, looks_tell, hlooks]
  unfold answer
  cases hfilter : r.buildFilter libs.patterns with
  | error fault =>
    rw [hfilter] at hbuilt
    rw [hscene] at htold
    exact ⟨⟨hbuilt.answers, by nofun⟩, htold⟩
  | ok filter =>
    rw [hfilter] at hbuilt
    -- the first look at the clock
    have hstart : (fs.machine.clock scene).1 = before.times 0 := by
      show scene.times scene.looks = before.times 0
      rw [hlooked, htold.times]
    have hlook : before.Untouched (fs.machine.clock scene).2 :=
      (FileSystem.gives_clock scene htold).2
    have hwork := gives_work hlawful hbuilt (isOver_of_unexpired hopen) filter _ hlook
    rw [← hstart, hscene] at hwork
    exact hwork

theorem Answers.cases {report : Report} (h : Answers libs fs view before r report) :
    (∃ words, report = .ofError words) ∨ ∃ reply suggestions summary,
      Decodes fs view before r reply ∧ r.Sums reply suggestions summary ∧
        report = { summary := some summary, error := none, suggestions := some suggestions } := by
  by_cases hrefused : ∃ words, Refused libs fs before r words
  · obtain ⟨words, hwords⟩ := hrefused
    exact .inl ⟨words, h.refused words hwords⟩
  · exact .inr (h.answered (not_exists.mp hrefused))

theorem Answers.detailNamed {report : Report} (h : Answers libs fs view before r report) :
    report.DetailNamed := by
  obtain ⟨words, rfl⟩ | ⟨reply, suggestions, summary, -, hsums, rfl⟩ := h.cases
  · intro s hs
    contradiction
  · intro s hs
    obtain rfl := Option.some.inj hs
    exact ⟨_, hsums.detail⟩

theorem Decodes.prefixLength_lt {reply : Reply} (h : Decodes fs view before r reply) :
    reply.prefixLength < Text.wordLimit := by
  cases h with
  | single => exact Nat.zero_lt_succ _
  | input _ _ _ _ hreply => exact Reply.prefixLength_lt_of_written (Reply.written_of_ofText hreply)

theorem Answers.inWords {report : Report} (h : Answers libs fs view before r report)
    (helapsed : ∀ s ∈ report.summary, s.elapsedMs < Text.wordLimit)
    (hcandidates : ∀ s ∈ report.summary, s.candidates < Text.wordLimit) :
    ∀ s ∈ report.summary, s.InWords := by
  obtain ⟨words, rfl⟩ | ⟨reply, suggestions, summary, hdecodes, hsums, rfl⟩ := h.cases
  · intro s hs
    contradiction
  · intro s hs
    obtain rfl := Option.some.inj hs
    have hfew := hcandidates summary rfl
    refine ⟨helapsed summary rfl, hfew, Nat.lt_of_le_of_lt hsums.suggestions_le hfew, ?_⟩
    intro n hn
    obtain ⟨-, -, rfl⟩ := (hsums.prefixLength n).mp hn
    exact hdecodes.prefixLength_lt

/-- An answer can be read back from what is written. -/
theorem Answers.shows {report : Report} (h : Answers libs fs view before r report)
    (helapsed : ∀ s ∈ report.summary, s.elapsedMs < Text.wordLimit) :
    Shows report r.reportFormat (r.render report) := by
  unfold render
  cases r.reportFormat with
  | yaml => exact .yaml rfl (Yaml.read?_render h.detailNamed)
  | json => exact .json rfl fun hcandidates => Report.exists_told (h.inWords helapsed hcandidates)

theorem Answers.exitCode {report : Report} (h : Answers libs fs view before r report) :
    exitCode report = if report.error.isNone then 0 else 1 := by
  obtain ⟨words, rfl⟩ | ⟨-, -, -, -, -, rfl⟩ := h.cases
  · rfl
  · rfl

theorem deliver_delivered (hlawful : fs.Lawful view) {scene : Scene σ}
    (hscene : before.Untouched scene) (hprinted : before.printed = [])
    (hcomplaints : before.complaints = []) (report : Report) :
    Delivered fs view before r (r.render report) (exitCode report)
      (r.deliver fs.machine report scene).1 (r.deliver fs.machine report scene).2 := by
  have hprinted' := hscene.printed.trans hprinted
  have hcomplaints' := hscene.complaints.trans hcomplaints
  unfold deliver
  cases hout : r.out with
  | none =>
    refine .stdout hout ?_ hcomplaints' hscene.files
    show scene.printed ++ r.render report = r.render report
    rw [hprinted', List.nil_append]
  | some path =>
    have hresult : fs.write scene.files path (String.ofList (r.render report)).toUTF8 =
        fs.write before.files path (String.ofList (r.render report)).toUTF8 := by
      rw [hscene.files]
    simp only [bind, StateT.bind, FileSystem.machine, hresult]
    rcases hwrite : fs.write before.files path (String.ofList (r.render report)).toUTF8
      with ⟨fault | _, files⟩
    · have hcomplained : scene.complaints ++ writeFailure path fault = writeFailure path fault := by
        rw [hcomplaints', List.nil_append]
      exact .unwritten hout hprinted' hcomplained hwrite
        fun file hleads => hlawful.write_other hleads hwrite
    · exact .file hout hprinted' hcomplaints' hwrite
        (fun file hleads => hlawful.write_holds hleads hwrite)
        fun file hleads => hlawful.write_other hleads hwrite

end CommandLine.Request

open CommandLine Request in
/-- Arguments that are no request change no file and print nothing but a complaint. A request
whose time does not run out is answered by one report in the format that was asked for, at the
place that was asked for, and the exit code is zero for a report without an error and one for an
error. Help and the version are only printed. -/
theorem run_answers {σ : Type} {fs : FileSystem σ} {view : FileView σ} (hlawful : fs.Lawful view)
    (libs : Libraries) (arguments : List Text) (files : σ) (stdin : Except FileFault ByteArray)
    (times : Nat → Nat) :
    let before : Scene σ := { files, stdin, times }
    ∃ code after, (run fs.machine libs arguments).run before = (code, after) ∧
      match CommandLine.read arguments with
      | .error fault =>
        code = 1 ∧ after.printed = [] ∧ after.complaints = fault.message ++ ['\n'] ∧
          after.files = files
      | .ok (.run r) =>
        r.Unexpired times → ∃ report text, Answers libs fs view before r report ∧
          Shows report r.reportFormat text ∧
          Delivered fs view before r text (if report.error.isNone then 0 else 1) code after
      | .ok .help | .ok .version => code = 0 ∧ after.files = files := by
  intro before
  refine ⟨_, _, rfl, ?_⟩
  rcases CommandLine.read arguments with fault | (r | _ | _)
  · exact ⟨rfl, rfl, rfl, rfl⟩
  · intro hopen
    have hlooks : before.looks = 0 := rfl
    obtain ⟨⟨hanswers, helapsed⟩, htouched⟩ := answer_answers libs hlawful hlooks hopen
    refine ⟨_, _, hanswers, hanswers.shows helapsed, ?_⟩
    rw [← hanswers.exitCode]
    exact deliver_delivered hlawful htouched rfl rfl _
  · exact ⟨rfl, rfl⟩
  · exact ⟨rfl, rfl⟩

/-- A machine without files, with candidates on its standard input, and a clock that jumps. -/
def fresh : Scene Directory where
  files := {}
  stdin :=
    .ok (String.ofList "func,,Print,,func(a int) error\nvar,,Stdout,,*os.File\n".toList).toUTF8
  times n := if n = 0 then 0 else 7

/-- The engine for patterns of letters alone, and no words for a text that is no reply. -/
def Libraries.plain : Libraries where
  patterns := Filter.letters
  jsonWords _ := []

/-- Suggestions from lines of fields, for the names in which a pattern occurs, into a file. -/
def asked (pattern : Text) : List Text :=
  ["--csv".toList, "--f".toList, pattern, "--regex".toList, "--timeout".toList, ['5'],
    "-o".toList, "out".toList]

def askedRequest (pattern : Text) : CommandLine.Request where
  source := .stdin
  format := .fieldLines
  single := none
  detail := Detail.nameAndType.label
  typed := []
  filter := some pattern
  isPattern := true
  reportFormat := .yaml
  out := some "out".toList
  timeout := some 5
  verbose := false

open CommandLine Request in
/-- A file is written when letters are asked for, with one of the two candidates. Where the engine
knows no such pattern, the report of that is written. -/
theorem run_answers_asked :
    let found := (run Directory.fileSystem.machine .plain (asked ['P'])).run fresh
    let refused := (run Directory.fileSystem.machine .plain (asked ['('])).run fresh
    CommandLine.read (asked ['P']) = .ok (.run (askedRequest ['P'])) ∧
      Directory.fileSystem.Lawful Directory.view ∧ (askedRequest ['P']).Unexpired fresh.times ∧
      (∃ report text,
        Answers .plain Directory.fileSystem Directory.view fresh (askedRequest ['P']) report ∧
          Shows report .yaml text ∧
          Delivered Directory.fileSystem Directory.view fresh (askedRequest ['P']) text
            (if report.error.isNone then 0 else 1) found.1 found.2) ∧
      found.1 = 0 ∧ found.2.printed = [] ∧ found.2.files.files.map Prod.fst = [["out".toList]] ∧
      refused.1 = 1 ∧ refused.2.printed = [] := by
  intro found refused
  have hread : CommandLine.read (asked ['P']) = .ok (.run (askedRequest ['P'])) := by
    decide +kernel
  have hopen : (askedRequest ['P']).Unexpired fresh.times := by
    intro seconds hseconds n
    obtain rfl := Option.some.inj hseconds
    show (if n = 0 then 0 else 7) < 0 + 1000 * 5
    split <;> decide
  obtain ⟨code, after, hrun, hanswers⟩ :=
    run_answers Directory.lawful .plain (asked ['P']) fresh.files fresh.stdin fresh.times
  rw [hread] at hanswers
  obtain ⟨rfl, rfl⟩ := Prod.mk.inj hrun
  exact ⟨hread, Directory.lawful, hopen, hanswers hopen, by decide +kernel, by decide +kernel,
    by decide +kernel, by decide +kernel, by decide +kernel⟩

end CompletionSnippets
