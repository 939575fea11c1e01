import CompletionSnippets.CommandLine.Basic
import CompletionSnippets.CommandLine.Help
import CompletionSnippets.Machine
import CompletionSnippets.Report.Json
import CompletionSnippets.Report.Yaml

/-!
# Runs

A run takes its arguments and a machine to an exit code. A request is answered by one report:
an error alone, when the filter cannot be built or else when there is no reply, and otherwise a
summary with the suggestions. The report is written to one place, to the file that was asked
for or to standard output.

Patterns are matched by an engine that is handed in, and so are the words in which a reader of
JSON says what is wrong with a text.
-/
namespace CompletionSnippets

open CommandLine

/-- What runs take from elsewhere. -/
structure Libraries where
  patterns : PatternEngine
  /-- What a reader of JSON says of a text that is no reply. -/
  jsonWords : Text → Text

namespace CommandLine.Request

def buildFilter (engine : PatternEngine) (r : Request) : Except FilterFault (Option Filter) :=
  match r.filter with
  | none => .ok none
  | some written => (Filter.build engine written r.isPattern).map some

/-- The reply in an input, or the fault together with what is said of it. -/
def replyOf (libs : Libraries) (r : Request) (input : Except FileFault ByteArray) :
    Except (IntakeFault × Text) Reply :=
  match inputText input with
  | .error fault => .error (fault, fault.message [])
  | .ok t =>
    (Reply.ofText r.format t).mapError fun fault => (fault, fault.message (libs.jsonWords t))

/-- Whether the input tells the length of what was typed. -/
def tellsPrefixLength (r : Request) : Bool := r.single.isNone && r.format == .json

def timedOutMessage : Text := "Operation timed out — partial results may be incomplete".toList

/-- The report of a run that made the given suggestions from a reply. -/
def reportOf (r : Request) (reply : Reply) (suggestions : List Suggestion) (elapsedMs : Nat)
    (timedOut : Bool) : Report where
  summary := some {
    elapsedMs, timedOut
    detail := (Detail.ofSetting r.detail).label
    candidates := reply.candidates.length
    suggestions := suggestions.length
    prefixLength := if r.tellsPrefixLength then some reply.prefixLength else none }
  error := if timedOut then some timedOutMessage else none
  suggestions := some suggestions

def selection (r : Request) (filter : Option Filter) : Selection where
  detail := Detail.ofSetting r.detail
  typed := r.typed
  filter

/-- Whether the time that is given to the run is over. -/
def isOver (r : Request) (start now : Nat) : Bool :=
  r.timeout.any fun seconds => start + 1000 * seconds ≤ now

def heeds (r : Request) (severity : Severity) : Bool := r.verbose || severity != .debug

def render (r : Request) (report : Report) : Text :=
  match r.reportFormat with
  | .yaml => Yaml.render report
  | .json => report.renderJson

/-- The exit code that goes with a report: zero without an error, two when the run
took too long, and one otherwise. -/
def exitCode (report : Report) : Nat :=
  if report.error.isNone then 0 else if report.summary.isSome then 2 else 1

def writeFailure (path : Text) (fault : FileFault) : Text :=
  "Failed to write ".toList ++ path ++ [':', ' '] ++ fault.words ++ ['\n']

variable {m : Type → Type} [Monad m]

/-- The notices that are asked for are left on the machine. -/
def tell (machine : Machine m) (r : Request) (notices : List Notice) : m Unit :=
  (notices.filter fun n => r.heeds n.severity).forM machine.note

def input (machine : Machine m) (r : Request) : m (Except FileFault ByteArray) :=
  match r.source with
  | .stdin => machine.stdin
  | .file path => machine.contents path

/-- The candidates that are asked for: a single function, or those of the input. -/
def load (machine : Machine m) (libs : Libraries) (r : Request) :
    m (Except (IntakeFault × Text) Reply) := do
  match r.single with
  | some (name, type) =>
    return .ok { candidates := [{ category := "func".toList, name, type }] }
  | none =>
    let reply := r.replyOf libs (← r.input machine)
    if let .ok reply := reply then
      r.tell machine [.decoded reply.candidates.length]
    return reply

/-- The suggestion for one candidate, if there is time for it and the candidate is kept. -/
def suggest (machine : Machine m) (r : Request) (s : Selection) (start : Nat) (c : Candidate) :
    m (List Suggestion) := do
  let suggestions := s.suggestions (r.isOver start (← machine.clock)) [c]
  unless suggestions.isEmpty do
    r.tell machine (Suggestion.notices c)
  return suggestions

/-- The report of a run that began at the given time, with the filter that was built. -/
def work (machine : Machine m) (libs : Libraries) (r : Request) (filter : Option Filter)
    (start : Nat) : m Report := do
  match ← r.load machine libs with
  | .error (fault, words) =>
    r.tell machine (fault.notices ++ [.refused words])
    return .ofError words
  | .ok reply =>
    let suggestions ← reply.candidates.mapM (r.suggest machine (r.selection filter) start)
    let now ← machine.clock
    let elapsedMs := (now - start) % Text.wordLimit
    r.tell machine [.kept suggestions.flatten.length reply.candidates.length elapsedMs]
    return r.reportOf reply suggestions.flatten elapsedMs (r.isOver start now)

def answer (machine : Machine m) (libs : Libraries) (r : Request) : m Report := do
  r.tell machine (Detail.notices r.detail)
  match r.buildFilter libs.patterns with
  | .error fault => return .ofError fault.message
  | .ok filter => r.work machine libs filter (← machine.clock)

/-- A report is delivered to the file that was asked for, or to standard output, and gives the
exit code. -/
def deliver (machine : Machine m) (r : Request) (report : Report) : m Nat := do
  match r.out with
  | none =>
    machine.print (r.render report)
    return exitCode report
  | some path =>
    match ← machine.write path (String.ofList (r.render report)).toUTF8 with
    | .ok () => return exitCode report
    | .error fault =>
      machine.complain (writeFailure path fault)
      return 1

end CommandLine.Request

/-- A run, down to its exit code. -/
def run {m : Type → Type} [Monad m] (machine : Machine m) (libs : Libraries)
    (arguments : List Text) : m Nat := do
  match CommandLine.read arguments with
  | .error fault =>
    machine.complain (fault.message ++ ['\n'])
    return 1
  | .ok .help =>
    machine.print helpText
    return 0
  | .ok .version =>
    machine.print versionText
    return 0
  | .ok (.run r) => r.deliver machine (← r.answer machine libs)

end CompletionSnippets
