import CompletionSnippets.Candidate.Intake
import CompletionSnippets.Report.Basic

/-!
# The command line

The arguments are groups in any order: a setting with its value, which may be any
text, or a flag. The last value of a setting counts. The request for help or for
the version ends the reading of arguments at once, and so does the first fault;
the settings are held against each other only when all groups are read.
-/
namespace CompletionSnippets.CommandLine

/-- The options that take a value. -/
inductive Setting where
  | input
  | name
  | type
  | detail
  | typed
  | filter
  | out
  | timeout
deriving DecidableEq, Repr

inductive Flag where
  | fieldLines
  | pattern
  | json
  | verbose
deriving DecidableEq, Repr

namespace Setting

def spelling : Setting → Text
  | input => "--input".toList
  | name => "--name".toList
  | type => "--type".toList
  | detail => "--mode".toList
  | typed => "--prefix".toList
  | filter => "--f".toList
  | out => "--out".toList
  | timeout => "--timeout".toList

end Setting

/-- What an argument means where an option may stand. -/
inductive Word where
  | setting (s : Setting)
  | flag (f : Flag)
  | help
  | version
deriving DecidableEq, Repr

def words : List (Text × Word) := [
  ("--input".toList, .setting .input), ("-i".toList, .setting .input),
  ("--name".toList, .setting .name),
  ("--type".toList, .setting .type),
  ("--mode".toList, .setting .detail),
  ("--prefix".toList, .setting .typed),
  ("--f".toList, .setting .filter),
  ("--out".toList, .setting .out), ("-o".toList, .setting .out),
  ("--timeout".toList, .setting .timeout),
  ("--csv".toList, .flag .fieldLines),
  ("--regex".toList, .flag .pattern),
  ("--json".toList, .flag .json),
  ("--verbose".toList, .flag .verbose), ("-v".toList, .flag .verbose),
  ("--help".toList, .help), ("-h".toList, .help), ("-?".toList, .help),
  ("--version".toList, .version), ("-V".toList, .version)]

def word? (argument : Text) : Option Word := words.lookup argument

/-- An option as it was given. -/
inductive Group where
  | setting (s : Setting) (value : Text)
  | flag (f : Flag)
deriving DecidableEq, Repr

/-- Why the arguments are no request. -/
inductive UsageFault where
  | missingValue (s : Setting)
  | badTimeout (value : Text)
  | unknownOption (argument : Text)
  | nameWithoutType
  | typeWithoutName
  | inputWithName
  | patternWithoutFilter
deriving DecidableEq, Repr

namespace UsageFault

def message : UsageFault → Text
  | missingValue s => "Missing value for ".toList ++ s.spelling
  | badTimeout value => "Invalid integer for --timeout: ".toList ++ value
  | unknownOption argument =>
    "Unknown option: ".toList ++ argument ++
      "\nRun 'gosig --help' for usage information.".toList
  | nameWithoutType => "--name requires --type".toList
  | typeWithoutName => "--type requires --name".toList
  | inputWithName =>
    "--input and --name/--type are mutually exclusive and cannot be combined.".toList
  | patternWithoutFilter => "--regex requires --f".toList

end UsageFault

/-- Where the candidates come from. -/
inductive Source where
  | stdin
  | file (path : Text)
deriving DecidableEq, Repr

/-- What a run is asked for. -/
structure Request where
  source : Source
  format : ReplyFormat
  /-- The name and type of the only candidate, instead of an input. -/
  single : Option (Text × Text)
  detail : Text
  typed : Text
  filter : Option Text
  isPattern : Bool
  reportFormat : ReportFormat
  out : Option Text
  timeout : Option Nat
  verbose : Bool
deriving DecidableEq, Repr

/-- What the arguments ask for. -/
inductive Action where
  | run (r : Request)
  | help
  | version
deriving DecidableEq, Repr

/-- The number of seconds that a text gives: digits, with a plus sign in front or
without, for a number of 64 bits. -/
def seconds? (value : Text) : Option Nat :=
  let digits := match value with
    | '+' :: rest => rest
    | _ => value
  if !digits.isEmpty && digits.all Text.isDigit && Text.ofDecimal digits < Text.wordLimit then
    some (Text.ofDecimal digits)
  else none

inductive Scan where
  | groups (last : List Group)
  | help
  | version
deriving DecidableEq, Repr

/-- The groups of the arguments, the last first, behind those already read. -/
def scan (read : List Group) : List Text → Except UsageFault Scan
  | [] => .ok (.groups read)
  | argument :: rest =>
    match word? argument with
    | none => .error (.unknownOption argument)
    | some .help => .ok .help
    | some .version => .ok .version
    | some (.flag f) => scan (.flag f :: read) rest
    | some (.setting s) =>
      match rest with
      | [] => .error (.missingValue s)
      | value :: rest =>
        if s = .timeout ∧ seconds? value = none then .error (.badTimeout value)
        else scan (.setting s value :: read) rest

/-- The value of a setting, in groups of which the last comes first. -/
def value? (groups : List Group) (s : Setting) : Option Text :=
  groups.findSome? fun
    | .setting s' value => if s' = s then some value else none
    | .flag _ => none

def sourceOf (input : Option Text) : Source :=
  match input with
  | none | some ['-'] => .stdin
  | some path => .file path

/-- The request that the groups make, the last group first. -/
def request (groups : List Group) : Except UsageFault Request := do
  let input := value? groups .input
  let single ← match value? groups .name, value? groups .type with
    | some name, some type => .ok (some (name, type))
    | none, none => .ok none
    | some _, none => .error .nameWithoutType
    | none, some _ => .error .typeWithoutName
  if single.isSome && input.isSome then throw .inputWithName
  let filter := value? groups .filter
  let isPattern := groups.contains (.flag .pattern)
  if isPattern && filter.isNone then throw .patternWithoutFilter
  return {
    source := sourceOf input
    format := if groups.contains (.flag .fieldLines) then .fieldLines else .json
    single
    detail := (value? groups .detail).getD Detail.standard.label
    typed := (value? groups .typed).getD []
    filter
    isPattern
    reportFormat := if groups.contains (.flag .json) then .json else .yaml
    out := value? groups .out
    timeout := (value? groups .timeout).bind seconds?
    verbose := groups.contains (.flag .verbose) }

/-- What the arguments ask for. -/
def read (arguments : List Text) : Except UsageFault Action := do
  match ← scan [] arguments with
  | .help => return .help
  | .version => return .version
  | .groups groups => return .run (← request groups)

end CompletionSnippets.CommandLine
