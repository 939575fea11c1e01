import CompletionSnippets.Report.Basic

/-!
# Reports in YAML

A report is a list of lines. Numbers that are zero, texts that are empty and
parts that are missing are left out where their absence says the same. A text
stands in its line as it is, unless it could be taken for something else there;
then it stands in double quotes, with quotes, backslashes, line ends and tabs
escaped.
-/
namespace CompletionSnippets.Yaml

/-- The characters that a text without quotes does not begin with. -/
def indicators : List Char :=
  ['-', '[', ']', '{', '}', '\'', '"', '!', '&', '*', '|', '>', '%', '@', '\x60', ',', '?', '#',
    ' ']

/-- The characters that a text without quotes does not hold. -/
def separators : List Char := [':', '#', '\\', '\n', '\r', '\t']

/-- The words that stand for truth values and for nothing. -/
def reservedWords : List Text :=
  ["true", "false", "null", "True", "False", "Null", "TRUE", "FALSE", "NULL", "yes", "no",
    "Yes", "No", "YES", "NO", "on", "off", "On", "Off", "ON", "OFF"].map String.toList

/-- Whether the text, a sign in front apart, consists of digits and dots. -/
def looksNumeric (t : Text) : Bool :=
  let digits := match t with
    | '-' :: rest | '+' :: rest => rest
    | _ => t
  !digits.isEmpty && digits.all fun c => Text.isDigit c || c == '.'

/-- Whether a text that is not empty has to stand in quotes. -/
def needsQuotes (t : Text) : Bool :=
  t.head?.any indicators.contains || reservedWords.contains t || looksNumeric t ||
    t.getLast? == some ' ' || t.any separators.contains

/-- A character as it stands between double quotes. -/
def escapeChar (c : Char) : Text :=
  match c with
  | '"' => ['\\', '"']
  | '\\' => ['\\', '\\']
  | '\n' => ['\\', 'n']
  | '\r' => ['\\', 'r']
  | '\t' => ['\\', 't']
  | c => [c]

/-- A text as it stands in its line. -/
def scalar (t : Text) : Text :=
  if t.isEmpty then ['\'', '\'']
  else if needsQuotes t then '"' :: t.flatMap escapeChar ++ ['"']
  else t

/-- A line with a key and what stands for its value. -/
def field (key : String) (value : Text) : Text := key.toList ++ [':', ' '] ++ value

/-- A line with a key and a text, unless the text is empty. -/
def optionalField (key : String) (t : Text) : List Text :=
  if t.isEmpty then [] else [field key (scalar t)]

def summaryLines (s : Summary) : List Text :=
  ["meta:".toList] ++
    (if s.elapsedMs = 0 then [] else [field "  elapsedMs" (Text.decimal s.elapsedMs)]) ++
    (if s.timedOut then [field "  timeout" "true".toList] else []) ++
    [field "  mode" s.detail,
      field "  candidates" (Text.decimal s.candidates),
      field "  suggestions" (Text.decimal s.suggestions)] ++
    (s.prefixLength.map fun n => field "  prefixLength" (Text.decimal n)).toList

def suggestionLines (s : Suggestion) : List Text :=
  [field "- text" (scalar s.text), field "  displayText" (scalar s.displayText)] ++
    (s.snippet.map fun t => field "  snippet" (scalar t)).toList ++
    [field "  type" s.kind.label] ++
    optionalField "  leftLabel" s.leftLabel ++
    optionalField "  rightLabel" s.rightLabel ++
    optionalField "  replacementPrefix" s.replaced ++
    optionalField "  package" s.package

def suggestionsLines (ss : List Suggestion) : List Text :=
  if ss.isEmpty then [] else "suggestions:".toList :: ss.flatMap suggestionLines

def reportLines (r : Report) : List Text :=
  (r.summary.map summaryLines).getD [] ++
    (r.error.map fun message => field "error" (scalar message)).toList ++
    (r.suggestions.map suggestionsLines).getD []

/-- The report as it is written, every line with its end. -/
def render (r : Report) : Text := (reportLines r).flatMap fun line => line ++ ['\n']

end CompletionSnippets.Yaml
