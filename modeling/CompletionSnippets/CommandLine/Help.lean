import CompletionSnippets.Text

/-!
# The command line's own texts

What the program says about itself: how it is used, and its version.
-/
namespace CompletionSnippets.CommandLine

/-- The lines that explain how the program is used. -/
def helpLines : List String := [
  "gosig — completion snippets from gocode candidates",
  "",
  "Usage:",
  "  gosig [options]",
  "",
  "Modes:",
  "  (default)               Read gocode candidates and emit suggestions",
  "  --name <n> --type <t>   Build the suggestion for a single function signature",
  "",
  "Options:",
  "  --input, -i <path>      Candidate file, '-' for stdin (default: stdin)",
  "  --csv                   Input uses gocode's csv format (default: json)",
  "  --mode <mode>           Placeholder verbosity: none, name, nameAndType",
  "                          (default: nameAndType; unknown values act as none)",
  "  --prefix <text>         Keep candidates starting with <text> (case-insensitive)",
  "  --f <pattern>           Keep candidates whose name contains a term (use | for OR)",
  "  --regex                 Treat --f pattern as a regular expression",
  "  --json                  Emit JSON instead of YAML",
  "  --out, -o <path>        Write output to a file instead of stdout",
  "  --timeout <secs>        Max execution time in seconds",
  "  --verbose, -v           Debug logging on stderr (RUST_LOG overrides)",
  "  --help, -h              Show this help",
  "  --version, -V           Show version",
  "",
  "Examples:",
  "  gocode -f=json autocomplete main.go 120 | gosig --prefix P",
  "  gosig -i candidates.csv --csv --mode name",
  "  gosig --name Walk --type \"func(root string, fn func(path string) error) error\"",
  "  gosig -i candidates.json --f \"print|scan\" --json"]

def helpText : Text := helpLines.flatMap fun line => line.toList ++ ['\n']

def versionText : Text := "0.1.0\n".toList

end CompletionSnippets.CommandLine
