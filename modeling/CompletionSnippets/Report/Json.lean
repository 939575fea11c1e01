import CompletionSnippets.Json.Writer
import CompletionSnippets.Report.Basic

/-!
# Reports in JSON

A report is an object with its parts, in a fixed order. Missing parts are left
out, and so are a suggestion's template and package when there are none. The
written report is one line.
-/
namespace CompletionSnippets

namespace Json.Value

def member (key : String) (v : Value) : List (Text × Value) := [(key.toList, v)]

/-- A member that may be missing. -/
def member? (key : String) (v : Option Value) : List (Text × Value) :=
  (v.map fun v => (key.toList, v)).toList

end Json.Value

open Json.Value

namespace Summary

def toJson (s : Summary) : Json.Value := .object <|
  member "elapsedMs" (.natural s.elapsedMs) ++
  member "timeout" (.bool s.timedOut) ++
  member "mode" (.string s.detail) ++
  member "candidates" (.natural s.candidates) ++
  member "suggestions" (.natural s.suggestions) ++
  member? "prefixLength" (s.prefixLength.map .natural)

end Summary

namespace Suggestion

def toJson (s : Suggestion) : Json.Value := .object <|
  member "text" (.string s.text) ++
  member "displayText" (.string s.displayText) ++
  member? "snippet" (s.snippet.map .string) ++
  member "type" (.string s.kind.label) ++
  member "leftLabel" (.string s.leftLabel) ++
  member "rightLabel" (.string s.rightLabel) ++
  member "replacementPrefix" (.string s.replaced) ++
  member? "package" (if s.package.isEmpty then none else some (.string s.package))

end Suggestion

namespace Report

def toJson (r : Report) : Json.Value := .object <|
  member? "meta" (r.summary.map Summary.toJson) ++
  member? "error" (r.error.map .string) ++
  member? "suggestions" (r.suggestions.map fun ss => .array (ss.map Suggestion.toJson))

/-- The report in the given format, as it is written. -/
def renderJson (r : Report) : Text := r.toJson.render ++ ['\n']

end Report
end CompletionSnippets
