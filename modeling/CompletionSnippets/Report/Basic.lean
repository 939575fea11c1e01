import CompletionSnippets.Suggestion

/-!
# Reports

A report is the answer to one request: a summary and suggestions, or an error.
Each part may be missing.
-/
namespace CompletionSnippets

inductive ReportFormat where
  | yaml
  | json
deriving DecidableEq, Repr

/-- What a report says about the run. -/
structure Summary where
  elapsedMs : Nat
  timedOut : Bool
  detail : Text
  candidates : Nat
  suggestions : Nat
  /-- The length of what was typed, if the input tells it. -/
  prefixLength : Option Nat
deriving DecidableEq, Repr

/-- The answer to a request. -/
structure Report where
  summary : Option Summary := none
  error : Option Text := none
  suggestions : Option (List Suggestion) := none
deriving DecidableEq, Repr

namespace Report

def ofError (message : Text) : Report := { error := some message }

end Report
end CompletionSnippets
