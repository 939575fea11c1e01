import CompletionSnippets.Text

/-!
# Notices

A notice is something that a computation reports beside its result: an error when
it gave up, a warning when it went on with less than it was given, and for those
who want to know how far it came. Notices are values, listed in the order in which
they arise, and only their wording is fixed here.
-/
namespace CompletionSnippets

inductive Severity where
  | debug
  | warning
  | error
deriving DecidableEq, Repr

/-- What is reported beside a result. -/
inductive Notice where
  /-- A function type below the given number of levels was kept as plain text. -/
  | nestedDeeperThan (levels : Nat)
  /-- The setting names no detail of templates. -/
  | unknownDetail (setting : Text)
  /-- The candidates' source reports that it crashed. -/
  | crashReported (report : Text)
  /-- The request was refused with the given words. -/
  | refused (words : Text)
  /-- A function is completed to its name, as the words say why its type is none. -/
  | offeredAsText (name words : Text)
  | decoded (candidates : Nat)
  | kept (suggestions candidates elapsedMs : Nat)
deriving DecidableEq, Repr

namespace Notice

def severity : Notice → Severity
  | nestedDeeperThan _ => .warning
  | unknownDetail _ => .warning
  | crashReported _ => .error
  | refused _ => .error
  | offeredAsText _ _ => .debug
  | decoded _ => .debug
  | kept _ _ _ => .debug

def message : Notice → Text
  | nestedDeeperThan levels =>
    "function type nested deeper than ".toList ++ Text.decimal levels ++
      " levels kept as text".toList
  | unknownDetail setting =>
    "unknown snippet mode '".toList ++ setting ++ "', using 'none'".toList
  | crashReported report => "gocode reported a panic: ".toList ++ report
  | refused words => words
  | offeredAsText name words => name ++ [':', ' '] ++ words ++ ", offering plain text".toList
  | decoded candidates => "decoded ".toList ++ Text.decimal candidates ++ " candidates".toList
  | kept suggestions candidates elapsedMs =>
    Text.decimal suggestions ++ " of ".toList ++ Text.decimal candidates ++
      " candidates kept in ".toList ++ Text.decimal elapsedMs ++ ['m', 's']

end Notice
end CompletionSnippets
