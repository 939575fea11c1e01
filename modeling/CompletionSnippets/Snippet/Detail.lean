import CompletionSnippets.Notice

/-!
# Detail of templates

How much a template shows of the parameters of a call. A setting that names no
detail counts as `none` and is worth a notice.
-/
namespace CompletionSnippets

/-- How much a template shows of a call's parameters. -/
inductive Detail where
  /-- One bare stop when the function takes anything. -/
  | bare
  /-- One placeholder a parameter, holding its identifier. -/
  | name
  /-- One placeholder a parameter, holding identifier and type, or a callback. -/
  | nameAndType
deriving DecidableEq, Repr

namespace Detail

def label : Detail → Text
  | bare => "none".toList
  | name => "name".toList
  | nameAndType => "nameAndType".toList

/-- The detail that a setting names. -/
def ofLabel? (setting : Text) : Option Detail :=
  [bare, name, nameAndType].find? fun d => d.label == setting

def ofSetting (setting : Text) : Detail := (ofLabel? setting).getD bare

/-- What is reported when a setting is taken. -/
def notices (setting : Text) : List Notice :=
  if (ofLabel? setting).isSome then [] else [.unknownDetail setting]

def standard : Detail := nameAndType

end Detail
end CompletionSnippets
