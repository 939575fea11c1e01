import CompletionSnippets.Text

/-!
# Candidates

A candidate is one name that could complete what was typed, with its category,
its type and the package it comes from; type and package may be empty. A reply is a
list of candidates together with the length of what was typed.
-/
namespace CompletionSnippets

/-- One name that could complete what was typed. -/
structure Candidate where
  category : Text
  name : Text
  type : Text := []
  package : Text := []
deriving DecidableEq, Repr

/-- Candidates for what was typed, which has the given length. -/
structure Reply where
  prefixLength : Nat := 0
  candidates : List Candidate := []
deriving DecidableEq, Repr

namespace Candidate

def crashCategory : Text := ['P', 'A', 'N', 'I', 'C']

end Candidate

namespace Reply

/-- What the source reports when it crashed: the type of the only candidate, which
has the category of crashes. -/
def crash? (r : Reply) : Option Text :=
  match r.candidates with
  | [only] => if only.category = Candidate.crashCategory then some only.type else none
  | _ => none

end Reply
end CompletionSnippets
