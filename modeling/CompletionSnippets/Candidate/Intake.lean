import CompletionSnippets.Candidate.FieldLines
import CompletionSnippets.Candidate.Object
import CompletionSnippets.FileSystem
import CompletionSnippets.Notice

/-!
# Intake of candidates

The bytes of an input are text in UTF-8, and the text is a reply, written as JSON
or as lines of fields. A reply that only says that its source crashed is no
reply.
-/
namespace CompletionSnippets

inductive ReplyFormat where
  | json
  | fieldLines
deriving DecidableEq, Repr

/-- Why there is no reply. -/
inductive IntakeFault where
  | unreadable (fault : FileFault)
  | notText
  | noReply (fault : ReplyFault)
  | badLine (line : BadLine)
  /-- The source crashed, and this is what it reports. -/
  | crashed (report : Text)
deriving DecidableEq, Repr

namespace IntakeFault

/-- What is said of the fault, given the words of a reader of JSON for the text that it
refused. -/
def message (words : Text) : IntakeFault → Text
  | unreadable fault => "failed to read input: ".toList ++ fault.words
  | notText => "input is not valid UTF-8".toList
  | noReply _ => "malformed gocode JSON: ".toList ++ words
  | badLine line =>
    "malformed candidate on line ".toList ++ Text.decimal line.number ++ [':', ' '] ++ line.text
  | crashed _ => "gocode panicked while computing candidates".toList

/-- What is reported beside the fault. -/
def notices : IntakeFault → List Notice
  | crashed report => [.crashReported report]
  | _ => []

end IntakeFault

def inputText (input : Except FileFault ByteArray) : Except IntakeFault Text :=
  match input with
  | .error fault => .error (.unreadable fault)
  | .ok bytes =>
    match Text.ofUtf8? bytes with
    | none => .error .notText
    | some t => .ok t

namespace Reply

/-- The reply that a text is written to be, a crash included. -/
def written (format : ReplyFormat) (t : Text) : Except IntakeFault Reply :=
  match format with
  | .json => (ofJson t).mapError .noReply
  | .fieldLines => (ofFieldLines t).mapError .badLine

/-- The reply in a text. -/
def ofText (format : ReplyFormat) (t : Text) : Except IntakeFault Reply := do
  let reply ← written format t
  match reply.crash? with
  | some report => .error (.crashed report)
  | none => return reply

theorem ofText_of_written {format : ReplyFormat} {t : Text} {n : Nat} {cs : List Candidate}
    (h : written format t = .ok { prefixLength := n, candidates := cs }) :
    ((∀ c, cs = [c] → c.category ≠ Candidate.crashCategory) →
      ofText format t = .ok { prefixLength := n, candidates := cs }) ∧
    ∀ c, cs = [c] → c.category = Candidate.crashCategory →
      ofText format t = .error (.crashed c.type) := by
  constructor
  · intro hcrash
    have hnone : crash? { prefixLength := n, candidates := cs } = none := by
      unfold crash?
      split
      · rename_i only hcs
        exact if_neg (hcrash only hcs)
      · rfl
    simp only [ofText, h, hnone, bind, Except.bind]
    rfl
  · rintro c rfl hc
    have hsome : crash? { prefixLength := n, candidates := [c] } = some c.type := if_pos hc
    simp only [ofText, h, hsome, bind, Except.bind]

end Reply
end CompletionSnippets
