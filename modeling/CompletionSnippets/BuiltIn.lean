import CompletionSnippets.Pattern.Reader
import CompletionSnippets.Program

/-!
# Built-in libraries

What a run takes from elsewhere, as this library can offer it: its own patterns, which are a part
of the usual ones, and its own words for a text that is no reply.
-/
namespace CompletionSnippets

namespace ReplyFault

def words : ReplyFault → Text
  | otherShape => "data did not match any variant of untagged enum JsonReply".toList
  | notJson .ended => "unexpected end of text".toList
  | notJson .malformed => "unexpected text".toList

end ReplyFault

namespace Libraries

def builtIn : Libraries where
  patterns written := (Pattern.read written).mapError PatternFault.message |>.map Pattern.occursIn
  jsonWords t :=
    match Reply.ofJson t with
    | .ok _ => []
    | .error fault => fault.words

end Libraries
end CompletionSnippets
