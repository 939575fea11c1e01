import CompletionSnippets.Pattern.CharSet

/-!
# Patterns and where they match

A pattern is a regular expression over character sets, with conditions on the
place between two characters. A text has one place before each character and one
behind the last; a list of marks, one for each place, is a set of places. A
pattern takes a set of places to the places where a match that begins in one of
them can end, so that a pattern occurs in a text when a match from any place ends
at all. Repetitions grow their set until it changes no more, which takes no more
rounds than there are places.
-/
namespace CompletionSnippets

/-- A condition on the place between two characters. -/
inductive Look where
  | textStart
  | textEnd
  | lineStart
  | lineEnd
  /-- Like `lineStart`, where a carriage return, alone or with a line feed, ends lines too. -/
  | anyLineStart
  /-- Like `lineEnd`, where a carriage return, alone or with a line feed, ends lines too. -/
  | anyLineEnd
  | wordBoundary
  | noWordBoundary
  | wordStart
  | wordEnd
  /-- No word character stands before. -/
  | wordStartHalf
  /-- No word character stands behind. -/
  | wordEndHalf
deriving DecidableEq, Repr

/-- A regular expression. -/
inductive Pattern where
  | empty
  | set (s : Pattern.CharSet)
  | look (l : Look)
  /-- A part that is numbered, so that what it takes can be told. -/
  | group (p : Pattern)
  | seq (a b : Pattern)
  | alt (a b : Pattern)
  /-- At least `least` and at most `most` times, or any number of times from `least`. -/
  | repeated (p : Pattern) (least : Nat) (most : Option Nat)
deriving DecidableEq, Repr

namespace Look

def holds (l : Look) (before after : Option Char) : Bool :=
  let wordBefore := before.any fun c => Pattern.isWordCode c.toNat
  let wordAfter := after.any fun c => Pattern.isWordCode c.toNat
  match l with
  | textStart => before.isNone
  | textEnd => after.isNone
  | lineStart => before.isNone || before == some '\n'
  | lineEnd => after.isNone || after == some '\n'
  | anyLineStart =>
    before.isNone || before == some '\n' || (before == some '\r' && after != some '\n')
  | anyLineEnd =>
    after.isNone || after == some '\r' || (after == some '\n' && before != some '\r')
  | wordBoundary => wordBefore != wordAfter
  | noWordBoundary => wordBefore == wordAfter
  | wordStart => !wordBefore && wordAfter
  | wordEnd => wordBefore && !wordAfter
  | wordStartHalf => !wordBefore
  | wordEndHalf => !wordAfter

end Look

namespace Pattern

/-- A set of places of a text: one mark for each place. -/
abbrev Marks := List Bool

/-- The places of a text by their neighbours, given what stands before it. -/
def places (before : Option Char) : Text → List (Option Char × Option Char)
  | [] => [(before, none)]
  | c :: rest => (before, some c) :: places (some c) rest

def either (a b : Marks) : Marks := List.zipWith (· || ·) a b

/-- `n` steps, or fewer when a step changes nothing. -/
def iterate (step : Marks → Marks) : Nat → Marks → Marks
  | 0, marks => marks
  | n + 1, marks =>
    let next := step marks
    if next == marks then marks else iterate step n next

/-- The places where a match of the pattern can end that begins at a marked one. -/
def ends (text : Text) : Pattern → Marks → Marks
  | empty, marks => marks
  | set s, marks => false :: List.zipWith (fun marked c => marked && s.holds c.toNat) marks text
  | look l, marks =>
    List.zipWith (fun marked (before, after) => marked && l.holds before after) marks
      (places none text)
  | group p, marks => ends text p marks
  | seq a b, marks => ends text b (ends text a marks)
  | alt a b, marks => either (ends text a marks) (ends text b marks)
  | repeated p least most, marks =>
    let rounds := match most with
      | some most => most - least
      | none => text.length + 1
    iterate (fun marks => either marks (ends text p marks)) rounds
      (iterate (ends text p) least marks)

/-- Whether the pattern matches somewhere in the text. -/
def occursIn (p : Pattern) (text : Text) : Bool :=
  (ends text p (List.replicate (text.length + 1) true)).any id

end Pattern
end CompletionSnippets
