import CompletionSnippets.Pattern.Basic
import CompletionSnippets.Pattern.ByteRanges

/-!
# Sizes of patterns

Patterns are meant to be compiled to automata over bytes, one that reads a text
forward and one that reads it backward. This module says how much memory these
take, without building them: a state takes 32 bytes, a step on a range of bytes in
a state that has several takes 8, and a free step in a state that has several
takes 4. A pattern fits when neither automaton takes more than ten mebibytes.

A counted repetition takes room for each round, so that short patterns can be very
large. Characters in a row are read by one state for each byte. Alternatives that
are single characters or sets are one set, and alternatives that are strings share
their beginnings (`Strings.size`).
-/
namespace CompletionSnippets.Pattern

/-- The memory that a part of a pattern takes, by the direction of reading. -/
structure Size where
  forward : Nat
  backward : Nat
deriving DecidableEq, Repr

namespace Size

def both (n : Nat) : Size := ⟨n, n⟩

instance : Add Size := ⟨fun a b => ⟨a.forward + b.forward, a.backward + b.backward⟩⟩

def times (count : Nat) (s : Size) : Size := ⟨count * s.forward, count * s.backward⟩

def state : Nat := 32

/-- The size of a state that has the given number of steps on ranges of bytes. -/
def branching (steps : Nat) : Nat := state + 8 * steps

/-- The size of a state that has the given number of free steps. -/
def joining (steps : Nat) : Nat := state + 4 * steps

/-- The size of a set of characters, which is not a single one. Forward, the rows of
the set share their ends; backward, they share what is read last, and a row costs a
free step. A set within ASCII is one state. -/
def ofSet (s : CharSet) : Size :=
  if s.ranges.all fun r => r.2 < 0x80 then both (state + branching s.ranges.length)
  else
    let rows := ByteRow.ofSet s
    let places := (ByteRow.sequels ByteRow.lengthLimit rows).eraseDups
    let steps := (places.map fun place => (ByteRow.tails place).length).filter (0 < ·)
    { forward := steps.foldl (fun size steps => size + branching steps) state
      backward := state + joining rows.length +
        state * ByteRow.beginnings ByteRow.lengthLimit rows }

end Size

namespace Strings

def heads (strings : List (List UInt8)) : List UInt8 := (strings.filterMap List.head?).eraseDups

/-- What is left of the strings that begin with a byte. -/
def after (b : UInt8) (strings : List (List UInt8)) : List (List UInt8) :=
  strings.filterMap fun string => if string.head? = some b then some string.tail else none

/-- The size of the states that read one of the strings, of at most `n` bytes, where
the strings that begin alike share a state. A string that ends here sets those
before it apart from those behind it. -/
def sizeWithin : Nat → List (List UInt8) → Nat
  | 0, _ => 0
  | n + 1, strings =>
    if strings.all List.isEmpty then 0
    else
      let groups := strings.splitOnP List.isEmpty
      let step (size : Nat) (group : List (List UInt8)) : Nat :=
        let heads := heads group
        let own := if heads.length = 0 then 0
          else if heads.length = 1 then Size.state
          else Size.branching heads.length
        heads.foldl (fun size b => size + sizeWithin n (after b group)) (size + own)
      let steps := (groups.filter fun group => !group.isEmpty).length + (groups.length - 1)
      groups.foldl step (Size.joining steps)

def size (strings : List (List UInt8)) : Nat :=
  Size.state + sizeWithin ((strings.map List.length).foldl max 0 + 1) strings

end Strings

/-- What the size of a pattern depends on. -/
inductive Shape where
  | empty
  | string (t : Text)
  | set (s : CharSet)
  | compound (size : Size)

namespace Shape

def size (sizeOf : CharSet → Size) : Shape → Size
  | empty => .both Size.state
  | string t => .both (Size.state * t.utf8Length)
  | set s => sizeOf s
  | compound size => size

def ofSet (s : CharSet) : Shape :=
  match s.char? with
  | some c => .string [c]
  | none => .set s

def followedBy (sizeOf : CharSet → Size) (a b : Shape) : Shape :=
  match a, b with
  | empty, b => b
  | a, empty => a
  | string a, string b => .string (a ++ b)
  | a, b => .compound (a.size sizeOf + b.size sizeOf)

def string? : Shape → Option Text
  | string t => some t
  | _ => none

def set? : Shape → Option CharSet
  | set s => some s
  | _ => none

def ofAlternatives (sizeOf : CharSet → Size) (shapes : List Shape) : Shape :=
  match shapes with
  | [only] => only
  | _ =>
    match shapes.mapM string?, shapes.mapM set? with
    | some strings, _ =>
      if strings.all fun t => t.length = 1 then
        .ofSet (.unionOf (strings.flatten.map CharSet.single))
      else
        let bytes := strings.map Text.utf8
        .compound ⟨Strings.size bytes, Strings.size (bytes.map List.reverse)⟩
    | _, some sets => .ofSet (.unionOf sets)
    | _, _ =>
      .compound <| (shapes.map (size sizeOf)).foldr (· + ·)
        (.both (Size.state + Size.joining shapes.length))

/-- The shape of a part of the given size that is repeated. Rounds that have to be
stand in a row. If there is no limit, the last one may be left or begun again;
otherwise each further one may be left. -/
def ofRepetition (size : Size) (consumes : Bool) (least : Nat) (most : Option Nat) : Shape :=
  let choice := Size.both (Size.joining 2)
  let stop := Size.both Size.state
  match least, most with
  | 0, some 1 => .compound (size + choice + stop)
  | 0, none => .compound (if consumes then size + choice else size + choice + choice + stop)
  | least, none => .compound (size.times least + choice)
  | least, some most =>
    if least = most then .compound (size.times least)
    else
      let first := if least = 0 then stop else size.times least
      .compound (first + stop + (choice + size).times (most - least))

end Shape

/-- Whether every match takes at least one character. -/
def consumes : Pattern → Bool
  | empty => false
  | set s => !s.ranges.isEmpty
  | look _ => false
  | group p => p.consumes
  | seq a b => a.consumes || b.consumes
  | alt a b => a.consumes && b.consumes
  | repeated p least _ => 0 < least && p.consumes

/-- Whether no match takes a character. -/
def isIdle : Pattern → Bool
  | empty => true
  | set _ => false
  | look _ => true
  | group p => p.isIdle
  | seq a b => a.isIdle && b.isIdle
  | alt a b => a.isIdle && b.isIdle
  | repeated p _ most => most == some 0 || p.isIdle

/-- The shapes of the alternatives of a pattern. A group keeps a mark on either side
for those who read forward. To repeat what takes no character more than once makes
no difference. -/
def shapes (sizeOf : CharSet → Size) : Pattern → List Shape
  | empty => [.empty]
  | set s => [.ofSet s]
  | look _ => [.compound (.both Size.state)]
  | group p =>
    let inside := (Shape.ofAlternatives sizeOf (p.shapes sizeOf)).size sizeOf
    [.compound (inside + ⟨2 * Size.state, 0⟩)]
  | seq a b =>
    let a := Shape.ofAlternatives sizeOf (a.shapes sizeOf)
    [a.followedBy sizeOf (.ofAlternatives sizeOf (b.shapes sizeOf))]
  | alt a b => a.shapes sizeOf ++ b.shapes sizeOf
  | repeated p least most =>
    let least := if p.isIdle then min least 1 else least
    let most := if p.isIdle then some (min (most.getD 1) 1) else most
    let inside := p.shapes sizeOf
    if most = some 0 then [.empty]
    else if least = 1 && most = some 1 then inside
    else
      let size := (Shape.ofAlternatives sizeOf inside).size sizeOf
      [.ofRepetition size p.consumes least most]

def sets : Pattern → List CharSet
  | empty | look _ => []
  | set s => [s]
  | group p | repeated p _ _ => p.sets
  | seq a b | alt a b => a.sets ++ b.sets

/-- The size of a pattern. Around it, the automaton that reads forward skips what
stands before a match and marks its two ends; the other one skips only. -/
def size (p : Pattern) : Size :=
  let table := p.sets.eraseDups.map fun s => (s, Size.ofSet s)
  let sizeOf (s : CharSet) : Size := (table.lookup s).getD (.ofSet s)
  (Shape.ofAlternatives sizeOf (p.shapes sizeOf)).size sizeOf + ⟨208, 144⟩

def sizeLimit : Nat := 0xA00000

def fits (p : Pattern) : Bool := p.size.forward ≤ sizeLimit && p.size.backward ≤ sizeLimit

end CompletionSnippets.Pattern
