import CompletionSnippets.Pattern.CharSet

/-!
# Character sets in bytes

A set of characters is also a set of short byte strings, those that UTF-8 writes
for them. It is described by rows of byte ranges, one range for each byte: a row
stands for all strings that take a byte from each of its ranges. The rows of a set
are in ascending order and overlap nowhere.

How many states an automaton needs to read one character of the set, forward or
backward, is a question about the rows alone. Forward, two places of the automaton
are the same when the same rows can follow; backward, when the same row has been
read so far.
-/
namespace CompletionSnippets.Pattern

/-- A range for each byte of a string. -/
abbrev ByteRow := List (Nat × Nat)

namespace ByteRow

/-- The rows of the numbers from `low` to `high`, written in base 64 with `count`
digits behind the first one. The first byte is its digit over `mark`, the others
are their digits over 0x80. A first digit stands alone when not all numbers that
begin with it are meant. -/
def ofDigits (mark low high : Nat) : Nat → List ByteRow
  | 0 => [[(mark + low, mark + high)]]
  | count + 1 =>
    let unit := Nat.pow 64 (count + 1)
    let (first, last) := (low / unit, high / unit)
    let under (digit : Nat) (rows : List ByteRow) : List ByteRow :=
      rows.map ((mark + digit, mark + digit) :: ·)
    if first = last then under first (ofDigits 0x80 (low % unit) (high % unit) count)
    else
      let isFirstWhole := low % unit = 0
      let isLastWhole := high % unit = unit - 1
      let start := if isFirstWhole then first else first + 1
      let stop := if isLastWhole then last + 1 else last
      let whole := (mark + start, mark + stop - 1) :: List.replicate (count + 1) (0x80, 0xBF)
      (if isFirstWhole then [] else under first (ofDigits 0x80 (low % unit) (unit - 1) count)) ++
      (if start < stop then [whole] else []) ++
      (if isLastWhole then [] else under last (ofDigits 0x80 0 (high % unit) count))

/-- The code points that UTF-8 writes in the same number of bytes: the lowest, the
highest, the mark of the first byte, and the number of bytes behind it. No
character lies between 0xD7FF and 0xE000. -/
def bands : List (Nat × Nat × Nat × Nat) :=
  [(0x00, 0x7F, 0x00, 0), (0x80, 0x7FF, 0xC0, 1), (0x800, 0xD7FF, 0xE0, 2),
    (0xE000, 0xFFFF, 0xE0, 2), (0x10000, 0x10FFFF, 0xF0, 3)]

/-- The rows of the characters from `low` to `high`. -/
def ofRange (low high : Nat) : List ByteRow :=
  bands.flatMap fun (bandLow, bandHigh, mark, count) =>
    let (low, high) := (max low bandLow, min high bandHigh)
    if low ≤ high then ofDigits mark low high count else []

def ofSet (s : CharSet) : List ByteRow := s.ranges.flatMap fun (low, high) => ofRange low high

/-- What can follow each first range: rows that begin alike are taken together,
without that range. -/
def tails (rows : List ByteRow) : List (List ByteRow) :=
  ((rows.filter fun row => !row.isEmpty).splitBy fun a b => a.head? == b.head?).map
    fun group => group.map List.tail

/-- A character takes at most this many bytes. -/
def lengthLimit : Nat := 4

/-- All that can follow on the way through the rows, with the rows themselves and
the end. -/
def sequels : Nat → List ByteRow → List (List ByteRow)
  | 0, rows => [rows]
  | n + 1, rows => rows :: (tails rows).flatMap (sequels n)

/-- The number of ranges on the way through the rows, where beginnings that are
alike count once. -/
def beginnings : Nat → List ByteRow → Nat
  | 0, _ => 0
  | n + 1, rows => (tails rows).foldl (fun count rest => count + 1 + beginnings n rest) 0

end ByteRow
end CompletionSnippets.Pattern
