import CompletionSnippets.Pattern.Size

/-!
# Reading patterns

The written form of patterns: characters and escapes, `.`, classes in brackets
with ranges, negation, nested classes and set operations, groups with and without
names, alternatives, repetitions, and flags. Look-around, references to groups,
classes of Unicode properties and spaced patterns are not part of it.

A pattern is read from left to right. What stands around the current position is
kept on a stack, groups for the pattern and brackets for a class. Constructs may
be nested at most 250 deep, and the whole must not grow too large.
-/
namespace CompletionSnippets

inductive PatternFault where
  | unclosedGroup
  | unopenedGroup
  | badGroupName
  | badFlags
  | lookAround
  | nothingToRepeat
  | badCount
  | badEscape
  | unclosedClass
  | badClass
  | tooDeep
  | tooLarge
deriving DecidableEq, Repr

namespace PatternFault

def message : PatternFault → Text
  | unclosedGroup => "unclosed group".toList
  | unopenedGroup => "unopened group".toList
  | badGroupName => "invalid group name".toList
  | badFlags => "invalid flags".toList
  | lookAround => "look-around is not supported".toList
  | nothingToRepeat => "nothing to repeat".toList
  | badCount => "invalid repetition count".toList
  | badEscape => "invalid escape".toList
  | unclosedClass => "unclosed class".toList
  | badClass => "invalid class".toList
  | tooDeep => "nested too deeply".toList
  | tooLarge => "too large".toList

end PatternFault

namespace Pattern

/-- The flags in force at a position of a pattern. -/
structure Flags where
  ignoreCase : Bool := false
  multiLine : Bool := false
  dotAll : Bool := false
  anyLineEnd : Bool := false
deriving DecidableEq, Repr

/-- A pattern or a set, and how deep the constructs in it are nested. -/
structure Nested (α : Type) where
  content : α
  depth : Nat

/-- What a character or an escape stands for. -/
inductive Atom where
  | char (c : Char)
  | set (s : CharSet)
  | look (l : Look)

/-- Letters and digits of ASCII have escapes of their own or none, and the angle
brackets are conditions; every other ASCII character may be escaped. -/
def isEscapable (c : Char) : Bool := c.toNat < 0x80 && !c.isAlphanum && c != '<' && c != '>'

def ofHex? (digits : Text) : Option Char := do
  let values ← digits.mapM Text.hexDigit?
  let n := values.foldl (fun n d => 16 * n + d) 0
  if !digits.isEmpty && n.isValidChar then some (.ofNat n) else none

/-- A character by its hexadecimal number, which takes the given number of digits
or stands in braces. -/
def readHex (count : Nat) (t : Text) : Except PatternFault (Atom × Text) :=
  let (digits, rest?) := match t with
    | '{' :: t => (t.takeWhile (· != '}'), Text.strip? ['}'] (t.dropWhile (· != '}')))
    | _ => (t.take count, if t.length < count then none else some (t.drop count))
  match ofHex? digits, rest? with
  | some c, some rest => .ok (.char c, rest)
  | _, _ => .error .badEscape

def wordLooks : List (Text × Look) :=
  [("start".toList, .wordStart), ("end".toList, .wordEnd),
    ("start-half".toList, .wordStartHalf), ("end-half".toList, .wordEndHalf)]

/-- The condition that `\b` stands for. Braces with a name behind it choose one;
braces that hold anything else are a repetition. -/
def readBoundary (t : Text) : Except PatternFault (Atom × Text) :=
  let isNameChar (c : Char) := c.isAlpha || c == '-'
  match t with
  | ['{'] => .error .badEscape
  | '{' :: c :: rest =>
    if isNameChar c then
      let name := (c :: rest).takeWhile isNameChar
      match wordLooks.lookup name, (c :: rest).drop name.length with
      | some l, '}' :: rest => .ok (.look l, rest)
      | _, _ => .error .badEscape
    else .ok (.look .wordBoundary, t)
  | _ => .ok (.look .wordBoundary, t)

def readEscape (t : Text) : Except PatternFault (Atom × Text) :=
  match t with
  | [] => .error .badEscape
  | c :: rest =>
    if isEscapable c then .ok (.char c, rest)
    else match c with
      | 'd' => .ok (.set .digit, rest)
      | 'D' => .ok (.set (.compl .digit), rest)
      | 's' => .ok (.set .blank, rest)
      | 'S' => .ok (.set (.compl .blank), rest)
      | 'w' => .ok (.set .word, rest)
      | 'W' => .ok (.set (.compl .word), rest)
      | 'a' => .ok (.char '\x07', rest)
      | 'f' => .ok (.char '\x0c', rest)
      | 'n' => .ok (.char '\n', rest)
      | 'r' => .ok (.char '\r', rest)
      | 't' => .ok (.char '\t', rest)
      | 'v' => .ok (.char '\x0b', rest)
      | 'x' => readHex 2 rest
      | 'u' => readHex 4 rest
      | 'U' => readHex 8 rest
      | 'A' => .ok (.look .textStart, rest)
      | 'z' => .ok (.look .textEnd, rest)
      | 'b' => readBoundary rest
      | 'B' => .ok (.look .noWordBoundary, rest)
      | '<' => .ok (.look .wordStart, rest)
      | '>' => .ok (.look .wordEnd, rest)
      | _ => .error .badEscape

inductive SetOp where
  | inter
  | diff
  | symmDiff

/-- What stands before the items that are being collected, inside the innermost
bracket: the bracket itself with the items before it, last first, or the left
operand of an operation. -/
inductive ClassFrame where
  | bracket (negated : Bool) (outer : List (Nested CharSet))
  | operand (op : SetOp) (left : Nested CharSet)

namespace ClassFrame

/-- The set closed under case folding when case is ignored. -/
def fold (flags : Flags) (s : CharSet) : CharSet := if flags.ignoreCase then s.folded else s

def unionOf (items : List (Nested CharSet)) : Nested CharSet :=
  match items with
  | [] => ⟨.empty, 0⟩
  | [only] => only
  | _ => ⟨CharSet.unionOf (items.map Nested.content), 1 + (items.map Nested.depth).foldl max 0⟩

/-- Items are complete: the operation before them, if there is one, is applied,
so that operations are applied from the left. -/
def complete (flags : Flags) (items : List (Nested CharSet)) :
    List ClassFrame → Nested CharSet × List ClassFrame
  | .operand op left :: stack =>
    let right := unionOf items
    let combine := match op with
      | .inter => CharSet.inter
      | .diff => CharSet.diff
      | .symmDiff => CharSet.symmDiff
    (⟨combine (fold flags left.content) (fold flags right.content),
      1 + max left.depth right.depth⟩, stack)
  | stack => (unionOf items, stack)

end ClassFrame

/-- The start of a class behind its bracket: whether it is negated, and the
hyphens or the closing bracket that stand for themselves because they come
first. -/
def readClassStart (t : Text) : Except PatternFault ((Bool × List (Nested CharSet)) × Text) :=
  let (negated, t) := match t with
    | '^' :: rest => (true, rest)
    | _ => (false, t)
  let hyphens := t.takeWhile (· == '-')
  match hyphens, t.drop hyphens.length with
  | _, [] => .error .unclosedClass
  | [], ']' :: rest =>
    if rest.isEmpty then .error .unclosedClass else .ok ((negated, [⟨.single ']', 0⟩]), rest)
  | _, rest => .ok ((negated, hyphens.map fun c => ⟨.single c, 0⟩), rest)

/-- A named ASCII class, if the text behind a bracket is one. -/
def readAsciiClass? (t : Text) : Option (CharSet × Text) := do
  let rest ← Text.strip? [':'] t
  let (negated, rest) := match rest with
    | '^' :: rest => (true, rest)
    | _ => (false, rest)
  let name := rest.takeWhile (· != ':')
  let s ← CharSet.ascii? name
  return (if negated then .compl s else s, ← Text.strip? [':', ']'] (rest.drop name.length))

def readClassAtom (t : Text) : Except PatternFault (Atom × Text) :=
  match t with
  | [] => .error .unclosedClass
  | '\\' :: rest => readEscape rest
  | c :: rest => .ok (.char c, rest)

def itemOfAtom (atom : Atom) : Except PatternFault (Nested CharSet) :=
  match atom with
  | .char c => .ok ⟨.single c, 0⟩
  | .set s => .ok ⟨s, 0⟩
  | .look _ => .error .badClass

def itemOfRange (first last : Atom) : Except PatternFault (Nested CharSet) :=
  match first, last with
  | .char low, .char high =>
    if low.toNat ≤ high.toNat then .ok ⟨.range low.toNat high.toNat, 0⟩ else .error .badClass
  | _, _ => .error .badClass

/-- An item of a class that is neither a bracket nor an operation. A hyphen before
the closing bracket, or before another hyphen, makes no range. -/
def readItem (t : Text) : Except PatternFault (Nested CharSet × Text) := do
  let (first, rest) ← readClassAtom t
  match rest with
  | [] | ['-'] => .error .unclosedClass
  | '-' :: ']' :: _ | '-' :: '-' :: _ => return (← itemOfAtom first, rest)
  | '-' :: rest =>
    let (last, rest) ← readClassAtom rest
    return (← itemOfRange first last, rest)
  | _ => return (← itemOfAtom first, rest)

inductive ClassStep where
  | closed (s : Nested CharSet)
  | more (items : List (Nested CharSet)) (stack : List ClassFrame)

/-- One step inside a class. The items of the innermost bracket are given last
first. -/
def stepClass (flags : Flags) (items : List (Nested CharSet)) (stack : List ClassFrame)
    (t : Text) : Except PatternFault (ClassStep × Text) :=
  let operate (op : SetOp) (rest : Text) : Except PatternFault (ClassStep × Text) :=
    let (left, stack) := ClassFrame.complete flags items stack
    .ok (.more [] (.operand op left :: stack), rest)
  match t with
  | [] => .error .unclosedClass
  | '[' :: rest =>
    match readAsciiClass? rest with
    | some (s, rest) => .ok (.more (⟨s, 0⟩ :: items) stack, rest)
    | none => do
      let ((negated, first), rest) ← readClassStart rest
      return (.more first (.bracket negated items :: stack), rest)
  | ']' :: rest =>
    match ClassFrame.complete flags items stack with
    | (whole, .bracket negated outer :: stack) =>
      let s := ClassFrame.fold flags whole.content
      let closed : Nested CharSet := ⟨if negated then .compl s else s, whole.depth + 1⟩
      .ok (if stack.isEmpty then .closed closed else .more (closed :: outer) stack, rest)
    | _ => .error .badClass
  | '&' :: '&' :: rest => operate .inter rest
  | '-' :: '-' :: rest => operate .diff rest
  | '~' :: '~' :: rest => operate .symmDiff rest
  | t => do
    let (item, rest) ← readItem t
    return (.more (item :: items) stack, rest)

/-- A class up to the closing bracket of its outermost one. Every step reads at
least one character, so that no more steps are taken than there are characters. -/
def readClassSteps (flags : Flags) (items : List (Nested CharSet)) (stack : List ClassFrame)
    (t : Text) : (steps : Text) → Except PatternFault (Nested CharSet × Text)
  | [] => .error .unclosedClass
  | _ :: steps =>
    match stepClass flags items stack t with
    | .error fault => .error fault
    | .ok (.closed s, rest) => .ok (s, rest)
    | .ok (.more items stack, rest) => readClassSteps flags items stack rest steps

/-- A class whose opening bracket stands before the text. -/
def readClass (flags : Flags) (t : Text) : Except PatternFault (Nested CharSet × Text) := do
  let ((negated, first), rest) ← readClassStart t
  readClassSteps flags first [.bracket negated []] rest rest

/-- A count in a repetition; blanks around it count for nothing. -/
def readCount (t : Text) : Option Nat × Text :=
  let t := t.trimStart
  let digits := t.takeWhile Text.isDigit
  (if digits.isEmpty then none else some (Text.ofDecimal digits),
    Text.trimStart (t.drop digits.length))

/-- The bounds of a counted repetition whose opening brace stands before the text.
Counts have 32 bits. -/
def readBounds (t : Text) : Except PatternFault ((Nat × Option Nat) × Text) :=
  let (least?, rest) := readCount t
  let inRange (n : Nat) := n < 0x100000000
  match least?, rest with
  | some least, '}' :: rest =>
    if inRange least then .ok ((least, some least), rest) else .error .badCount
  | some least, ',' :: '}' :: rest =>
    if inRange least then .ok ((least, none), rest) else .error .badCount
  | some least, ',' :: rest =>
    match readCount rest with
    | (some most, '}' :: rest) =>
      if least ≤ most && inRange most then .ok ((least, some most), rest) else .error .badCount
    | _ => .error .badCount
  | _, _ => .error .badCount

/-- A question mark behind a repetition asks for as few rounds as possible, which
makes no difference to whether a pattern matches. -/
def skipLazy (t : Text) : Text :=
  match t with
  | '?' :: rest => rest
  | _ => t

/-- Flags as they are written: letters, which are set, and behind a hyphen letters
that are cleared. No letter stands twice, and the hyphen stands once and not
last. -/
def readFlags (flags : Flags) (letters : Text) : Except PatternFault Flags :=
  let lettersOnly := letters.filter (· != '-')
  let isDuplicated := lettersOnly.eraseDups.length != lettersOnly.length
  let hyphens := letters.length - lettersOnly.length
  if isDuplicated || 1 < hyphens || letters.getLast? == some '-' then .error .badFlags
  else
    let cleared := letters.dropWhile (· != '-')
    lettersOnly.foldlM (fun flags c =>
      let value := !cleared.contains c
      match c with
      | 'i' => .ok { flags with ignoreCase := value }
      | 'm' => .ok { flags with multiLine := value }
      | 's' => .ok { flags with dotAll := value }
      | 'R' => .ok { flags with anyLineEnd := value }
      | 'U' => .ok flags
      | 'u' => if value then .ok flags else .error .badFlags
      | _ => .error .badFlags) flags

inductive GroupStart where
  | numbered
  | named (name : Text)
  /-- A group without a number, in which flags hold. -/
  | plain (flags : Flags)
  /-- No group, but flags for the rest of the group around. -/
  | flags (flags : Flags)

def isNameChar (isFirst : Bool) (c : Char) : Bool :=
  let n := c.toNat
  c == '_' || (isWordCode n && !isDigitCode n) ||
    (!isFirst && (isDigitCode n || c == '.' || c == '[' || c == ']'))

def readName (t : Text) : Except PatternFault (GroupStart × Text) :=
  let name := t.takeWhile (· != '>')
  match name, t.drop name.length with
  | first :: more, '>' :: rest =>
    if isNameChar true first && more.all (isNameChar false) then .ok (.named name, rest)
    else .error .badGroupName
  | _, _ => .error .badGroupName

def readGroupStart (flags : Flags) (t : Text) : Except PatternFault (GroupStart × Text) :=
  match t with
  | '?' :: '=' :: _ | '?' :: '!' :: _ | '?' :: '<' :: '=' :: _ | '?' :: '<' :: '!' :: _ =>
    .error .lookAround
  | '?' :: 'P' :: '<' :: rest => readName rest
  | '?' :: '<' :: rest => readName rest
  | '?' :: rest => do
    let letters := rest.takeWhile fun c => c != ':' && c != ')'
    let inside ← readFlags flags letters
    match rest.drop letters.length with
    | ':' :: rest => return (.plain inside, rest)
    | ')' :: rest => if letters.isEmpty then .error .badFlags else return (.flags inside, rest)
    | _ => .error .badFlags
  | _ => .ok (.numbered, t)

/-- The inside of a group, or the whole pattern, as far as it is read: finished
alternatives, and the parts of the alternative at hand, all last first. Flags take
a place among the parts, because nothing can be repeated there. -/
structure Level where
  branches : List (Nested Pattern) := []
  parts : List (Option (Nested Pattern)) := []

namespace Level

/-- The alternative at hand. Flags are parts of it, too. -/
def branch (level : Level) : Nested Pattern :=
  let parts := level.parts.filterMap id
  let depth := (parts.map Nested.depth).foldl max 0
  let content := match parts with
    | [] => .empty
    | last :: parts => (parts.map Nested.content).foldl (fun p part => .seq part p) last.content
  ⟨content, if level.parts.length < 2 then depth else 1 + depth⟩

def whole (level : Level) : Nested Pattern :=
  match level.branches with
  | [] => level.branch
  | branches =>
    ⟨(branches.map Nested.content).foldl (fun p branch => .alt branch p) level.branch.content,
      1 + ((level.branch :: branches).map Nested.depth).foldl max 0⟩

def push (level : Level) (p : Pattern) (depth : Nat) : Level :=
  { level with parts := some ⟨p, depth⟩ :: level.parts }

def repeatLast (level : Level) (least : Nat) (most : Option Nat) : Except PatternFault Level :=
  match level.parts with
  | some part :: parts =>
    .ok { level with
      parts := some ⟨.repeated part.content least most, part.depth + 1⟩ :: parts }
  | _ => .error .nothingToRepeat

end Level

/-- A group around the current position: what stands before it, the flags that hold
again behind it, and whether it has a number. -/
structure OpenGroup where
  level : Level
  flags : Flags
  isNumbered : Bool

/-- What is known at a position of a pattern. -/
structure State where
  level : Level := {}
  flags : Flags := {}
  groups : List OpenGroup := []
  names : List Text := []

namespace State

def ofAtom (flags : Flags) (atom : Atom) : Pattern :=
  match atom with
  | .char c => .set (ClassFrame.fold flags (.single c))
  | .set s => .set s
  | .look l => .look l

def dot (flags : Flags) : Pattern :=
  if flags.dotAll then .set .all
  else if flags.anyLineEnd then .set (.compl (.unionOf [.single '\n', .single '\r']))
  else .set (.compl (.single '\n'))

def caret (flags : Flags) : Pattern :=
  .look (if !flags.multiLine then .textStart
    else if flags.anyLineEnd then .anyLineStart else .lineStart)

def dollar (flags : Flags) : Pattern :=
  .look (if !flags.multiLine then .textEnd
    else if flags.anyLineEnd then .anyLineEnd else .lineEnd)

def add (s : State) (p : Pattern) (depth : Nat) : State :=
  { s with level := s.level.push p depth }

def enter (s : State) (start : GroupStart) : Except PatternFault State :=
  let inside (isNumbered : Bool) (flags : Flags) : State :=
    { s with
      level := {}, flags, groups := { level := s.level, flags := s.flags, isNumbered } :: s.groups }
  match start with
  | .flags flags => .ok { s with flags, level := { s.level with parts := none :: s.level.parts } }
  | .plain flags => .ok (inside false flags)
  | .numbered => .ok (inside true s.flags)
  | .named name =>
    if s.names.contains name then .error .badGroupName
    else .ok { inside true s.flags with names := name :: s.names }

def leave (s : State) : Except PatternFault State :=
  match s.groups with
  | [] => .error .unopenedGroup
  | opened :: groups =>
    let inside := s.level.whole
    let part := if opened.isNumbered then .group inside.content else inside.content
    .ok { s with
      level := opened.level.push part (inside.depth + 1), flags := opened.flags, groups }

/-- The state behind the next construct, and the text behind it. -/
def step (s : State) (c : Char) (rest : Text) : Except PatternFault (State × Text) :=
  let repeatLast (least : Nat) (most : Option Nat) (rest : Text) :
      Except PatternFault (State × Text) := do
    return ({ s with level := ← s.level.repeatLast least most }, skipLazy rest)
  match c with
  | '(' => do
    let (start, rest) ← readGroupStart s.flags rest
    return (← s.enter start, rest)
  | ')' => do return (← s.leave, rest)
  | '|' =>
    .ok ({ s with level := { branches := s.level.branch :: s.level.branches } }, rest)
  | '[' => do
    let (found, rest) ← readClass s.flags rest
    return (s.add (.set found.content) found.depth, rest)
  | '?' => repeatLast 0 (some 1) rest
  | '*' => repeatLast 0 none rest
  | '+' => repeatLast 1 none rest
  | '{' => do
    let ((least, most), rest) ← readBounds rest
    repeatLast least most rest
  | '.' => .ok (s.add (dot s.flags) 0, rest)
  | '^' => .ok (s.add (caret s.flags) 0, rest)
  | '$' => .ok (s.add (dollar s.flags) 0, rest)
  | '\\' => do
    let (atom, rest) ← readEscape rest
    return (s.add (ofAtom s.flags atom) 0, rest)
  | c => .ok (s.add (ofAtom s.flags (.char c)) 0, rest)

def nestingLimit : Nat := 250

def finish (s : State) : Except PatternFault Pattern :=
  let whole := s.level.whole
  if !s.groups.isEmpty then .error .unclosedGroup
  else if nestingLimit < whole.depth then .error .tooDeep
  else if whole.content.fits then .ok whole.content
  else .error .tooLarge

/-- The pattern that a text denotes from here on. Every step reads at least one
character, so that no more steps are taken than there are characters. -/
def readAll (s : State) (t : Text) : (steps : Text) → Except PatternFault Pattern
  | [] => s.finish
  | _ :: steps =>
    match t with
    | [] => s.finish
    | c :: rest =>
      match s.step c rest with
      | .error fault => .error fault
      | .ok (s, rest) => readAll s rest steps

end State

def read (t : Text) : Except PatternFault Pattern := State.readAll {} t t

end Pattern
end CompletionSnippets
