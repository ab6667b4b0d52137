import Timesheet.Pattern.Basic
import Timesheet.Text.Blank
import Timesheet.Text.Hexadecimal
import Timesheet.Text.Letter
/-!
# Reading patterns

`Pattern.read?` reads a pattern, if the text is one.  It goes from left to right and keeps the groups
that are open, and `Pattern.readSet` does the same with the brackets of a set; neither has a limit
for them, but a pattern that is nested too deep in the end is refused.

Counted repetitions, classes by the name of a property and references to groups are not read: a text
with one of them is no pattern.
-/

namespace Timesheet.Pattern

/-! ## 1. Characters and escapes -/

/-- The text without the blanks and comments at its start.  A comment goes from `#` to the end of
its line. -/
def skipComments (inComment : Bool) : List Char → List Char
  | [] => []
  | c :: cs =>
    if inComment then skipComments (c != '\n') cs
    else if Text.isBlank c then skipComments false cs
    else if c = '#' then skipComments true cs
    else c :: cs

/-- The text from the next character that counts. -/
def skip (extended : Bool) (cs : List Char) : List Char :=
  if extended then skipComments false cs else cs

/-- What an escape stands for. -/
inductive Escape where
  | literal (l : Literal)
  | anchor
  | wordBoundary
  | shorthand (negated : Bool)

/-- Characters with a meaning of their own, which a backslash takes away. -/
def isMeta (c : Char) : Bool := "\\.+*?()|[]\x7b\x7d^$#&-~".toList.contains c

/-- The character means itself behind a backslash. -/
def isEscapable (c : Char) : Bool :=
  isMeta c || (decide (c.toNat < 128) && !c.isAlphanum && c != '<' && c != '>')

/-- The character that a letter behind a backslash stands for. -/
def control? : Char → Option Char
  | 'a' => some '\x07'
  | 'f' => some '\x0c'
  | 't' => some '\t'
  | 'n' => some '\n'
  | 'r' => some '\r'
  | 'v' => some '\x0b'
  | _ => none

/-- Reads hexadecimal digits, `count` of them, behind those for `n`. -/
def readHex (extended : Bool) : (count n : Nat) → List Char → Option (Nat × List Char)
  | 0, n, cs => some (n, cs)
  | count + 1, n, cs =>
    match skip extended cs with
    | [] => none
    | c :: cs => do readHex extended count (16 * n + (← Text.hexValue? c)) cs

/-- Reads a character by its code point of `count` digits. -/
def readCodePoint (extended : Bool) (count : Nat) (cs : List Char) : Option (Escape × List Char) := do
  let (n, rest) ← readHex extended count 0 cs
  if n.isValidChar then some (.literal ⟨Char.ofNat n, count == 2⟩, rest) else none

/-- Reads an escape behind its backslash. -/
def readEscape (extended : Bool) : List Char → Option (Escape × List Char)
  | [] => none
  | 'x' :: cs => readCodePoint extended 2 cs
  | 'u' :: cs => readCodePoint extended 4 cs
  | 'U' :: cs => readCodePoint extended 8 cs
  | c :: cs =>
    if ['d', 's', 'w'].contains c then some (.shorthand false, cs)
    else if ['D', 'S', 'W'].contains c then some (.shorthand true, cs)
    else if ['A', 'z'].contains c then some (.anchor, cs)
    else if ['b', 'B', '<', '>'].contains c then some (.wordBoundary, cs)
    else if isEscapable c then some (.literal ⟨c, false⟩, cs)
    else (control? c).map fun c => (.literal ⟨c, false⟩, cs)

/-! ## 2. Sets -/

/-- What is open around a part of a set. -/
inductive Opening where
  /-- A bracket, and the parts before it of the set around it, last first. -/
  | bracket (negated : Bool) (before : List CharSet)
  /-- An operation, and what stands before it. -/
  | operation (left : CharSet)

/-- Where a set begins, brackets and dashes may be literals. -/
inductive SetStart where
  /-- Nothing has been read. -/
  | opened
  /-- Only dashes have been read. -/
  | dashes
  | past
deriving DecidableEq

/-- The reading of a set. -/
structure SetReading where
  /-- What is open, innermost first. -/
  openings : List Opening
  /-- The parts so far, last first. -/
  parts : List CharSet := []
  start : SetStart := .opened

namespace SetReading

/-- Adds a part. -/
def add (r : SetReading) (s : CharSet) (start : SetStart := .past) : SetReading :=
  { r with parts := s :: r.parts, start }

/-- Opens a set within the set. -/
def openBracket (r : SetReading) (negated : Bool) : SetReading :=
  { openings := .bracket negated r.parts :: r.openings }

/-- What has been read since the last bracket, and the openings from that bracket on. -/
def operand (r : SetReading) : CharSet × List Opening :=
  let s := CharSet.ofParts r.parts
  match r.openings with
  | .operation left :: openings => (.operation left s, openings)
  | openings => (s, openings)

/-- Goes on behind the sign of an operation. -/
def operate (r : SetReading) : SetReading :=
  let (left, openings) := r.operand
  { openings := .operation left :: openings, start := .past }

end SetReading

/-- The names of classes. -/
def classNames : List String :=
  ["alnum", "alpha", "ascii", "blank", "cntrl", "digit", "graph", "lower", "print", "punct", "space",
    "upper", "word", "xdigit"]

/-- Reads a class by its name, behind the bracket: whether it is negated, and the rest. -/
def readNamed : List Char → Option (Bool × List Char)
  | ':' :: cs =>
    let (negated, cs) := match cs with
      | '^' :: cs => (true, cs)
      | cs => (false, cs)
    match cs.dropWhile (· ≠ ':') with
    | ':' :: ']' :: rest =>
      if (classNames.map String.toList).contains (cs.takeWhile (· ≠ ':')) then some (negated, rest)
      else none
    | _ => none
  | _ => none

/-- Reads a caret, if there is one. -/
def readNegation (extended : Bool) (cs : List Char) : Bool × List Char :=
  match skip extended cs with
  | '^' :: cs => (true, cs)
  | cs => (false, cs)

/-- Reads a character or an escape. -/
def readAtom (extended : Bool) : List Char → Option (Escape × List Char)
  | [] => none
  | '\\' :: cs => readEscape extended cs
  | c :: cs => some (.literal ⟨c, false⟩, cs)

/-- The next character that counts.  A `#` before it is passed over, but not the rest of a
comment. -/
def peek (extended : Bool) (cs : List Char) : Option Char :=
  if extended then
    match cs.dropWhile Text.isBlank with
    | '#' :: cs => (cs.dropWhile Text.isBlank).head?
    | cs => cs.head?
  else cs.head?

/-- A part of a set that is not a range. -/
def Escape.toSet? : Escape → Option CharSet
  | literal l => some (.literal l)
  | shorthand negated => some (.shorthand negated)
  | anchor | wordBoundary => none

/-- Reads a part of a set.  A dash makes a range, unless a bracket or another dash follows. -/
def readPart (extended : Bool) (cs : List Char) : Option (CharSet × List Char) := do
  let (first, cs) ← readAtom extended cs
  match skip extended cs with
  | [] => none
  | '-' :: rest =>
    if [some ']', some '-'].contains (peek extended rest) then
      return (← first.toSet?, '-' :: rest)
    else
      let (last, rest) ← readAtom extended (skip extended rest)
      match first, last with
      | .literal a, .literal b => if a.char ≤ b.char then some (.range a b, rest) else none
      | _, _ => none
  | rest => return (← first.toSet?, rest)

/-- Reads on until the set is closed: whether it is negated, what it is, and the rest.  `limit` is
more than the number of characters. -/
def readSetFrom (extended : Bool) :
    (limit : Nat) → SetReading → List Char → Option (Bool × CharSet × List Char)
  | 0, _, _ => none
  | limit + 1, r, cs =>
    match skip extended cs with
    | [] => none
    | c :: rest =>
      if c = '-' ∧ r.start ≠ .past then
        readSetFrom extended limit (r.add (.literal ⟨c, false⟩) .dashes) rest
      else if c = ']' ∧ r.start = .opened then
        readSetFrom extended limit (r.add (.literal ⟨c, false⟩)) rest
      else
        match c, rest with
        | '[', rest =>
          match readNamed rest with
          | some (negated, rest) => readSetFrom extended limit (r.add (.named negated)) rest
          | none =>
            let (negated, rest) := readNegation extended rest
            readSetFrom extended limit (r.openBracket negated) rest
        | ']', rest =>
          match r.operand with
          | (s, [.bracket negated _]) => some (negated, s, rest)
          | (s, .bracket negated before :: openings) =>
            let r : SetReading := { openings, parts := .bracketed negated s :: before, start := .past }
            readSetFrom extended limit r rest
          | _ => none
        | '&', '&' :: rest => readSetFrom extended limit r.operate rest
        | '-', '-' :: rest => readSetFrom extended limit r.operate rest
        | '~', '~' :: rest => readSetFrom extended limit r.operate rest
        | c, rest => do
          let (s, rest) ← readPart extended (c :: rest)
          readSetFrom extended limit (r.add s) rest

/-- Reads a set behind its first bracket. -/
def readSet (extended : Bool) (cs : List Char) : Option (Bool × CharSet × List Char) :=
  let (negated, rest) := readNegation extended cs
  readSetFrom extended (cs.length + 1) { openings := [.bracket negated []] } rest

/-! ## 3. Groups -/

/-- The flag of a letter. -/
def flag? : Char → Option Flag
  | 'i' => some .ignoreCase
  | 'm' => some .multiLine
  | 's' => some .dotMatchesNewline
  | 'U' => some .swapGreed
  | 'u' => some .unicode
  | 'R' => some .crlf
  | 'x' => some .extended
  | _ => none

/-- Flags by their letters.  The ones behind a dash are switched off. -/
def flagsOf? (on : Bool) : List Char → Option Flags
  | [] => some []
  | '-' :: cs => if on && !cs.isEmpty then flagsOf? false cs else none
  | c :: cs => do return (← flag? c, on) :: (← flagsOf? on cs)

/-- How a group begins. -/
inductive GroupHead where
  /-- It is no group but switches flags. -/
  | flags (changes : Flags)
  | group (changes : Flags)
  | named (name : List Char)

/-- The text can be the name of a group. -/
def isGroupName : List Char → Bool
  | [] => false
  | c :: cs =>
    (c == '_' || Text.isAlphabetic c)
      && cs.all fun c => ['_', '.', '[', ']'].contains c || Text.isAlphanumeric c

/-- Reads the name of a group and the bracket behind it. -/
def readGroupName (cs : List Char) : Option (GroupHead × List Char) :=
  match cs.dropWhile (· ≠ '>') with
  | [] => none
  | _ :: rest =>
    let name := cs.takeWhile (· ≠ '>')
    if isGroupName name then some (.named name, rest) else none

/-- Reads how a group begins, behind its parenthesis.  No flag may be there twice. -/
def readGroupHead : List Char → Option (GroupHead × List Char)
  | '?' :: 'P' :: '<' :: cs => readGroupName cs
  | '?' :: '<' :: cs => readGroupName cs
  | '?' :: cs => do
    let ends (c : Char) : Bool := c == ':' || c == ')'
    let changes ← flagsOf? true (cs.takeWhile (!ends ·))
    if ¬(changes.map (·.1)).Nodup then none
    match cs.dropWhile (!ends ·) with
    | ':' :: rest => some (.group changes, rest)
    | ')' :: rest => if changes.isEmpty then none else some (.flags changes, rest)
    | _ => none
  | cs => some (.group [], cs)

/-! ## 4. Patterns -/

/-- A group that is open, with what was read before it: the parts and branches around it, and
whether blanks counted. -/
structure OpenGroup where
  changes : Flags
  parts : List Pattern
  branches : List Pattern
  extended : Bool

/-- The reading of a pattern. -/
structure Reading where
  /-- The groups that are open, innermost first. -/
  groups : List OpenGroup := []
  /-- The parts since the last bar, last first. -/
  parts : List Pattern := []
  /-- The branches before the last bar, last first. -/
  branches : List Pattern := []
  extended : Bool := false
  /-- The names of groups so far. -/
  names : List (List Char) := []

namespace Reading

/-- Adds a part. -/
def add (r : Reading) (p : Pattern) : Reading := { r with parts := p :: r.parts }

/-- Whether blanks count after flags have been switched. -/
def extendedAfter (r : Reading) (changes : Flags) : Bool :=
  (changes.lookup .extended).getD r.extended

/-- What has been read since the last parenthesis. -/
def inner (r : Reading) : Pattern := ofBranches (ofParts r.parts :: r.branches)

/-- Goes on behind a bar. -/
def nextBranch (r : Reading) : Reading :=
  { r with parts := [], branches := ofParts r.parts :: r.branches }

/-- Opens a group. -/
def openGroup (r : Reading) (changes : Flags) : Reading :=
  { r with
    groups := { changes, parts := r.parts, branches := r.branches, extended := r.extended } :: r.groups
    parts := [], branches := [], extended := r.extendedAfter changes }

/-- Goes on behind the head of a group.  No two groups have the same name. -/
def addHead (r : Reading) : GroupHead → Option Reading
  | .flags changes => some { r.add (.flags changes) with extended := r.extendedAfter changes }
  | .group changes => some (r.openGroup changes)
  | .named name =>
    if r.names.contains name then none
    else some { r.openGroup [] with names := name :: r.names }

/-- Closes the innermost group. -/
def closeGroup (r : Reading) : Option Reading :=
  match r.groups with
  | [] => none
  | g :: groups =>
    some { r with
      groups, branches := g.branches, extended := g.extended
      parts := .group g.changes r.inner :: g.parts }

/-- Repeats the last part, which may not be a switch of flags. -/
def repeatLast (r : Reading) : Option Reading :=
  match r.parts with
  | [] | .flags _ :: _ => none
  | p :: parts => some { r with parts := .repeated p :: parts }

end Reading

/-- What an escape outside of sets stands for. -/
def ofEscape : Escape → Pattern
  | .literal l => .literal l
  | .anchor => .anchor
  | .wordBoundary => .wordBoundary
  | .shorthand negated => .shorthand negated

/-- Reads to the end.  `limit` is more than the number of characters. -/
def readFrom : (limit : Nat) → Reading → List Char → Option Pattern
  | 0, _, _ => none
  | limit + 1, r, cs =>
    match skip r.extended cs with
    | [] => if r.groups.isEmpty then some r.inner else none
    | '(' :: rest => do
      let (head, rest) ← readGroupHead (skip r.extended rest)
      readFrom limit (← r.addHead head) rest
    | ')' :: rest => do readFrom limit (← r.closeGroup) rest
    | '|' :: rest => readFrom limit r.nextBranch rest
    | '[' :: rest => do
      let (negated, s, rest) ← readSet r.extended rest
      readFrom limit (r.add (.set negated s)) rest
    | '\x7b' :: _ => none
    | '\\' :: rest => do
      let (e, rest) ← readEscape r.extended rest
      readFrom limit (r.add (ofEscape e)) rest
    | '.' :: rest => readFrom limit (r.add .dot) rest
    | c :: rest =>
      if ['^', '$'].contains c then readFrom limit (r.add .anchor) rest
      else if ['?', '*', '+'].contains c then do
        let r ← r.repeatLast
        match rest with
        | '?' :: rest => readFrom limit r rest
        | rest => readFrom limit r rest
      else readFrom limit (r.add (.literal ⟨c, false⟩)) rest

/-- How deep a pattern may be nested. -/
def depthLimit : Nat := 250

/-- The pattern that a text is. -/
def read? (cs : List Char) : Option Pattern := do
  let p ← readFrom (cs.length + 1) {} cs
  if p.depth ≤ depthLimit then some p else none

end Timesheet.Pattern
