/-!
# Patterns

Regular expressions, as far as it matters for whether one can be used.  So a set keeps what it is
made of and not which characters that is, and a repetition not how often.

`Pattern.depth` says how deep a pattern is nested.
-/

namespace Timesheet

namespace Pattern

/-- What can be switched on and off within a pattern. -/
inductive Flag where
  | ignoreCase
  | multiLine
  | dotMatchesNewline
  | swapGreed
  | unicode
  | crlf
  /-- Blanks and comments do not count. -/
  | extended
deriving DecidableEq

/-- Flags, each with whether it is switched on. -/
abbrev Flags := List (Flag × Bool)

/-- A character that stands for itself. -/
structure Literal where
  char : Char
  /-- It is written as a byte, by two hexadecimal digits. -/
  isByte : Bool := false

end Pattern

/-- A set of characters in square brackets. -/
inductive CharSet where
  | empty
  | literal (l : Pattern.Literal)
  | range (first last : Pattern.Literal)
  /-- A class by its name, as in `[:alpha:]`. -/
  | named (negated : Bool)
  /-- A class by its letter: digits, blanks or the characters of words. -/
  | shorthand (negated : Bool)
  | bracketed (negated : Bool) (s : CharSet)
  | union (parts : List CharSet)
  /-- The intersection or a difference of two sets. -/
  | operation (left right : CharSet)

/-- A regular expression. -/
inductive Pattern where
  | empty
  /-- Switches flags for the rest of the group. -/
  | flags (changes : Pattern.Flags)
  | literal (l : Pattern.Literal)
  /-- Any character. -/
  | dot
  /-- The start or end of a line or the text. -/
  | anchor
  /-- The start, the end or the inside of a word. -/
  | wordBoundary
  | shorthand (negated : Bool)
  | set (negated : Bool) (s : CharSet)
  | repeated (p : Pattern)
  /-- A group, for which flags are switched. -/
  | group (changes : Pattern.Flags) (p : Pattern)
  | choice (branches : List Pattern)
  | sequence (parts : List Pattern)

namespace CharSet

/-- The set of some parts, which are given last first. -/
def ofParts : List CharSet → CharSet
  | [] => .empty
  | [s] => s
  | parts => .union parts.reverse

mutual

/-- How deep brackets, unions and operations are nested. -/
def depth : CharSet → Nat
  | .bracketed _ s => s.depth + 1
  | .union parts => depthOfAll parts + 1
  | .operation left right => max left.depth right.depth + 1
  | .empty | .literal _ | .range .. | .named _ | .shorthand _ => 0

/-- The greatest of some depths. -/
def depthOfAll : List CharSet → Nat
  | [] => 0
  | s :: rest => max s.depth (depthOfAll rest)

end

end CharSet

namespace Pattern

/-- The pattern of parts that follow one another, given last first. -/
def ofParts : List Pattern → Pattern
  | [] => .empty
  | [p] => p
  | parts => .sequence parts.reverse

/-- The pattern of branches, given last first. -/
def ofBranches : List Pattern → Pattern
  | [] => .empty
  | [p] => p
  | branches => .choice branches.reverse

mutual

/-- How deep groups, repetitions, sets, choices and sequences are nested. -/
def depth : Pattern → Nat
  | .set _ s => s.depth + 1
  | .repeated p => p.depth + 1
  | .group _ p => p.depth + 1
  | .choice branches => depthOfAll branches + 1
  | .sequence parts => depthOfAll parts + 1
  | .empty | .flags _ | .literal _ | .dot | .anchor | .wordBoundary | .shorthand _ => 0

/-- The greatest of some depths. -/
def depthOfAll : List Pattern → Nat
  | [] => 0
  | p :: rest => max p.depth (depthOfAll rest)

end

end Pattern

end Timesheet
