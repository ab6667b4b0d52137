import Timesheet.Pattern.Parser
/-!
# Patterns that can be used

`Pattern.check` says whether a text is a pattern that can be used.  Texts are in UTF-8, so that nothing
in a pattern may match a part of a character, and what is known of characters beyond ASCII is only
their order: no letter case, no classes, no words.

Within a pattern the flag for Unicode may be switched off.  Then sets and classes are those of ASCII,
and none of them can be negated.
-/

namespace Timesheet

/-- A reason why a pattern cannot be used. -/
inductive PatternError where
  /-- It is no pattern, or asks for what is not known or may not be matched. -/
  | unusable
  /-- It asks for the boundaries of words of Unicode. -/
  | unicodeWords
deriving DecidableEq

/-- The wording of an error. -/
def PatternError.message : PatternError → String
  | unusable => "error building NFA"
  | unicodeWords =>
    "unsupported regex feature for DFAs: cannot build DFAs for regexes with Unicode word "
      ++ "boundaries; switch to ASCII word boundaries, or heuristically enable Unicode word "
      ++ "boundaries or use a different regex engine"

namespace Pattern

/-- The flags that matter, at a place in a pattern. -/
structure Dialect where
  ignoreCase : Bool := false
  unicode : Bool := true

/-- The flags after some have been switched. -/
def Dialect.switch (d : Dialect) (changes : Flags) : Dialect where
  ignoreCase := (changes.lookup .ignoreCase).getD d.ignoreCase
  unicode := (changes.lookup .unicode).getD d.unicode

/-- The character can be used in a set. -/
def Literal.isUsableInSet (d : Dialect) (l : Literal) : Bool :=
  if d.unicode then !d.ignoreCase else decide (l.char.toNat < 128)

/-- The character can be used outside of sets. -/
def Literal.isUsable (d : Dialect) (l : Literal) : Bool :=
  if d.unicode then !d.ignoreCase else !l.isByte || decide (l.char.toNat < 128)

/-- The class by a letter can be used. -/
def isUsableShorthand (d : Dialect) (negated : Bool) : Bool := !d.unicode && !negated

end Pattern

namespace CharSet

open Pattern (Dialect)

mutual

/-- The set can be used. -/
def isUsable (d : Dialect) : CharSet → Bool
  | .empty => true
  | .literal l => l.isUsableInSet d
  | .range first last => first.isUsableInSet d && last.isUsableInSet d
  | .named negated => if d.unicode then !d.ignoreCase else !negated
  | .shorthand negated => Pattern.isUsableShorthand d negated
  | .bracketed negated s => (d.unicode || !negated) && s.isUsable d
  | .union parts => areUsable d parts
  | .operation left right => left.isUsable d && right.isUsable d

/-- All sets can be used. -/
def areUsable (d : Dialect) : List CharSet → Bool
  | [] => true
  | s :: rest => s.isUsable d && areUsable d rest

end

end CharSet

namespace Pattern

/-- What is known after a part of a pattern: the flags, and whether boundaries of words of Unicode
have come. -/
structure Survey where
  dialect : Dialect := {}
  unicodeWords : Bool := false

/-- The survey goes on, if the part before can be used. -/
def Survey.require (v : Survey) (b : Bool) : Option Survey := if b then some v else none

mutual

/-- Goes over a pattern, if it can be used but for boundaries of words. -/
def survey (v : Survey) : Pattern → Option Survey
  | .empty => some v
  | .flags changes => some { v with dialect := v.dialect.switch changes }
  | .literal l => v.require (l.isUsable v.dialect)
  | .dot => v.require v.dialect.unicode
  | .anchor => some v
  | .wordBoundary => some { v with unicodeWords := v.unicodeWords || v.dialect.unicode }
  | .shorthand negated => v.require (isUsableShorthand v.dialect negated)
  | .set negated s => v.require ((v.dialect.unicode || !negated) && s.isUsable v.dialect)
  | .repeated p => survey v p
  | .group changes p => do
    let inside ← survey { v with dialect := v.dialect.switch changes } p
    return { inside with dialect := v.dialect }
  | .choice branches => surveyAll v branches
  | .sequence parts => surveyAll v parts

/-- Goes over patterns one after the other. -/
def surveyAll (v : Survey) : List Pattern → Option Survey
  | [] => some v
  | p :: rest => do surveyAll (← survey v p) rest

end

/-- Whether a text is a pattern that can be used. -/
def check (cs : List Char) : Except PatternError Unit :=
  match (read? cs).bind (survey {}) with
  | none => .error .unusable
  | some v => if v.unicodeWords then .error .unicodeWords else .ok ()

end Pattern

end Timesheet
