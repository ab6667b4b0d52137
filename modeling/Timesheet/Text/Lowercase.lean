import Timesheet.Text.CaseTable
import Timesheet.Text.CodePoints
/-!
# Lowercase text

`Text.lowercase` maps a text to lowercase by the Unicode rules: each character by its own mapping,
except that a capital sigma becomes `ς` at the end of a word and `σ` elsewhere.  A sigma ends a
word when, going over case-ignorable characters, a cased character stands before it and none
stands after it.
-/

namespace Timesheet.Text

/-- The character is a capital, a small letter or a variant of one. -/
def isCased (c : Char) : Bool := inRanges casedRanges c.toNat

/-- The character is passed over when the end of a word is looked for. -/
def isCaseIgnorable (c : Char) : Bool := inRanges caseIgnorableRanges c.toNat

/-- The lowercase form of a character on its own. -/
def lowercaseChar (c : Char) : List Char :=
  if c.toNat = 0x130 then ['i', '\u0307']
  else
    match capitals.find? (·.holds c.toNat) with
    | some b => [Char.ofNat (c.toNat + b.shift).toNat]
    | none => [c]

/-- The first character that is not case-ignorable is cased. -/
def startsCased (cs : List Char) : Bool :=
  match cs.dropWhile isCaseIgnorable with
  | [] => false
  | c :: _ => isCased c

/-- The lowercase form of a capital sigma between `before`, read backwards, and `after`. -/
def lowercaseSigma (before after : List Char) : Char :=
  if startsCased before && !startsCased after then 'ς' else 'σ'

/-- Lowercases `cs`, which follows `before`, read backwards. -/
def lowercaseAfter (before : List Char) : List Char → List Char
  | [] => []
  | c :: cs =>
    (if c = 'Σ' then [lowercaseSigma before cs] else lowercaseChar c)
      ++ lowercaseAfter (c :: before) cs

/-- The text in lowercase. -/
def lowercase (s : String) : String :=
  String.ofList (lowercaseAfter [] s.toList)

/-- Two texts that differ in letter case only. -/
def sameIgnoringCase (s t : String) : Bool :=
  lowercase s == lowercase t

example : lowercase "ΟΔΥΣΣΕΥΣ Σ" = "οδυσσευς σ" := by decide +kernel

example : lowercase "İstanbul" = "i\u0307stanbul" := by decide +kernel

end Timesheet.Text
