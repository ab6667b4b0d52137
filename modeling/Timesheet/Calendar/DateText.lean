import Timesheet.Text.Blank
import Timesheet.Text.Decimal
import Timesheet.Calendar.Date
/-!
# The written form of dates

A date is written `YYYY-MM-DD`.  Years 0 to 9999 have four digits; all others carry a sign and at
least four digits.

There are two readers.  `Date.readStrict?` takes year, month and day with hyphens between them and
nothing after; blanks may stand before each number.  `Date.readLenient?` also takes blanks before
the hyphens and at the end.  Both need a sign for a year of more than four digits and take months
and days of one digit.
-/

namespace Timesheet

open Text (trimStart)

namespace Date

/-! ## 1. Writing -/

/-- The year with at least four digits, with a sign outside 0 to 9999. -/
def yearText (year : Int) : List Char :=
  if 0 ≤ year ∧ year ≤ 9999 then Decimal.padded 4 year.natAbs
  else (if year < 0 then '-' else '+') :: Decimal.padded 4 year.natAbs

/-- The characters of the written form. -/
def chars (d : Date) : List Char :=
  yearText d.year ++ '-' :: Decimal.padded 2 d.month ++ '-' :: Decimal.padded 2 d.day

/-- The written form. -/
def text (d : Date) : String := String.ofList d.chars

/-! ## 2. Reading the parts -/

/-- Reads a year: with a sign any number of digits, else one to four. -/
def readYear (cs : List Char) : Option (Int × List Char) :=
  match trimStart cs with
  | '-' :: rest => (Decimal.readAll rest).map fun (n, rest) => (-(n : Int), rest)
  | '+' :: rest => (Decimal.readAll rest).map fun (n, rest) => ((n : Int), rest)
  | rest => (Decimal.read 4 rest).map fun (n, rest) => ((n : Int), rest)

/-- Reads a number of one or two digits. -/
def readPart (cs : List Char) : Option (Nat × List Char) :=
  Decimal.read 2 (trimStart cs)

/-- Takes a character off the front. -/
def readChar (c : Char) : List Char → Option (List Char)
  | [] => none
  | x :: rest => if x = c then some rest else none

/-- Takes a separator off the front; `blanks` says whether blanks may stand before it. -/
def readSeparator (blanks : Bool) (c : Char) (cs : List Char) : Option (List Char) :=
  readChar c (if blanks then trimStart cs else cs)

/-- Reads a date off the front of a text. -/
def readChars (blanks : Bool) (cs : List Char) : Option (Date × List Char) := do
  let (year, cs) ← readYear cs
  let cs ← readSeparator blanks '-' cs
  let (month, cs) ← readPart cs
  let cs ← readSeparator blanks '-' cs
  let (day, cs) ← readPart cs
  let date ← ofCivil? year month day
  return (date, cs)

/-! ## 3. Reading a whole text -/

/-- The date that the text is, with no blanks before the hyphens and nothing after it. -/
def readStrict? (s : String) : Option Date := do
  let (date, rest) ← readChars false s.toList
  if rest.isEmpty then some date else none

/-- The date that the text is, with blanks wherever a part may begin or end. -/
def readLenient? (s : String) : Option Date := do
  let (date, rest) ← readChars true s.toList
  if (trimStart rest).isEmpty then some date else none

end Date

end Timesheet
