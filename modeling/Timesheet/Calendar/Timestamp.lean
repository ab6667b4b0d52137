import Timesheet.Calendar.DateText
/-!
# Timestamps

A `Timestamp` is a date and time of day on a clock a whole number of minutes ahead of universal
time.  It keeps that offset, so that a time entry belongs to the day on which the clock of its
author stood.  Two timestamps compare by their instant (`Timestamp.instant`), whatever their
offsets.

Seconds run to 60: a leap second is second 59 with a billion nanoseconds or more.
-/

namespace Timesheet

open Text (trimStart)

/-- A local date and time with the offset of the clock, in minutes. -/
structure Timestamp where
  date : Date
  hour : Nat
  minute : Nat
  second : Nat
  nano : Nat
  offset : Int
deriving DecidableEq

namespace Timestamp

/-! ## 1. Order -/

/-- The seconds of the day on the local clock. -/
def secondOfDay (t : Timestamp) : Nat := t.hour * 3600 + t.minute * 60 + t.second

/-- The seconds since the eve of day 0, in universal time. -/
def utcSecond (t : Timestamp) : Int :=
  t.date.dayNumber * 86400 + t.secondOfDay - t.offset * 60

/-- The point in time.  A second has room for the nanoseconds of a leap second, which therefore
comes before the next one. -/
def instant (t : Timestamp) : Int := t.utcSecond * 2000000000 + t.nano

/-- The date in universal time lies in the calendar. -/
def inCalendar (t : Timestamp) : Bool := (Date.ofDayNumber? (t.utcSecond / 86400)).isSome

/-! ## 2. Writing -/

/-- A decimal point and 3, 6 or 9 digits, the fewest that are exact; nothing for a whole second. -/
def fractionText (nano : Nat) : List Char :=
  if nano = 0 then []
  else if nano % 1000000 = 0 then '.' :: Decimal.padded 3 (nano / 1000000)
  else if nano % 1000 = 0 then '.' :: Decimal.padded 6 (nano / 1000)
  else '.' :: Decimal.padded 9 nano

/-- `Z` for offset zero, else sign, hours and minutes. -/
def offsetText (offset : Int) : List Char :=
  if offset = 0 then ['Z']
  else (if offset < 0 then '-' else '+') :: Decimal.padded 2 (offset.natAbs / 60)
    ++ ':' :: Decimal.padded 2 (offset.natAbs % 60)

/-- The written form, in which a leap second is second 60. -/
def text (t : Timestamp) : String :=
  let leap := t.nano / 1000000000
  String.ofList (t.date.chars ++ 'T' :: Decimal.padded 2 t.hour ++ ':' :: Decimal.padded 2 t.minute
    ++ ':' :: Decimal.padded 2 (t.second + leap) ++ fractionText (t.nano % 1000000000)
    ++ offsetText t.offset)

/-! ## 3. Reading -/

/-- Reads the optional fraction of a second: at least one digit after the point, of which nine
count. -/
def readFraction : List Char → Option (Nat × List Char)
  | '.' :: cs => do
    let (_, rest) ← Decimal.readAll cs
    let shown := (cs.takeWhile Char.isDigit).take 9
    return (Decimal.value shown * Nat.pow 10 (9 - shown.length), rest)
  | cs => some (0, cs)

/-- Reads two digits. -/
def readTwoDigits : List Char → Option (Nat × List Char)
  | a :: b :: rest => if a.isDigit && b.isDigit then some (Decimal.value [a, b], rest) else none
  | _ => none

/-- Reads hours and minutes of an offset, with colons and blanks between them. -/
def readHoursMinutes (cs : List Char) : Option (Int × List Char) := do
  let (hours, cs) ← readTwoDigits cs
  let (minutes, cs) ← readTwoDigits (cs.dropWhile fun c => c == ':' || Text.isBlank c)
  if minutes < 60 then some ((hours * 60 + minutes : Nat), cs) else none

/-- Reads an offset: `Z`, `UTC`, or a sign with hours and minutes. -/
def readOffset : List Char → Option (Int × List Char)
  | '+' :: cs => readHoursMinutes cs
  | '-' :: cs | '−' :: cs => (readHoursMinutes cs).map fun (m, rest) => (-m, rest)
  | 'Z' :: cs | 'z' :: cs => some (0, cs)
  | u :: t :: c :: cs =>
    if [u, t, c].map Char.toUpper = ['U', 'T', 'C'] then some (0, cs) else none
  | _ => none

/-- Reads the `T` or blank between date and time. -/
def readDateEnd : List Char → Option (List Char)
  | 'T' :: cs | 't' :: cs | ' ' :: cs => some cs
  | _ => none

/-- The timestamp of these parts, if each is in its range.  Second 60 is a leap second. -/
def ofParts? (date : Date) (hour minute second nano : Nat) (offset : Int) : Option Timestamp :=
  let t : Timestamp :=
    if second = 60 then ⟨date, hour, minute, 59, nano + 1000000000, offset⟩
    else ⟨date, hour, minute, second, nano, offset⟩
  if hour < 24 ∧ minute < 60 ∧ second ≤ 60 ∧ offset.natAbs < 1440 ∧ t.inCalendar then some t
  else none

/-- The timestamp that the text is. -/
def read? (s : String) : Option Timestamp := do
  let (date, cs) ← Date.readChars true s.toList
  let cs ← readDateEnd cs
  let (hour, cs) ← Date.readPart cs
  let cs ← Date.readSeparator true ':' cs
  let (minute, cs) ← Date.readPart cs
  let cs ← Date.readSeparator true ':' cs
  let (second, cs) ← Date.readPart cs
  let (nano, cs) ← readFraction cs
  let (offset, cs) ← readOffset (trimStart cs)
  let t ← ofParts? date hour minute second nano offset
  if (trimStart cs).isEmpty then some t else none

end Timestamp

end Timesheet
