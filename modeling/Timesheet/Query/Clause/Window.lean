import Timesheet.Calendar.Period
import Timesheet.Query.Clause
/-!
# Kind and window

A query starts with its kind, `SUMMARY` or `LIST`, and its window: `TODAY`, `WEEK`, `MONTH`,
`PAST n DAYS|WEEKS|MONTHS`, or `FROM date TO date|TODAY`.  All but the last are taken relative to a
date, today.  A window of the past `n` units ends with the current one, so that it starts `n - 1`
units before it.
-/

namespace Timesheet

namespace Clause

/-- The kind of a query. -/
def kind : Clause where
  heads := [.SUMMARY, .LIST]
  read d
    | .keyword .SUMMARY :: rest => .ok ({ d with kind := some .summary }, rest)
    | .keyword .LIST :: rest => .ok ({ d with kind := some .list }, rest)
    | ts => .error (.expected ts.head? [.SUMMARY, .LIST])

end Clause

namespace Window

/-- The `n` days that end today. -/
def pastDays (today : Date) (n : Nat) : Period :=
  ⟨(Date.ofDayNumber? (today.dayNumber - ((n : Int) - 1))).getD .first, today⟩

/-- The `n` weeks that end with the current one. -/
def pastWeeks (today : Date) (n : Nat) : Period :=
  ⟨(Date.ofDayNumber? (today.week.first.dayNumber - 7 * ((n : Int) - 1))).getD .first,
    today.week.last⟩

/-- The `n` months that end with the current one. -/
def pastMonths (today : Date) (n : Nat) : Period :=
  ⟨(Date.firstOfMonth? (today.monthIndex - ((n : Int) - 1))).getD .first, today.monthPeriod.last⟩

/-- Reads a count and a unit after `PAST`. -/
def readPast (today : Date) : List Token → Except QueryError (Period × List Token)
  | .number n :: rest =>
    match rest with
    | .keyword .DAYS :: rest => .ok (pastDays today n.toNat, rest)
    | .keyword .WEEKS :: rest => .ok (pastWeeks today n.toNat, rest)
    | .keyword .MONTHS :: rest => .ok (pastMonths today n.toNat, rest)
    | rest => .error (.expected rest.head? [.DAYS, .WEEKS, .MONTHS])
  | ts => .error (.unexpectedToken (describeToken ts.head?) ["decimal number"])

/-- The date that a token after `FROM` or `TO` gives. -/
def date (after : Keyword) (t : Option Token) : Except QueryError Date :=
  match t with
  | some (.date raw) =>
    match Date.readStrict? raw with
    | some d => .ok d
    | none => .error (.invalidDate after (describeToken t))
  | _ => .error (.invalidDate after (describeToken t))

/-- The last day of a window, given as a date or as today. -/
def endDate (today : Date) (t : Option Token) : Except QueryError Date :=
  if t = some (.keyword .TODAY) then .ok today else date .TO t

/-- Reads two dates, after `FROM` and after `TO`. -/
def readFromTo (today : Date) (ts : List Token) : Except QueryError (Period × List Token) :=
  match date .FROM ts.head? with
  | .error e => .error e
  | .ok first =>
    match ts.tail with
    | .keyword .TO :: rest =>
      match endDate today rest.head? with
      | .error e => .error e
      | .ok last => .ok (⟨first, last⟩, rest.tail)
    | rest => .error (.expected rest.head? [.TO])

/-- Reads a window, which need not run forward. -/
def read (today : Date) : List Token → Except QueryError (Period × List Token)
  | .keyword .TODAY :: rest => .ok (⟨today, today⟩, rest)
  | .keyword .WEEK :: rest => .ok (today.week, rest)
  | .keyword .MONTH :: rest => .ok (today.monthPeriod, rest)
  | .keyword .PAST :: rest => readPast today rest
  | .keyword .FROM :: rest => readFromTo today rest
  | _ => .error .missingWindow

end Window

namespace Clause

/-- The window of a query. -/
def window (today : Date) : Clause where
  heads := [.TODAY, .WEEK, .MONTH, .FROM, .PAST]
  read d ts := do
    let (period, rest) ← Window.read today ts
    checkWindow period.first period.last
    return ({ d with start := some period.first, stop := some period.last }, rest)

end Clause

end Timesheet
