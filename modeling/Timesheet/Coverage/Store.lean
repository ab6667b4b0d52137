import Timesheet.Calendar.Period
import Timesheet.Coverage.Basic
/-!
# Rows by day

A `Store` holds rows by the day to which they belong, together with the days for which it holds
all rows there are.  It never asks for rows: `Store.missing` tells which days are not covered, and
`Store.put` takes the rows of a period from whoever has fetched them.
-/

namespace Timesheet

/-- A type of rows each of which belongs to one day. -/
class Dated (α : Type) where
  date : α → Date

/-- The days of a period as an interval of day numbers. -/
def Period.interval (p : Period) : Interval := ⟨p.first.dayNumber, p.last.dayNumber⟩

/-- The period of an interval of day numbers, if the calendar has its ends. -/
def Period.ofInterval? (i : Interval) : Option Period := do
  return ⟨← Date.ofDayNumber? i.start, ← Date.ofDayNumber? i.stop⟩

/-- The date lies in the period. -/
def Period.contains (p : Period) (d : Date) : Bool := p.first ≤ d && d ≤ p.last

/-- The days of the period come in the wrong order. -/
def Period.isReversed (p : Period) : Bool := p.last < p.first

/-- The rows of each day that has any, in ascending order of day numbers, and the days that are
covered. -/
structure Store (α : Type) where
  days : List (Int × List α)
  coverage : Coverage

/-- What a store holds for a period: its rows, and the parts for which it has none. -/
structure Lookup (α : Type) where
  rows : List α
  missing : List Period

namespace Store

variable {α : Type} [Dated α]

/-- The store that holds nothing. -/
def empty : Store α := ⟨[], .empty⟩

/-- The parts of a period that are not covered, in ascending order. -/
def missing (s : Store α) (p : Period) : List Period :=
  (s.coverage.missing p.interval).filterMap Period.ofInterval?

/-- The rows stored for the days of a period, in order of days. -/
def rowsIn (s : Store α) (p : Period) : List α :=
  if p.isReversed then []
  else (s.days.filter fun day => p.interval.Contains day.1).flatMap Prod.snd

/-- The rows of a period and its missing parts. -/
def get (s : Store α) (p : Period) : Lookup α := ⟨s.rowsIn p, s.missing p⟩

/-- Adds a row to its day, behind the rows that are there. -/
def addRow (days : List (Int × List α)) (r : α) : List (Int × List α) :=
  match days with
  | [] => [((Dated.date r).dayNumber, [r])]
  | day :: rest =>
    if (Dated.date r).dayNumber < day.1 then ((Dated.date r).dayNumber, [r]) :: day :: rest
    else if (Dated.date r).dayNumber = day.1 then (day.1, day.2 ++ [r]) :: rest
    else day :: addRow rest r

/-- Stores the rows of a period, which is covered from then on.  They replace all rows of its
days; those that belong to other days are dropped.  A reversed period changes nothing. -/
def put (s : Store α) (p : Period) (rows : List α) : Store α :=
  if p.isReversed then s
  else
    { days := (rows.filter fun r => p.contains (Dated.date r)).foldl addRow
        (s.days.filter fun day => ¬ p.interval.Contains day.1)
      coverage := s.coverage.insert p.interval }

/-- The periods that are covered. -/
def covered (s : Store α) : List Period :=
  s.coverage.intervals.filterMap Period.ofInterval?

/-- The number of rows. -/
def size (s : Store α) : Nat := s.days.foldr (fun day n => day.2.length + n) 0

/-- No day has rows. -/
def isEmpty (s : Store α) : Bool := s.days.isEmpty

end Store

/-- Nothing is missing. -/
def Lookup.isComplete {α : Type} (l : Lookup α) : Bool := l.missing.isEmpty

end Timesheet
