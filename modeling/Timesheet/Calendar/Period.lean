import Timesheet.Calendar.Date
/-!
# Weeks and months

The calendar week (Monday to Sunday) and the month around a date, as first and last day.  A week
is cut off where the calendar ends.
-/

namespace Timesheet

/-- The days from `first` to `last`, both included. -/
structure Period where
  first : Date
  last : Date
deriving DecidableEq

namespace Date

/-- The week of a date: from Monday, or the calendar's first day if that is later, on for seven
days as far as the calendar goes. -/
def week (d : Date) : Period :=
  let monday := clamp (d.dayNumber - d.weekday)
  ⟨monday, clamp (monday.dayNumber + 6)⟩

/-- Months are numbered in one sequence, January of year 0 being 0. -/
def monthIndex (d : Date) : Int := d.year * 12 + (d.month - 1)

/-- The first day of the month with this number in the sequence, if the calendar has it. -/
def firstOfMonth? (index : Int) : Option Date :=
  ofCivil? (index / 12) ((index % 12).toNat + 1) 1

/-- The month of a date: from its first day to the eve of the next month, which is the last day of
the calendar if no month follows. -/
def monthPeriod (d : Date) : Period :=
  let next := (firstOfMonth? (d.monthIndex + 1)).bind pred?
  ⟨clamp (d.dayNumber - (d.day - 1)), next.getD last⟩

end Date

end Timesheet
