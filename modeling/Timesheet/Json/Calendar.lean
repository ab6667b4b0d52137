import Timesheet.Json.Basic
import Timesheet.Calendar.Timestamp
/-!
# Dates and timestamps as JSON

Both are strings in their written form, and are read leniently.
-/

namespace Timesheet

/-- A date as a string. -/
def Date.toJson (d : Date) : Json := .str d.text

/-- The date that a string is. -/
def Date.ofJson? (j : Json) : Option Date := j.str?.bind Date.readLenient?

/-- A timestamp as a string. -/
def Timestamp.toJson (t : Timestamp) : Json := .str t.text

/-- The timestamp that a string is. -/
def Timestamp.ofJson? (j : Json) : Option Timestamp := j.str?.bind Timestamp.read?

end Timesheet
