import Timesheet.Json.Reader
import Timesheet.Json.Calendar
import Timesheet.Coverage.Store
import Timesheet.Workspace.Directory
/-!
# Rows of tracked time

A `Row` groups time entries of one description, project and set of tags.  It belongs to the day on
which its first entry started, on the clock of whoever made it (`Row.startDate?`); a row without
entries counts to the first day of the calendar.

Seconds are numbers of 64 bits, and so are their sums.  A sum that is too large or too small wraps around, as
it does where overflow is not checked; with checks the program would stop there.

An `Export` is a directory with rows, as kept in a file.
-/

namespace Timesheet

/-! ## 1. Entries and rows -/

/-- One stretch of tracked time. -/
structure Entry where
  id : UInt64
  seconds : Int64
  start : Timestamp
  stop : Timestamp
  /-- When the entry was last changed. -/
  changed : Timestamp
deriving DecidableEq

/-- Time entries of one description, project and set of tags. -/
structure Row where
  user : UInt64
  project : Option UInt64
  description : String
  tags : List UInt64
  entries : List Entry
  number : UInt64
deriving DecidableEq

namespace Row

/-- The local date on which the first entry started. -/
def startDate? (r : Row) : Option Date := r.entries.head?.map (·.start.date)

/-- The instant at which the first entry started. -/
def startInstant? (r : Row) : Option Int := r.entries.head?.map (·.start.instant)

/-- The day to which the row belongs. -/
def date (r : Row) : Date := r.startDate?.getD .first

/-- The seconds of all entries. -/
def seconds (r : Row) : Int64 := (r.entries.map Entry.seconds).sum

instance : Dated Row := ⟨Row.date⟩

end Row

/-- A directory and rows, which are no more than can be counted in 64 bits. -/
structure Export where
  directory : Directory := {}
  rows : List Row := []
  rows_lt : rows.length < UInt64.size := by decide
deriving DecidableEq

/-! ## 2. JSON -/

/-- The entry as an object. -/
def Entry.toJson (e : Entry) : Json :=
  .obj [("id", .ofWord e.id), ("seconds", .int e.seconds.toInt), ("start", e.start.toJson),
    ("stop", e.stop.toJson), ("at", e.changed.toJson)]

/-- The row as an object. -/
def Row.toJson (r : Row) : Json :=
  .obj [("user_id", .ofWord r.user), ("project_id", (r.project.map Json.ofWord).getD .null),
    ("description", .str r.description), ("tag_ids", .arr (r.tags.map Json.ofWord)),
    ("time_entries", .arr (r.entries.map Entry.toJson)), ("row_number", .ofWord r.number)]

/-- The export as an object. -/
def Export.toJson (e : Export) : Json :=
  .obj [("directory", e.directory.toJson), ("rows", .arr (e.rows.map Row.toJson))]

/-- The entry that a value is. -/
def Entry.ofJson? (j : Json) : Option Entry := do
  let [id, seconds, start, stop, changed] ← j.fields? ["id", "seconds", "start", "stop", "at"]
    | none
  return { id := ← Json.required Json.word? id
           seconds := ← Json.required Json.signed? seconds
           start := ← Json.required Timestamp.ofJson? start
           stop := ← Json.required Timestamp.ofJson? stop
           changed := ← Json.required Timestamp.ofJson? changed }

/-- The row that a value is. -/
def Row.ofJson? (j : Json) : Option Row := do
  let [user, project, description, tags, entries, number] ←
    j.fields? ["user_id", "project_id", "description", "tag_ids", "time_entries", "row_number"]
    | none
  return { user := ← Json.required Json.word? user
           project := ← Json.optional Json.word? project
           description := ← Json.withDefault "" Json.str? description
           tags := ← Json.withDefault [] (Json.list? Json.word?) tags
           entries := ← Json.required (Json.list? Entry.ofJson?) entries
           number := ← Json.withDefault 0 Json.word? number }

/-- The export of rows that are not too many. -/
def Export.ofRows? (directory : Directory) (rows : List Row) : Option Export :=
  if h : rows.length < UInt64.size then some ⟨directory, rows, h⟩ else none

/-- The export that a value is. -/
def Export.ofJson? (j : Json) : Option Export := do
  let [directory, rows] ← j.fields? ["directory", "rows"] | none
  Export.ofRows? (← Json.withDefault {} Directory.ofJson? directory)
    (← Json.withDefault [] (Json.list? Row.ofJson?) rows)

/-- The export that a text is. -/
def Export.read? (text : String) : Option Export := (Json.read? text).bind Export.ofJson?

end Timesheet
