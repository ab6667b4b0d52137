import Timesheet.Report.Text
/-!
# Reports as JSON

The same parts as in the text, as an object.  Members are in alphabetical order.
-/

namespace Timesheet.Report

/-- A row as an object. -/
def rowJson (d : Directory) (r : Row) : Json :=
  .obj [("date", r.date.toJson), ("description", .str r.description),
    ("project", .str (projectName d r)), ("seconds", .int r.seconds.toInt)]

/-- A total as an object. -/
def totalJson (t : Total) : Json := .obj [("project", .str t.name), ("seconds", .int t.seconds.toInt)]

/-- A group as an object. -/
def groupJson (d : Directory) (g : Group) : Json :=
  .obj [("key", .str g.key), ("rows", .arr (g.rows.map (rowJson d))),
    ("seconds", .int (totalSeconds g.rows).toInt)]

/-- The report as an object.  A summary has its totals; a list has its rows and, if it is grouped,
its groups. -/
def toJson (q : Query) (d : Directory) (rows : List Row) : Json :=
  let isList := q.kind = .list
  .ofFields [
    ("from", some q.start.toJson),
    ("groups", if isList ∧ q.grouping.isSome then
        some (.arr ((groups q d rows).map (groupJson d))) else none),
    ("projects", if isList then none else some (.arr ((projectTotals d rows).map totalJson))),
    ("query", some (.str q.text)),
    ("rows", if isList then some (.arr (rows.map (rowJson d))) else none),
    ("title", some (.str (title q))),
    ("to", some q.stop.toJson),
    ("total_seconds", some (.int (totalSeconds rows).toInt))]

end Timesheet.Report
