import Timesheet.Query.Printer
import Timesheet.Report.Duration
import Timesheet.Report.Groups
/-!
# Reports as text

A report has a title, then the totals of a summary or the rows of a list, and the total of all.
-/

namespace Timesheet.Report

/-- The title of a query's report: its own, or one that names kind and window. -/
def title (q : Query) : String :=
  q.title.getD
    ((match q.kind with
      | .summary => "Summary"
      | .list => "Time entries")
      ++ " " ++ q.start.text ++ " to " ++ q.stop.text)

/-- The text behind as many blanks as make up `width` characters. -/
def alignRight (width : Nat) (s : String) : String :=
  String.ofList (List.replicate (width - s.length) ' ') ++ s

/-- A line for a total. -/
def totalLine (t : Total) : String :=
  alignRight 10 (durationText t.seconds.toInt) ++ "  " ++ t.name

/-- A line for a row. -/
def rowLine (d : Directory) (r : Row) : String :=
  r.date.text ++ "  " ++ alignRight 9 (durationText r.seconds.toInt) ++ "  " ++ projectName d r ++ "  "
    ++ r.description

/-- The lines of a group.  It has a heading, and its rows are indented, unless its key is empty. -/
def groupLines (d : Directory) (g : Group) : List String :=
  if g.key.isEmpty then g.rows.map (rowLine d)
  else
    (g.key ++ "  (" ++ durationText (totalSeconds g.rows).toInt ++ ")")
      :: g.rows.map fun r => "  " ++ rowLine d r

/-- The lines between title and total. -/
def bodyLines (q : Query) (d : Directory) (rows : List Row) : List String :=
  match q.kind with
  | .summary => (projectTotals d rows).map totalLine
  | .list => (groups q d rows).flatMap (groupLines d)

/-- The lines of a report. -/
def lines (q : Query) (d : Directory) (rows : List Row) : List String :=
  if rows.isEmpty then [title q, "", "No time entries found."]
  else
    [title q, ""] ++ bodyLines q d rows
      ++ ["", "Total: " ++ durationText (totalSeconds rows).toInt]

/-- The report as text. -/
def text (q : Query) (d : Directory) (rows : List Row) : String :=
  String.join ((lines q d rows).map (· ++ "\n"))

end Timesheet.Report
