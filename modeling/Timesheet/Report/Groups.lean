import Timesheet.Retrieval.Request
/-!
# Totals and groups

Rows are put together by project, client or date.  Groups come in the order in which their first
rows do (`Report.groupBy`); the totals of projects come largest first (`Report.projectTotals`).
-/

namespace Timesheet.Report

/-! ## 1. Names -/

/-- The name of the project of a row. -/
def projectName (d : Directory) (r : Row) : String :=
  ((r.project.bind d.project?).map Project.name).getD "(no project)"

/-- The name of the client of the project of a row. -/
def clientName (d : Directory) (r : Row) : String :=
  (((Request.clientOf? d r).bind d.client?).map Client.name).getD "(no client)"

/-- What a row is grouped by. -/
def groupKey (g : Grouping) (d : Directory) (r : Row) : String :=
  match g with
  | .date => r.date.text
  | .project => projectName d r
  | .client => clientName d r

/-! ## 2. Collecting by key -/

/-- How rows of one key are put together to a member of a list. -/
structure Collector (α : Type) where
  keyOf : α → String
  /-- The member that a first row makes. -/
  new : String → Row → α
  /-- The member with one more row. -/
  add : α → Row → α

namespace Collector

variable {α : Type}

/-- Adds a row to the first member of its key.  If there is none, a new one is put at the end. -/
def place (c : Collector α) (key : String) (r : Row) : List α → List α
  | [] => [c.new key r]
  | a :: rest => if c.keyOf a = key then c.add a r :: rest else a :: c.place key r rest

/-- Collects rows by a key, one after the other. -/
def collect (c : Collector α) (key : Row → String) (rows : List Row) : List α :=
  rows.foldl (fun members r => c.place (key r) r members) []

end Collector

/-! ## 3. Groups -/

/-- Rows of one key. -/
structure Group where
  key : String
  rows : List Row
deriving DecidableEq

/-- A group has its rows in their order. -/
def Group.collector : Collector Group where
  keyOf := Group.key
  new key r := ⟨key, [r]⟩
  add g r := { g with rows := g.rows ++ [r] }

/-- The groups of rows by a key, in the order of first appearance. -/
def groupBy (key : Row → String) (rows : List Row) : List Group :=
  Group.collector.collect key rows

/-- The groups of a query.  Without a grouping all rows are one group, whose key is empty. -/
def groups (q : Query) (d : Directory) (rows : List Row) : List Group :=
  match q.grouping with
  | none => [⟨"", rows⟩]
  | some g => groupBy (groupKey g d) rows

/-! ## 4. Totals -/

/-- The seconds of all rows. -/
def totalSeconds (rows : List Row) : Int64 := (rows.map Row.seconds).sum

/-- The seconds tracked for what bears a name. -/
structure Total where
  name : String
  seconds : Int64
deriving DecidableEq

/-- A total grows by the seconds of each row. -/
def Total.collector : Collector Total where
  keyOf := Total.name
  new name r := ⟨name, r.seconds⟩
  add t r := { t with seconds := t.seconds + r.seconds }

/-- Larger totals come first, and of equal ones that whose name comes first. -/
def Total.before (a b : Total) : Bool :=
  b.seconds < a.seconds || (a.seconds == b.seconds && decide (a.name ≤ b.name))

/-- The totals of the projects, largest first. -/
def projectTotals (d : Directory) (rows : List Row) : List Total :=
  (Total.collector.collect (projectName d) rows).mergeSort Total.before

end Timesheet.Report
