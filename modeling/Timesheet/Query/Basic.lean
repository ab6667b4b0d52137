import Timesheet.Query.Error
/-!
# Queries

A `Query` asks for a report on a window of days.  A `Draft` is a query of which only parts are
known; `Draft.finish` makes it a query, provided that it has a kind and a window, the window runs
forward and is not too long, and only a list is grouped.  These are the conditions of
`Query.WellFormed`.
-/

namespace Timesheet

/-! ## 1. Parts of a query -/

/-- A report either sums up or lists the rows. -/
inductive Kind where
  | summary
  | list
deriving DecidableEq

/-- A project or client, by number or by name. -/
inductive Item where
  | id (n : UInt64)
  | name (s : String)
deriving DecidableEq

/-- The items that a query keeps or drops. -/
structure Selection where
  mode : Mode
  items : List Item
deriving DecidableEq

/-- The order of rows by time. -/
inductive SortOrder where
  | ascending
  | descending
deriving DecidableEq

/-- What the rows of a list are grouped by. -/
inductive Grouping where
  | project
  | client
  | date
deriving DecidableEq

/-! ## 2. Queries and drafts -/

/-- A query for a report on the days from `start` to `stop`. -/
structure Query where
  kind : Kind
  start : Date
  stop : Date
  projects : Option Selection := none
  clients : Option Selection := none
  includedTags : Option (List String) := none
  excludedTags : Option (List String) := none
  sort : Option SortOrder := none
  grouping : Option Grouping := none
  title : Option String := none
deriving DecidableEq

/-- The days of the window, counting both ends. -/
def Query.days (q : Query) : Int := q.start.span q.stop

/-- The window runs forward and is not too long, and only a list is grouped. -/
structure Query.WellFormed (q : Query) : Prop where
  forward : q.start ≤ q.stop
  short : q.days ≤ longestWindow
  grouped : q.grouping.isSome → q.kind = .list

/-- The parts of a query that are known so far. -/
structure Draft where
  kind : Option Kind := none
  start : Option Date := none
  stop : Option Date := none
  projects : Option Selection := none
  clients : Option Selection := none
  includedTags : Option (List String) := none
  excludedTags : Option (List String) := none
  sort : Option SortOrder := none
  grouping : Option Grouping := none
  title : Option String := none
deriving DecidableEq

/-- Refuses a window that runs backwards or is too long. -/
def checkWindow (start stop : Date) : Except QueryError Unit :=
  if stop < start then .error (.reversedWindow start stop)
  else if longestWindow < start.span stop then .error (.windowTooLong (start.span stop))
  else .ok ()

/-- The query that a draft has become. -/
def Draft.finish (d : Draft) : Except QueryError Query := do
  let some kind := d.kind
    | throw (.unexpectedToken endOfQuery [Keyword.SUMMARY.text, Keyword.LIST.text])
  let (some start, some stop) := (d.start, d.stop) | throw .missingWindow
  checkWindow start stop
  if d.grouping.isSome ∧ kind ≠ .list then throw .groupingNeedsList
  return { kind, start, stop, projects := d.projects, clients := d.clients,
           includedTags := d.includedTags, excludedTags := d.excludedTags, sort := d.sort,
           grouping := d.grouping, title := d.title }

/-! ## 3. Exactly the well-formed queries can be finished -/

/-- The draft that knows all of a query. -/
def Query.toDraft (q : Query) : Draft where
  kind := some q.kind
  start := some q.start
  stop := some q.stop
  projects := q.projects
  clients := q.clients
  includedTags := q.includedTags
  excludedTags := q.excludedTags
  sort := q.sort
  grouping := q.grouping
  title := q.title

theorem checkWindow_eq_ok_iff {start stop : Date} :
    checkWindow start stop = .ok () ↔ start ≤ stop ∧ start.span stop ≤ longestWindow := by
  unfold checkWindow
  simp only [Date.lt_def, Date.le_def]
  split
  · simp; omega
  · split
    · simp; omega
    · simp; omega

end Timesheet
