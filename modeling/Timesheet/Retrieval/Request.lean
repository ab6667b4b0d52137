import Timesheet.Workspace.Row
import Timesheet.Retrieval.Resolution
/-!
# Requests

A `Request` asks a source for rows: those of a period, which may be narrowed to projects, clients
and tags.  A request can only say what to include; what a query excludes is sorted out afterwards.
-/

namespace Timesheet

/-- A request for the rows of a period.  Each list narrows it to rows that have one of its
members. -/
structure Request where
  period : Period
  projects : Option (List UInt64) := none
  tags : Option (List UInt64) := none
  clients : Option (List UInt64) := none
deriving DecidableEq

/-- The window of a query. -/
def Query.window (q : Query) : Period := ⟨q.start, q.stop⟩

namespace Request

/-- All rows of a period. -/
def all (p : Period) : Request := { period := p }

/-- Resolves what is to be included, if there is a selection that includes. -/
def resolveIncluded {α : Type} (resolve : List Item → Except ReportError α) :
    Option Selection → Except ReportError (Option α)
  | some ⟨.keep, items⟩ => (resolve items).map some
  | _ => .ok none

/-- Resolves tags, if there are any to resolve. -/
def resolveTags (d : Directory) : Option (List String) → Except ReportError (Option (List UInt64))
  | some names => (d.resolveTags names).map some
  | none => .ok none

/-- The request for all that a query includes: first its projects, then its clients, then its tags
are resolved. -/
def ofQuery (q : Query) (d : Directory) : Except ReportError Request := do
  let projects ← resolveIncluded d.resolveProjects q.projects
  let clients ← resolveIncluded d.resolveClients q.clients
  let tags ← resolveTags d q.includedTags
  return { period := q.window, projects, tags, clients }

/-- The row has one of the tags. -/
def hasTag (tags : List UInt64) (r : Row) : Bool := r.tags.any tags.contains

/-- The client of the project of a row. -/
def clientOf? (d : Directory) (r : Row) : Option UInt64 := r.project.bind d.clientOf?

/-- The number is there and in the list. -/
def isMember (ids : List UInt64) : Option UInt64 → Bool
  | some id => ids.contains id
  | none => false

/-- A list that is absent narrows nothing. -/
def narrows {α : Type} (ids : Option α) (test : α → Bool) : Bool :=
  match ids with
  | some ids => test ids
  | none => true

/-- The row has entries, lies in the period and passes all lists. -/
def selects (q : Request) (d : Directory) (r : Row) : Bool :=
  match r.startDate? with
  | none => false
  | some date =>
    q.period.contains date
      && narrows q.projects (isMember · r.project)
      && narrows q.clients (isMember · (clientOf? d r))
      && narrows q.tags (hasTag · r)

/-- The request as an object, without the lists that are absent. -/
def toJson (q : Request) : Json :=
  let ids (l : List UInt64) : Json := .arr (l.map Json.ofWord)
  .ofFields [("start_date", some q.period.first.toJson),
    ("end_date", some q.period.last.toJson), ("project_ids", q.projects.map ids),
    ("tag_ids", q.tags.map ids), ("client_ids", q.clients.map ids)]

/-- The request that a value is. -/
def ofJson? (j : Json) : Option Request := do
  let [first, last, projects, tags, clients] ←
    j.fields? ["start_date", "end_date", "project_ids", "tag_ids", "client_ids"] | none
  return { period := ⟨← Json.required Date.ofJson? first, ← Json.required Date.ofJson? last⟩
           projects := ← Json.optional (Json.list? Json.word?) projects
           tags := ← Json.optional (Json.list? Json.word?) tags
           clients := ← Json.optional (Json.list? Json.word?) clients }

end Request

end Timesheet
