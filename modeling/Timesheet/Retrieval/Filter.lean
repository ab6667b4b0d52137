import Timesheet.Retrieval.Request
/-!
# Filters

A `Filter` is what a query selects, with all names resolved: which rows it admits, and in which
order they come.
-/

namespace Timesheet

/-- A test on a number that a row may have. -/
inductive Membership where
  /-- The number must be there and in the list. -/
  | among (ids : List UInt64)
  /-- The number may be absent, and must not be in the list. -/
  | outside (ids : List UInt64)
deriving DecidableEq

/-- The number passes the test. -/
def Membership.admits : Membership → Option UInt64 → Bool
  | among ids, id => Request.isMember ids id
  | outside ids, id => !Request.isMember ids id

/-- What a query selects. -/
structure Filter where
  projects : Option Membership
  clients : Option Membership
  includedTags : Option (List UInt64)
  excludedTags : Option (List UInt64)
deriving DecidableEq

namespace Filter

/-- The test of a selection: one that drops is resolved here, one that keeps has been. -/
def membership (resolve : List Item → Except ReportError (List UInt64)) (s : Option Selection)
    (included : Option (List UInt64)) : Except ReportError (Option Membership) :=
  match s with
  | some ⟨.drop, items⟩ => (resolve items).map fun ids => some (.outside ids)
  | _ => .ok (included.map .among)

/-- The filter of a query.  Names are resolved in the order: what is included, as for a request,
then excluded projects, clients and tags. -/
def ofQuery (q : Query) (d : Directory) : Except ReportError Filter := do
  let request ← Request.ofQuery q d
  let projects ← membership d.resolveProjects q.projects request.projects
  let clients ← membership d.resolveClients q.clients request.clients
  let excludedTags ← Request.resolveTags d q.excludedTags
  return { projects, clients, includedTags := request.tags, excludedTags }

/-- The row passes all tests. -/
def admits (f : Filter) (d : Directory) (r : Row) : Bool :=
  Request.narrows f.projects (·.admits r.project)
    && Request.narrows f.clients (·.admits (Request.clientOf? d r))
    && Request.narrows f.includedTags (Request.hasTag · r)
    && Request.narrows f.excludedTags (!Request.hasTag · r)

/-- The first row starts no later than the second; a row without entries comes first. -/
def startsBefore (a b : Row) : Bool :=
  match a.startInstant?, b.startInstant? with
  | none, _ => true
  | some _, none => false
  | some x, some y => x ≤ y

/-- Rows in order of their start, where rows that start together keep their order; the whole list
is reversed if the order is descending. -/
def sortRows (order : Option SortOrder) (rows : List Row) : List Row :=
  let sorted := rows.mergeSort startsBefore
  if order = some .descending then sorted.reverse else sorted

/-- The rows that a query with this filter and order has for an answer. -/
def apply (f : Filter) (d : Directory) (order : Option SortOrder) (rows : List Row) : List Row :=
  sortRows order (rows.filter (f.admits d))

end Filter

end Timesheet
