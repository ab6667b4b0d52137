import Timesheet.Retrieval.Filter
import Timesheet.Retrieval.Pace
import Timesheet.Retrieval.Source
/-!
# Reports through the store

A `Coordinator` answers queries from a store of rows and asks a source only for days that are not
covered.  The store holds all rows of its days, whatever query they were fetched for; what a query
selects is sorted out afterwards.

What changes from one report to the next is the `Session`: the store, the calls made so far, and
the clock.

* `Coordinator.report` is the answer to a query, after fetching what is missing.
* `Coordinator.cached` is what the store has for a query, and what it misses.

Missing periods are fetched in ascending order, each page by page, and put into the store once all
pages are there.  When a call fails, the periods put so far stay.
-/

namespace Timesheet

/-- A call of a source. -/
structure Call where
  request : Request
  page : Nat
deriving DecidableEq

/-- What changes while reports are given. -/
structure Session where
  store : Store Row := .empty
  /-- The calls made so far, in order. -/
  calls : List Call := []
  /-- The time, in milliseconds. -/
  clock : Nat := 0
  /-- When the last call settled. -/
  settled : Option Nat := none

/-- Answers queries over a workspace. -/
structure Coordinator where
  directory : Directory
  /-- The pages that may be fetched for one missing period; at least one is. -/
  pageLimit : Nat := 50
  /-- The milliseconds between the end of a call and the start of the next. -/
  spacing : Nat := 0

namespace Coordinator

/-- The pages that may be fetched for one missing period. -/
def pages (c : Coordinator) : Nat := max c.pageLimit 1

/-- Makes a call, as soon as the pace allows it. -/
def call (c : Coordinator) (source : Source) (request : Request) (page : Nat) (s : Session) :
    Except ReportError Page × Session :=
  let done := earliestStart c.spacing s.settled s.clock + waited source.latency
  (source.answer (s.calls.length + 1) request page,
    { s with calls := s.calls ++ [⟨request, page⟩], clock := done, settled := some done })

/-- Fetches the pages of a period from `page` on, at most `left` of them, and adds their rows to
those of the pages before. -/
def fetchPages (c : Coordinator) (source : Source) (period : Period) :
    (left page : Nat) → (rows : List Row) → Session → Except ReportError (List Row) × Session
  | 0, _, _, s => (.error (.tooManyPages period c.pages), s)
  | left + 1, page, rows, s =>
    match c.call source (.all period) page s with
    | (.error e, s) => (.error e, s)
    | (.ok p, s) =>
      if p.hasMore then fetchPages c source period left (page + 1) (rows ++ p.rows) s
      else (.ok (rows ++ p.rows), s)

/-- Fetches all rows of a period. -/
def fetchPeriod (c : Coordinator) (source : Source) (period : Period) (s : Session) :
    Except ReportError (List Row) × Session :=
  c.fetchPages source period c.pages 1 [] s

/-- Fetches periods one after the other and puts each into the store. -/
def fetchAll (c : Coordinator) (source : Source) :
    List Period → Session → Except ReportError Unit × Session
  | [], s => (.ok (), s)
  | period :: rest, s =>
    match c.fetchPeriod source period s with
    | (.error e, s) => (.error e, s)
    | (.ok rows, s) => fetchAll c source rest { s with store := s.store.put period rows }

/-- The rows that answer a query.  Unknown names are found before anything is fetched. -/
def report (c : Coordinator) (source : Source) (q : Query) (s : Session) :
    Except ReportError (List Row) × Session :=
  match Filter.ofQuery q c.directory with
  | .error e => (.error e, s)
  | .ok filter =>
    match c.fetchAll source (s.store.missing q.window) s with
    | (.error e, s) => (.error e, s)
    | (.ok (), s) => (.ok (filter.apply c.directory q.sort (s.store.rowsIn q.window)), s)

/-- What the store has for a query, without fetching. -/
def cached (c : Coordinator) (q : Query) (s : Session) : Except ReportError (Lookup Row) := do
  let filter ← Filter.ofQuery q c.directory
  let found := s.store.get q.window
  return ⟨filter.apply c.directory q.sort found.rows, found.missing⟩

end Coordinator

end Timesheet
