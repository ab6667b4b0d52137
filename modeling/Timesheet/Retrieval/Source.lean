import Timesheet.Retrieval.Request
/-!
# Sources

A `Source` gives rows in pages.  Nothing is assumed about its answers: they may change from call to
call, so that a source is a function of the number of the call, too.

`Export.source` is the source that an export makes: page `k` holds the `k`-th stretch of the rows
that a request selects (`Export.page`).
-/

namespace Timesheet

/-- Some rows, and whether there are more after them. -/
structure Page where
  rows : List Row
  hasMore : Bool
deriving DecidableEq

/-- What answers requests: the answer to the `call`-th call overall, counted from 1, which asks for
page `page` of `request`, and the milliseconds that a call takes. -/
structure Source where
  answer : (call : Nat) → (request : Request) → (page : Nat) → Except ReportError Page
  latency : Nat := 0

namespace Export

/-- The rows of a page, unless told otherwise. -/
def defaultPageSize : Nat := 50

/-- The rows that a request selects. -/
def selected (e : Export) (q : Request) : List Row := e.rows.filter (q.selects e.directory)

/-- The number of rows before a page.  Pages are counted from 1; page 0 is the first, too.  The number is
one of 64 bits, and the product wraps around if it is too large (as it does where overflow is not
checked). -/
def rowsBefore (size page : Nat) : Nat := (max page 1 - 1) * size % UInt64.size

/-- A page of the selected rows.  Pages have at least one row. -/
def page (e : Export) (size : Nat) (q : Request) (page : Nat) : Page :=
  let rest := (e.selected q).drop (rowsBefore (max size 1) page)
  { rows := rest.take (max size 1), hasMore := !(rest.drop (max size 1)).isEmpty }

/-- The source of the rows of an export. -/
def source (e : Export) (size : Nat) : Source where
  answer _ q page := .ok (e.page size q page)

end Export

end Timesheet
