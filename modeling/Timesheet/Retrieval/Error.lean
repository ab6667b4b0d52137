import Timesheet.Calendar.DateText
import Timesheet.Calendar.Period
/-!
# What can go wrong in retrieval

`ReportError` has one constructor for each reason why a report cannot be given; the wording is in
`ReportError.message`.
-/

namespace Timesheet

/-- The kinds of things that have names in a workspace. -/
inductive NameKind where
  | project
  | client
  | tag
deriving DecidableEq

/-- The kind as it is called in messages. -/
def NameKind.text : NameKind → String
  | project => "project"
  | client => "client"
  | tag => "tag"

/-- A reason why a report cannot be given. -/
inductive ReportError where
  /-- The workspace has nothing of this kind and name. -/
  | unknownName (kind : NameKind) (name : String)
  /-- The source has failed to give a page. -/
  | sourceFailed (reason : String)
  /-- A period has more pages than may be fetched for it. -/
  | tooManyPages (period : Period) (limit : Nat)
  /-- A request came to an end without an answer. -/
  | requestLost
deriving DecidableEq

/-- The wording of an error. -/
def ReportError.message : ReportError → String
  | unknownName kind name => "unknown " ++ kind.text ++ ": \"" ++ name ++ "\""
  | sourceFailed reason => "fetch error: " ++ reason
  | tooManyPages period limit =>
    "fetch error: report for " ++ period.first.text ++ " to " ++ period.last.text ++
      " has more than " ++ Decimal.text limit ++ " pages"
  | requestLost => "queue error: request was dropped before producing a result"

end Timesheet
