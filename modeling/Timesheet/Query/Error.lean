import Timesheet.Calendar.DateText
import Timesheet.Query.Keyword
/-!
# What can be wrong with a query

`QueryError` has one constructor for each cause, with what the message needs; the wording is in
`QueryError.message`.
-/

namespace Timesheet

/-- Whether a selection keeps or drops what it lists. -/
inductive Mode where
  | keep
  | drop
deriving DecidableEq

/-- The keyword of a mode. -/
def Mode.keyword : Mode → Keyword
  | .keep => .INCLUDE
  | .drop => .EXCLUDE

/-- What a selection lists. -/
inductive Subject where
  | projects
  | clients
  | tags
deriving DecidableEq

/-- The keyword of a subject. -/
def Subject.keyword : Subject → Keyword
  | .projects => .PROJECTS
  | .clients => .CLIENTS
  | .tags => .TAGS

/-- A list of items as an example of a selection. -/
def Subject.example : Subject → String
  | .projects => "\"Project A\", 12345678, \"Project C\""
  | .clients => "\"Client A\", \"Client B\""
  | .tags => "#billable, #meetings"

/-- The longest window of a report, in days. -/
def longestWindow : Int := 366

/-- A reason to refuse a query. -/
inductive QueryError where
  /-- A word is none of the forms that a token has. -/
  | unknownWord (word : String)
  /-- A token stands where only the `accepted` ones may. -/
  | unexpectedToken (found : String) (accepted : List String)
  /-- Tokens remain after the last clause. -/
  | leftoverToken (found : String)
  /-- What follows `FROM` or `TO` is not a date. -/
  | invalidDate (after : Keyword) (found : String)
  /-- The window ends before it starts. -/
  | reversedWindow (start stop : Date)
  /-- The window has too many days. -/
  | windowTooLong (days : Int)
  /-- There is no window. -/
  | missingWindow
  /-- A second selection of the same subject. -/
  | duplicateSelection (subject : Subject)
  /-- A selection without items. -/
  | emptySelection (mode : Mode) (subject : Subject)
  /-- A client is given by its number. -/
  | numericClient (id : UInt64)
  | duplicateSort
  | duplicateGrouping
  /-- Grouping of a query that does not list rows. -/
  | groupingNeedsList
  /-- A second title; `earlier` is the first. -/
  | duplicateTitle (earlier : String)
  | missingTitle
deriving DecidableEq

/-- How the end of a query is named where a token was expected. -/
def endOfQuery : String := "end of query"

/-- The wording of an error. -/
def QueryError.message : QueryError → String
  | unknownWord word =>
    "\"" ++ word ++ "\" is not a keyword, ISO-formatted date, decimal number, tag or string. " ++
      "Hint: strings must be wrapped in quotation marks, dates must be formatted as YYYY-MM-DD " ++
      "and tags must start with #."
  | unexpectedToken found accepted =>
    "Invalid token: \"" ++ found ++ "\". Accepted at this position: " ++
      ", ".intercalate accepted
  | leftoverToken found => "Invalid token at end of query: \"" ++ found ++ "\""
  | invalidDate after found =>
    "Cannot convert to valid date: \"" ++ found ++ "\". Keyword \"" ++ after.text ++
      "\" must be followed by an ISO-formatted date. " ++
      "Example use: \"FROM 2021-01-01 TO 2021-01-31\""
  | reversedWindow start stop =>
    "The FROM date (" ++ start.text ++ ") must be before or the same as the TO date (" ++
      stop.text ++ ")."
  | windowTooLong days =>
    "Reports are limited to time spans of at most " ++ Decimal.intText longestWindow ++
      " days; this query spans " ++ Decimal.intText days ++ " days."
  | missingWindow =>
    "Query must include a time interval expression. Available expressions: \"TODAY\", \"WEEK\", " ++
      "\"MONTH\", \"PAST ... DAYS/WEEKS/MONTHS\", \"FROM ... TO ...\""
  | duplicateSelection subject =>
    "A query can only contain a single selection expression for keyword \"" ++
      subject.keyword.text ++ "\""
  | emptySelection mode subject =>
    let start := mode.keyword.text ++ " " ++ subject.keyword.text
    "\"" ++ start ++ "\" must be followed by at least one item. For example: '" ++ start ++ " " ++
      subject.example ++ "'"
  | numericClient id =>
    "Clients can only be selected by name, found numeric id " ++ Decimal.text id.toNat ++
      ". For example: 'INCLUDE CLIENTS \"Client A\"'"
  | duplicateSort => "A query can only contain a single \"SORT\" expression."
  | duplicateGrouping => "A query can only contain a single \"GROUP BY\" expression."
  | groupingNeedsList => "\"GROUP BY\" can only be used on \"LIST\" queries."
  | duplicateTitle earlier =>
    "Cannot define two titles for the same report! Title is already set: \"" ++ earlier ++ "\""
  | missingTitle =>
    "\"TITLE\" must be followed by a string wrapped in double quotes. " ++
      "For example: 'TITLE \"Work Projects\"'"

end Timesheet
