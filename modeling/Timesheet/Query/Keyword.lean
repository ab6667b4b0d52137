/-!
# Keywords

The words with a fixed meaning in a query.  They are written in capitals here, as in a canonical
query, and recognised in any letter case.
-/

namespace Timesheet

/-- A word with a fixed meaning. -/
inductive Keyword where
  | SUMMARY | LIST
  | TODAY | WEEK | MONTH | PAST | DAYS | WEEKS | MONTHS | FROM | TO
  | INCLUDE | EXCLUDE | PROJECTS | CLIENTS | TAGS
  | GROUP | BY | DATE | PROJECT | CLIENT
  | SORT | ASC | DESC
  | TITLE
deriving DecidableEq

namespace Keyword

/-- Every keyword. -/
def all : List Keyword := [
  SUMMARY, LIST,
  TODAY, WEEK, MONTH, PAST, DAYS, WEEKS, MONTHS, FROM, TO,
  INCLUDE, EXCLUDE, PROJECTS, CLIENTS, TAGS,
  GROUP, BY, DATE, PROJECT, CLIENT,
  SORT, ASC, DESC,
  TITLE]

/-- The keyword in capitals. -/
def text : Keyword → String
  | SUMMARY => "SUMMARY"
  | LIST => "LIST"
  | TODAY => "TODAY"
  | WEEK => "WEEK"
  | MONTH => "MONTH"
  | PAST => "PAST"
  | DAYS => "DAYS"
  | WEEKS => "WEEKS"
  | MONTHS => "MONTHS"
  | FROM => "FROM"
  | TO => "TO"
  | INCLUDE => "INCLUDE"
  | EXCLUDE => "EXCLUDE"
  | PROJECTS => "PROJECTS"
  | CLIENTS => "CLIENTS"
  | TAGS => "TAGS"
  | GROUP => "GROUP"
  | BY => "BY"
  | DATE => "DATE"
  | PROJECT => "PROJECT"
  | CLIENT => "CLIENT"
  | SORT => "SORT"
  | ASC => "ASC"
  | DESC => "DESC"
  | TITLE => "TITLE"

/-- The keyword that the word spells, the case of ASCII letters aside. -/
def ofChars? (word : List Char) : Option Keyword :=
  all.find? fun k => k.text.toList == word.map Char.toUpper

/-- The keyword that the word spells, the case of ASCII letters aside. -/
def ofText? (word : String) : Option Keyword := ofChars? word.toList

end Keyword

end Timesheet
