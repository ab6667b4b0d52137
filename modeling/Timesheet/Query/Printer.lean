import Timesheet.Text.Blank
import Timesheet.Query.Basic
/-!
# The written form of a query

`Query.text` is the canonical text of a query, which reads back as the same query as long as no name
holds both kinds of quotes.  `Query.description` shows it line by line.
-/

namespace Timesheet

/-! ## 1. Canonical text -/

/-- The text in quotes: in single ones if it holds double ones only. -/
def quoteText (s : String) : String :=
  let mark := if s.toList.contains '"' && !s.toList.contains '\'' then "'" else "\""
  mark ++ s ++ mark

/-- A tag that can be written with a mark instead of quotes. -/
def isBareTag (tag : String) : Bool :=
  !tag.isEmpty && !tag.toList.any fun c =>
    Text.isBlank c || c == ',' || c == '"' || c == '\'' || c == '#'

/-- A tag with its mark, or in quotes. -/
def tagText (tag : String) : String :=
  if isBareTag tag then "#" ++ tag else quoteText tag

/-- An item as a value of a query. -/
def Item.text : Item → String
  | .id n => Decimal.text n.toNat
  | .name s => quoteText s

namespace Query

/-- Values behind keywords, with commas between them. -/
def valuesText (keywords : String) (values : List String) : String :=
  match values with
  | [] => " " ++ keywords
  | _ => " " ++ keywords ++ " " ++ ", ".intercalate values

/-- A selection of projects or clients. -/
def selectionText (subject : Subject) (s : Option Selection) : String :=
  match s with
  | none => ""
  | some s =>
    valuesText (s.mode.keyword.text ++ " " ++ subject.keyword.text) (s.items.map Item.text)

/-- A selection of tags. -/
def tagsText (mode : Mode) (tags : Option (List String)) : String :=
  match tags with
  | none => ""
  | some tags => valuesText (mode.keyword.text ++ " TAGS") (tags.map tagText)

/-- The kind of a query. -/
def kindText : Kind → String
  | .summary => "SUMMARY"
  | .list => "LIST"

/-- The order of the rows. -/
def sortText : Option SortOrder → String
  | none => ""
  | some .ascending => " SORT ASC"
  | some .descending => " SORT DESC"

/-- The grouping of the rows. -/
def groupingText : Option Grouping → String
  | none => ""
  | some .date => " GROUP BY DATE"
  | some .project => " GROUP BY PROJECT"
  | some .client => " GROUP BY CLIENT"

/-- The title. -/
def titleText : Option String → String
  | none => ""
  | some title => " TITLE " ++ quoteText title

/-- The canonical text. -/
def text (q : Query) : String :=
  kindText q.kind
  ++ " FROM " ++ q.start.text ++ " TO " ++ q.stop.text
  ++ selectionText .projects q.projects
  ++ selectionText .clients q.clients
  ++ tagsText .keep q.includedTags
  ++ tagsText .drop q.excludedTags
  ++ sortText q.sort
  ++ groupingText q.grouping
  ++ titleText q.title

end Query

/-! ## 2. Description -/

/-- An item as it is shown. -/
def Item.shown : Item → String
  | .id n => Decimal.text n.toNat
  | .name s => s

namespace Query

/-- A line with its label. -/
def labelled (label value : String) : String := label ++ value ++ "\n"

/-- A selection as it is shown. -/
def selectionShown (s : Selection) : String :=
  s.mode.keyword.text ++ " " ++ ", ".intercalate (s.items.map Item.shown)

/-- A query, one part per line. -/
def description (q : Query) : String :=
  String.join ([
    some (labelled "Type:      " (match q.kind with
      | .summary => "Summary"
      | .list => "List")),
    some (labelled "From:      " q.start.text),
    some (labelled "To:        " q.stop.text),
    some (labelled "Days:      " (Decimal.intText q.days)),
    q.projects.map fun s => labelled "Projects:  " (selectionShown s),
    q.clients.map fun s => labelled "Clients:   " (selectionShown s),
    q.includedTags.map fun tags => labelled "Tags:      INCLUDE " (", ".intercalate tags),
    q.excludedTags.map fun tags => labelled "Tags:      EXCLUDE " (", ".intercalate tags),
    q.sort.map fun
      | .ascending => labelled "Sort:      " "Asc"
      | .descending => labelled "Sort:      " "Desc",
    q.grouping.map fun
      | .project => labelled "Group by:  " "Project"
      | .client => labelled "Group by:  " "Client"
      | .date => labelled "Group by:  " "Date",
    q.title.map fun title => labelled "Title:     " title,
    some (labelled "Canonical: " q.text)].filterMap id)

end Query

end Timesheet
