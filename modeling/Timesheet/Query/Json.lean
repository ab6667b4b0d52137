import Timesheet.Json.Calendar
import Timesheet.Query.Basic
/-!
# Queries as JSON

A query is written as an object of its parts, without those that it does not have
(`Query.toJson`).  `Query.ofJson` reads one: the value must have the shape of a draft, and the
draft must be a query.
-/

namespace Timesheet

/-! ## 1. Parts -/

/-- The names of the kinds. -/
def Kind.names : List (String × Kind) := [("SUMMARY", .summary), ("LIST", .list)]

/-- The names of the modes. -/
def Mode.names : List (String × Mode) := [("INCLUDE", .keep), ("EXCLUDE", .drop)]

/-- The names of the orders. -/
def SortOrder.names : List (String × SortOrder) := [("ASC", .ascending), ("DESC", .descending)]

/-- The names of the groupings. -/
def Grouping.names : List (String × Grouping) :=
  [("PROJECT", .project), ("CLIENT", .client), ("DATE", .date)]

def Kind.toJson : Kind → Json
  | .summary => .str "SUMMARY"
  | .list => .str "LIST"

def Mode.toJson (m : Mode) : Json := .str m.keyword.text

def SortOrder.toJson : SortOrder → Json
  | .ascending => .str "ASC"
  | .descending => .str "DESC"

def Grouping.toJson : Grouping → Json
  | .project => .str "PROJECT"
  | .client => .str "CLIENT"
  | .date => .str "DATE"

/-- An item: a number for an id, a string for a name. -/
def Item.toJson : Item → Json
  | .id n => .ofWord n
  | .name s => .str s

/-- The item that a value is. -/
def Item.ofJson? : Json → Option Item
  | .str s => some (.name s)
  | j => j.word?.map .id

/-- A selection as an object. -/
def Selection.toJson (s : Selection) : Json :=
  .obj [("mode", s.mode.toJson), ("list", .arr (s.items.map Item.toJson))]

/-- The selection that a value is. -/
def Selection.ofJson? (j : Json) : Option Selection := do
  let [mode, items] ← j.fields? ["mode", "list"] | none
  return { mode := ← Json.required (Json.name? Mode.names) mode
           items := ← Json.required (Json.list? Item.ofJson?) items }

/-- A list of tags as an array. -/
def tagsToJson (tags : List String) : Json := .arr (tags.map .str)

/-! ## 2. Queries -/

/-- The query as an object of the parts that it has. -/
def Query.toJson (q : Query) : Json :=
  .ofFields [
    ("type", some q.kind.toJson),
    ("from", some q.start.toJson),
    ("to", some q.stop.toJson),
    ("project_selection", q.projects.map Selection.toJson),
    ("client_selection", q.clients.map Selection.toJson),
    ("included_tags", q.includedTags.map tagsToJson),
    ("excluded_tags", q.excludedTags.map tagsToJson),
    ("sort", q.sort.map SortOrder.toJson),
    ("group_by", q.grouping.map Grouping.toJson),
    ("custom_title", q.title.map Json.str)]

/-- The draft that a value has the shape of.  Every field may be absent or `null`. -/
def Draft.ofJson? (j : Json) : Option Draft := do
  let [kind, start, stop, projects, clients, includedTags, excludedTags, sort, grouping, title] ←
    j.fields? ["type", "from", "to", "project_selection", "client_selection", "included_tags",
      "excluded_tags", "sort", "group_by", "custom_title"]
    | none
  return {
    kind := ← Json.optional (Json.name? Kind.names) kind
    start := ← Json.optional Date.ofJson? start
    stop := ← Json.optional Date.ofJson? stop
    projects := ← Json.optional Selection.ofJson? projects
    clients := ← Json.optional Selection.ofJson? clients
    includedTags := ← Json.optional (Json.list? Json.str?) includedTags
    excludedTags := ← Json.optional (Json.list? Json.str?) excludedTags
    sort := ← Json.optional (Json.name? SortOrder.names) sort
    grouping := ← Json.optional (Json.name? Grouping.names) grouping
    title := ← Json.optional Json.str? title }

/-- A reason why a value is no query. -/
inductive Query.JsonError where
  /-- The value does not have the shape of a query. -/
  | shape
  /-- The parts do not make up a query. -/
  | query (e : QueryError)
deriving DecidableEq

/-- The query that a value is. -/
def Query.ofJson (j : Json) : Except Query.JsonError Query :=
  match Draft.ofJson? j with
  | none => .error .shape
  | some d => d.finish.mapError .query

end Timesheet
