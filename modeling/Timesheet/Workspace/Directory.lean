import Timesheet.Json.Basic
import Timesheet.Text.Lowercase
/-!
# The directory of a workspace

Projects, clients and tags with their names and numbers.  A name is looked up without regard to
letter case, and the first entry of that name is the one meant.
-/

namespace Timesheet

/-- A project, which may belong to a client. -/
structure Project where
  id : UInt64
  name : String
  client : Option UInt64
deriving DecidableEq

/-- A client. -/
structure Client where
  id : UInt64
  name : String
deriving DecidableEq

/-- A tag. -/
structure Tag where
  id : UInt64
  name : String
deriving DecidableEq

/-- The named things of a workspace. -/
structure Directory where
  projects : List Project := []
  clients : List Client := []
  tags : List Tag := []
deriving DecidableEq

namespace Directory

/-! ## 1. Lookup -/

/-- The number of the first project of this name. -/
def projectId? (d : Directory) (name : String) : Option UInt64 :=
  (d.projects.find? fun p => Text.sameIgnoringCase p.name name).map Project.id

/-- The number of the first client of this name. -/
def clientId? (d : Directory) (name : String) : Option UInt64 :=
  (d.clients.find? fun c => Text.sameIgnoringCase c.name name).map Client.id

/-- The number of the first tag of this name. -/
def tagId? (d : Directory) (name : String) : Option UInt64 :=
  (d.tags.find? fun t => Text.sameIgnoringCase t.name name).map Tag.id

/-- The first project of this number. -/
def project? (d : Directory) (id : UInt64) : Option Project :=
  d.projects.find? (·.id == id)

/-- The first client of this number. -/
def client? (d : Directory) (id : UInt64) : Option Client :=
  d.clients.find? (·.id == id)

/-- The client of a project. -/
def clientOf? (d : Directory) (project : UInt64) : Option UInt64 :=
  (d.project? project).bind Project.client

end Directory

/-! ## 2. JSON -/

/-- The project as an object. -/
def Project.toJson (p : Project) : Json :=
  .obj [("id", .ofWord p.id), ("name", .str p.name),
    ("client_id", (p.client.map Json.ofWord).getD .null)]

/-- The client as an object. -/
def Client.toJson (c : Client) : Json := .obj [("id", .ofWord c.id), ("name", .str c.name)]

/-- The tag as an object. -/
def Tag.toJson (t : Tag) : Json := .obj [("id", .ofWord t.id), ("name", .str t.name)]

/-- The directory as an object. -/
def Directory.toJson (d : Directory) : Json :=
  .obj [("projects", .arr (d.projects.map Project.toJson)),
    ("clients", .arr (d.clients.map Client.toJson)), ("tags", .arr (d.tags.map Tag.toJson))]

/-- The project that a value is. -/
def Project.ofJson? (j : Json) : Option Project := do
  let [id, name, client] ← j.fields? ["id", "name", "client_id"] | none
  return { id := ← Json.required Json.word? id
           name := ← Json.required Json.str? name
           client := ← Json.optional Json.word? client }

/-- The client that a value is. -/
def Client.ofJson? (j : Json) : Option Client := do
  let [id, name] ← j.fields? ["id", "name"] | none
  return { id := ← Json.required Json.word? id, name := ← Json.required Json.str? name }

/-- The tag that a value is. -/
def Tag.ofJson? (j : Json) : Option Tag := do
  let [id, name] ← j.fields? ["id", "name"] | none
  return { id := ← Json.required Json.word? id, name := ← Json.required Json.str? name }

/-- The directory that a value is. -/
def Directory.ofJson? (j : Json) : Option Directory := do
  let [projects, clients, tags] ← j.fields? ["projects", "clients", "tags"] | none
  return { projects := ← Json.withDefault [] (Json.list? Project.ofJson?) projects
           clients := ← Json.withDefault [] (Json.list? Client.ofJson?) clients
           tags := ← Json.withDefault [] (Json.list? Tag.ofJson?) tags }

end Timesheet
