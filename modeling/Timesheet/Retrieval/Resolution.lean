import Timesheet.Query.Basic
import Timesheet.Workspace.Directory
import Timesheet.Retrieval.Error
/-!
# Names to numbers

The items of a selection are turned into numbers with the help of a directory.  The first name that
the directory does not know is an error; a number stands for itself.
-/

namespace Timesheet.Directory

/-- A number that was found, or the error for the name. -/
def found (kind : NameKind) (name : String) : Option UInt64 → Except ReportError UInt64
  | some id => .ok id
  | none => .error (.unknownName kind name)

/-- The numbers of projects; those given by number need not be in the directory. -/
def resolveProjects (d : Directory) (items : List Item) : Except ReportError (List UInt64) :=
  items.mapM fun
    | .id n => .ok n
    | .name s => found .project s (d.projectId? s)

/-- The numbers of clients; those given by number need not be in the directory. -/
def resolveClients (d : Directory) (items : List Item) : Except ReportError (List UInt64) :=
  items.mapM fun
    | .id n => .ok n
    | .name s => found .client s (d.clientId? s)

/-- The numbers of tags. -/
def resolveTags (d : Directory) (names : List String) : Except ReportError (List UInt64) :=
  names.mapM fun s => found .tag s (d.tagId? s)

end Timesheet.Directory
