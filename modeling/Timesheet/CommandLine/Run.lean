import Timesheet.Query.Json
import Timesheet.Query.Parser
import Timesheet.Report.Json
import Timesheet.Retrieval.Coordinator
import Timesheet.Settings.Basic
import Timesheet.Settings.LogFilter
import Timesheet.CommandLine.Arguments
/-!
# The program

`CommandLine.run` is the whole program as a function: from its arguments and what it finds in files
to what it prints.  Settings are read first, then the query, then the export.
-/

namespace Timesheet.CommandLine

/-! ## 1. What the program depends on -/

/-- What there is at a path. -/
inductive FileContent where
  | absent
  /-- There is something that cannot be read. -/
  | unreadable (reason : String)
  | text (s : String)

/-- The day, the file with the settings, and all other files. -/
structure Surroundings where
  today : Date
  settings : FileContent
  file : String → FileContent

/-- What the program prints, and its exit code. -/
structure Output where
  code : Nat
  stdout : String := ""
  stderr : String := ""
deriving DecidableEq

/-! ## 2. Errors -/

/-- A reason why the program gives no answer. -/
inductive Failure where
  | settings (e : SettingsError)
  | query (e : QueryError)
  /-- The export at a path cannot be read, for a reason of the system. -/
  | exportUnreadable (path reason : String)
  /-- The file at a path is no export. -/
  | exportMalformed (path : String)
  | report (e : ReportError)

/-- What the system says of a path where nothing is. -/
def noSuchFile : String := "No such file or directory (os error 2)"

/-- The message of a failure, and the causes behind it. -/
def Failure.messages : Failure → String × List String
  | settings e => ("failed to load configuration", [e.message])
  | query e => (e.message, [])
  | exportUnreadable path reason =>
    ("failed to load report export " ++ path, ["IO error: " ++ reason, reason])
  | exportMalformed path =>
    let reason := "not a JSON document of the expected shape"
    ("failed to load report export " ++ path, ["JSON error: " ++ reason, reason])
  | report e => (e.message, [])

/-- The message and its causes as text; several causes are numbered. -/
def Failure.text (f : Failure) : String :=
  let (message, causes) := f.messages
  let lines := match causes with
    | [] => []
    | [cause] => ["", "Caused by:", "    " ++ cause]
    | _ => ["", "Caused by:"]
      ++ causes.mapIdx fun i cause => "    " ++ Decimal.text i ++ ": " ++ cause
  "\n".intercalate (("Error: " ++ message) :: lines) ++ "\n"

/-! ## 3. Steps -/

/-- The settings of a file; the defaults if there is none. -/
def loadSettings : FileContent → Except SettingsError Settings
  | .absent => .ok {}
  | .unreadable reason => .error (.unreadable reason)
  | .text s => Settings.read s

/-- The export in a file. -/
def loadExport (path : String) : FileContent → Except Failure Export
  | .absent => .error (.exportUnreadable path noSuchFile)
  | .unreadable reason => .error (.exportUnreadable path reason)
  | .text s =>
    match Export.read? s with
    | some e => .ok e
    | none => .error (.exportMalformed path)

/-- The rows that answer a query over an export, fetched under the settings. -/
def reportRows (settings : Settings) (e : Export) (q : Query) : Except ReportError (List Row) :=
  let c : Coordinator :=
    { directory := e.directory, pageLimit := settings.pageLimit, spacing := settings.spacing }
  (c.report (e.source Export.defaultPageSize) q {}).1

/-- Prints a query. -/
def showQuery (format : Format) (q : Query) : String :=
  match format with
  | .text => q.description
  | .json => q.toJson.pretty ++ "\n"

/-- Prints a report. -/
def showReport (format : Format) (q : Query) (d : Directory) (rows : List Row) : String :=
  match format with
  | .text => Report.text q d rows
  | .json => (Report.toJson q d rows).pretty ++ "\n"

/-- Reads a query relative to the given day. -/
def readQuery (w : Surroundings) (text : String) (today : Option Date) : Except Failure Query :=
  (Query.parse text (today.getD w.today)).mapError .query

/-- What `parse` prints. -/
def runParse (w : Surroundings) (query : String) (today : Option Date) (format : Format) :
    Except Failure String := do
  let q ← readQuery w query today
  return showQuery format q

/-- What `report` prints. -/
def runReport (w : Surroundings) (settings : Settings) (query data : String) (today : Option Date)
    (format : Format) : Except Failure String := do
  let q ← readQuery w query today
  let e ← loadExport data (w.file data)
  let rows ← (reportRows settings e q).mapError .report
  return showReport format q e.directory rows

/-! ## 4. The whole program -/

/-- How the program calls itself and its version. -/
def versionText : String := "togglq 0.1.0\n"

/-- The explanation of a topic. -/
def helpText : Topic → String
  | .program => "\n".intercalate [
    "Parse time-tracking report queries and run them against exports",
    "",
    "Usage: togglq <COMMAND>",
    "",
    "Commands:",
    "  parse   Parse a query and print the resulting descriptor",
    "  report  Run a query against a detailed report export",
    "  help    Print this message or the help of the given subcommand(s)",
    "",
    "Options:",
    "  -h, --help     Print help",
    "  -V, --version  Print version",
    ""]
  | .command .parse => "\n".intercalate [
    "Parse a query and print the resulting descriptor",
    "",
    "Usage: togglq parse [OPTIONS] <QUERY>",
    "",
    "Arguments:",
    "  <QUERY>  Query text, e.g. \"LIST PAST 2 WEEKS SORT DESC\"",
    "",
    "Options:",
    "      --today <TODAY>    Evaluate relative intervals against this date instead of today",
    "  -f, --format <FORMAT>  Output format [default: text] [possible values: text, json]",
    "  -h, --help             Print help",
    ""]
  | .command .report => "\n".intercalate [
    "Run a query against a detailed report export",
    "",
    "Usage: togglq report [OPTIONS] --data <DATA> <QUERY>",
    "",
    "Arguments:",
    "  <QUERY>  Query text",
    "",
    "Options:",
    "  -d, --data <DATA>      JSON export holding `directory` and `rows`",
    "      --today <TODAY>    Evaluate relative intervals against this date instead of today",
    "  -f, --format <FORMAT>  Output format [default: text] [possible values: text, json]",
    "  -h, --help             Print help",
    ""]
  | .help => "\n".intercalate [
    "Print this message or the help of the given subcommand(s)",
    "",
    "Usage: togglq help [COMMAND]...",
    "",
    "Arguments:",
    "  [COMMAND]...  Print help for the subcommand(s)",
    ""]

/-- What is printed when the arguments are not understood. -/
def misuse : Output :=
  { code := 2
    stderr := "error: the arguments are not understood\n\nFor more information, try '--help'.\n" }

/-- What a failure or an answer prints. -/
def output : Except Failure String → Output
  | .ok text => { code := 0, stdout := text }
  | .error f => { code := 1, stderr := f.text }

/-- Runs a command under the settings.  Warnings about them come before anything else. -/
def underSettings (w : Surroundings) (command : Settings → Except Failure String) : Output :=
  match loadSettings w.settings with
  | .error e => output (.error (.settings e))
  | .ok settings =>
    let out := output (command settings)
    { out with stderr := LogFilter.warnings settings.logLevel ++ out.stderr }

/-- What the program does with its arguments. -/
def run (w : Surroundings) (arguments : List String) : Output :=
  match Invocation.ofArguments? arguments with
  | none => misuse
  | some .version => { code := 0, stdout := versionText }
  | some (.help topic) => { code := 0, stdout := helpText topic }
  | some (.parse query today format) => underSettings w fun _ => runParse w query today format
  | some (.report query data today format) =>
    underSettings w fun settings => runReport w settings query data today format

end Timesheet.CommandLine
