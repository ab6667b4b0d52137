import Timesheet.Calendar.DateText
/-!
# Arguments

`Invocation.ofArguments` reads the arguments of the program.  The first one that is not understood
ends the reading, as does a request for help, whichever comes first.
-/

namespace Timesheet

/-- The form in which an answer is printed. -/
inductive Format where
  | text
  | json
deriving DecidableEq

/-- The commands of the program. -/
inductive Command where
  | parse
  | report
deriving DecidableEq

/-- What can be explained. -/
inductive Topic where
  | program
  | command (c : Command)
  /-- How to ask for an explanation. -/
  | help
deriving DecidableEq

/-- What the program is asked to do. -/
inductive Invocation where
  /-- Show a query. -/
  | parse (query : String) (today : Option Date) (format : Format)
  /-- Report on the export in a file. -/
  | report (query : String) (data : String) (today : Option Date) (format : Format)
  | help (topic : Topic)
  | version
deriving DecidableEq

/-- The options that have a value. -/
inductive Setting where
  | today
  | format
  | data
deriving DecidableEq

/-- What is known of a command's arguments. -/
structure Arguments where
  query : Option String := none
  today : Option Date := none
  format : Option Format := none
  data : Option String := none
deriving DecidableEq

/-- Why the reading of arguments ends early. -/
inductive Halt where
  /-- The arguments are not understood. -/
  | misuse
  | help
deriving DecidableEq

namespace Arguments

/-- Adds the value of an option, which may be given once. -/
def put (a : Arguments) (option : Setting) (value : String) : Except Halt Arguments :=
  match option with
  | .today =>
    match a.today, Date.readLenient? value with
    | none, some d => .ok { a with today := some d }
    | _, _ => .error .misuse
  | .format =>
    match a.format, value with
    | none, "text" => .ok { a with format := some .text }
    | none, "json" => .ok { a with format := some .json }
    | _, _ => .error .misuse
  | .data =>
    if a.data.isSome || value.isEmpty then .error .misuse else .ok { a with data := some value }

/-- Adds the query, which may be given once. -/
def putQuery (a : Arguments) (value : String) : Except Halt Arguments :=
  if a.query.isSome then .error .misuse else .ok { a with query := some value }

/-- The option of this long name. -/
def long? (command : Command) (name : String) : Option Setting :=
  match command, name with
  | _, "today" => some .today
  | _, "format" => some .format
  | .report, "data" => some .data
  | _, _ => none

/-- The option of this letter. -/
def short? (command : Command) (letter : Char) : Option Setting :=
  match command, letter with
  | _, 'f' => some .format
  | .report, 'd' => some .data
  | _, _ => none

/-- An argument that is an option and not a value. -/
def isOption (argument : String) : Bool :=
  argument.startsWith "-" && argument ≠ "-"

/-- The text before and after the first `=`, if there is one. -/
def splitValue (cs : List Char) : String × Option String :=
  let (name, rest) := cs.span (· ≠ '=')
  (String.ofList name, match rest with
    | [] => none
    | _ :: value => some (String.ofList value))

/-- Reads the arguments of a command.  After `--` all are queries. -/
def read (command : Command) (a : Arguments) : List String → Except Halt Arguments
  | [] => .ok a
  | "--" :: rest => rest.foldlM putQuery a
  | argument :: rest =>
    match argument.toList with
    | '-' :: '-' :: cs =>
      let (name, attached) := splitValue cs
      match long? command name, attached, rest with
      | some option, some value, rest => do read command (← a.put option value) rest
      | some option, none, value :: rest =>
        if isOption value then .error .misuse else do read command (← a.put option value) rest
      | some _, none, [] => .error .misuse
      | none, none, _ => if name = "help" then .error .help else .error .misuse
      | none, some _, _ => .error .misuse
    | '-' :: letter :: cs =>
      match short? command letter, cs, rest with
      | some option, '=' :: value, rest => do
        read command (← a.put option (String.ofList value)) rest
      | some option, c :: value, rest => do
        read command (← a.put option (String.ofList (c :: value))) rest
      | some option, [], value :: rest =>
        if isOption value then .error .misuse else do read command (← a.put option value) rest
      | some _, [], [] => .error .misuse
      | none, _, _ => if letter = 'h' then .error .help else .error .misuse
    | _ => do read command (← a.putQuery argument) rest

/-- The invocation of a command, if nothing is missing. -/
def invocation? (command : Command) (a : Arguments) : Option Invocation := do
  let query ← a.query
  let format := a.format.getD .text
  match command with
  | .parse => return .parse query a.today format
  | .report => return .report query (← a.data) a.today format

end Arguments

namespace Command

/-- The command of this name. -/
def ofText? : String → Option Command
  | "parse" => some .parse
  | "report" => some .report
  | _ => none

end Command

namespace Invocation

/-- What the arguments of the program ask for; nothing if they are not understood. -/
def ofArguments? : List String → Option Invocation
  | "help" :: rest =>
    match rest with
    | [] => some (.help .program)
    | ["help"] => some (.help .help)
    | [name] => (Command.ofText? name).map fun c => .help (.command c)
    | _ => none
  | name :: rest =>
    match Command.ofText? name with
    | some command =>
      match Arguments.read command {} rest with
      | .ok a => a.invocation? command
      | .error .help => some (.help (.command command))
      | .error .misuse => none
    | none =>
      if name.startsWith "-h" || name = "--help" then some (.help .program)
      else if name.startsWith "-V" || name = "--version" then some .version
      else none
  | [] => none

end Invocation

end Timesheet
