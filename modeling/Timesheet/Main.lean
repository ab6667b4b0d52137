import Std.Time.Zoned
import Timesheet.CommandLine.Run
import Timesheet.Settings.Paths
/-!
# The executable

Reads the environment and the files that `CommandLine.run` depends on, and prints what it says.
-/

namespace Timesheet

open CommandLine

/-- What there is at a path. -/
def readContent (path : String) : IO FileContent :=
  tryCatch (return .text (← IO.FS.readFile path)) fun
    | .noFileOrDirectory .. => return .absent
    | e => return .unreadable (toString e)

/-- The local date. -/
def localToday : IO Date := do
  let d ← Std.Time.PlainDate.now
  return (Date.ofCivil? d.year.toInt d.month.val.toNat d.day.val.toNat).getD .first

/-- The path of the export that the arguments name, if any. -/
def exportPath? (arguments : List String) : Option String :=
  match Invocation.ofArguments? arguments with
  | some (.report _ data _ _) => some data
  | _ => none

end Timesheet

open Timesheet in
/-- Runs the program on its arguments. -/
def main (arguments : List String) : IO UInt32 := do
  let environment : Environment :=
    { home := ← IO.getEnv "HOME", configHome := ← IO.getEnv "XDG_CONFIG_HOME",
      stateHome := ← IO.getEnv "XDG_STATE_HOME" }
  let settings ← readContent environment.settingsFile
  let data ← match exportPath? arguments with
    | some path => readContent path
    | none => pure .absent
  let output := CommandLine.run { today := ← localToday, settings, file := fun _ => data } arguments
  IO.print output.stdout
  IO.eprint output.stderr
  return output.code.toUInt32
