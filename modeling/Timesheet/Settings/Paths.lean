/-!
# Where files are kept

Settings and state are kept below directories that environment variables may name; otherwise they
are in hidden directories of the home directory.
-/

namespace Timesheet

/-- The environment variables that matter. -/
structure Environment where
  home : Option String := none
  configHome : Option String := none
  stateHome : Option String := none

namespace Environment

/-- A path below a directory. -/
def join (directory path : String) : String :=
  if directory.isEmpty then path
  else if directory.endsWith "/" then directory ++ path
  else directory ++ "/" ++ path

/-- A path below the home directory, or the current one if there is no home. -/
def belowHome (e : Environment) (path : String) : String := join (e.home.getD ".") path

/-- The file with the settings. -/
def settingsFile (e : Environment) : String :=
  join (e.configHome.getD (e.belowHome ".config")) "togglq/config.toml"

/-- The directory for what is kept from one run to the next. -/
def stateDirectory (e : Environment) : String :=
  join (e.stateHome.getD (e.belowHome ".local/state")) "togglq"

end Environment

end Timesheet
