import Timesheet.Settings.Toml
/-!
# Settings

The settings of the program, as kept in a TOML document.  Whatever it does not mention has a
default, and keys that are not known are ignored.

A section is a table; an array stands for its keys in their order, and a time for a table
without any known key.
-/

namespace Timesheet

/-- What can be set. -/
structure Settings where
  logLevel : String := "info"
  logFiles : Nat := 5
  /-- The milliseconds between the end of a request and the start of the next. -/
  spacing : Nat := 250
  /-- The pages that may be fetched for one missing period. -/
  pageLimit : Nat := 50
deriving DecidableEq

/-- A reason to refuse settings. -/
inductive SettingsError where
  /-- The document cannot be read. -/
  | unreadable (reason : String)
  /-- The text is not a TOML document of the right shape. -/
  | malformed
  /-- The spacing of requests is more than a minute. -/
  | spacingTooLong
  /-- No page may be fetched. -/
  | noPages
deriving DecidableEq

/-- The wording of an error. -/
def SettingsError.message : SettingsError → String
  | unreadable reason => "configuration error: failed to read config file " ++ reason
  | malformed =>
    "configuration error: failed to parse config: not a TOML document of the expected shape"
  | spacingTooLong => "configuration error: queue.spacing_ms must not exceed 60000"
  | noPages => "configuration error: report.page_limit must be at least 1"

namespace Settings

/-- The value of the key in the `i`-th place of a section, if it is there. -/
def entry? (section? : Option Toml) (i : Nat) (key : String) : Option (Option Toml) :=
  match section? with
  | none | some .time => some none
  | some (.arr items) => some items[i]?
  | some (.tables last before) => some ((before.reverse ++ [last])[i]?.map .table)
  | some (.table t) | some (.braces t) => some (t.get? key)
  | some _ => none

/-- A text. -/
def textOf : Toml → Option String
  | .str s => some s
  | _ => none

/-- An integer from 0 to below `bound`. -/
def countBelow (bound : Nat) : Toml → Option Nat
  | .int n => if 0 ≤ n ∧ n < bound then some n.toNat else none
  | _ => none

/-- A value, or the default if there is none. -/
def orDefault {α : Type} (default : α) (read : Toml → Option α) : Option Toml → Option α
  | none => some default
  | some v => read v

/-- The settings of a document. -/
def ofTable? (t : Table) : Option Settings := do
  let logging := t.get? "logging"
  let level ← entry? logging 0 "level"
  let files ← entry? logging 1 "max_files"
  let spacing ← entry? (t.get? "queue") 0 "spacing_ms"
  let pages ← entry? (t.get? "report") 0 "page_limit"
  let standard : Settings := {}
  return { logLevel := ← orDefault standard.logLevel textOf level
           logFiles := ← orDefault standard.logFiles (countBelow UInt64.size) files
           spacing := ← orDefault standard.spacing (countBelow UInt64.size) spacing
           pageLimit := ← orDefault standard.pageLimit (countBelow UInt32.size) pages }

/-- The settings of a text.  The spacing of requests is at most a minute, and at least one page may
be fetched. -/
def read (text : String) : Except SettingsError Settings :=
  match (Toml.read? text).bind ofTable? with
  | none => .error .malformed
  | some s =>
    if 60000 < s.spacing then .error .spacingTooLong
    else if s.pageLimit = 0 then .error .noPages
    else .ok s

end Settings

end Timesheet
