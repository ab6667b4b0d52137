import Timesheet.Text.Lowercase
import Timesheet.Query.Clause
/-!
# Selections

`INCLUDE` or `EXCLUDE`, then `PROJECTS`, `CLIENTS` or `TAGS`, then one or more values.  Projects
are given by name or number, clients by name, and tags as such or as quoted names; tags are kept in
lowercase.  A value with the shape of a date is a name.

A query selects projects once and clients once, in either mode; tags it may both include and
exclude.
-/

namespace Timesheet

/-- The project that a value gives. -/
def Item.ofProject : Token → Except QueryError Item
  | .number n => .ok (.id n)
  | .text s | .date s => .ok (.name s)
  | t => .error (.unexpectedToken t.display ["project name", "project id"])

/-- The client that a value gives. -/
def Item.ofClient : Token → Except QueryError Item
  | .number n => .error (.numericClient n)
  | .text s | .date s => .ok (.name s)
  | t => .error (.unexpectedToken t.display ["client name"])

/-- The tag that a value gives, in lowercase. -/
def tagOfToken : Token → Except QueryError String
  | .tag name => .ok name
  | .text s => .ok (Text.lowercase s)
  | t => .error (.unexpectedToken t.display ["#tag", "tag name"])

/-- The draft already has this selection. -/
def Draft.selects (d : Draft) : Mode → Subject → Bool
  | _, .projects => d.projects.isSome
  | _, .clients => d.clients.isSome
  | .keep, .tags => d.includedTags.isSome
  | .drop, .tags => d.excludedTags.isSome

/-- The draft with a selection of these values. -/
def Draft.select (d : Draft) (mode : Mode) (subject : Subject) (values : List Token) :
    Except QueryError Draft :=
  match subject with
  | .projects => do
    let items ← values.mapM Item.ofProject
    return { d with projects := some ⟨mode, items⟩ }
  | .clients => do
    let items ← values.mapM Item.ofClient
    return { d with clients := some ⟨mode, items⟩ }
  | .tags => do
    let tags ← values.mapM tagOfToken
    match mode with
    | .keep => return { d with includedTags := some tags }
    | .drop => return { d with excludedTags := some tags }

namespace Clause

/-- Reads the values of a selection: all up to the next keyword. -/
def readValues (mode : Mode) (subject : Subject) (d : Draft) (ts : List Token) :
    Except QueryError (Draft × List Token) :=
  if d.selects mode subject then .error (.duplicateSelection subject)
  else if (ts.takeWhile Token.isValue).isEmpty then .error (.emptySelection mode subject)
  else
    match d.select mode subject (ts.takeWhile Token.isValue) with
    | .error e => .error e
    | .ok d => .ok (d, ts.dropWhile Token.isValue)

/-- Reads the subject of a selection and its values. -/
def readSubject (mode : Mode) (d : Draft) : List Token → Except QueryError (Draft × List Token)
  | .keyword .PROJECTS :: rest => readValues mode .projects d rest
  | .keyword .CLIENTS :: rest => readValues mode .clients d rest
  | .keyword .TAGS :: rest => readValues mode .tags d rest
  | ts => .error (.expected ts.head? [.PROJECTS, .CLIENTS, .TAGS])

/-- A selection. -/
def selection : Clause where
  heads := [.INCLUDE, .EXCLUDE]
  read d
    | .keyword .INCLUDE :: rest => readSubject .keep d rest
    | .keyword .EXCLUDE :: rest => readSubject .drop d rest
    | ts => .error (.expected ts.head? [.INCLUDE, .EXCLUDE])

theorem readValues_suffix {mode : Mode} {subject : Subject} {d d' : Draft} {ts rest : List Token}
    (h : readValues mode subject d ts = .ok (d', rest)) : ∃ used, ts = used ++ rest := by
  unfold readValues at h
  split at h
  · simp at h
  · split at h
    · simp at h
    · split at h
      · simp at h
      · obtain ⟨-, rfl⟩ := Prod.mk.inj (Except.ok.inj h)
        exact ⟨ts.takeWhile Token.isValue, List.takeWhile_append_dropWhile.symm⟩

theorem readSubject_suffix {mode : Mode} {d d' : Draft} {ts rest : List Token}
    (h : readSubject mode d ts = .ok (d', rest)) : ∃ used, ts = used ++ rest := by
  unfold readSubject at h
  split at h
  case h_4 => simp at h
  all_goals
    obtain ⟨used, rfl⟩ := readValues_suffix h
    exact ⟨_ :: used, rfl⟩

theorem consumes_selection : selection.Consumes := by
  intro d d' ts rest h
  simp only [selection] at h
  split at h
  case h_3 => simp at h
  all_goals
    obtain ⟨used, rfl⟩ := readSubject_suffix h
    exact ⟨_, used, rfl⟩

end Clause

end Timesheet
