/-!
# Pace

Requests run one at a time, and between the end of one and the start of the next lies a fixed
span.  Time is counted in milliseconds, and no single wait is longer than thirty years.
-/

namespace Timesheet

/-- The longest wait: thirty years of 365 days. -/
def longestWait : Nat := 30 * 365 * 24 * 60 * 60 * 1000

/-- How long a wait for `ms` is. -/
def waited (ms : Nat) : Nat := min ms longestWait

/-- When the next request may start, if it is there by `now`: at once if none has run, else not
before `spacing` has passed since the last one settled, unless that is too long to wait. -/
def earliestStart (spacing : Nat) (settled : Option Nat) (now : Nat) : Nat :=
  match settled with
  | none => now
  | some t => now + waited (t + spacing - now)

end Timesheet
