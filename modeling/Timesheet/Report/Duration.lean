import Timesheet.Text.Decimal
/-!
# Durations

A duration in seconds is shown as hours, minutes and seconds; a negative one as none at all.
-/

namespace Timesheet

/-- Seconds as `H:MM:SS`. -/
def durationText (seconds : Int) : String :=
  let s := seconds.toNat
  String.ofList (Decimal.digits (s / 3600) ++ ':' :: Decimal.padded 2 (s % 3600 / 60)
    ++ ':' :: Decimal.padded 2 (s % 60))

end Timesheet
