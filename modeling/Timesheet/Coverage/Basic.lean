import Timesheet.Coverage.Interval
/-!
# Covered integers

A `Coverage` is a set of integers, kept as intervals in ascending order of which no two overlap.
Intervals that only touch, such as `[0, 2]` and `[3, 5]`, stay apart.

* `Coverage.insert` adds an interval; all that it overlaps become one with it.
* `Coverage.missing` are the parts of an interval that are not covered.
-/

namespace Timesheet

/-- Disjoint intervals in ascending order. -/
structure Coverage where
  intervals : List Interval
deriving DecidableEq

namespace Coverage

/-- Nothing is covered. -/
def empty : Coverage := ⟨[]⟩

/-- The integer lies in one of the intervals. -/
def Covers (c : Coverage) (n : Int) : Prop := ∃ i ∈ c.intervals, i.Contains n

/-- The search for the place of `i` ends at `j`: it lies behind `i`, or the two overlap. -/
def endsAt (i j : Interval) : Bool := i.stop < j.start || i.overlaps j

/-- Puts `i` among intervals: before the first one that lies behind it, or joined with the first one
that it overlaps.  The joined interval may overlap others, so that its place is looked for from the
front again. -/
def place (i : Interval) (l : List Interval) : List Interval :=
  match _h : l.dropWhile (!endsAt i ·) with
  | [] => l ++ [i]
  | j :: rest =>
    let before := l.takeWhile (!endsAt i ·)
    if i.stop < j.start then before ++ i :: j :: rest
    else place (i.hull j) (before ++ rest)
termination_by l.length
decreasing_by
  have h := congrArg List.length (List.takeWhile_append_dropWhile (p := (!endsAt i ·)) (l := l))
  rw [_h] at h
  simp only [List.length_append, List.length_cons] at h ⊢
  omega

/-- Adds an interval, unless it is empty. -/
def insert (c : Coverage) (i : Interval) : Coverage :=
  if i.isEmpty then c else ⟨place i c.intervals⟩

/-- What is left of `last` without intervals that come in ascending order.  Each of them can meet
only the last part that is left of those before; once there is none, the search ends. -/
def missingIn (last : Interval) : List Interval → List Interval
  | [] => [last]
  | j :: rest =>
    match last.minus j with
    | [] => []
    | [part] => missingIn part rest
    | part :: next :: _ => part :: missingIn next rest

/-- The parts of an interval that are not covered, in ascending order. -/
def missing (c : Coverage) (i : Interval) : List Interval :=
  if i.isEmpty then [] else missingIn i c.intervals

end Coverage

end Timesheet
