/-!
# Closed intervals of integers

An `Interval` holds the integers from `start` to `stop`, both included, and none if `stop` comes
first.  `Interval.minus` is what is left of an interval without another one.
-/

namespace Timesheet

/-- The integers from `start` to `stop`. -/
@[ext] structure Interval where
  start : Int
  stop : Int
deriving DecidableEq

namespace Interval

/-- The integer lies between the ends. -/
def Contains (i : Interval) (n : Int) : Prop := i.start ≤ n ∧ n ≤ i.stop

instance (i : Interval) (n : Int) : Decidable (i.Contains n) :=
  inferInstanceAs (Decidable (_ ∧ _))

/-- The ends are in the wrong order. -/
def isEmpty (i : Interval) : Bool := i.stop < i.start

/-- Each interval starts before the other one ends. -/
def overlaps (i j : Interval) : Bool := i.start ≤ j.stop && j.start ≤ i.stop

/-- The smallest interval around both. -/
def hull (i j : Interval) : Interval := ⟨min i.start j.start, max i.stop j.stop⟩

/-- The parts of `i` before and after `j`. -/
def minus (i j : Interval) : List Interval :=
  if i.overlaps j then
    (if i.start < j.start then [⟨i.start, j.start - 1⟩] else [])
      ++ (if j.stop < i.stop then [⟨j.stop + 1, i.stop⟩] else [])
  else [i]

theorem isEmpty_iff {i : Interval} : i.isEmpty = true ↔ ∀ n, ¬ i.Contains n := by
  simp only [isEmpty, decide_eq_true_eq, Contains]
  constructor
  · intro h n hn; omega
  · intro h
    have := h i.start
    omega

end Interval

end Timesheet
