import Mathlib.Order.Monotone.Basic
import Timesheet.Calendar.Period
import Timesheet.Proofs.Calendar.DateText
import Timesheet.Proofs.Coverage.Days
/-!
# Months

Months are numbered in one sequence, January of year 0 being 0, and each starts where the one before it ends
(`Month.daysBefore_succ`).  So a date comes after the days before a month exactly if its own month is that
one or a later one (`Date.daysBefore_lt_iff`), and what is asked about months is answered by comparing day
numbers.  That the month of a date holds just the dates with its number (`Date.contains_monthPeriod_iff`) is
one instance; there is no exception to it, since the calendar begins and ends with a month.

Twelve months in a row have 365 or 366 days, wherever in a year they start (`Month.daysBefore_add_twelve`).
-/

namespace Timesheet

/-! ## 1. Years -/

theorem isLeapYear_iff {year : Int} :
    isLeapYear year = true ↔ year % 4 = 0 ∧ (year % 100 ≠ 0 ∨ year % 400 = 0) := by
  simp [isLeapYear]

/-- Of two years in a row at most one is a leap year. -/
theorem isLeapYear_succ {year : Int} (h : isLeapYear year = true) :
    isLeapYear (year + 1) = false := by
  rw [Bool.eq_false_iff, Ne, isLeapYear_iff]
  rw [isLeapYear_iff] at h
  omega

theorem daysBeforeYear_succ (year : Int) :
    daysBeforeYear (year + 1) = daysBeforeYear year + if isLeapYear year then 366 else 365 := by
  unfold daysBeforeYear
  split
  · next h =>
    rw [isLeapYear_iff] at h
    omega
  · next h =>
    rw [isLeapYear_iff] at h
    omega

theorem daysBeforeMonth_succ : ∀ leap : Bool, ∀ m < 12,
    daysBeforeMonth leap (m + 1 + 1) = daysBeforeMonth leap (m + 1) + monthLength leap (m + 1) := by
  decide

/-- The day that a leap year has more comes after the first two months. -/
theorem daysBeforeMonth_eq : ∀ leap : Bool, ∀ m < 12,
    daysBeforeMonth leap (m + 1) =
      daysBeforeMonth false (m + 1) + if leap && decide (2 ≤ m) then 1 else 0 := by
  decide

/-! ## 2. Months in one sequence -/

namespace Month

/-- The days before the first of the month with this number, counted from 1 January of year 1. -/
def daysBefore (index : Int) : Int :=
  daysBeforeYear (index / 12) +
    daysBeforeMonth (isLeapYear (index / 12)) ((index % 12).toNat + 1)

/-- The length of the month with this number. -/
def length (index : Int) : Nat :=
  monthLength (isLeapYear (index / 12)) ((index % 12).toNat + 1)

theorem exists_eq (index : Int) : ∃ (year : Int) (m : Nat), m < 12 ∧ index = 12 * year + m :=
  ⟨index / 12, (index % 12).toNat, by omega, by omega⟩

variable {m : Nat}

theorem div_mod (year : Int) (hm : m < 12) :
    (12 * year + m) / 12 = year ∧ ((12 * year + m) % 12).toNat = m := by
  omega

theorem daysBefore_eq (year : Int) (hm : m < 12) :
    daysBefore (12 * year + m) =
      daysBeforeYear year + daysBeforeMonth (isLeapYear year) (m + 1) := by
  rw [daysBefore, (div_mod year hm).1, (div_mod year hm).2]

theorem length_eq (year : Int) (hm : m < 12) :
    length (12 * year + m) = monthLength (isLeapYear year) (m + 1) := by
  rw [length, (div_mod year hm).1, (div_mod year hm).2]

theorem length_bounds (index : Int) : 28 ≤ length index ∧ length index ≤ 31 := by
  have hbounds : ∀ leap : Bool, ∀ m < 12,
      28 ≤ monthLength leap (m + 1) ∧ monthLength leap (m + 1) ≤ 31 := by decide
  obtain ⟨year, m, hm, rfl⟩ := exists_eq index
  rw [length_eq year hm]
  exact hbounds _ m hm

/-- **A month starts where the one before it ends**, also at the turn of a year. -/
theorem daysBefore_succ (index : Int) :
    daysBefore (index + 1) = daysBefore index + length index := by
  obtain ⟨year, m, hm, rfl⟩ := exists_eq index
  have hstep := daysBeforeMonth_succ (isLeapYear year) m hm
  rw [daysBefore_eq year hm, length_eq year hm]
  by_cases hinner : m + 1 < 12
  · have hnext := daysBefore_eq year hinner
    rw [show 12 * year + (m : Int) + 1 = 12 * year + (m + 1 : Nat) by omega, hnext, hstep]
    omega
  · obtain rfl : m = 11 := by omega
    have hnext := daysBefore_eq (year + 1) (m := 0) (by omega)
    have hjanuary : ∀ leap, daysBeforeMonth leap 1 = 0 := fun _ => rfl
    have hyear : daysBeforeMonth (isLeapYear year) 13 = if isLeapYear year then 366 else 365 := by
      cases isLeapYear year <;> rfl
    rw [show 12 * year + ((11 : Nat) : Int) + 1 = 12 * (year + 1) + (0 : Nat) by omega, hnext,
      daysBeforeYear_succ, hjanuary]
    split <;> simp_all <;> omega

theorem daysBefore_lt {k l : Int} (h : k < l) : daysBefore k < daysBefore l := by
  refine strictMono_int_of_lt_succ (fun index => ?_) h
  have hlength := length_bounds index
  rw [daysBefore_succ]
  omega

theorem daysBefore_le {k l : Int} (h : k ≤ l) : daysBefore k ≤ daysBefore l := by
  rcases Int.lt_or_eq_of_le h with hlt | rfl
  · exact Int.le_of_lt (daysBefore_lt hlt)
  · exact Int.le_refl _

/-- **Twelve months in a row have 365 or 366 days.**  They go over the ends of February of two years at
most, of which one is no leap year. -/
theorem daysBefore_add_twelve (index : Int) :
    daysBefore index + 365 ≤ daysBefore (index + 12) ∧
      daysBefore (index + 12) ≤ daysBefore index + 366 := by
  obtain ⟨year, m, hm, rfl⟩ := exists_eq index
  have hnext := daysBefore_eq (year + 1) hm
  rw [show 12 * year + (m : Int) + 12 = 12 * (year + 1) + m by omega, hnext, daysBefore_eq year hm,
    daysBeforeYear_succ, daysBeforeMonth_eq (isLeapYear year) m hm,
    daysBeforeMonth_eq (isLeapYear (year + 1)) m hm]
  cases hleap : isLeapYear year with
  | true =>
    rw [isLeapYear_succ hleap]
    simp only [Bool.false_and, Bool.true_and, decide_eq_true_eq, Bool.false_eq_true, if_true, if_false]
    split <;> omega
  | false =>
    simp only [Bool.false_and, Bool.and_eq_true, decide_eq_true_eq, Bool.false_eq_true, if_false]
    split <;> omega

end Month

namespace Date

variable {d e : Date} {k : Int}

/-! ## 3. The month of a date -/

/-- The days before a date are those before its month and those before it in the month. -/
theorem daysBefore_monthIndex (d : Date) :
    Month.daysBefore d.monthIndex + d.day = d.dayNumber ∧ 1 ≤ d.day ∧
      d.day ≤ Month.length d.monthIndex := by
  have h := ofCivil?_civil d
  unfold ofCivil? at h
  split at h
  · next hday =>
    obtain ⟨hle, -⟩ := monthLength_le (Nat.lt_of_lt_of_le hday.1 hday.2)
    obtain ⟨m, hm⟩ : ∃ m, d.month = m + 1 := by
      refine Nat.exists_eq_succ_of_ne_zero fun hzero => ?_
      rw [hzero] at hday
      exact absurd (Nat.le_trans hday.1 hday.2) (by simp [monthLength])
    have hindex : d.monthIndex = 12 * d.year + m := by
      rw [monthIndex, hm]
      omega
    rw [hindex, Month.daysBefore_eq d.year (by omega), Month.length_eq d.year (by omega), ← hm]
    exact ⟨(dayNumber_of_ofDayNumber? h).symm, hday⟩
  · simp at h

/-- **A date comes after the days before a month exactly if its own month is that one or a later one.** -/
theorem daysBefore_lt_iff : Month.daysBefore k < d.dayNumber ↔ k ≤ d.monthIndex := by
  obtain ⟨hnumber, hday, hlength⟩ := d.daysBefore_monthIndex
  have hnext := Month.daysBefore_succ d.monthIndex
  constructor
  · intro h
    by_contra hlt
    have hle := Month.daysBefore_le (show d.monthIndex + 1 ≤ k by omega)
    omega
  · intro h
    have hle := Month.daysBefore_le h
    omega

theorem le_daysBefore_iff : d.dayNumber ≤ Month.daysBefore k ↔ d.monthIndex < k := by
  rw [← Int.not_lt, daysBefore_lt_iff, Int.not_le]

/-- The month of a date is the one between the two starts of which the date lies. -/
theorem monthIndex_eq_iff :
    d.monthIndex = k ↔ Month.daysBefore k < d.dayNumber ∧ d.dayNumber ≤ Month.daysBefore (k + 1) := by
  rw [daysBefore_lt_iff, le_daysBefore_iff]
  omega

theorem daysBefore_bounds (d : Date) :
    Month.daysBefore d.monthIndex < d.dayNumber ∧
      d.dayNumber ≤ Month.daysBefore (d.monthIndex + 1) :=
  monthIndex_eq_iff.mp rfl

/-- The calendar has the months of its dates from beginning to end. -/
theorem month_in_calendar (d : Date) :
    -95746130 ≤ Month.daysBefore d.monthIndex ∧ Month.daysBefore (d.monthIndex + 1) ≤ 95745399 := by
  have hfirst : Month.daysBefore (12 * -262143) = -95746130 := by decide
  have hlast : Month.daysBefore (12 * 262143) = 95745399 := by decide
  have hlow := d.first_le
  have hhigh := d.le_last
  rw [← hfirst, ← hlast]
  constructor
  · exact Month.daysBefore_le (daysBefore_lt_iff.mp (by omega))
  · exact Month.daysBefore_le
      (Int.add_one_le_of_lt (le_daysBefore_iff.mp (by omega)))

/-! ## 4. First days of months, and whole months -/

theorem ofDayNumber?_eq_some {n : Int} (h1 : -95746129 ≤ n) (h2 : n ≤ 95745399) :
    ofDayNumber? n = some (clamp n) := by
  unfold ofDayNumber?
  rw [dif_pos ⟨h1, h2⟩, Option.some.injEq]
  apply Date.ext
  simp only [clamp]
  omega

theorem firstOfMonth?_eq (k : Int) : firstOfMonth? k = ofDayNumber? (Month.daysBefore k + 1) := by
  have h := Month.length_bounds k
  unfold Month.length at h
  rw [firstOfMonth?, ofCivil?, if_pos ⟨Nat.le_refl 1, by omega⟩]
  rfl

/-- **The month of a date goes from where it starts to where the next one does.** -/
theorem monthPeriod_eq (d : Date) :
    d.monthPeriod = ⟨clamp (Month.daysBefore d.monthIndex + 1),
      clamp (Month.daysBefore (d.monthIndex + 1))⟩ := by
  obtain ⟨hnumber, hday, -⟩ := d.daysBefore_monthIndex
  obtain ⟨-, hself⟩ := d.daysBefore_bounds
  have hlow := d.first_le
  have hfirst : d.dayNumber - (d.day - 1) = Month.daysBefore d.monthIndex + 1 := by omega
  obtain ⟨-, hend⟩ := d.month_in_calendar
  unfold monthPeriod
  rw [hfirst, firstOfMonth?_eq]
  by_cases hlast : Month.daysBefore (d.monthIndex + 1) = 95745399
  · -- no month follows the last of the calendar
    rw [hlast]
    rfl
  · have hpred : (clamp (Month.daysBefore (d.monthIndex + 1) + 1)).dayNumber - 1 =
        Month.daysBefore (d.monthIndex + 1) := by
      simp only [clamp]
      omega
    rw [ofDayNumber?_eq_some (by omega) (by omega), Option.bind_some, pred?, hpred,
      ofDayNumber?_eq_some (by omega) (by omega)]
    rfl

theorem firstOfMonth?_monthIndex (d : Date) : firstOfMonth? d.monthIndex = some d.monthPeriod.first := by
  obtain ⟨hstart, hstop⟩ := d.daysBefore_bounds
  obtain ⟨hlow, -⟩ := d.month_in_calendar
  have hhigh := d.le_last
  rw [firstOfMonth?_eq, ofDayNumber?_eq_some (by omega) (by omega), monthPeriod_eq]

/-- **The month of a date holds the dates with its number**, and no others. -/
theorem contains_monthPeriod_iff : d.monthPeriod.contains e = true ↔ e.monthIndex = d.monthIndex := by
  obtain ⟨hstart, hstop⟩ := d.daysBefore_bounds
  have hdfirst := d.first_le
  have hdlast := d.le_last
  have hfirst := e.first_le
  have hlast := e.le_last
  rw [monthIndex_eq_iff, Period.contains_iff, monthPeriod_eq]
  simp only [le_def, clamp]
  omega

end Date

end Timesheet
