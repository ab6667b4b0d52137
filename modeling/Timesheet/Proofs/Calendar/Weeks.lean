import Timesheet.Proofs.Coverage.Days
/-!
# Weeks

Weeks go from Monday to Sunday and are numbered in one sequence (`Date.weekIndex`).  The week of a date
holds the dates with its number, as far as the calendar goes, and no two weeks share a day
(`Date.contains_week_iff`).

There is one exception.  The calendar begins on a Thursday, and from there the days of its first week are
counted as if it were a Monday, so that this week goes on to the Wednesday of the next one
(`Date.week_of_not_hasMonday`).  `Date.week_holds_iff` says that no other week does.  At the end of the
calendar nothing of the kind happens, since there a week is cut off after its days are counted.
-/

namespace Timesheet.Date

variable {d e : Date}

/-! ## 1. Numbers of weeks -/

/-- Weeks are numbered in one sequence.  The one that begins on 1 January of year 1, a Monday, has
number 0. -/
def weekIndex (d : Date) : Int := (d.dayNumber - 1) / 7

/-- The calendar has the Monday of the date's week. -/
def HasMonday (d : Date) : Prop := ∃ m : Date, m.weekIndex = d.weekIndex ∧ m.weekday = 0

theorem dayNumber_eq_weekIndex (d : Date) :
    d.dayNumber = 7 * d.weekIndex + 1 + d.weekday ∧ 0 ≤ d.weekday ∧ d.weekday ≤ 6 := by
  simp only [weekIndex, weekday]
  omega

/-- Only the first four days of the calendar are without their Monday. -/
theorem hasMonday_iff : d.HasMonday ↔ -95746125 ≤ d.dayNumber := by
  have hd := d.dayNumber_eq_weekIndex
  have hlast := d.le_last
  constructor
  · rintro ⟨m, hindex, hmonday⟩
    have hm := m.dayNumber_eq_weekIndex
    have hfirst := m.first_le
    omega
  · intro h
    refine ⟨⟨7 * d.weekIndex + 1, by omega, by omega⟩, ?_, ?_⟩
    · simp only [weekIndex]
      omega
    · simp only [weekday]
      omega

/-! ## 2. The week of a date -/

theorem week_eq (d : Date) :
    d.week = ⟨clamp (7 * d.weekIndex + 1), clamp ((clamp (7 * d.weekIndex + 1)).dayNumber + 6)⟩ := by
  have hmonday : d.dayNumber - d.weekday = 7 * d.weekIndex + 1 := by
    have hd := d.dayNumber_eq_weekIndex
    omega
  rw [week, hmonday]

/-- From its Monday on a week has seven days, as far as the calendar goes. -/
theorem week_of_hasMonday (h : d.HasMonday) :
    d.week = ⟨clamp (7 * d.weekIndex + 1), clamp (7 * (d.weekIndex + 1))⟩ := by
  have hd := d.dayNumber_eq_weekIndex
  have hlast := d.le_last
  have hfirst := hasMonday_iff.mp h
  have hmonday : (clamp (7 * d.weekIndex + 1)).dayNumber + 6 = 7 * (d.weekIndex + 1) := by
    simp only [clamp]
    omega
  rw [week_eq, hmonday]

/-- The days without their Monday have the first seven days of the calendar as their week. -/
theorem week_of_not_hasMonday (h : ¬ d.HasMonday) : d.week = ⟨first, clamp (first.dayNumber + 6)⟩ := by
  have hd := d.dayNumber_eq_weekIndex
  rw [hasMonday_iff] at h
  have hmonday : clamp (7 * d.weekIndex + 1) = first := by
    apply Date.ext
    simp only [clamp, first]
    omega
  rw [week_eq, hmonday]

/-- **A date lies in its week**, wherever the calendar cuts the week off. -/
theorem contains_week_self (d : Date) : d.week.contains d = true := by
  have hd := d.dayNumber_eq_weekIndex
  have hfirst := d.first_le
  have hlast := d.le_last
  rw [Period.contains_iff, week_eq]
  simp only [le_def, clamp]
  omega

/-- **A week of which the calendar has the Monday holds the days with its number**, and no others. -/
theorem contains_week_iff (h : d.HasMonday) :
    d.week.contains e = true ↔ e.weekIndex = d.weekIndex := by
  have hd := d.dayNumber_eq_weekIndex
  have he := e.dayNumber_eq_weekIndex
  have hfirst := e.first_le
  have hlast := e.le_last
  have hdlast := d.le_last
  have hmonday := hasMonday_iff.mp h
  rw [Period.contains_iff, week_of_hasMonday h]
  simp only [le_def, clamp]
  omega

theorem week_congr (hd : d.HasMonday) (h : e.weekIndex = d.weekIndex) : e.week = d.week := by
  obtain ⟨m, hm, hmonday⟩ := hd
  rw [week_of_hasMonday ⟨m, hm, hmonday⟩, week_of_hasMonday ⟨m, hm.trans h.symm, hmonday⟩, h]

/-- The first week of the calendar goes on to the Monday of the next. -/
theorem exists_of_not_hasMonday (h : ¬ d.HasMonday) :
    ∃ m : Date, d.week.contains m = true ∧ m.HasMonday ∧ m.weekIndex ≠ d.weekIndex := by
  have hfifth : (clamp (first.dayNumber + 4)).dayNumber = -95746125 := rfl
  refine ⟨clamp (first.dayNumber + 4), ?_, hasMonday_iff.mpr (by omega), ?_⟩
  · rw [week_of_not_hasMonday h]
    decide
  · rw [hasMonday_iff] at h
    simp only [weekIndex]
    omega

/-- **Weeks partition the calendar from its first Monday on, and not before.**  Each date lies in its week.
The week holds the days with its number and no others exactly if the calendar has its Monday, and just then
all of them have the same week; and two weeks of which the calendar has the Mondays share no day. -/
theorem week_holds_iff (d : Date) :
    d.week.contains d = true ∧
    ((∀ e, d.week.contains e = true ↔ e.weekIndex = d.weekIndex) ↔ d.HasMonday) ∧
    ((∀ e, d.week.contains e = true → e.week = d.week) ↔ d.HasMonday) ∧
    ∀ e : Date, d.HasMonday → e.HasMonday → e.weekIndex ≠ d.weekIndex →
      ∀ x, ¬ (d.week.contains x = true ∧ e.week.contains x = true) := by
  refine ⟨d.contains_week_self, ⟨?_, ?_⟩, ⟨?_, ?_⟩, ?_⟩
  · intro h
    by_contra hnone
    obtain ⟨m, hm, -, hindex⟩ := exists_of_not_hasMonday hnone
    exact hindex ((h m).mp hm)
  · intro h e
    exact contains_week_iff h
  · intro h
    by_contra hnone
    obtain ⟨m, hm, hmonday, hindex⟩ := exists_of_not_hasMonday hnone
    -- the week of that Monday would hold `d`, which comes before it
    have hself := d.contains_week_self
    rw [← h m hm, contains_week_iff hmonday] at hself
    exact hindex hself.symm
  · intro h e he
    exact week_congr h ((contains_week_iff h).mp he)
  · rintro e hd he hne x ⟨hx, hx'⟩
    exact hne (((contains_week_iff he).mp hx').symm.trans ((contains_week_iff hd).mp hx))

/-- The calendar begins on a Thursday, and the week of that day has three days of the next week, the week
of which is another. -/
theorem first_week_goes_on :
    first.weekday = 3 ∧ first.week = ⟨first, clamp (first.dayNumber + 6)⟩ ∧
    first.week.contains (clamp (first.dayNumber + 4)) = true ∧
    (clamp (first.dayNumber + 4)).weekIndex = first.weekIndex + 1 ∧
    (clamp (first.dayNumber + 4)).week ≠ first.week := by
  decide

end Timesheet.Date
