/-!
# Calendar dates

Dates of the proleptic Gregorian calendar with a year 0, from 1 January of year -262143 to
31 December of year 262142.  A `Date` is its day number, counted from 1 for 1 January of year 1,
so that order, spans and steps of days are arithmetic.  Year, month and day are read off the day
number, and `Date.ofCivil?` goes back: `ofCivil?_civil` says that nothing is lost.
-/

namespace Timesheet

/-! ## 1. Years and months -/

/-- Every fourth year is a leap year, of the centuries every fourth. -/
def isLeapYear (year : Int) : Bool :=
  year % 4 == 0 && (year % 100 != 0 || year % 400 == 0)

/-- The days before 1 January of a year, counted from 1 January of year 1. -/
def daysBeforeYear (year : Int) : Int :=
  365 * (year - 1) + (year - 1) / 4 - (year - 1) / 100 + (year - 1) / 400

/-- The lengths of the months of a year. -/
def monthLengths (leap : Bool) : List Nat :=
  [31, if leap then 29 else 28, 31, 30, 31, 30, 31, 31, 30, 31, 30, 31]

/-- The length of a month, which is 0 if there is none of that number. -/
def monthLength (leap : Bool) (month : Nat) : Nat :=
  if month = 0 then 0 else (monthLengths leap).getD (month - 1) 0

/-- The days of the year before the first of a month. -/
def daysBeforeMonth (leap : Bool) (month : Nat) : Nat :=
  ((monthLengths leap).take (month - 1)).foldr (· + ·) 0

/-- The year in which a day lies: whole cycles of 400, 100, 4 years and 1 year are taken off, and
the last day of a cycle stays in it. -/
def yearOfDay (n : Int) : Int :=
  let d := n - 1
  let centuries := min 3 (d % 146097 / 36524)
  let c := d % 146097 - centuries * 36524
  let years := min 3 (c % 1461 / 365)
  400 * (d / 146097) + 100 * centuries + 4 * (c / 1461) + years + 1

/-- Walks along month lengths: the month, counted from `month`, that holds the `n`-th day, and
its day there. -/
def splitMonths : List Nat → Nat → Nat → Nat × Nat
  | [], month, n => (month, n)
  | length :: rest, month, n =>
    if n ≤ length then (month, n) else splitMonths rest (month + 1) (n - length)

/-! ## 2. Dates -/

/-- A day of the calendar, by its number. -/
@[ext] structure Date where
  dayNumber : Int
  first_le : -95746129 ≤ dayNumber
  le_last : dayNumber ≤ 95745399
deriving DecidableEq

namespace Date

instance : LE Date := ⟨fun a b => a.dayNumber ≤ b.dayNumber⟩

instance : LT Date := ⟨fun a b => a.dayNumber < b.dayNumber⟩

instance (a b : Date) : Decidable (a ≤ b) := inferInstanceAs (Decidable (a.dayNumber ≤ b.dayNumber))

instance (a b : Date) : Decidable (a < b) := inferInstanceAs (Decidable (a.dayNumber < b.dayNumber))

theorem le_def {a b : Date} : a ≤ b ↔ a.dayNumber ≤ b.dayNumber := Iff.rfl

theorem lt_def {a b : Date} : a < b ↔ a.dayNumber < b.dayNumber := Iff.rfl

/-- The first day of the calendar. -/
def first : Date := ⟨-95746129, by decide, by decide⟩

/-- The last day of the calendar. -/
def last : Date := ⟨95745399, by decide, by decide⟩

/-- The day with this number, if the calendar has it. -/
def ofDayNumber? (n : Int) : Option Date :=
  if h : -95746129 ≤ n ∧ n ≤ 95745399 then some ⟨n, h.1, h.2⟩ else none

/-- The day of the calendar that is nearest to this number. -/
def clamp (n : Int) : Date :=
  ⟨max (-95746129) (min n 95745399), by omega, by omega⟩

@[simp] theorem ofDayNumber?_dayNumber (d : Date) : ofDayNumber? d.dayNumber = some d := by
  simp [ofDayNumber?, d.first_le, d.le_last]

theorem dayNumber_of_ofDayNumber? {n : Int} {d : Date} (h : ofDayNumber? n = some d) :
    d.dayNumber = n := by
  unfold ofDayNumber? at h
  split at h
  · obtain rfl := Option.some.inj h
    rfl
  · simp at h

/-- The days from one date to another, counting both. -/
def span (start stop : Date) : Int := stop.dayNumber - start.dayNumber + 1

/-- The day before, if there is one. -/
def pred? (d : Date) : Option Date := ofDayNumber? (d.dayNumber - 1)

/-- Days since Monday. -/
def weekday (d : Date) : Int := (d.dayNumber - 1) % 7

/-! ## 3. Year, month and day -/

/-- The year of a date. -/
def year (d : Date) : Int := yearOfDay d.dayNumber

/-- The day of the year, from 1. -/
def dayOfYear (d : Date) : Nat := (d.dayNumber - daysBeforeYear d.year).toNat

/-- The month and the day of the month. -/
def monthDay (d : Date) : Nat × Nat :=
  splitMonths (monthLengths (isLeapYear d.year)) 1 d.dayOfYear

/-- The month, from 1. -/
def month (d : Date) : Nat := d.monthDay.1

/-- The day of the month, from 1. -/
def day (d : Date) : Nat := d.monthDay.2

/-- The date of a year, month and day, if there is one. -/
def ofCivil? (year : Int) (month day : Nat) : Option Date :=
  if 1 ≤ day ∧ day ≤ monthLength (isLeapYear year) month then
    ofDayNumber? (daysBeforeYear year + daysBeforeMonth (isLeapYear year) month + day)
  else none

end Date

/-! ## 4. A date is determined by its year, month and day -/

theorem daysBeforeYear_cycle (q a b e : Int) (ha : 0 ≤ a ∧ a ≤ 3) (hb : 0 ≤ b ∧ b ≤ 24)
    (he : 0 ≤ e ∧ e ≤ 3) :
    daysBeforeYear (400 * q + 100 * a + 4 * b + e + 1) =
      146097 * q + 36524 * a + 1461 * b + 365 * e := by
  unfold daysBeforeYear
  have h4 : (400 * q + 100 * a + 4 * b + e + 1 - 1) / 4 = 100 * q + 25 * a + b := by omega
  have h100 : (400 * q + 100 * a + 4 * b + e + 1 - 1) / 100 = 4 * q + a := by omega
  have h400 : (400 * q + 100 * a + 4 * b + e + 1 - 1) / 400 = q := by omega
  rw [h4, h100, h400]; omega

/-- The last year of a four-year cycle is a leap year, unless it ends a century that does not end
a cycle of 400 years. -/
theorem isLeapYear_cycle (q a b : Int) (hb : 0 ≤ b ∧ b ≤ 24)
    (hab : b = 24 → a = 3) : isLeapYear (400 * q + 100 * a + 4 * b + 3 + 1) = true := by
  have h4 : (400 * q + 100 * a + 4 * b + 3 + 1) % 4 = 0 := by omega
  unfold isLeapYear
  by_cases h : b = 24
  · have h400 : (400 * q + 100 * a + 4 * b + 3 + 1) % 400 = 0 := by
      rw [h, hab h]; omega
    simp [h4, h400]
  · have h100 : ¬ (400 * q + 100 * a + 4 * b + 3 + 1) % 100 = 0 := by omega
    simp [h4, h100]

/-- A day number in terms of the cycles that its year is made of. -/
theorem yearOfDay_cycle (n : Int) :
    ∃ q a b e m : Int, (0 ≤ a ∧ a ≤ 3) ∧ (0 ≤ b ∧ b ≤ 24) ∧ (0 ≤ e ∧ e ≤ 3) ∧
      n = 146097 * q + 36524 * a + 1461 * b + 365 * e + m + 1 ∧ 0 ≤ m ∧ m ≤ 365 ∧
      (m = 365 → e = 3 ∧ (b = 24 → a = 3)) ∧
      yearOfDay n = 400 * q + 100 * a + 4 * b + e + 1 := by
  obtain ⟨q, r, hn, h0, h1⟩ : ∃ q r : Int, n - 1 = 146097 * q + r ∧ 0 ≤ r ∧ r < 146097 :=
    ⟨(n - 1) / 146097, (n - 1) % 146097, by omega, by omega, by omega⟩
  have hq : (n - 1) / 146097 = q := by omega
  have hr : (n - 1) % 146097 = r := by omega
  obtain ⟨a, ha⟩ : ∃ a, a = min 3 (r / 36524) := ⟨_, rfl⟩
  obtain ⟨c, hc⟩ : ∃ c, c = r - a * 36524 := ⟨_, rfl⟩
  have ha3 : 0 ≤ a ∧ a ≤ 3 := by omega
  have hc0 : 0 ≤ c ∧ c ≤ 36524 ∧ (c = 36524 → a = 3) := by omega
  obtain ⟨b, hb⟩ : ∃ b, b = c / 1461 := ⟨_, rfl⟩
  obtain ⟨d, hd⟩ : ∃ d, d = c % 1461 := ⟨_, rfl⟩
  have hb0 : (0 ≤ b ∧ b ≤ 24) ∧ c = 1461 * b + d ∧ 0 ≤ d ∧ d ≤ 1460 := by
    clear ha hc hn hq hr; omega
  obtain ⟨e, he⟩ : ∃ e, e = min 3 (d / 365) := ⟨_, rfl⟩
  have he3 : (0 ≤ e ∧ e ≤ 3) ∧ 365 * e ≤ d ∧ d ≤ 365 * e + 365 ∧ (d = 365 * e + 365 → e = 3) := by
    clear ha hc hn hq hr hb hd; omega
  refine ⟨q, a, b, e, d - 365 * e, ha3, hb0.1, he3.1, ?_, ?_, ?_, ?_, ?_⟩
  · clear hb hd he ha hq hr; omega
  · clear hb hd he ha hq hr; omega
  · clear hb hd he ha hq hr; omega
  · clear hb hd he ha hq hr; omega
  · unfold yearOfDay
    simp only [hq, hr, ← ha, ← hc, ← hb, ← hd, ← he]

/-- A day lies after the days before its year and within the length of that year. -/
theorem yearOfDay_bounds (n : Int) :
    daysBeforeYear (yearOfDay n) < n ∧
      n ≤ daysBeforeYear (yearOfDay n) + (if isLeapYear (yearOfDay n) then 366 else 365) := by
  obtain ⟨q, a, b, e, m, ha, hb, he, hn, hm0, hm, hlast, hy⟩ := yearOfDay_cycle n
  rw [hy, daysBeforeYear_cycle q a b e ha hb he]
  refine ⟨by omega, ?_⟩
  by_cases h : m = 365
  · obtain ⟨rfl, hab⟩ := hlast h
    rw [if_pos (isLeapYear_cycle q a b hb hab)]
    omega
  · split <;> omega

/-- The walk along the months stops at a month of the list, at a day within its length, and has
passed exactly the days before that month. -/
theorem splitMonths_spec (lengths : List Nat) (month n : Nat) (h1 : 1 ≤ n)
    (h2 : n ≤ lengths.foldr (· + ·) 0) :
    ∃ i, (splitMonths lengths month n).1 = month + i ∧ i < lengths.length ∧
      1 ≤ (splitMonths lengths month n).2 ∧
      (splitMonths lengths month n).2 ≤ lengths.getD i 0 ∧
      (lengths.take i).foldr (· + ·) 0 + (splitMonths lengths month n).2 = n := by
  induction lengths generalizing month n with
  | nil => simp at h2; omega
  | cons len rest ih =>
    simp only [List.foldr_cons] at h2
    by_cases hn : n ≤ len
    · exact ⟨0, by simp [splitMonths, hn], by simp, by simp [splitMonths, hn, h1],
        by simp [splitMonths, hn], by simp [splitMonths, hn]⟩
    · obtain ⟨i, hi, hlt, hge, hle, hsum⟩ := ih (month + 1) (n - len) (by omega) (by omega)
      refine ⟨i + 1, ?_, by simpa using hlt, ?_, ?_, ?_⟩ <;>
        simp only [splitMonths, if_neg hn] <;> simp at * <;> omega

namespace Date

theorem dayOfYear_bounds (d : Date) :
    1 ≤ d.dayOfYear ∧ d.dayOfYear ≤ (monthLengths (isLeapYear d.year)).foldr (· + ·) 0 ∧
      daysBeforeYear d.year + d.dayOfYear = d.dayNumber := by
  obtain ⟨h1, h2⟩ := yearOfDay_bounds d.dayNumber
  have hsum : (((monthLengths (isLeapYear d.year)).foldr (· + ·) 0 : Nat) : Int) =
      if isLeapYear d.year then 366 else 365 := by
    cases isLeapYear d.year <;> rfl
  simp only [← year.eq_def] at h1 h2
  unfold dayOfYear
  omega

/-- The month and day read off a date name that date. -/
theorem ofCivil?_civil (d : Date) : ofCivil? d.year d.month d.day = some d := by
  obtain ⟨h1, h2, h3⟩ := d.dayOfYear_bounds
  obtain ⟨i, hm, hlt, hge, hle, hsum⟩ :=
    splitMonths_spec (monthLengths (isLeapYear d.year)) 1 d.dayOfYear h1 h2
  have hmonth : d.month = 1 + i := hm
  have hday : d.day = (splitMonths (monthLengths (isLeapYear d.year)) 1 d.dayOfYear).2 := rfl
  have hlen : monthLength (isLeapYear d.year) d.month =
      (monthLengths (isLeapYear d.year)).getD i 0 := by
    simp [monthLength, hmonth]
  have hbefore : daysBeforeMonth (isLeapYear d.year) d.month + d.day = d.dayOfYear := by
    simp only [daysBeforeMonth, hmonth, hday, Nat.add_sub_cancel_left]
    exact hsum
  unfold ofCivil?
  rw [if_pos ⟨hday ▸ hge, hlen ▸ hday ▸ hle⟩]
  rw [show daysBeforeYear d.year + (daysBeforeMonth (isLeapYear d.year) d.month : Int) + d.day
    = d.dayNumber by omega]
  exact ofDayNumber?_dayNumber d

end Date

end Timesheet
