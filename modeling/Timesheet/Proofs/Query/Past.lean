import Timesheet.Proofs.Calendar.Months
import Timesheet.Proofs.Calendar.Weeks
import Timesheet.Proofs.Query.Clauses
/-!
# Windows of the past

`PAST n` with a unit asks for the `n` units that end with the current one.  Days, weeks and months are
treated alike.  What matters of a unit is how it numbers the dates (`TimeUnit.index`), how many days come
before each number (`TimeUnit.daysBefore`), that the two belong together (`TimeUnit.daysBefore_lt_iff`), and
how many units in a row a window may have at most: these never are too many days, and one more always is
(`TimeUnit.daysBefore_add_most`).

A window that would begin before the calendar begins with it instead.  For dates that are far enough from the
ends of the calendar, such a window is too long anyway, so that `Clause.window_read_past` says exactly which
numbers of units are accepted, what they stand for, and how the others are refused.
-/

namespace Timesheet

/-- The date is at least 400 days away from both ends of the calendar. -/
structure Date.IsInner (d : Date) : Prop where
  after_first : first.dayNumber + 400 ≤ d.dayNumber
  before_last : d.dayNumber + 400 ≤ last.dayNumber

namespace Grammar.TimeUnit

/-! ## 1. Units in one sequence -/

/-- The number of the unit in which a date lies. -/
def index : TimeUnit → Date → Int
  | days, d => d.dayNumber
  | weeks, d => d.weekIndex
  | months, d => d.monthIndex

/-- The days before the unit with a number, counted from 1 January of year 1. -/
def daysBefore : TimeUnit → Int → Int
  | days, k => k - 1
  | weeks, k => 7 * k
  | months, k => Month.daysBefore k

/-- The most units that a window of the past may have. -/
def most : TimeUnit → Nat
  | days => 366
  | weeks => 52
  | months => 12

/-- The window that is the current unit. -/
def current : TimeUnit → WindowPhrase
  | days => .today
  | weeks => .week
  | months => .month

variable {unit : TimeUnit} {d today : Date} {n : Nat} {p p' : Period}

/-- **A date comes after the days before a unit exactly if its own unit is that one or a later one.** -/
theorem daysBefore_lt_iff (unit : TimeUnit) {k : Int} :
    unit.daysBefore k < d.dayNumber ↔ k ≤ unit.index d := by
  cases unit with
  | days => simp only [daysBefore, index]; omega
  | weeks =>
    simp only [daysBefore, index, Date.weekIndex]
    omega
  | months => exact Date.daysBefore_lt_iff

theorem le_daysBefore_iff (unit : TimeUnit) {k : Int} :
    d.dayNumber ≤ unit.daysBefore k ↔ unit.index d < k := by
  rw [← Int.not_lt, daysBefore_lt_iff, Int.not_le]

theorem daysBefore_lt (unit : TimeUnit) {k l : Int} (h : k < l) :
    unit.daysBefore k < unit.daysBefore l := by
  cases unit with
  | days => simp only [daysBefore]; omega
  | weeks => simp only [daysBefore]; omega
  | months => exact Month.daysBefore_lt h

theorem daysBefore_le (unit : TimeUnit) {k l : Int} (h : k ≤ l) :
    unit.daysBefore k ≤ unit.daysBefore l := by
  rcases Int.lt_or_eq_of_le h with hlt | rfl
  · exact Int.le_of_lt (unit.daysBefore_lt hlt)
  · exact Int.le_refl _

/-- **The most units in a row are not too many days, and one more is.** -/
theorem daysBefore_add_most (unit : TimeUnit) (k : Int) :
    unit.daysBefore (k + unit.most) ≤ unit.daysBefore k + longestWindow ∧
      unit.daysBefore k + longestWindow < unit.daysBefore (k + unit.most + 1) := by
  cases unit with
  | days => simp only [daysBefore, most, longestWindow]; omega
  | weeks => simp only [daysBefore, most, longestWindow]; omega
  | months =>
    have htwelve := Month.daysBefore_add_twelve k
    have hnext := Month.daysBefore_succ (k + 12)
    have hlength := Month.length_bounds (k + 12)
    simp only [daysBefore, most, longestWindow, Nat.cast_ofNat]
    omega

theorem one_le_most (unit : TimeUnit) : 1 ≤ unit.most := by
  cases unit <;> decide

/-- A date lies within its unit, of which it is not known how long it is but that it is no window too
long. -/
theorem daysBefore_bounds (unit : TimeUnit) (d : Date) :
    unit.daysBefore (unit.index d) < d.dayNumber ∧ d.dayNumber ≤ unit.daysBefore (unit.index d + 1) ∧
      unit.daysBefore (unit.index d + 1) ≤ unit.daysBefore (unit.index d) + longestWindow := by
  have hone := unit.one_le_most
  have hmono := unit.daysBefore_le
    (show unit.index d + 1 ≤ unit.index d + unit.most by omega)
  exact ⟨(unit.daysBefore_lt_iff).mpr (Int.le_refl _), (unit.le_daysBefore_iff).mpr (Int.lt_succ _),
    Int.le_trans hmono (unit.daysBefore_add_most _).1⟩

/-! ## 2. The last `n` units -/

/-- The window of the last `n` units. -/
def past : TimeUnit → Date → Nat → Period
  | days => Window.pastDays
  | weeks => Window.pastWeeks
  | months => Window.pastMonths

theorem period?_past (m : UInt64) :
    (WindowPhrase.past m unit).period? today = some (unit.past today m.toNat) := by
  cases unit <;> rfl

/-- **The window of the last `n` units goes from where the first of them starts**, if the calendar has that
day, **to where the current one ends.** -/
theorem past_eq (h : today.IsInner) :
    unit.past today n =
      ⟨(Date.ofDayNumber? (unit.daysBefore (unit.index today + 1 - n) + 1)).getD .first,
        .clamp (unit.daysBefore (unit.index today + 1))⟩ := by
  obtain ⟨hfirst, hlast⟩ := h
  cases unit with
  | days =>
    have hself : Date.clamp (today.dayNumber + 1 - 1) = today := by
      apply Date.ext
      simp only [Date.clamp]
      simp only [Date.first, Date.last] at hfirst hlast
      omega
    simp only [past, Window.pastDays, index, daysBefore, hself]
    rw [show today.dayNumber - ((n : Int) - 1) = today.dayNumber + 1 - n - 1 + 1 by omega]
  | weeks =>
    have hindex := today.dayNumber_eq_weekIndex
    simp only [Date.first, Date.last] at hfirst hlast
    have hweek := Date.week_of_hasMonday
      (Date.hasMonday_iff.mpr (show -95746125 ≤ today.dayNumber by omega))
    have hmonday : (Date.clamp (7 * today.weekIndex + 1)).dayNumber = 7 * today.weekIndex + 1 := by
      simp only [Date.clamp]
      omega
    simp only [past, Window.pastWeeks, index, daysBefore, hweek, hmonday]
    rw [show 7 * today.weekIndex + 1 - 7 * ((n : Int) - 1) = 7 * (today.weekIndex + 1 - n) + 1 by omega]
  | months =>
    simp only [past, Window.pastMonths, index, daysBefore, Date.monthPeriod_eq, Date.firstOfMonth?_eq]
    rw [show today.monthIndex - ((n : Int) - 1) = today.monthIndex + 1 - n by omega]

theorem last_past (unit : TimeUnit) (h : today.IsInner) (n : Nat) :
    (unit.past today n).last.dayNumber = unit.daysBefore (unit.index today + 1) := by
  obtain ⟨hstart, hstop, hshort⟩ := unit.daysBefore_bounds today
  obtain ⟨hfirst, hlast⟩ := h
  rw [past_eq ⟨hfirst, hlast⟩]
  simp only [Date.first, Date.last, longestWindow] at hfirst hlast hshort
  simp only [Date.clamp]
  omega

/-- A window that begins in the calendar begins with its first unit. -/
theorem first_past (unit : TimeUnit) (h : today.IsInner)
    (hstart : -95746130 ≤ unit.daysBefore (unit.index today + 1 - n)) :
    (unit.past today n).first.dayNumber = unit.daysBefore (unit.index today + 1 - n) + 1 := by
  obtain ⟨hself, -, hshort⟩ := unit.daysBefore_bounds today
  have hmono := unit.daysBefore_le
    (show unit.index today + 1 - n ≤ unit.index today + 1 by omega)
  obtain ⟨hfirst, hlast⟩ := h
  rw [past_eq ⟨hfirst, hlast⟩]
  simp only [Date.first, Date.last, longestWindow] at hfirst hlast hshort
  rw [Date.ofDayNumber?_eq_some (by omega) (by omega), Option.getD_some]
  simp only [Date.clamp]
  omega

/-! ## 3. How many units are too many -/

/-- No units are a window that ends before it starts. -/
theorem past_zero (h : today.IsInner) : (unit.past today 0).last < (unit.past today 0).first := by
  obtain ⟨-, hstop, -⟩ := unit.daysBefore_bounds today
  have hlow := today.first_le
  have hnone : unit.index today + 1 - (0 : Nat) = unit.index today + 1 := by omega
  rw [Date.lt_def, last_past unit h, first_past unit h (by rw [hnone]; omega), hnone]
  omega

/-- **Up to the most units make a window that is not too long**, and begins with the first of them. -/
theorem past_of_le (h : today.IsInner) (hone : 1 ≤ n) (hmost : n ≤ unit.most) :
    (unit.past today n).first.dayNumber = unit.daysBefore (unit.index today + 1 - n) + 1 ∧
      (unit.past today n).first ≤ (unit.past today n).last ∧
      (unit.past today n).first.span (unit.past today n).last ≤ longestWindow := by
  obtain ⟨-, hstop, -⟩ := unit.daysBefore_bounds today
  have hless := unit.daysBefore_lt
    (show unit.index today + 1 - n < unit.index today + 1 by omega)
  have hlong := (unit.daysBefore_add_most (unit.index today + 1 - unit.most)).1
  rw [Int.sub_add_cancel] at hlong
  have hmono := unit.daysBefore_le
    (show unit.index today + 1 - unit.most ≤ unit.index today + 1 - n by omega)
  have hfirst := first_past unit h (show -95746130 ≤ unit.daysBefore (unit.index today + 1 - n) by
    have hlow := h.after_first
    simp only [Date.first] at hlow
    simp only [longestWindow] at hlong
    omega)
  rw [Date.le_def, Date.span, last_past unit h, hfirst]
  exact ⟨rfl, by omega, by omega⟩

/-- **More units are too long a window**, also where it is cut off at the first day of the calendar. -/
theorem past_of_lt (h : today.IsInner) (hmost : unit.most < n) :
    (unit.past today n).first ≤ (unit.past today n).last ∧
      longestWindow < (unit.past today n).first.span (unit.past today n).last := by
  obtain ⟨-, hstop, -⟩ := unit.daysBefore_bounds today
  rw [Date.le_def, Date.span, last_past unit h]
  have hlong : longestWindow <
      unit.daysBefore (unit.index today + 1) - (unit.past today n).first.dayNumber + 1 := by
    by_cases hstart : -95746130 ≤ unit.daysBefore (unit.index today + 1 - n)
    · have hmore := (unit.daysBefore_add_most (unit.index today + 1 - n)).2
      have hmono := unit.daysBefore_le
        (show unit.index today + 1 - n + unit.most + 1 ≤ unit.index today + 1 by omega)
      rw [first_past unit h hstart]
      omega
    · have hnone : Date.ofDayNumber? (unit.daysBefore (unit.index today + 1 - n) + 1) = none :=
        dif_neg (by omega)
      have hlow := h.after_first
      rw [past_eq h, hnone, Option.getD_none]
      simp only [longestWindow]
      omega
  simp only [longestWindow] at hlong ⊢
  omega

/-- **What is wrong with the window is told by the number of units**, and the other way round. -/
theorem past_iff (unit : TimeUnit) (h : today.IsInner) (n : Nat) :
    ((unit.past today n).last < (unit.past today n).first ↔ n = 0) ∧
    ((unit.past today n).first ≤ (unit.past today n).last ∧
      (unit.past today n).first.span (unit.past today n).last ≤ longestWindow ↔
        1 ≤ n ∧ n ≤ unit.most) ∧
    ((unit.past today n).first ≤ (unit.past today n).last ∧
      longestWindow < (unit.past today n).first.span (unit.past today n).last ↔ unit.most < n) := by
  have hzero : n = 0 → (unit.past today n).last < (unit.past today n).first := by
    rintro rfl
    exact past_zero h
  have hle := @past_of_le unit today n h
  have hlt := @past_of_lt unit today n h
  rw [Date.lt_def] at hzero ⊢
  rw [Date.le_def] at hle hlt ⊢
  omega

/-! ## 4. What the window of the last `n` units is -/

/-- The first and the last day of the window, in terms of the calendar. -/
def Bounds : TimeUnit → Date → Nat → Period → Prop
  | days, today, n, p => p.last = today ∧ p.first.span p.last = n
  | weeks, today, n, p =>
    p.first.weekday = 0 ∧ p.last.weekday = 6 ∧ p.last.weekIndex = today.weekIndex ∧
      p.first.span p.last = 7 * n
  | months, today, n, p =>
    p.first.day = 1 ∧ p.first.monthIndex = today.monthIndex - (n - 1) ∧
      p.last.monthIndex = today.monthIndex ∧ ∀ e : Date, e.monthIndex = today.monthIndex → e ≤ p.last

/-- The period is made up of the `n` units that end with the one of `today`. -/
structure IsPast (unit : TimeUnit) (today : Date) (n : Nat) (p : Period) : Prop where
  /-- It holds the days of these units and no others. -/
  holds : ∀ e, p.contains e = true ↔
    unit.index today - n < unit.index e ∧ unit.index e ≤ unit.index today
  bounds : unit.Bounds today n p

/-- There is only one such period. -/
theorem IsPast.unique (hone : 1 ≤ n) (hp : IsPast unit today n p) (hp' : IsPast unit today n p') :
    p = p' := by
  have hsame : ∀ e, p.contains e = true ↔ p'.contains e = true := by
    intro e
    rw [hp.holds, hp'.holds]
  have htoday : p.contains today = true := (hp.holds today).mpr (by omega)
  have htoday' := (hsame today).mp htoday
  simp only [Period.contains_iff, Date.le_def] at hsame htoday htoday'
  have h1 := (hsame p.first).mp ⟨Int.le_refl _, by omega⟩
  have h2 := (hsame p.last).mp ⟨by omega, Int.le_refl _⟩
  have h3 := (hsame p'.first).mpr ⟨Int.le_refl _, by omega⟩
  have h4 := (hsame p'.last).mpr ⟨by omega, Int.le_refl _⟩
  refine Period.interval_injective ?_
  simp only [Period.interval, Interval.mk.injEq]
  omega

/-- A period that begins with the first of the units and ends with the current one begins and ends as the
unit says. -/
theorem bounds_of_dayNumber
    (hfirst : p.first.dayNumber = unit.daysBefore (unit.index today + 1 - n) + 1)
    (hlast : p.last.dayNumber = unit.daysBefore (unit.index today + 1)) :
    unit.Bounds today n p := by
  cases unit with
  | days =>
    simp only [daysBefore, index] at hfirst hlast
    refine ⟨Date.ext (by omega), ?_⟩
    rw [Date.span]
    omega
  | weeks =>
    have h1 := p.first.dayNumber_eq_weekIndex
    have h2 := p.last.dayNumber_eq_weekIndex
    simp only [daysBefore, index] at hfirst hlast
    simp only [Bounds, Date.span]
    omega
  | months =>
    simp only [daysBefore, index] at hfirst hlast
    have hnext := Month.daysBefore_lt
      (show today.monthIndex + 1 - n < today.monthIndex + 1 - n + 1 by omega)
    have hindex : p.first.monthIndex = today.monthIndex + 1 - n :=
      Date.monthIndex_eq_iff.mpr (by omega)
    have hday := p.first.daysBefore_monthIndex.1
    rw [hindex] at hday
    have hless := Month.daysBefore_lt (show today.monthIndex < today.monthIndex + 1 by omega)
    have hstop : p.last.monthIndex = today.monthIndex := Date.monthIndex_eq_iff.mpr (by omega)
    refine ⟨by omega, by omega, hstop, ?_⟩
    · intro e he
      have hbefore : e.dayNumber ≤ Month.daysBefore (today.monthIndex + 1) :=
        Date.le_daysBefore_iff.mpr (by omega)
      rw [Date.le_def]
      omega

theorem isPast_past (h : today.IsInner) (hone : 1 ≤ n) (hmost : n ≤ unit.most) :
    IsPast unit today n (unit.past today n) := by
  obtain ⟨hfirst, -, -⟩ := past_of_le h hone hmost
  have hlast := last_past unit h n
  refine ⟨fun e => ?_, bounds_of_dayNumber hfirst hlast⟩
  have hafter := unit.daysBefore_lt_iff (d := e) (k := unit.index today + 1 - n)
  have hbefore := unit.le_daysBefore_iff (d := e) (k := unit.index today + 1)
  rw [Period.contains_iff, Date.le_def, Date.le_def, hfirst, hlast]
  omega

/-- **The last unit alone is the current one.** -/
theorem past_one (unit : TimeUnit) (today : Date) :
    unit.current.period? today = some (unit.past today 1) := by
  cases unit with
  | days =>
    simp [current, WindowPhrase.period?, past, Window.pastDays]
  | weeks =>
    simp [current, WindowPhrase.period?, past, Window.pastWeeks]
  | months =>
    simp [current, WindowPhrase.period?, past, Window.pastMonths, Date.firstOfMonth?_monthIndex]

end Grammar.TimeUnit

/-! ## 5. Reading the window -/

theorem exists_checkWindow_reversed_iff {start stop : Date} :
    (∃ a b, checkWindow start stop = .error (.reversedWindow a b)) ↔ stop < start := by
  unfold checkWindow
  split
  · next h => exact ⟨fun _ => h, fun _ => ⟨_, _, rfl⟩⟩
  · next h => split <;> simp [h]

theorem exists_checkWindow_tooLong_iff {start stop : Date} :
    (∃ n, checkWindow start stop = .error (.windowTooLong n)) ↔
      start ≤ stop ∧ longestWindow < start.span stop := by
  unfold checkWindow
  split
  · next h =>
    rw [Date.lt_def] at h
    simp [Date.le_def, h]
  · next h =>
    rw [Date.lt_def, Int.not_lt] at h
    split
    · next hlong => exact ⟨fun _ => ⟨h, hlong⟩, fun _ => ⟨_, rfl⟩⟩
    · next hlong => simp [hlong]

namespace Clause

open Grammar

variable {today : Date} {w : WindowPhrase} {p : Period}

/-- What comes of a window that denotes a period is what comes of checking the period. -/
theorem window_read_tokens (hp : w.period? today = some p) (d : Draft) (rest : List Token) :
    (Clause.window today).read d (w.tokens ++ rest) =
      (checkWindow p.first p.last).map fun _ =>
        ({ d with start := some p.first, stop := some p.last }, rest) := by
  have hread := Window.read_eq_ok_iff.mpr ⟨w, hp, (rfl : w.tokens ++ rest = _)⟩
  cases hcheck : checkWindow p.first p.last <;>
    simp [window, hread, hcheck, bind, Except.bind, pure, Except.pure, Except.map]

/-- **Windows of the past are exact.**  Seen from a date that is at least 400 days away from both ends of the
calendar, `PAST n` is accepted for 1 up to the most units and for no other numbers, and is then the period of
the `n` units that end with the current one.  No units are refused as a window that ends before it starts,
and any more units as a window that is too long.  One unit is the same as the current one. -/
theorem window_read_past (htoday : today.IsInner) (n : UInt64) (unit : TimeUnit) (d : Draft)
    (rest : List Token) :
    (∀ r, (Clause.window today).read d ((WindowPhrase.past n unit).tokens ++ rest) = .ok r ↔
      (1 ≤ n.toNat ∧ n.toNat ≤ unit.most) ∧ ∃ p, unit.IsPast today n.toNat p ∧
        r = ({ d with start := some p.first, stop := some p.last }, rest)) ∧
    ((∃ a b, (Clause.window today).read d ((WindowPhrase.past n unit).tokens ++ rest) =
      .error (.reversedWindow a b)) ↔ n = 0) ∧
    ((∃ days, (Clause.window today).read d ((WindowPhrase.past n unit).tokens ++ rest) =
      .error (.windowTooLong days)) ↔ unit.most < n.toNat) ∧
    (n = 1 → (Clause.window today).read d ((WindowPhrase.past n unit).tokens ++ rest) =
      (Clause.window today).read d (unit.current.tokens ++ rest)) := by
  obtain ⟨hreversed, haccepted, hlong⟩ := TimeUnit.past_iff unit htoday n.toNat
  have hzero : n = 0 ↔ n.toNat = 0 := by
    rw [← UInt64.toNat_inj]
    exact Iff.rfl
  simp only [window_read_tokens (TimeUnit.period?_past n), Results.map_eq_ok_iff,
    Results.map_eq_error_iff, exists_checkWindow_reversed_iff, exists_checkWindow_tooLong_iff]
  refine ⟨?_, ?_, ?_, ?_⟩
  · intro r
    constructor
    · rintro ⟨⟨⟩, hcheck, rfl⟩
      have hn := haccepted.mp (checkWindow_eq_ok_iff.mp hcheck)
      exact ⟨hn, _, TimeUnit.isPast_past htoday hn.1 hn.2, rfl⟩
    · rintro ⟨hn, p, hp, rfl⟩
      obtain rfl := hp.unique hn.1 (TimeUnit.isPast_past htoday hn.1 hn.2)
      exact ⟨(), checkWindow_eq_ok_iff.mpr (haccepted.mpr hn), rfl⟩
  · rw [hreversed, hzero]
  · exact hlong
  · rintro rfl
    rw [window_read_tokens (TimeUnit.past_one unit today)]
    rfl

/-- On 31 January 2020, twelve months begin with February of the year before, and thirteen are refused. -/
theorem window_read_twelve_months :
    ((Date.clamp 737455).year, (Date.clamp 737455).month, (Date.clamp 737455).day) = (2020, 1, 31) ∧
    (Clause.window (.clamp 737455)).read {} [.keyword .PAST, .number 12, .keyword .MONTHS] =
      .ok ({ start := some (.clamp 737091), stop := some (.clamp 737455) }, []) ∧
    TimeUnit.months.IsPast (.clamp 737455) 12 ⟨.clamp 737091, .clamp 737455⟩ ∧
    ∃ days, (Clause.window (.clamp 737455)).read {} [.keyword .PAST, .number 13, .keyword .MONTHS] =
      .error (.windowTooLong days) := by
  have htoday : (Date.clamp 737455).IsInner := ⟨by decide, by decide⟩
  have hread : (Clause.window (.clamp 737455)).read {}
      [.keyword .PAST, .number 12, .keyword .MONTHS] =
        .ok ({ start := some (.clamp 737091), stop := some (.clamp 737455) }, []) := rfl
  obtain ⟨-, ⟨first, last⟩, hp, hr⟩ := ((window_read_past htoday 12 .months {} []).1 _).mp hread
  simp only [Prod.mk.injEq, Draft.mk.injEq, Option.some.injEq] at hr
  obtain ⟨⟨-, rfl, rfl, -⟩, -⟩ := hr
  exact ⟨by decide, hread, hp, (window_read_past htoday 13 .months {} []).2.2.1.mpr (by decide)⟩

end Clause

end Timesheet
