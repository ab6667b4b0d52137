import Timesheet.Coverage.Store
import Timesheet.Proofs.Coverage.Gaps
/-!
# The days of a period

A period is an interval of day numbers, cut to the calendar.  This module lists its days
(`Period.days`), says what a longest run of days is (`Period.IsRun`), and that the parts of a period
that a coverage misses are these runs: no part is lost when day numbers are turned back into dates
(`map_interval_missing`, `mem_missing_iff_isRun`).
-/

namespace Timesheet

/-! ## 1. Periods and intervals -/

/-- A day number between two dates is that of a date. -/
theorem Date.exists_of_between {a b : Date} {n : Int} (h1 : a.dayNumber ≤ n)
    (h2 : n ≤ b.dayNumber) : ∃ d : Date, d.dayNumber = n :=
  ⟨⟨n, Int.le_trans a.first_le h1, Int.le_trans h2 b.le_last⟩, rfl⟩

namespace Period

theorem contains_iff {p : Period} {d : Date} :
    p.contains d = true ↔ p.first ≤ d ∧ d ≤ p.last := by
  simp [contains]

/-- A date lies in a period if its number lies in the interval. -/
theorem interval_contains_iff {p : Period} {d : Date} :
    p.interval.Contains d.dayNumber ↔ p.contains d = true := by
  rw [contains_iff]
  exact Iff.rfl

theorem isReversed_iff {p : Period} : p.isReversed = true ↔ p.interval.isEmpty = true := by
  simp only [isReversed, Interval.isEmpty, decide_eq_true_eq]
  exact Iff.rfl

theorem not_contains_of_isReversed {p : Period} (h : p.isReversed = true) (d : Date) :
    p.contains d = false := by
  rw [Bool.eq_false_iff]
  intro hd
  exact Interval.isEmpty_iff.mp (isReversed_iff.mp h) _ (interval_contains_iff.mpr hd)

theorem interval_injective {p r : Period} (h : p.interval = r.interval) : p = r := by
  obtain ⟨h1, h2⟩ := Interval.mk.inj h
  cases p
  cases r
  simp only at h1 h2
  rw [Date.ext h1, Date.ext h2]

/-! ## 2. Days in order -/

/-- The days of a period in ascending order. -/
def days (p : Period) : List Date :=
  (List.range (p.last.dayNumber + 1 - p.first.dayNumber).toNat).map fun k : Nat =>
    Date.clamp (p.first.dayNumber + k)

/-- The days of a period are the dates that lie in it. -/
theorem mem_days {p : Period} {d : Date} : d ∈ p.days ↔ p.contains d = true := by
  simp only [days, List.mem_map, List.mem_range, contains_iff, Date.le_def]
  have h1 := p.first.first_le
  have h2 := p.last.le_last
  constructor
  · rintro ⟨k, hk, rfl⟩
    simp only [Date.clamp]
    omega
  · rintro ⟨hd1, hd2⟩
    refine ⟨(d.dayNumber - p.first.dayNumber).toNat, by omega, ?_⟩
    apply Date.ext
    simp only [Date.clamp]
    omega

/-- They come one after the other. -/
theorem days_ascending (p : Period) : p.days.Pairwise (· < ·) := by
  have h1 := p.first.first_le
  have h2 := p.last.le_last
  refine List.pairwise_map.mpr ?_
  refine List.pairwise_lt_range.imp_of_mem ?_
  intro a b _ hb hab
  rw [List.mem_range] at hb
  simp only [Date.lt_def, Date.clamp]
  omega

theorem days_of_isReversed {p : Period} (h : p.isReversed = true) : p.days = [] := by
  rw [List.eq_nil_iff_forall_not_mem]
  intro d hd
  rw [mem_days, not_contains_of_isReversed h d] at hd
  exact Bool.false_ne_true hd

/-! ## 3. Runs of days -/

/-- A longest run of days of `p` all of which have the property. -/
structure IsRun (P : Date → Prop) (p r : Period) : Prop where
  forward : r.first ≤ r.last
  within : p.first ≤ r.first ∧ r.last ≤ p.last
  all : ∀ d, r.contains d = true → P d
  longest : ∀ s : Period, s.first ≤ r.first → r.last ≤ s.last → p.first ≤ s.first →
    s.last ≤ p.last → (∀ d, s.contains d = true → P d) → s = r

/-- A run of days is a run of their numbers. -/
theorem isRun_iff_interval {P : Int → Prop} {p r : Period} :
    p.IsRun (fun d => P d.dayNumber) r ↔ p.interval.IsRun P r.interval := by
  constructor
  · intro h
    refine ⟨h.forward, h.within, ?_, ?_⟩
    · intro n hn
      obtain ⟨d, rfl⟩ := Date.exists_of_between hn.1 hn.2
      exact h.all d (interval_contains_iff.mp hn)
    · intro s h1 h2 h3 h4 hall
      have hne : s.start ≤ s.stop := Int.le_trans h1 (Int.le_trans h.forward h2)
      -- the ends of `s` lie in `p`, so that `s` is a period, too
      obtain ⟨a, ha⟩ := Date.exists_of_between h3 (Int.le_trans hne h4)
      obtain ⟨b, hb⟩ := Date.exists_of_between (Int.le_trans h3 hne) h4
      have hs : s = Period.interval ⟨a, b⟩ := Interval.ext ha.symm hb.symm
      subst hs
      rw [h.longest ⟨a, b⟩ h1 h2 h3 h4 fun d hd => hall _ (interval_contains_iff.mpr hd)]
  · intro h
    refine ⟨h.nonempty, h.within, fun d hd => h.all _ (interval_contains_iff.mpr hd), ?_⟩
    intro s h1 h2 h3 h4 hall
    refine interval_injective (h.longest s.interval h1 h2 h3 h4 fun n hn => ?_)
    obtain ⟨d, rfl⟩ := Date.exists_of_between hn.1 hn.2
    exact hall d (interval_contains_iff.mp hn)

/-! ## 4. Back from day numbers to dates -/

theorem ofInterval?_interval (p : Period) : ofInterval? p.interval = some p := by
  simp [ofInterval?, interval]

theorem interval_of_ofInterval? {i : Interval} {p : Period} (h : ofInterval? i = some p) :
    p.interval = i := by
  unfold ofInterval? at h
  simp only [Option.bind_eq_bind, Option.bind_eq_some_iff] at h
  obtain ⟨a, ha, b, hb, hp⟩ := h
  obtain rfl := Option.some.inj hp
  exact Interval.ext (Date.dayNumber_of_ofDayNumber? ha) (Date.dayNumber_of_ofDayNumber? hb)

/-- Intervals that are those of periods are not lost when they are turned into periods. -/
theorem map_interval_filterMap {l : List Interval} (h : ∀ i ∈ l, ∃ p : Period, p.interval = i) :
    (l.filterMap ofInterval?).map interval = l := by
  induction l with
  | nil => rfl
  | cons i l ih =>
    obtain ⟨p, rfl⟩ := h i List.mem_cons_self
    rw [List.filterMap_cons_some (ofInterval?_interval p), List.map_cons,
      ih fun j hj => h j (List.mem_cons_of_mem _ hj)]

theorem mem_filterMap_iff {l : List Interval} {p : Period} :
    p ∈ l.filterMap ofInterval? ↔ p.interval ∈ l := by
  rw [List.mem_filterMap]
  constructor
  · rintro ⟨i, hi, hp⟩
    rwa [interval_of_ofInterval? hp]
  · exact fun hp => ⟨p.interval, hp, ofInterval?_interval p⟩

/-- An interval between two dates is a period, if it is not empty. -/
theorem exists_interval_eq {a b : Date} {i : Interval} (hi : i.start ≤ i.stop)
    (h1 : a.dayNumber ≤ i.start) (h2 : i.stop ≤ b.dayNumber) : ∃ p : Period, p.interval = i := by
  obtain ⟨first, hfirst⟩ := Date.exists_of_between h1 (Int.le_trans hi h2)
  obtain ⟨last, hlast⟩ := Date.exists_of_between (Int.le_trans h1 hi) h2
  exact ⟨⟨first, last⟩, Interval.ext hfirst hlast⟩

end Period

/-! ## 5. What a store misses -/

namespace Store

variable {α : Type} {s : Store α}

/-- The store holds all rows of the day. -/
def Covers (s : Store α) (d : Date) : Prop := s.coverage.Covers d.dayNumber

/-- **No missing part is lost on the way back to dates**: all of them lie within the period. -/
theorem map_interval_missing (hs : Ascending s.coverage.intervals) (p : Period) :
    (s.missing p).map Period.interval = s.coverage.missing p.interval := by
  refine Period.map_interval_filterMap fun i hi => ?_
  have hparts := Coverage.parts_missing hs p.interval
  obtain ⟨h1, h2⟩ := hparts.within i hi
  exact Period.exists_interval_eq (hparts.nonempty i hi) h1 h2

/-- **What a store misses of a period are the longest runs of days that it does not cover.** -/
theorem mem_missing_iff_isRun (hs : Ascending s.coverage.intervals) {p r : Period} :
    r ∈ s.missing p ↔ p.IsRun (fun d => ¬ s.Covers d) r := by
  rw [missing, Period.mem_filterMap_iff, Coverage.mem_missing_iff hs, ← Period.isRun_iff_interval]
  exact Iff.rfl

/-- The missing parts come in ascending order, and between two of them lies a day that is covered. -/
theorem missing_apart (hs : Ascending s.coverage.intervals) (p : Period) :
    (s.missing p).Pairwise fun q r => q.last.dayNumber + 1 < r.first.dayNumber := by
  have h := (Coverage.parts_missing hs p.interval).apart
  rw [← map_interval_missing hs p] at h
  exact List.pairwise_map.mp h

/-- A date of the period is missing if it is not covered. -/
theorem exists_mem_missing_iff (hs : Ascending s.coverage.intervals) {p : Period} {d : Date} :
    (∃ r ∈ s.missing p, r.contains d = true) ↔ p.contains d = true ∧ ¬ s.Covers d := by
  have h := (Coverage.parts_missing hs p.interval).contains d.dayNumber
  rw [← map_interval_missing hs p, Period.interval_contains_iff] at h
  rw [Covers, ← h]
  simp [Period.interval_contains_iff]

end Store

end Timesheet
