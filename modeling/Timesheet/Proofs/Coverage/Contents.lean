import Timesheet.Proofs.Coverage.Days
/-!
# The rows of a store

A store keeps its rows in groups, one for each day that has rows.  Read one after the other, the
groups are a list in order of days (`Store.contents`), and each operation is a filter on it:

* `Store.rowsIn_eq_flatMap`: what is stored for a period, day by day;
* `Store.rowsOn_put`: what is stored for a day after a `put`;
* `Store.size_eq_length`, `Store.isEmpty_iff`: the count.

All of this holds of stores in which the groups are in order and not empty, and each row stands in
the group of its day (`ByDay`); a `put` keeps that.
-/

namespace Timesheet

/-! ## 1. Filters on lists in order -/

section Sorted

variable {α : Type} [Dated α]

/-- The list is in order of days. -/
def InOrder (l : List α) : Prop := l.Pairwise fun a b => Dated.date a ≤ Dated.date b

/-- In a list in order, the rows of one day stand before those of later days. -/
theorem InOrder.filter_append_filter {l : List α} (hl : InOrder l) {d : Date} {p : Date → Bool}
    (hp : ∀ e, p e = true → d < e) :
    l.filter (fun a => Dated.date a = d) ++ l.filter (fun a => p (Dated.date a)) =
      l.filter fun a => Dated.date a = d || p (Dated.date a) := by
  induction l with
  | nil => rfl
  | cons a l ih =>
    obtain ⟨ha, hl⟩ := List.pairwise_cons.mp hl
    have ih := ih hl
    by_cases hd : Dated.date a = d
    · have hnot : p (Dated.date a) = false := by
        rw [Bool.eq_false_iff]
        intro h
        have := hp _ h
        rw [Date.lt_def, hd] at this
        omega
      simp [hd, ← ih, hd ▸ hnot]
    · by_cases hpa : p (Dated.date a) = true
      · -- `a` is later than `d`, and so is all that follows
        have hnil : l.filter (fun b => Dated.date b = d) = [] := by
          rw [List.filter_eq_nil_iff]
          intro b hb
          have h1 := hp _ hpa
          have h2 := ha b hb
          rw [Date.lt_def] at h1
          rw [Date.le_def] at h2
          simp only [decide_eq_true_eq, Date.ext_iff]
          omega
        rw [hnil, List.nil_append] at ih
        simp [hd, hpa, hnil, ← ih]
      · simp [hd, hpa, ← ih]

/-- Of the rows of one day, a test on days lets all pass or none. -/
theorem filter_filter_day (l : List α) (p : Date → Bool) (d : Date) :
    (l.filter fun a => p (Dated.date a)).filter (fun a => Dated.date a = d) =
      if p d then l.filter (fun a => Dated.date a = d) else [] := by
  rw [List.filter_filter]
  split
  · next hp =>
    refine List.filter_congr fun a _ => ?_
    by_cases hd : Dated.date a = d <;> simp [hd, hp]
  · next hp =>
    rw [List.filter_eq_nil_iff]
    intro a _ ha
    simp only [Bool.and_eq_true, decide_eq_true_eq] at ha
    exact hp (ha.1 ▸ ha.2)

/-- Among later rows there are none of the day of `r`, so that `r` may stand on either side of them. -/
theorem filter_append_comm_of_lt {l : List α} {r : α}
    (h : ∀ a ∈ l, (Dated.date r).dayNumber < (Dated.date a).dayNumber) (d : Date) :
    l.filter (fun a => Dated.date a = d) ++ [r].filter (fun a => Dated.date a = d) =
      [r].filter (fun a => Dated.date a = d) ++ l.filter fun a => Dated.date a = d := by
  by_cases hd : Dated.date r = d
  · have hnil : l.filter (fun a => Dated.date a = d) = [] := by
      rw [List.filter_eq_nil_iff]
      intro a ha
      have := h a ha
      simp only [decide_eq_true_eq, ← hd, Date.ext_iff]
      omega
    rw [hnil, List.nil_append, List.append_nil]
  · simp [hd]

/-- **Day by day, a list in order is itself.**  The induction is on the days. -/
theorem InOrder.flatMap_filter {l : List α} (hl : InOrder l) {ds : List Date}
    (hds : ds.Pairwise (· < ·)) :
    (ds.flatMap fun d => l.filter fun a => Dated.date a = d) =
      l.filter fun a => ds.contains (Dated.date a) := by
  induction ds with
  | nil => simp
  | cons d ds ih =>
    obtain ⟨hd, hds⟩ := List.pairwise_cons.mp hds
    rw [List.flatMap_cons, ih hds,
      hl.filter_append_filter (p := fun e => ds.contains e) fun e he => hd e (by simpa using he)]
    simp

/-- The rows of the days of a period, day by day, are the rows of the period. -/
theorem InOrder.flatMap_days {l : List α} (hl : InOrder l) (p : Period) :
    (p.days.flatMap fun d => l.filter fun a => Dated.date a = d) =
      l.filter fun a => p.contains (Dated.date a) := by
  rw [hl.flatMap_filter p.days_ascending]
  congr 1
  funext a
  rw [Bool.eq_iff_iff]
  simp [Period.mem_days]

end Sorted

/-! ## 2. Groups by day -/

/-- Groups of rows in order of days, none of them empty, each with rows of its day only. -/
structure ByDay {α : Type} [Dated α] (days : List (Int × List α)) : Prop where
  ascending : days.Pairwise fun x y => x.1 < y.1
  nonempty : ∀ x ∈ days, x.2 ≠ []
  dated : ∀ x ∈ days, ∀ r ∈ x.2, (Dated.date r).dayNumber = x.1

namespace ByDay

variable {α : Type} [Dated α] {days rest : List (Int × List α)} {x : Int × List α}

theorem nil : ByDay ([] : List (Int × List α)) := ⟨List.Pairwise.nil, by simp, by simp⟩

theorem sublist {days' : List (Int × List α)} (h : ByDay days) (hs : days'.Sublist days) :
    ByDay days' :=
  ⟨h.ascending.sublist hs, fun x hx => h.nonempty x (hs.subset hx),
    fun x hx => h.dated x (hs.subset hx)⟩

theorem tail (h : ByDay (x :: rest)) : ByDay rest := h.sublist (List.sublist_cons_self x rest)

theorem cons (hne : x.2 ≠ []) (hd : ∀ r ∈ x.2, (Dated.date r).dayNumber = x.1) (h : ByDay rest)
    (hlt : ∀ y ∈ rest, x.1 < y.1) : ByDay (x :: rest) := by
  refine ⟨List.pairwise_cons.mpr ⟨hlt, h.ascending⟩, ?_, ?_⟩
  · intro y hy
    rcases List.mem_cons.mp hy with rfl | hy
    · exact hne
    · exact h.nonempty y hy
  · intro y hy
    rcases List.mem_cons.mp hy with rfl | hy
    · exact hd
    · exact h.dated y hy

theorem lt_of_mem (h : ByDay (x :: rest)) {y : Int × List α} (hy : y ∈ rest) : x.1 < y.1 :=
  (List.pairwise_cons.mp h.ascending).1 y hy

/-- The rows of later groups belong to later days. -/
theorem lt_of_mem_flatMap (h : ByDay (x :: rest)) {r : α} (hr : r ∈ rest.flatMap Prod.snd) :
    x.1 < (Dated.date r).dayNumber := by
  obtain ⟨y, hy, hr⟩ := List.mem_flatMap.mp hr
  rw [h.tail.dated y hy r hr]
  exact h.lt_of_mem hy

/-- Read one after the other, the groups are in order of days. -/
theorem inOrder_flatMap (h : ByDay days) : InOrder (days.flatMap Prod.snd) := by
  induction days with
  | nil => exact List.Pairwise.nil
  | cons x rest ih =>
    have hx := h.dated x List.mem_cons_self
    refine List.pairwise_append.mpr ⟨?_, ih h.tail, ?_⟩
    · refine List.pairwise_of_forall_mem_list ?_
      intro a ha b hb
      rw [Date.le_def]
      exact Int.le_of_eq ((hx a ha).trans (hx b hb).symm)
    · intro a ha b hb
      have := h.lt_of_mem_flatMap hb
      rw [Date.le_def, hx a ha]
      omega

/-- To choose groups by their day is to choose rows by their day. -/
theorem flatMap_filter (h : ByDay days) (p : Int → Bool) :
    (days.filter fun x => p x.1).flatMap Prod.snd =
      (days.flatMap Prod.snd).filter fun r => p (Dated.date r).dayNumber := by
  induction days with
  | nil => rfl
  | cons x rest ih =>
    have hx : x.2.filter (fun r => p (Dated.date r).dayNumber) = if p x.1 then x.2 else [] := by
      have hcongr : x.2.filter (fun r => p (Dated.date r).dayNumber) =
          x.2.filter fun _ => p x.1 :=
        List.filter_congr fun r hr => by rw [h.dated x List.mem_cons_self r hr]
      rw [hcongr]
      cases p x.1 <;> simp
    rw [List.flatMap_cons, List.filter_append, hx, ← ih h.tail, List.filter_cons]
    cases p x.1 <;> simp

end ByDay

/-! ## 3. Adding rows to their days -/

namespace Store

variable {α : Type} [Dated α] {days : List (Int × List α)} {r : α}

/-- The only day that can be new is that of the row. -/
theorem day_of_mem_addRow {y : Int × List α} (hy : y ∈ addRow days r) :
    y.1 = (Dated.date r).dayNumber ∨ ∃ x ∈ days, x.1 = y.1 := by
  induction days with
  | nil =>
    rw [addRow, List.mem_singleton] at hy
    exact Or.inl (hy ▸ rfl)
  | cons x rest ih =>
    rw [addRow] at hy
    split at hy
    · rcases List.mem_cons.mp hy with rfl | hy
      · exact Or.inl rfl
      · exact Or.inr ⟨y, hy, rfl⟩
    · split at hy
      · rcases List.mem_cons.mp hy with rfl | hy
        · exact Or.inr ⟨x, List.mem_cons_self, rfl⟩
        · exact Or.inr ⟨y, List.mem_cons_of_mem _ hy, rfl⟩
      · rcases List.mem_cons.mp hy with rfl | hy
        · exact Or.inr ⟨_, List.mem_cons_self, rfl⟩
        · rcases ih hy with h | ⟨z, hz, h⟩
          · exact Or.inl h
          · exact Or.inr ⟨z, List.mem_cons_of_mem _ hz, h⟩

theorem byDay_addRow (h : ByDay days) (r : α) : ByDay (addRow days r) := by
  induction days with
  | nil =>
    rw [addRow]
    exact ByDay.nil.cons (by simp) (by simp) (by simp)
  | cons x rest ih =>
    have hx := h.dated x List.mem_cons_self
    rw [addRow]
    split
    · next hlt =>
      refine h.cons (by simp) (by simp) ?_
      intro y hy
      rcases List.mem_cons.mp hy with rfl | hy
      · exact hlt
      · exact Int.lt_trans hlt (h.lt_of_mem hy)
    · next hge =>
      split
      · next heq =>
        refine h.tail.cons (by simp) ?_ fun y hy => h.lt_of_mem hy
        intro a ha
        rcases List.mem_append.mp ha with ha | ha
        · exact hx a ha
        · rw [List.mem_singleton.mp ha]
          exact heq
      · next hne =>
        refine (ih h.tail).cons (h.nonempty x List.mem_cons_self) hx ?_
        intro y hy
        rcases day_of_mem_addRow hy with hy | ⟨z, hz, hy⟩
        · omega
        · rw [← hy]
          exact h.lt_of_mem hz

/-- **A row that is added comes last on its day**, and no other day changes. -/
theorem filter_addRow (h : ByDay days) (r : α) (d : Date) :
    ((addRow days r).flatMap Prod.snd).filter (fun a => Dated.date a = d) =
      (days.flatMap Prod.snd).filter (fun a => Dated.date a = d) ++
        [r].filter fun a => Dated.date a = d := by
  induction days with
  | nil => simp [addRow]
  | cons x rest ih =>
    have hx := h.dated x List.mem_cons_self
    rw [addRow]
    split
    · next hlt =>
      rw [filter_append_comm_of_lt]
      · rw [List.flatMap_cons, List.filter_append]
      · intro a ha
        rw [List.flatMap_cons] at ha
        rcases List.mem_append.mp ha with ha | ha
        · rw [hx a ha]
          exact hlt
        · exact Int.lt_trans hlt (h.lt_of_mem_flatMap ha)
    · split
      · next heq =>
        simp only [List.flatMap_cons, List.filter_append, List.append_assoc]
        rw [filter_append_comm_of_lt]
        intro a ha
        rw [heq]
        exact h.lt_of_mem_flatMap ha
      · simp only [List.flatMap_cons, List.filter_append, ih h.tail, List.append_assoc]

theorem byDay_foldl_addRow {days : List (Int × List α)} (h : ByDay days) (rows : List α) :
    ByDay (rows.foldl addRow days) := by
  induction rows generalizing days with
  | nil => exact h
  | cons r rows ih => exact ih (byDay_addRow h r)

theorem filter_foldl_addRow {days : List (Int × List α)} (h : ByDay days) (rows : List α)
    (d : Date) :
    ((rows.foldl addRow days).flatMap Prod.snd).filter (fun a => Dated.date a = d) =
      (days.flatMap Prod.snd).filter (fun a => Dated.date a = d) ++
        rows.filter fun a => Dated.date a = d := by
  induction rows generalizing days with
  | nil => simp
  | cons r rows ih =>
    rw [List.foldl_cons, ih (byDay_addRow h r), filter_addRow h, List.append_assoc,
      ← List.filter_append, List.singleton_append]

/-! ## 4. The contents of a store -/

/-- All rows of the store, in order of days. -/
def contents (s : Store α) : List α := s.days.flatMap Prod.snd

/-- The rows of a day. -/
def rowsOn (s : Store α) (d : Date) : List α := s.contents.filter fun r => Dated.date r = d

/-- A store whose groups and intervals are in order, with no interval beyond the calendar. -/
structure Valid (s : Store α) : Prop where
  byDay : ByDay s.days
  ascending : Ascending s.coverage.intervals
  inCalendar : ∀ i ∈ s.coverage.intervals,
    Date.first.dayNumber ≤ i.start ∧ i.stop ≤ Date.last.dayNumber

variable {s : Store α}

theorem valid_empty : (empty : Store α).Valid :=
  ⟨ByDay.nil, Ascending.nil, by simp [empty, Coverage.empty]⟩

/-- A `put` keeps a store valid. -/
theorem Valid.put (hs : s.Valid) (p : Period) (rows : List α) : (s.put p rows).Valid := by
  unfold Store.put
  split
  · exact hs
  · exact ⟨byDay_foldl_addRow (hs.byDay.sublist List.filter_sublist) _,
      Coverage.ascending_insert hs.ascending,
      Coverage.within_insert ⟨p.first.first_le, p.last.le_last⟩ hs.inCalendar⟩

/-- **A `put` covers the days of its period**, and no others. -/
theorem covers_put (s : Store α) (p : Period) (rows : List α) (d : Date) :
    (s.put p rows).Covers d ↔ s.Covers d ∨ p.contains d = true := by
  unfold Store.put Covers
  split
  · next hp => simp [Period.not_contains_of_isReversed hp]
  · rw [Coverage.covers_insert, Period.interval_contains_iff]

/-- **A `put` replaces the rows of its days**, and no others. -/
theorem rowsOn_put (hs : s.Valid) (p : Period) (rows : List α) (d : Date) :
    (s.put p rows).rowsOn d =
      if p.contains d then rows.filter (fun r => Dated.date r = d) else s.rowsOn d := by
  unfold Store.put
  split
  · next hp => simp [Period.not_contains_of_isReversed hp]
  · have hkept := hs.byDay.flatMap_filter fun n => decide ¬ p.interval.Contains n
    simp only [Period.interval_contains_iff] at hkept
    simp only [rowsOn, contents]
    rw [filter_foldl_addRow (hs.byDay.sublist List.filter_sublist), hkept,
      filter_filter_day _ fun e => decide ¬ p.contains e = true, filter_filter_day]
    by_cases hd : p.contains d = true
    · simp [hd]
    · simp [hd]

/-- What is stored for a period are the rows of its days. -/
theorem rowsIn_eq_flatMap (hs : s.Valid) (p : Period) : s.rowsIn p = p.days.flatMap s.rowsOn := by
  unfold rowsIn
  split
  · next hp => rw [Period.days_of_isReversed hp, List.flatMap_nil]
  · have := hs.byDay.flatMap_filter fun n => decide (p.interval.Contains n)
    simp only [Period.interval_contains_iff, Bool.decide_eq_true] at this
    rw [this]
    exact (hs.byDay.inOrder_flatMap.flatMap_days p).symm

/-- What is stored for a period is in order of days. -/
theorem inOrder_rowsIn (hs : s.Valid) (p : Period) : InOrder (s.rowsIn p) := by
  unfold rowsIn
  split
  · exact List.Pairwise.nil
  · exact (hs.byDay.sublist List.filter_sublist).inOrder_flatMap

/-- The days that a store covers are those of the periods that it says it covers. -/
theorem exists_mem_covered_iff (hs : s.Valid) (d : Date) :
    (∃ p ∈ s.covered, p.contains d = true) ↔ s.Covers d := by
  have hback : s.covered.map Period.interval = s.coverage.intervals := by
    refine Period.map_interval_filterMap fun i hi => ?_
    obtain ⟨h1, h2⟩ := hs.inCalendar i hi
    exact Period.exists_interval_eq (hs.ascending.nonempty i hi) h1 h2
  rw [Covers, Coverage.Covers, ← hback]
  simp [Period.interval_contains_iff]

/-- The number of rows. -/
theorem size_eq_length {α : Type} (s : Store α) : s.size = s.contents.length := by
  rw [size, contents, List.length_flatMap, List.sum_eq_foldr, List.foldr_map]

/-- No group is empty, so that a store without groups is one without rows. -/
theorem isEmpty_iff (hs : s.Valid) : s.isEmpty = true ↔ s.size = 0 := by
  rw [size_eq_length, List.length_eq_zero_iff, isEmpty, List.isEmpty_iff, contents,
    List.flatMap_eq_nil_iff]
  constructor
  · intro h x hx
    rw [h] at hx
    exact absurd hx (by simp)
  · intro h
    rw [List.eq_nil_iff_forall_not_mem]
    exact fun x hx => hs.byDay.nonempty x hx (h x hx)

end Store

end Timesheet
