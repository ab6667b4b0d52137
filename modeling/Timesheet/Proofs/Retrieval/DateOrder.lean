import Timesheet.Proofs.Calendar.Clocks
import Timesheet.Proofs.Report.Groups
import Timesheet.Proofs.Retrieval.Interleaving
/-!
# The order of dates in an answer

Rows are stored by date and come into an answer in the order of their start, so that rows that start
together stay in the order of their dates.  A date is that of a local clock, while starts are compared
as points in time.  An answer is therefore in the order of dates exactly if no row of it is dated before
another that has started earlier (`inDateOrder_iff`), and then the groups by date are in order, too.

All clocks being set alike, this is so (`inDateOrder_of_offset`); with clocks apart by two hours it is not
(`dates_out_of_order`).
-/

namespace Timesheet

/-! ## 1. Sorted rows -/

/-- The dates come in ascending order, or in descending order if the query asks for it. -/
def InDateOrder (order : Option SortOrder) (dates : List Date) : Prop :=
  dates.Pairwise fun d d' => if order = some .descending then d' ≤ d else d ≤ d'

instance (order : Option SortOrder) (dates : List Date) : Decidable (InDateOrder order dates) :=
  inferInstanceAs (Decidable (List.Pairwise _ _))

namespace Filter

variable {l : List Row}

/-- What is in the order of days is sorted by start and date at once. -/
theorem mergeSort_startsBefore (hl : InOrder l) :
    l.mergeSort startsBefore = l.mergeSort (Sorting.lexLE startsBefore Row.byDate) := by
  have hsorted : l.mergeSort Row.byDate = l :=
    List.mergeSort_of_pairwise (hl.imp fun hab => decide_eq_true hab)
  rw [← Row.isOrder_startsBefore.mergeSort_mergeSort Row.isOrder_byDate, hsorted]

theorem inDateOrder_sortRows (order : Option SortOrder) (l : List Row) :
    InDateOrder order ((sortRows order l).map Row.date) ↔
      (l.mergeSort startsBefore).Pairwise fun a b => Row.byDate a b := by
  simp only [InDateOrder, sortRows, Row.byDate, decide_eq_true_eq, List.pairwise_map]
  split
  · rw [List.pairwise_reverse]
  · exact Iff.rfl

theorem mem_sortRows {order : Option SortOrder} {r : Row} :
    r ∈ sortRows order l ↔ r ∈ l.mergeSort startsBefore := by
  unfold sortRows
  split
  · exact List.mem_reverse
  · exact Iff.rfl

/-- **Rows of some days are in the order of their dates after they are sorted by their start** exactly if
none is dated before another that has started earlier. -/
theorem inDateOrder_sortRows_iff (hl : InOrder l) (order : Option SortOrder) :
    InDateOrder order ((sortRows order l).map Row.date) ↔
      ∀ a ∈ sortRows order l, ∀ b ∈ sortRows order l, a.date < b.date → startsBefore a b = true := by
  have hlex := Row.isOrder_startsBefore.lex Row.isOrder_byDate
  have hpair : (l.mergeSort startsBefore).Pairwise fun a b =>
      Sorting.lexLE startsBefore Row.byDate a b := by
    rw [mergeSort_startsBefore hl]
    exact List.pairwise_mergeSort hlex.trans hlex.total l
  have hlater : ∀ a b : Row, Row.byDate b a = false ↔ a.date < b.date := by
    intro a b
    simp only [Row.byDate, decide_eq_false_iff_not, Date.le_def, Date.lt_def]
    omega
  rw [inDateOrder_sortRows, Row.isOrder_byDate.pairwise_snd_iff hpair]
  simp only [mem_sortRows, hlater]

/-- Two rows change places if the second one has started earlier. -/
theorem mergeSort_pair {a b : Row} (h : startsBefore a b = false) :
    [a, b].mergeSort startsBefore = [b, a] := by
  simp [List.mergeSort, h]

end Filter

/-! ## 2. Clocks that are set alike -/

/-- The first entry of the row, if it has one, was made on a clock with this offset. -/
def Row.IsMadeAt (offset : Int) (r : Row) : Prop :=
  ∀ entry ∈ r.entries.head?, entry.start.offset = offset ∧ entry.start.OnClock

theorem Row.startsBefore_of_date_lt {offset : Int} {a b : Row} (ha : a.IsMadeAt offset)
    (hb : b.IsMadeAt offset) (hdate : a.date < b.date) : Filter.startsBefore a b = true := by
  simp only [date, startDate?] at hdate
  simp only [Filter.startsBefore, startInstant?]
  cases hx : a.entries.head? with
  | none => rfl
  | some x =>
    cases hy : b.entries.head? with
    | none =>
      -- a row without entries counts to the first day of the calendar, before which there is none
      rw [hy, Option.map_none, Option.getD_none, Date.lt_def] at hdate
      exact absurd hdate (Int.not_lt.mpr (Date.first_le _))
    | some y =>
      obtain ⟨hxoffset, hclock⟩ := ha x hx
      obtain ⟨hyoffset, -⟩ := hb y hy
      rw [hx, hy] at hdate
      exact decide_eq_true
        (Int.le_of_lt (Timestamp.instant_lt hclock (hxoffset.trans hyoffset.symm) hdate))

/-! ## 3. Answers -/

/-- **What is read from a store is in the order of dates** exactly if no row of it is dated before another
that has started earlier. -/
theorem inDateOrder_apply_iff {s : Store Row} (hs : s.Valid) (f : Filter) (d : Directory)
    (order : Option SortOrder) (p : Period) :
    InDateOrder order ((f.apply d order (s.rowsIn p)).map Row.date) ↔
      ∀ a ∈ f.apply d order (s.rowsIn p), ∀ b ∈ f.apply d order (s.rowsIn p),
        a.date < b.date → Filter.startsBefore a b = true :=
  Filter.inDateOrder_sortRows_iff ((Store.inOrder_rowsIn hs p).sublist List.filter_sublist) order

namespace Inquiries

open Coordinator (rowAt listOf)

variable {c : Coordinator} {source : Source} {asks : List Ask} {schedule : List Nat} {n : Nat}
  {a : Ask} {rows : List Row}

/-- **The rows of an answer that were made on clocks set alike are in the order of dates.** -/
theorem inDateOrder_of_offset (ha : asks[n]? = some a)
    (hrows : (reached c source asks schedule).answers[n]? = some (some (.ok rows))) {offset : Int}
    (hoffset : ∀ r ∈ rows, r.IsMadeAt offset) :
    InDateOrder a.query.sort (rows.map Row.date) := by
  obtain ⟨earlier, f, -, -, rfl, -⟩ := exists_read ha hrows
  refine (inDateOrder_apply_iff (sound_reached c source asks earlier).valid f _ _ _).mpr ?_
  exact fun r hr r' hr' => Row.startsBefore_of_date_lt (hoffset r hr) (hoffset r' hr')

/-- **An answer is in the order of dates exactly if no row of it is dated before another that has started
earlier**, for reports as for looks at the store, whatever else is asked and in whatever order the steps
come.  The groups by date of such an answer are in that order, too, each date once. -/
theorem inDateOrder_iff (ha : asks[n]? = some a)
    (hrows : (reached c source asks schedule).answers[n]? = some (some (.ok rows))) :
    (InDateOrder a.query.sort (rows.map Row.date) ↔
      ∀ r ∈ rows, ∀ r' ∈ rows, r.date < r'.date → Filter.startsBefore r r' = true) ∧
    (InDateOrder a.query.sort (rows.map Row.date) → a.query.grouping = some .date →
      ∃ days : List Date, InDateOrder a.query.sort days ∧ days.Nodup ∧
        (Report.groups a.query c.directory rows).map Report.Group.key = days.map Date.text) := by
  obtain ⟨earlier, f, -, -, rfl, -⟩ := exists_read ha hrows
  refine ⟨inDateOrder_apply_iff (sound_reached c source asks earlier).valid f _ _ _, ?_⟩
  intro hdates hgrouping
  exact ⟨_, hdates.sublist (Report.distinct_sublist _), Report.nodup_distinct _,
    Report.keys_groups_date hgrouping _ _⟩

/-- Two rows that were made on clocks two hours apart, and are in order.  They are listed by date, the
later date first. -/
theorem inDateOrder_of_two_clocks :
    let q : Query := { listOf 1 2 with sort := some .descending, grouping := some .date }
    (reached { directory := {} } (Export.source { rows := [rowAt 1 1 3600 0, rowAt 2 2 1800 120] } 50)
        [.report q] [0, 0, 0, 0, 0, 0, 0]).answers =
      [some (.ok [rowAt 2 2 1800 120, rowAt 1 1 3600 0])] ∧
    InDateOrder q.sort ([rowAt 2 2 1800 120, rowAt 1 1 3600 0].map Row.date) ∧
    ∃ days : List Date, InDateOrder q.sort days ∧ days.Nodup ∧
      (Report.groups q {} [rowAt 2 2 1800 120, rowAt 1 1 3600 0]).map Report.Group.key =
        days.map Date.text := by
  have hsort : Filter.sortRows (some .descending) [rowAt 1 1 3600 0, rowAt 2 2 1800 120] =
      [rowAt 2 2 1800 120, rowAt 1 1 3600 0] := by
    rw [Filter.sortRows, List.mergeSort_of_pairwise (by decide)]
    rfl
  have hrows : (reached { directory := {} }
      (Export.source { rows := [rowAt 1 1 3600 0, rowAt 2 2 1800 120] } 50)
      [.report { listOf 1 2 with sort := some .descending, grouping := some .date }]
      [0, 0, 0, 0, 0, 0, 0]).answers = [some (.ok [rowAt 2 2 1800 120, rowAt 1 1 3600 0])] := by
    rw [← hsort]
    rfl
  obtain ⟨hiff, hgroups⟩ := inDateOrder_iff (n := 0) (a := .report _) rfl
    (congrArg (fun answers => answers[0]?) hrows)
  have hdates := hiff.mpr (by decide)
  exact ⟨hrows, hdates, hgroups hdates rfl⟩

/-- Two rows that were made on clocks two hours apart, and are not in order: the one that is dated a day
later has started half an hour earlier, and comes first. -/
theorem dates_out_of_order :
    (reached { directory := {} } (Export.source { rows := [rowAt 1 1 82800 0, rowAt 2 2 1800 120] } 50)
        [.report (listOf 1 2), .cached (listOf 1 2)] [0, 0, 0, 0, 0, 0, 0, 1, 1]).answers =
      [some (.ok [rowAt 2 2 1800 120, rowAt 1 1 82800 0]),
        some (.ok [rowAt 2 2 1800 120, rowAt 1 1 82800 0])] ∧
    ¬ InDateOrder none ([rowAt 2 2 1800 120, rowAt 1 1 82800 0].map Row.date) := by
  have hsort : Filter.sortRows none [rowAt 1 1 82800 0, rowAt 2 2 1800 120] =
      [rowAt 2 2 1800 120, rowAt 1 1 82800 0] := Filter.mergeSort_pair (by decide)
  refine ⟨?_, by decide⟩
  rw [← hsort]
  rfl

end Inquiries

end Timesheet
