import Mathlib.Data.List.Induction
import Timesheet.Proofs.Coverage.Contents
/-!
# What a store holds after any number of puts

A sequence of puts is a list of batches: rows, each time handed over for a period.  On each day the
last batch whose period contains the day holds, and what it has for other days is lost.  A store that
starts empty answers exactly so (`Store.ofBatches_reflects`): its rows and its coverage, which change
by different algorithms, never come apart.

The induction is on the batches, from the last one back.  What is carried is that the store is valid
(`valid_ofBatches`), the days that it covers (`covers_ofBatches`) and the rows that it has for each of
them (`rowsOn_ofBatches`).
-/

namespace Timesheet

/-- Rows that are handed over for a period. -/
structure Batch (α : Type) where
  period : Period
  rows : List α

namespace Batch

variable {α : Type} [Dated α]

/-- The batch that holds for a day: the last one whose period contains it. -/
def lastFor? (batches : List (Batch α)) (d : Date) : Option (Batch α) :=
  batches.reverse.find? (·.period.contains d)

/-- The rows of a day: those dated so in the batch that holds for it, in their order. -/
def rowsFor (batches : List (Batch α)) (d : Date) : List α :=
  match lastFor? batches d with
  | none => []
  | some b => b.rows.filter fun r => Dated.date r = d

theorem rowsFor_append (batches : List (Batch α)) (b : Batch α) (d : Date) :
    rowsFor (batches ++ [b]) d =
      if b.period.contains d then b.rows.filter (fun r => Dated.date r = d)
      else rowsFor batches d := by
  rw [rowsFor, lastFor?, List.reverse_concat, List.find?_cons]
  by_cases hd : b.period.contains d = true
  · simp [hd]
  · simp [hd, rowsFor, lastFor?]

end Batch

namespace Store

variable {α : Type} [Dated α]

/-- The store after batches are put, one after the other. -/
def ofBatches (batches : List (Batch α)) : Store α :=
  batches.foldl (fun s b => s.put b.period b.rows) empty

theorem ofBatches_append (batches : List (Batch α)) (b : Batch α) :
    ofBatches (batches ++ [b]) = (ofBatches batches).put b.period b.rows := by
  rw [ofBatches, List.foldl_append]
  rfl

/-- What a store must answer after batches are put, of which the last one holds on each day. -/
structure Reflects (s : Store α) (batches : List (Batch α)) : Prop where
  /-- The days of periods that run forward are covered. -/
  covers : ∀ d, s.Covers d ↔
    ∃ b ∈ batches, b.period.first ≤ b.period.last ∧ b.period.first ≤ d ∧ d ≤ b.period.last
  /-- These are the days that the store says it covers. -/
  covered : ∀ d, (∃ p ∈ s.covered, p.contains d = true) ↔ s.Covers d
  /-- The rows come in order of days, and those of each day as its last batch has them. -/
  rows : ∀ p, (s.get p).rows = p.days.flatMap (Batch.rowsFor batches)
  /-- What is missing are the longest runs of days that are not covered, -/
  missing : ∀ p r, r ∈ (s.get p).missing ↔ p.IsRun (fun d => ¬ s.Covers d) r
  /-- in ascending order, each of them once, -/
  apart : ∀ p, (s.get p).missing.Pairwise fun q r => q.last < r.first
  /-- and none of them is lost on the way from day numbers to dates. -/
  kept : ∀ p, (s.get p).missing.map Period.interval = s.coverage.missing p.interval
  /-- Both ways to ask for it agree. -/
  agrees : ∀ p, s.missing p = (s.get p).missing
  /-- The size counts the rows of all days of the calendar. -/
  size : s.size = ((⟨.first, .last⟩ : Period).days.flatMap (Batch.rowsFor batches)).length
  isEmpty : s.isEmpty = true ↔ s.size = 0
  /-- A period that runs backwards changes nothing -/
  put_reversed : ∀ p rows, p.last < p.first → s.put p rows = s
  /-- and returns nothing. -/
  get_reversed : ∀ p, p.last < p.first → (s.get p).rows = [] ∧ (s.get p).missing = []

/-! ## The induction on the batches -/

theorem valid_ofBatches (batches : List (Batch α)) : (ofBatches batches).Valid := by
  induction batches using List.reverseRecOn with
  | nil => exact valid_empty
  | append_singleton batches b ih =>
    rw [ofBatches_append]
    exact ih.put b.period b.rows

theorem covers_ofBatches (batches : List (Batch α)) (d : Date) :
    (ofBatches batches).Covers d ↔ ∃ b ∈ batches, b.period.contains d = true := by
  induction batches using List.reverseRecOn with
  | nil => simp [ofBatches, empty, Covers]
  | append_singleton batches b ih =>
    rw [ofBatches_append, covers_put, ih]
    simp [or_and_right, exists_or]

theorem rowsOn_ofBatches (batches : List (Batch α)) (d : Date) :
    (ofBatches batches).rowsOn d = Batch.rowsFor batches d := by
  induction batches using List.reverseRecOn with
  | nil => rfl
  | append_singleton batches b ih =>
    rw [ofBatches_append, rowsOn_put (valid_ofBatches batches), ih, Batch.rowsFor_append]

/-- All rows of a valid store, day by day. -/
theorem contents_eq_flatMap {s : Store α} (hs : s.Valid) :
    s.contents = (⟨.first, .last⟩ : Period).days.flatMap s.rowsOn := by
  have hall : ∀ d : Date, (⟨.first, .last⟩ : Period).contains d = true :=
    fun d => Period.contains_iff.mpr ⟨d.first_le, d.le_last⟩
  have h := hs.byDay.inOrder_flatMap.flatMap_days ⟨.first, .last⟩
  rw [List.filter_eq_self.mpr fun a _ => hall (Dated.date a)] at h
  exact h.symm

/-- **A store is a map from days to rows in which the last put wins**, together with the exact set of
days that have been put. -/
theorem ofBatches_reflects (batches : List (Batch α)) : (ofBatches batches).Reflects batches := by
  have hv := valid_ofBatches batches
  have hrows : (ofBatches batches).rowsOn = Batch.rowsFor batches :=
    funext (rowsOn_ofBatches batches)
  refine
    { covers := ?_
      covered := exists_mem_covered_iff hv
      rows := ?_
      missing := fun p r => mem_missing_iff_isRun hv.ascending
      apart := ?_
      kept := map_interval_missing hv.ascending
      agrees := fun _ => rfl
      size := ?_
      isEmpty := isEmpty_iff hv
      put_reversed := ?_
      get_reversed := ?_ }
  · intro d
    rw [covers_ofBatches]
    simp only [Period.contains_iff, Date.le_def]
    refine exists_congr fun b => and_congr_right fun _ => ?_
    omega
  · intro p
    rw [← hrows]
    exact rowsIn_eq_flatMap hv p
  · intro p
    refine (missing_apart hv.ascending p).imp fun h => ?_
    rw [Date.lt_def]
    omega
  · rw [size_eq_length, contents_eq_flatMap hv, hrows]
  · intro p rows hp
    rw [put, if_pos (by simpa [Period.isReversed] using hp)]
  · intro p hp
    have hrev : p.isReversed = true := by simpa [Period.isReversed] using hp
    refine ⟨by rw [get, rowsIn, if_pos hrev], ?_⟩
    rw [get, missing, Coverage.missing, if_pos (Period.isReversed_iff.mp hrev)]
    rfl

end Store

end Timesheet
