import Timesheet.Proofs.Coverage.Batches
/-!
# Filling what is missing

What a store misses of a period is a list of runs.  When the first of them is put, the others are
missing as before, and nothing else is (`Store.missing_put`); so a list of runs can be worked off from
the front, and whoever stops on the way finds exactly the rest when asking again
(`Store.missing_putAll`).

Behind this is that parts are determined by the integers that they hold (`Interval.Parts.unique`):
taking the first part away leaves parts of what is left.
-/

namespace Timesheet

/-! ## 1. Parts are determined by what they hold -/

namespace Interval.Parts

variable {P : Int → Prop} {i p : Interval} {parts parts' : List Interval}

/-- **There is only one list of parts**: its members are the longest runs, and their order is given. -/
theorem unique (h : Parts P i parts) (h' : Parts P i parts') : parts = parts' :=
  h.ascending.eq_of_mem_iff h'.ascending fun _ => h.mem_iff_isRun.trans h'.mem_iff_isRun.symm

/-- Without its first part, a list of parts holds what lies outside that part. -/
theorem tail (h : Parts P i (p :: parts)) : Parts (fun n => P n ∧ ¬ p.Contains n) i parts := by
  obtain ⟨hfirst, hrest⟩ := List.pairwise_cons.mp h.apart
  refine ⟨?_, ?_, hrest, fun n => ?_⟩
  · exact fun q hq => h.nonempty q (List.mem_cons_of_mem _ hq)
  · exact fun q hq => h.within q (List.mem_cons_of_mem _ hq)
  · constructor
    · rintro ⟨q, hq, hn⟩
      obtain ⟨hi, hP⟩ := (h.contains n).mp ⟨q, List.mem_cons_of_mem _ hq, hn⟩
      refine ⟨hi, hP, fun hp => ?_⟩
      have hlt := hfirst q hq
      simp only [Contains] at hn hp
      omega
    · rintro ⟨hi, hP, hp⟩
      obtain ⟨q, hq, hn⟩ := (h.contains n).mpr ⟨hi, hP⟩
      rcases List.mem_cons.mp hq with rfl | hq
      · exact absurd hn hp
      · exact ⟨q, hq, hn⟩

end Interval.Parts

/-! ## 2. Putting missing runs -/

namespace Store

variable {α : Type} [Dated α] {s : Store α} {p r : Period} {rest : List Period}

/-- What a store misses, as intervals of day numbers. -/
theorem parts_map_missing (hs : s.Valid) (p : Period) :
    p.interval.Parts (fun n => ¬ s.coverage.Covers n) ((s.missing p).map Period.interval) := by
  rw [map_interval_missing hs.ascending]
  exact Coverage.parts_missing hs.ascending p.interval

/-- A missing part is a period that runs forward. -/
theorem not_isReversed_of_mem_missing (hs : s.Valid) (hr : r ∈ s.missing p) :
    r.isReversed = false := by
  have hne := (parts_map_missing hs p).nonempty _ (List.mem_map_of_mem hr)
  rw [Bool.eq_false_iff, ne_eq, Period.isReversed_iff, Bool.not_eq_true]
  exact Interval.isEmpty_eq_false_iff.mpr hne

/-- Nothing is missing exactly if all days are covered. -/
theorem missing_eq_nil_iff (hs : s.Valid) :
    s.missing p = [] ↔ ∀ d, p.contains d = true → s.Covers d := by
  constructor
  · intro hnil d hd
    by_contra hcov
    obtain ⟨r, hr, -⟩ := (exists_mem_missing_iff hs.ascending).mpr ⟨hd, hcov⟩
    rw [hnil] at hr
    exact List.not_mem_nil hr
  · intro hall
    rw [List.eq_nil_iff_forall_not_mem]
    intro r hr
    have hforward := (mem_missing_iff_isRun hs.ascending).mp hr |>.forward
    have hfirst : r.contains r.first = true := Period.contains_iff.mpr ⟨Int.le_refl _, hforward⟩
    obtain ⟨hp, hcov⟩ := (exists_mem_missing_iff hs.ascending).mp ⟨r, hr, hfirst⟩
    exact hcov (hall _ hp)

/-- **Once the first missing part is put, the others are what is missing.** -/
theorem missing_put (hs : s.Valid) (h : s.missing p = r :: rest) (rows : List α) :
    (s.put r rows).missing p = rest := by
  have hparts := parts_map_missing hs p
  rw [h, List.map_cons] at hparts
  have hforward := not_isReversed_of_mem_missing hs (h ▸ List.mem_cons_self)
  have hcovers : ∀ n, (s.put r rows).coverage.Covers n ↔
      s.coverage.Covers n ∨ r.interval.Contains n := by
    intro n
    rw [Store.put, if_neg (by simp [hforward])]
    exact Coverage.covers_insert _ _ n
  have hput := parts_map_missing (hs.put r rows) p
  simp only [hcovers, not_or] at hput
  have hmap := hput.unique hparts.tail
  exact (List.map_inj_right fun _ _ => Period.interval_injective).mp hmap

/-! ## 3. Putting several batches -/

/-- There are no rows on a day that is not covered. -/
theorem rowsOn_of_not_covers {batches : List (Batch α)} {d : Date}
    (hd : ¬ (ofBatches batches).Covers d) : (ofBatches batches).rowsOn d = [] := by
  have hnone : Batch.lastFor? batches d = none := by
    rw [Batch.lastFor?, List.find?_eq_none]
    intro b hb hdb
    exact hd ((covers_ofBatches batches d).mpr ⟨b, List.mem_reverse.mp hb, hdb⟩)
  rw [rowsOn_ofBatches, Batch.rowsFor, hnone]

/-- The store after batches are put, one after the other. -/
def putAll (s : Store α) (batches : List (Batch α)) : Store α :=
  batches.foldl (fun s b => s.put b.period b.rows) s

/-- More batches are put into what batches have made. -/
theorem putAll_ofBatches (batches more : List (Batch α)) :
    (ofBatches batches).putAll more = ofBatches (batches ++ more) :=
  List.foldl_append.symm

variable {batches : List (Batch α)}

theorem Valid.putAll (hs : s.Valid) (batches : List (Batch α)) : (s.putAll batches).Valid := by
  induction batches generalizing s with
  | nil => exact hs
  | cons b batches ih => exact ih (hs.put b.period b.rows)

theorem covers_putAll (s : Store α) (batches : List (Batch α)) (d : Date) :
    (s.putAll batches).Covers d ↔ s.Covers d ∨ ∃ b ∈ batches, b.period.contains d = true := by
  induction batches generalizing s with
  | nil => simp [putAll]
  | cons b batches ih =>
    have hcons : s.putAll (b :: batches) = (s.put b.period b.rows).putAll batches := rfl
    rw [hcons, ih, covers_put, or_assoc]
    simp

/-- Days that lie in none of the periods keep their rows. -/
theorem rowsOn_putAll (hs : s.Valid) {d : Date} (hd : ∀ b ∈ batches, b.period.contains d = false) :
    (s.putAll batches).rowsOn d = s.rowsOn d := by
  induction batches generalizing s with
  | nil => rfl
  | cons b batches ih =>
    have hcons : s.putAll (b :: batches) = (s.put b.period b.rows).putAll batches := rfl
    obtain ⟨hb, hbatches⟩ := List.forall_mem_cons.mp hd
    rw [hcons, ih (hs.put b.period b.rows) hbatches, rowsOn_put hs, hb]
    simp

/-- **After the first missing parts are put, the rest is missing.** -/
theorem missing_putAll (hs : s.Valid) (h : s.missing p = batches.map Batch.period ++ rest) :
    (s.putAll batches).missing p = rest := by
  induction batches generalizing s with
  | nil => exact h
  | cons b batches ih => exact ih (hs.put b.period b.rows) (missing_put hs h b.rows)

end Store

end Timesheet
