import Timesheet.Proofs.Retrieval.Transparency
/-!
# Pages tile what is selected

The pages of a request cut the rows that it selects into stretches of one size: each row has its place on
one page, and a page says that there are more exactly if rows are left behind it (`Export.IsTiled`).  So the
pages up to the first behind which there are no more make up all rows, in their order.

This is so as long as the number of rows before a page is one of 64 bits.  A page further on starts with the
rows of another (`Export.third_page_has_first_row`), but nobody asks for it who reads page by page up to the
last.

To fetch a period is to read its pages up to this one.  It succeeds exactly if the rows fit into the pages
allowed, and otherwise it fails once all of these have been asked for (`Export.pages_tile`).
-/

namespace Timesheet

namespace Export

variable {size k : Nat}

/-! ## 1. Positions -/

/-- The positions before page `k` and those on it are the positions up to its end. -/
theorem pred_mul_add (hk : 0 < k) (size : Nat) : (k - 1) * size + size = k * size := by
  rw [← Nat.succ_mul, Nat.succ_eq_add_one, Nat.sub_add_cancel hk]

/-- A page is a stretch of the selected rows, unless the number of rows before it wraps around. -/
theorem page_eq (hsize : 0 < size) (e : Export) (q : Request) (hk : 0 < k)
    (hoffset : (k - 1) * size < UInt64.size) :
    e.page size q k =
      ⟨((e.selected q).drop ((k - 1) * size)).take size, decide (k * size < (e.selected q).length)⟩ := by
  have hbefore : rowsBefore size k = (k - 1) * size := by
    have hsucc := rowsBefore_succ hoffset
    rwa [Nat.sub_add_cancel hk] at hsucc
  have hleast : max size 1 = size := by omega
  have hmore : (!((e.selected q).drop (k * size)).isEmpty) =
      decide (k * size < (e.selected q).length) := by
    rw [Bool.eq_iff_iff, Bool.not_eq_true', Bool.eq_false_iff, ne_eq, List.isEmpty_iff,
      List.drop_eq_nil_iff, Nat.not_le, decide_eq_true_eq]
  simp only [page, hleast, hbefore, List.drop_drop, pred_mul_add hk, hmore]

/-- **The pages up to the first behind which there are no more make up all rows.**  It is the one with which
the rows come to their end, and the number of rows before it has not wrapped around. -/
theorem exists_last_page (hsize : 0 < size) (e : Export) (q : Request) :
    ∃ n, 0 < n ∧ (∀ k, 0 < k → k < n → (e.page size q k).hasMore = true) ∧
      (e.page size q n).hasMore = false ∧
      ((List.range' 1 n).flatMap fun k => (e.page size q k).rows) = e.selected q := by
  obtain ⟨n, hn⟩ : ∃ n, max 1 ((e.selected q).length ⌈/⌉ size) = n := ⟨_, rfl⟩
  have hpos : 0 < n := by omega
  obtain ⟨hall, hmany⟩ := (pages_eq_iff hsize hpos).mp hn
  have hoffset : (n - 1) * size < UInt64.size := by
    by_cases hone : 1 < n
    · exact (hmany hone).trans (e.length_selected_lt q)
    · rw [show n - 1 = 0 by omega, Nat.zero_mul]
      decide
  refine ⟨n, hpos, fun k hk hkn => ?_, ?_, ?_⟩
  · have hbefore := Nat.mul_le_mul_right size (show k - 1 ≤ n - 1 by omega)
    have hend := Nat.mul_le_mul_right size (show k ≤ n - 1 by omega)
    rw [page_eq hsize e q hk (by omega), decide_eq_true_eq]
    exact Nat.lt_of_le_of_lt hend (hmany (by omega))
  · rw [page_eq hsize e q hpos hoffset, decide_eq_false_iff_not]
    omega
  · have hleast : max size 1 = size := by omega
    rw [flatMap_pages e q (by rwa [hleast]), hleast, List.take_of_length_le hall]

/-- The pages of a request tile what it selects, as far as the rows before a page can be counted in 64
bits. -/
structure IsTiled (e : Export) (size : Nat) (q : Request) : Prop where
  /-- Page `k` has the rows at the positions from `(k - 1) * size` on, up to `k * size`. -/
  getElem?_rows : ∀ k, 0 < k → (k - 1) * size < UInt64.size → ∀ i, (e.page size q k).rows[i]? =
    if (k - 1) * size + i < k * size then (e.selected q)[(k - 1) * size + i]? else none
  length_rows : ∀ k, 0 < k → (k - 1) * size < UInt64.size →
    (e.page size q k).rows.length = min (k * size) (e.selected q).length - (k - 1) * size
  hasMore_iff : ∀ k, 0 < k → (k - 1) * size < UInt64.size →
    ((e.page size q k).hasMore = true ↔ k * size < (e.selected q).length)
  /-- A page behind all rows is empty. -/
  past_end : ∀ k, 0 < k → (k - 1) * size < UInt64.size → (e.selected q).length ≤ (k - 1) * size →
    e.page size q k = ⟨[], false⟩
  /-- The pages up to the first behind which there are no more make up all rows. -/
  exists_last : ∃ n, 0 < n ∧ (∀ k, 0 < k → k < n → (e.page size q k).hasMore = true) ∧
    (e.page size q n).hasMore = false ∧
    ((List.range' 1 n).flatMap fun k => (e.page size q k).rows) = e.selected q

/-- **Pages tile what is selected**, whatever their size. -/
theorem isTiled (hsize : 0 < size) (e : Export) (q : Request) : e.IsTiled size q := by
  constructor
  case getElem?_rows =>
    intro k hk hoffset i
    have hend := pred_mul_add hk size
    rw [page_eq hsize e q hk hoffset, List.getElem?_take, List.getElem?_drop]
    exact if_congr (by omega) rfl rfl
  case length_rows =>
    intro k hk hoffset
    have hend := pred_mul_add hk size
    rw [page_eq hsize e q hk hoffset, List.length_take, List.length_drop]
    omega
  case hasMore_iff =>
    intro k hk hoffset
    rw [page_eq hsize e q hk hoffset, decide_eq_true_eq]
  case past_end =>
    intro k hk hoffset hpast
    have hend := pred_mul_add hk size
    have hnone : decide (k * size < (e.selected q).length) = false := decide_eq_false (by omega)
    rw [page_eq hsize e q hk hoffset, List.drop_of_length_le hpast, List.take_nil, hnone]
  case exists_last => exact exists_last_page hsize e q

end Export

/-! ## 2. Fetching a period -/

namespace Coordinator

/-- The rows of a period fit exactly if they fit as the rows that a request for the period selects. -/
theorem fits_iff_selected {size : Nat} (hsize : 0 < size) (c : Coordinator) (e : Export) (p : Period) :
    c.fits e size p = true ↔ (e.selected (.all p)).length ≤ c.pages * size := by
  have hleast : max size 1 = size := by omega
  rw [fits, hleast, decide_eq_true_eq, Export.selected_all]

end Coordinator

/-- **The pages of an export tile what a request selects, and a period is fetched exactly if its rows fit into
the pages allowed.**  If they do not, fetching it fails after one call for each of these pages.  The pages
tile the rows as far as the number of rows before a page is one of 64 bits; how many rows and pages there
are does not matter for the fetch. -/
theorem Export.pages_tile {size : Nat} (hsize : 0 < size) (e : Export) :
    (∀ q, e.IsTiled size q) ∧
    ∀ (c : Coordinator) (p : Period) (s : Session),
      ((c.fetchPeriod (e.source size) p s).1 = .ok (e.selected (.all p)) ↔
        (e.selected (.all p)).length ≤ c.pages * size) ∧
      (¬ (e.selected (.all p)).length ≤ c.pages * size →
        ∃ s', c.fetchPeriod (e.source size) p s = (.error (.tooManyPages p c.pages), s') ∧
          s'.calls = s.calls ++ p.calls c.pages) := by
  refine ⟨e.isTiled hsize, fun c p s => ?_⟩
  have hsource : (e.source size).Serves e size := fun _ _ _ => Or.inl rfl
  have hanswers : (e.source size).Answers s (c.fetchPeriod (e.source size) p s).2 :=
    fun _ _ _ _ => ⟨_, rfl⟩
  obtain ⟨s', hfetch, hcalls, -⟩ := Coordinator.fetchPeriod_serves hsource hanswers
  rw [hfetch, ← c.fits_iff_selected hsize, ← Export.selected_all]
  cases hfits : c.fits e size p with
  | true => simp
  | false =>
    have hpages : min c.pages (e.pageCount size p) = c.pages := by
      have hmany := (c.fits_iff e size p).not.mp (by simp [hfits])
      omega
    refine ⟨by simp, fun _ => ⟨s', rfl, ?_⟩⟩
    rw [hcalls, Coordinator.callsFor, hpages]

/-- Three rows take up two pages of two rows.  If only one page is allowed, it is asked for in vain. -/
theorem Export.three_rows_on_two_pages :
    let e : Export :=
      { rows := [Coordinator.rowAt 1 1 5 0, Coordinator.rowAt 2 1 7 0, Coordinator.rowAt 3 2 9 0] }
    let p : Period := ⟨.clamp 1, .clamp 2⟩
    let c : Coordinator := { directory := {}, pageLimit := 1 }
    (e.selected (.all p)).length = 3 ∧
      (e.page 2 (.all p) 1).hasMore = true ∧ (e.page 2 (.all p) 2).hasMore = false ∧
      (e.page 2 (.all p) 2).rows.length = 1 ∧ e.page 2 (.all p) 3 = ⟨[], false⟩ ∧
      (({ c with pageLimit := 2 } : Coordinator).fetchPeriod (e.source 2) p {}).1 =
        .ok (e.selected (.all p)) ∧
      ∃ s', c.fetchPeriod (e.source 2) p {} = (.error (.tooManyPages p 1), s') ∧
        s'.calls = p.calls 1 := by
  intro e p c
  have hlength : (e.selected (.all p)).length = 3 := by decide +kernel
  obtain ⟨htiled, hfetch⟩ := pages_tile (by decide : 0 < 2) e
  have hpages := htiled (.all p)
  refine ⟨hlength, ?_, ?_, ?_, ?_, ?_, ?_⟩
  · rw [hpages.hasMore_iff 1 (by decide) (by decide), hlength]
    decide
  · rw [← Bool.not_eq_true, hpages.hasMore_iff 2 (by decide) (by decide), hlength]
    decide
  · rw [hpages.length_rows 2 (by decide) (by decide), hlength]
    rfl
  · exact hpages.past_end 3 (by decide) (by decide) (by rw [hlength]; decide)
  · exact (hfetch { c with pageLimit := 2 } p {}).1.mpr (by rw [hlength]; decide)
  · exact (hfetch c p {}).2 (by rw [hlength]; decide)

/-- On pages of `2 ^ 63` rows the number of rows before the third wraps around to none, so that the only row
is there again, although the first page has no more after it.  And a limit of no pages lets one through. -/
theorem Export.third_page_has_first_row :
    let e : Export := { rows := [Coordinator.rowAt 1 1 5 0] }
    let p : Period := ⟨.clamp 1, .clamp 1⟩
    let c : Coordinator := { directory := {}, pageLimit := 0 }
    e.page (2 ^ 63) (.all p) 1 = ⟨e.rows, false⟩ ∧ e.page (2 ^ 63) (.all p) 3 = ⟨e.rows, false⟩ ∧
      (c.fetchPeriod (e.source 1) p {}).1 = .ok (e.selected (.all p)) ∧
      ¬ (e.selected (.all p)).length ≤ c.pageLimit * 1 := by
  decide +kernel

end Timesheet
