import Mathlib.Algebra.Order.Floor.Div
import Timesheet.Proofs.Retrieval.Reference
import Timesheet.Proofs.Retrieval.Stretches
/-!
# Fetching from an export

A source serves an export if each answer that it gives is the page asked for; any call may fail
(`Source.Serves`).  What such a source gives in a stretch of pages are the first rows of the period
(`Stretch.GivenBy.rows_eq_take`), and all of them if the stretch is complete (`Stretch.GivenBy.rows_eq`),
whatever the size of a page.  So it is known beforehand what is fetched with how many calls, if all of them
are answered: of one period (`fetchPeriod_serves`), and of several, up to the first whose rows do not fit
into the pages allowed (`fetchAll_serves`).

The number of rows before a page is one of 64 bits.  It does not wrap around in what is fetched: after the
first page, one is asked for only if rows are left for it, and an export has no more rows than can be counted
(`Stretch.GivenBy.offset_lt`).
-/

namespace Timesheet

/-! ## 1. The rows of an export -/

namespace Export

variable {size page : Nat}

/-- A request for all rows of a period selects just these. -/
theorem selected_all (e : Export) (p : Period) : e.selected (.all p) = e.rowsBetween p := by
  refine List.filter_congr fun r _ => ?_
  simp only [Request.selects, Request.all, Request.narrows]
  cases r.startDate? <;> simp

theorem length_selected_lt (e : Export) (q : Request) : (e.selected q).length < UInt64.size :=
  Nat.lt_of_le_of_lt (List.length_filter_le _ _) e.rows_lt

/-- There are no rows before the first page. -/
theorem zero_mul_lt (size : Nat) : 0 * max size 1 < UInt64.size := by
  rw [Nat.zero_mul]
  decide

/-- The rows before a page are those of the pages before it, unless their number wraps around. -/
theorem rowsBefore_succ (h : page * size < UInt64.size) : rowsBefore size (page + 1) = page * size := by
  have hpage : max (page + 1) 1 - 1 = page := by omega
  rw [rowsBefore, hpage, Nat.mod_eq_of_lt h]

/-- The rows of the pages up to the `page`-th, counted from 1, are the first of those selected. -/
theorem take_selected_append (e : Export) (q : Request) (h : page * max size 1 < UInt64.size) :
    (e.selected q).take (page * max size 1) ++ (e.page size q (page + 1)).rows =
      (e.selected q).take ((page + 1) * max size 1) := by
  simp only [Export.page, rowsBefore_succ h]
  rw [Nat.add_mul, Nat.one_mul, List.take_add]

/-- There are more pages exactly if rows are left. -/
theorem hasMore_iff_selected (e : Export) (q : Request) (h : page * max size 1 < UInt64.size) :
    (e.page size q (page + 1)).hasMore = true ↔
      (page + 1) * max size 1 < (e.selected q).length := by
  simp only [Export.page, rowsBefore_succ h]
  rw [List.drop_drop, Bool.not_eq_true', Bool.eq_false_iff, ne_eq, List.isEmpty_iff,
    List.drop_eq_nil_iff, Nat.add_mul, Nat.one_mul]
  omega

/-- If there are more pages after one, the number of rows before the next has not wrapped around. -/
theorem offset_lt_of_hasMore (e : Export) (q : Request) (h : page * max size 1 < UInt64.size)
    (hmore : (e.page size q (page + 1)).hasMore = true) : (page + 1) * max size 1 < UInt64.size :=
  ((e.hasMore_iff_selected q h).mp hmore).trans (e.length_selected_lt q)

/-- The rows of the first `n` pages are the first of those selected. -/
theorem flatMap_pages (e : Export) (q : Request) {n : Nat} (h : (n - 1) * max size 1 < UInt64.size) :
    ((List.range' 1 n).flatMap fun k => (e.page size q k).rows) =
      (e.selected q).take (n * max size 1) := by
  induction n with
  | zero => simp
  | succ n ih =>
    have hbefore : (n - 1) * max size 1 ≤ n * max size 1 := Nat.mul_le_mul_right _ (Nat.sub_le _ _)
    rw [Nat.add_sub_cancel] at h
    rw [List.range'_1_concat, List.flatMap_append, ih (by omega), List.flatMap_singleton, Nat.add_comm 1 n,
      take_selected_append e q h]

/-- The rows of a period that belong to one of its days. -/
theorem filter_rowsBetween (e : Export) {p : Period} {d : Date} (hd : p.contains d = true) :
    (e.rowsBetween p).filter (fun r => Dated.date r = d) = e.rowsOn d := by
  rw [rowsBetween, List.filter_filter]
  refine List.filter_congr fun r _ => ?_
  show (decide (r.date = d) && _) = _
  rw [Row.date]
  cases hr : r.startDate? with
  | none => simp
  | some d' =>
    by_cases h : d' = d
    · simp [h, hd]
    · simp [h]

/-- The pages that hold some rows, at least one: fewer pages do not hold them. -/
theorem pages_eq_iff {rows n : Nat} (hsize : 0 < size) (hn : 0 < n) :
    max 1 (rows ⌈/⌉ size) = n ↔ rows ≤ n * size ∧ (1 < n → (n - 1) * size < rows) := by
  have hle : ∀ k, rows ⌈/⌉ size ≤ k ↔ rows ≤ k * size := by
    intro k
    rw [ceilDiv_le_iff_le_mul hsize, Nat.mul_comm]
  have hn' := hle n
  have hpred := hle (n - 1)
  omega

/-- The number of pages that the rows of a period take up. -/
def pageCount (e : Export) (size : Nat) (p : Period) : Nat :=
  max 1 ((e.rowsBetween p).length ⌈/⌉ max size 1)

end Export

/-! ## 2. Sources that serve an export -/

/-- Each answer of the source is a page of the export, unless the call fails. -/
def Source.Serves (source : Source) (e : Export) (size : Nat) : Prop :=
  ∀ call q page, source.answer call q page = .ok (e.page size q page) ∨
    ∃ err, source.answer call q page = .error err

/-- The calls made from one session to the next were all answered. -/
def Source.Answers (source : Source) (s s' : Session) : Prop :=
  ∀ n call, s.calls.length ≤ n → s'.calls[n]? = some call →
    ∃ page, source.answer (n + 1) call.request call.page = .ok page

section Answers

variable {source : Source} {s s₁ s' : Session}

theorem Source.Answers.later (h : source.Answers s s') (hle : s.calls.length ≤ s₁.calls.length) :
    source.Answers s₁ s' :=
  fun n call hn => h n call (Nat.le_trans hle hn)

/-- Calls that are answered are answered up to any point between. -/
theorem Source.Answers.earlier (h : source.Answers s s') (hgrow : s₁.calls <+: s'.calls) :
    source.Answers s s₁ := by
  intro n call hn hcall
  obtain ⟨added, hadded⟩ := hgrow
  obtain ⟨hlt, -⟩ := List.getElem?_eq_some_iff.mp hcall
  refine h n call hn ?_
  rw [← hadded, List.getElem?_append_left hlt, hcall]

end Answers

/-! ## 3. Stretches of an export -/

namespace Stretch

variable {source : Source} {e : Export} {size before : Nat} {x : Stretch}

/-- There are more pages after each of these but the last. -/
def IsLinked (x : Stretch) : Prop :=
  ∀ k page, x.pages[k]? = some page → k + 1 < x.pages.length → page.hasMore = true

theorem IsOpen.isLinked (h : x.IsOpen) : x.IsLinked :=
  fun _ page hk _ => h page (List.mem_of_getElem? hk)

theorem IsComplete.isLinked (h : x.IsComplete) : x.IsLinked :=
  fun k page hk hlt => (h.2 k page hk).mpr hlt

namespace GivenBy

/-- The pages that a source gives are those of the export. -/
theorem page_eq (hgiven : x.GivenBy source before) (hsource : source.Serves e size) {k : Nat} {page : Page}
    (hk : x.pages[k]? = some page) : page = e.page size (.all x.period) (k + 1) := by
  have hanswer := hgiven k page hk
  rcases hsource (before + k + 1) (.all x.period) (k + 1) with hpage | ⟨err, herr⟩
  · rw [hpage] at hanswer
    exact (Except.ok.inj hanswer).symm
  · rw [herr] at hanswer
    simp at hanswer

/-- **The number of rows before a page that is given has not wrapped around.**  The induction is on the
pages: after each one before it there are more. -/
theorem offset_lt (hgiven : x.GivenBy source before) (hsource : source.Serves e size)
    (hlinked : x.IsLinked) {k : Nat} (hk : k < x.pages.length) : k * max size 1 < UInt64.size := by
  induction k with
  | zero => exact Export.zero_mul_lt size
  | succ k ih =>
    have hpage := List.getElem?_eq_getElem (l := x.pages) (i := k) (by omega)
    have hmore := hlinked k _ hpage hk
    rw [hgiven.page_eq hsource hpage] at hmore
    exact e.offset_lt_of_hasMore _ (ih (by omega)) hmore

/-- A page has more after it exactly if rows are left. -/
theorem hasMore_iff (hgiven : x.GivenBy source before) (hsource : source.Serves e size)
    (hlinked : x.IsLinked) {k : Nat} {page : Page} (hk : x.pages[k]? = some page) :
    page.hasMore = true ↔ (k + 1) * max size 1 < (e.rowsBetween x.period).length := by
  obtain ⟨hlt, -⟩ := List.getElem?_eq_some_iff.mp hk
  rw [hgiven.page_eq hsource hk, e.hasMore_iff_selected _ (hgiven.offset_lt hsource hlinked hlt),
    e.selected_all]

/-- **The rows of a stretch are the first of the period.** -/
theorem rows_eq_take (hgiven : x.GivenBy source before) (hsource : source.Serves e size)
    (hlinked : x.IsLinked) :
    x.rows = (e.rowsBetween x.period).take (x.pages.length * max size 1) := by
  have hpages : x.pages =
      (List.range' 1 x.pages.length).map fun k => e.page size (.all x.period) k := by
    refine List.ext_getElem? fun k => ?_
    by_cases hk : k < x.pages.length
    · have hpage := List.getElem?_eq_getElem hk
      rw [hpage, hgiven.page_eq hsource hpage, List.getElem?_map, List.getElem?_range' hk, Nat.one_mul,
        Nat.add_comm 1 k, Option.map_some]
    · rw [List.getElem?_eq_none (by omega), List.getElem?_eq_none (by simpa using hk)]
  have hlast : (x.pages.length - 1) * max size 1 < UInt64.size := by
    by_cases hpos : 0 < x.pages.length
    · exact hgiven.offset_lt hsource hlinked (Nat.sub_lt hpos Nat.one_pos)
    · rw [show x.pages.length - 1 = 0 by omega]
      exact Export.zero_mul_lt size
  rw [rows, ← e.selected_all, ← e.flatMap_pages _ hlast, hpages, List.flatMap_map, List.length_map,
    List.length_range']

/-- The pages of a complete stretch hold all rows of the period. -/
theorem length_le (hgiven : x.GivenBy source before) (hsource : source.Serves e size)
    (hcomplete : x.IsComplete) : (e.rowsBetween x.period).length ≤ x.pages.length * max size 1 := by
  obtain ⟨last, hlast, hnoMore⟩ := hcomplete.exists_last
  have hmore := (hgiven.hasMore_iff hsource hcomplete.isLinked hlast).not.mp (by simp [hnoMore])
  rwa [Nat.sub_add_cancel hcomplete.pos, Nat.not_lt] at hmore

/-- **A complete stretch has all rows of the period.** -/
theorem rows_eq (hgiven : x.GivenBy source before) (hsource : source.Serves e size)
    (hcomplete : x.IsComplete) : x.rows = e.rowsBetween x.period := by
  rw [hgiven.rows_eq_take hsource hcomplete.isLinked,
    List.take_of_length_le (hgiven.length_le hsource hcomplete)]

/-- **A complete stretch has exactly the pages that its rows take up.** -/
theorem length_eq (hgiven : x.GivenBy source before) (hsource : source.Serves e size)
    (hcomplete : x.IsComplete) : x.pages.length = e.pageCount size x.period := by
  refine ((Export.pages_eq_iff (by omega) hcomplete.pos).mpr
    ⟨hgiven.length_le hsource hcomplete, fun hmany => ?_⟩).symm
  have hprev := List.getElem?_eq_getElem (l := x.pages) (i := x.pages.length - 2) (by omega)
  have hmore := (hcomplete.2 _ _ hprev).mpr (by omega)
  rw [hgiven.hasMore_iff hsource hcomplete.isLinked hprev] at hmore
  rwa [show x.pages.length - 2 + 1 = x.pages.length - 1 by omega] at hmore

/-- Pages that are open do not hold all rows. -/
theorem lt_of_isOpen (hgiven : x.GivenBy source before) (hsource : source.Serves e size)
    (hopen : x.IsOpen) (hpos : 0 < x.pages.length) :
    x.pages.length * max size 1 < (e.rowsBetween x.period).length := by
  have hlast := List.getElem?_eq_getElem (l := x.pages) (i := x.pages.length - 1) (by omega)
  have hmore := hopen _ (List.mem_of_getElem? hlast)
  rwa [hgiven.hasMore_iff hsource hopen.isLinked hlast, Nat.sub_add_cancel hpos] at hmore

end GivenBy

/-- Stretches that follow on each other have all rows of their periods. -/
theorem Follow.rows_eq {done : List Stretch} (h : Follow source before done)
    (hsource : source.Serves e size) : ∀ x ∈ done, x.rows = e.rowsBetween x.period := by
  induction done generalizing before with
  | nil => simp
  | cons x done ih =>
    obtain ⟨hgiven, hcomplete, hfollow⟩ := h
    exact List.forall_mem_cons.mpr ⟨hgiven.rows_eq hsource hcomplete, ih hfollow⟩

end Stretch

/-! ## 4. One period -/

namespace Coordinator

variable {c : Coordinator} {source : Source} {e : Export} {size : Nat} {s : Session}

/-- The rows of the period fit into the pages allowed. -/
def fits (c : Coordinator) (e : Export) (size : Nat) (p : Period) : Bool :=
  (e.rowsBetween p).length ≤ c.pages * max size 1

/-- The calls for the pages of a period, as far as they are allowed. -/
def callsFor (c : Coordinator) (e : Export) (size : Nat) (p : Period) : List Call :=
  p.calls (min c.pages (e.pageCount size p))

theorem pages_pos (c : Coordinator) : 0 < c.pages := by
  rw [pages]
  omega

/-- The rows fit exactly if their pages are allowed. -/
theorem fits_iff (c : Coordinator) (e : Export) (size : Nat) (p : Period) :
    c.fits e size p = true ↔ e.pageCount size p ≤ c.pages := by
  have hsize : 0 < max size 1 := by omega
  have hle := ceilDiv_le_iff_le_mul (b := (e.rowsBetween p).length) (c := c.pages) hsize
  have hpos := c.pages_pos
  rw [fits, decide_eq_true_eq, Export.pageCount, Nat.mul_comm, ← hle]
  omega

/-- **One call for each page of a period, as far as allowed; and the period is fetched if its rows
fit.** -/
theorem fetchPeriod_serves (hsource : source.Serves e size) {p : Period}
    (hanswers : source.Answers s (c.fetchPeriod source p s).2) :
    ∃ s', c.fetchPeriod source p s =
        (if c.fits e size p then .ok (e.rowsBetween p) else .error (.tooManyPages p c.pages), s') ∧
      s'.calls = s.calls ++ c.callsFor e size p ∧ s'.store = s.store := by
  obtain ⟨x, asked, result, s', hfetch, rfl, hgiven, hends, hcalls, hstore⟩ :=
    fetchPeriod_ends c source p s
  suffices h : result = (if c.fits e size x.period then .ok (e.rowsBetween x.period)
      else .error (.tooManyPages x.period c.pages)) ∧
      asked = min c.pages (e.pageCount size x.period) by
    exact ⟨s', by rw [hfetch, h.1], by rw [hcalls, h.2, callsFor], hstore⟩
  cases hends with
  | complete hcomplete hlimit =>
    have hlength := hgiven.length_eq hsource hcomplete
    have hfits : c.fits e size x.period = true := (c.fits_iff e size _).mpr (hlength ▸ hlimit)
    refine ⟨?_, ?_⟩
    · rw [if_pos hfits, hgiven.rows_eq hsource hcomplete]
    · rw [hlength, Nat.min_eq_right (hlength ▸ hlimit)]
  | @failed _ _ err herr =>
    -- the last call would have been answered
    rw [hfetch] at hanswers
    have hlast : s'.calls[s.calls.length + x.pages.length]? =
        some ⟨.all x.period, x.pages.length + 1⟩ := by
      rw [hcalls, List.getElem?_append_right (by omega), Nat.add_sub_cancel_left]
      exact Period.getElem?_calls (Nat.lt_succ_self _)
    obtain ⟨page, hpage⟩ := hanswers _ _ (Nat.le_add_right _ _) hlast
    rw [herr] at hpage
    exact absurd hpage (by simp)
  | tooMany hopen hlimit =>
    have hpos : 0 < x.pages.length := hlimit ▸ c.pages_pos
    have hmany := hgiven.lt_of_isOpen hsource hopen hpos
    have hfits : c.fits e size x.period = false := by
      rw [fits, decide_eq_false_iff_not, Nat.not_le, ← hlimit]
      exact hmany
    have hle : ¬ e.pageCount size x.period ≤ c.pages := by
      rw [← c.fits_iff e size, hfits]
      exact Bool.false_ne_true
    refine ⟨?_, ?_⟩
    · rw [hfits, if_neg Bool.false_ne_true]
    · rw [Nat.min_eq_left (by omega), hlimit]

/-! ## 5. Several periods -/

/-- Of some periods, those that are tried: the first whose rows do not fit is the last. -/
def tried (c : Coordinator) (e : Export) (size : Nat) : List Period → List Period
  | [] => []
  | p :: rest => if c.fits e size p then p :: tried c e size rest else [p]

/-- What comes of fetching periods: the first whose rows do not fit is too large. -/
def outcome (c : Coordinator) (e : Export) (size : Nat) (periods : List Period) :
    Except ReportError Unit :=
  match periods.find? (!c.fits e size ·) with
  | none => .ok ()
  | some p => .error (.tooManyPages p c.pages)

theorem outcome_eq_ok {periods : List Period} (h : ∀ p ∈ periods, c.fits e size p = true) :
    c.outcome e size periods = .ok () := by
  rw [outcome, List.find?_eq_none.mpr fun p hp => by simp [h p hp]]

/-- **The calls for periods are those for each that is tried.**  The induction is on the periods. -/
theorem fetchAll_serves (hsource : source.Serves e size) {periods : List Period}
    (hanswers : source.Answers s (c.fetchAll source periods s).2) :
    ∃ s', c.fetchAll source periods s = (c.outcome e size periods, s') ∧
      s'.calls = s.calls ++ (c.tried e size periods).flatMap (c.callsFor e size) := by
  induction periods generalizing s with
  | nil => exact ⟨s, rfl, (List.append_nil _).symm⟩
  | cons p rest ih =>
    have hfirst : source.Answers s (c.fetchPeriod source p s).2 := by
      refine hanswers.earlier ?_
      simp only [fetchAll]
      rcases c.fetchPeriod source p s with ⟨err | rows, s₁⟩
      · exact List.prefix_rfl
      · exact calls_prefix_fetchAll c source rest { s₁ with store := s₁.store.put p rows }
    obtain ⟨s₁, hfetch, hcalls, -⟩ := fetchPeriod_serves hsource hfirst
    cases hfits : c.fits e size p with
    | true =>
      rw [hfits, if_pos rfl] at hfetch
      simp only [fetchAll, hfetch] at hanswers ⊢
      obtain ⟨s', hrest, hcalls'⟩ := ih (hanswers.later (by simp [hcalls]))
      refine ⟨s', ?_, ?_⟩
      · rw [hrest, outcome, outcome, List.find?_cons_of_neg (by simp [hfits])]
      · rw [hcalls', hcalls, tried, if_pos hfits, List.flatMap_cons, List.append_assoc]
    | false =>
      rw [hfits, if_neg Bool.false_ne_true] at hfetch
      refine ⟨s₁, ?_, ?_⟩
      · rw [fetchAll, hfetch, outcome, List.find?_cons_of_pos (by simp [hfits])]
      · rw [hcalls, tried, if_neg (by simp [hfits]), List.flatMap_singleton]

end Coordinator

end Timesheet
