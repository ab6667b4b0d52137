import Mathlib.Data.List.Infix
import Timesheet.Proofs.Retrieval.Record
/-!
# Each day is answered from one fetch

A source may change its answers from call to call, give rows of other days, repeat rows or fail.  What
a coordinator answers is exact all the same, with respect to what it was given: each covered day lies in
one fetch that came to its end, and every answer consists of the rows which that fetch has for the day
(`Coordinator.AnswersExactly`).

Answers are stable for this reason: a complete stretch stays in the calls for good, so that later
fetches neither add to a covered day nor take from it.
-/

namespace Timesheet

/-! ## 1. What does not change any more -/

namespace Stretch

/-- What occurs in the calls occurs in them later, too. -/
theorem OccursAt.mono {x : Stretch} {source : Source} {calls calls' : List Call} {before : Nat}
    (h : x.OccursAt source calls before) (hgrow : calls <+: calls') :
    x.OccursAt source calls' before := by
  refine ⟨fun k hk => ?_, h.given, h.complete⟩
  obtain ⟨added, rfl⟩ := hgrow
  have hasked := h.asked k hk
  obtain ⟨hlt, -⟩ := List.getElem?_eq_some_iff.mp hasked
  rw [List.getElem?_append_left hlt, hasked]

end Stretch

namespace Coordinator

variable {c : Coordinator} {source : Source}

/-- Calls are only added. -/
theorem calls_prefix_report (c : Coordinator) (source : Source) (q : Query) (s : Session) :
    s.calls <+: (c.report source q s).2.calls := by
  rcases report_cases c source q s with ⟨err, -, hreport⟩ | ⟨f, fetched, s', -, hfetch, hreport⟩
  · rw [hreport]
  · have hgrow := calls_prefix_fetchAll c source (s.store.missing q.window) s
    rw [hfetch] at hgrow
    rwa [hreport]

theorem calls_prefix_after (c : Coordinator) (source : Source) (history later : List Ask) :
    (c.after source history).calls <+: (c.after source (history ++ later)).calls := by
  induction later using List.reverseRecOn with
  | nil => rw [List.append_nil]
  | append_singleton later a ih =>
    rw [← List.append_assoc, after_append]
    refine ih.trans ?_
    cases a with
    | cached q => exact List.prefix_rfl
    | report q => exact calls_prefix_report c source q _

/-! ## 2. Answers from a record -/

/-- The rows of a day, as its fetch has given them. -/
def fetchedOn (fetchOf : Date → Option (Nat × Stretch)) (d : Date) : List Row :=
  match fetchOf d with
  | none => []
  | some (_, x) => x.rows.filter fun r => Dated.date r = d

/-- The rows for a query, if each day of its window has the rows of its fetch. -/
def fetchedFor (c : Coordinator) (fetchOf : Date → Option (Nat × Stretch)) (q : Query) : List Row :=
  (q.window.days.flatMap (fetchedOn fetchOf)).filter (q.wants c.directory)

/-- After a history, `fetchOf` names for each covered day the one fetch that has covered it, by the
number of calls before it and its pages, and all answers come from these fetches. -/
structure AnswersExactly (c : Coordinator) (source : Source) (history : List Ask)
    (fetchOf : Date → Option (Nat × Stretch)) : Prop where
  /-- There is no other fetch of the day that came to its end. -/
  fetch_iff : ∀ d before x, fetchOf d = some (before, x) ↔
    x.OccursAt source (c.after source history).calls before ∧ x.period.contains d = true
  covered_iff : ∀ d, (c.after source history).store.Covers d ↔ (fetchOf d).isSome = true
  /-- What the store has for a query is what the fetches of its days have given, each row as often as
  it was given. -/
  cached : ∀ q found, c.cached q (c.after source history) = .ok found →
    found.rows.Perm (c.fetchedFor fetchOf q)
  /-- So is a report, and all its days are covered. -/
  reported : ∀ earlier q rows, history = earlier ++ [.report q] →
    (c.report source q (c.after source earlier)).1 = .ok rows →
    rows.Perm (c.fetchedFor fetchOf q) ∧ ∀ d, q.window.contains d = true → (fetchOf d).isSome = true
  /-- None of this is dated outside the window. -/
  within : ∀ q r, r ∈ c.fetchedFor fetchOf q → q.window.contains (Dated.date r) = true
  /-- The fetch of a day stays the same, whatever is asked later. -/
  lasting : ∀ later d before x, fetchOf d = some (before, x) →
    x.OccursAt source (c.after source (history ++ later)).calls before
  /-- Once all days of a window are covered, all later answers are the same, with nothing missing,
  and they are given without a call. -/
  stable : ∀ q, (∀ d, q.window.contains d = true → (fetchOf d).isSome = true) → ∀ later,
    c.cached q (c.after source (history ++ later)) = c.cached q (c.after source history) ∧
    c.report source q (c.after source (history ++ later)) =
      ((c.cached q (c.after source history)).map Lookup.rows, c.after source (history ++ later)) ∧
    ∀ found, c.cached q (c.after source history) = .ok found → found.missing = []

/-- The fetch of a day in a log. -/
def fetchIn (log : List (Nat × Stretch)) (d : Date) : Option (Nat × Stretch) :=
  log.find? fun a => a.2.period.contains d

end Coordinator

namespace Recorded

open Coordinator

variable {source : Source} {calls : List Call} {store : Store Row} {log : List (Nat × Stretch)}

/-- The fetch of a day is the one complete stretch in the calls to which the day belongs. -/
theorem fetchIn_eq_some_iff (h : Recorded source calls store log) (d : Date) (before : Nat)
    (x : Stretch) : fetchIn log d = some (before, x) ↔
      x.OccursAt source calls before ∧ x.period.contains d = true := by
  rw [h.occurs]
  constructor
  · intro hfind
    exact ⟨List.mem_of_find?_eq_some hfind,
      List.find?_some (p := fun a : Nat × Stretch => a.2.period.contains d) hfind⟩
  · rintro ⟨hmem, hd⟩
    cases hfind : fetchIn log d with
    | none => exact absurd hd (List.find?_eq_none.mp hfind _ hmem)
    | some a =>
      have hda := List.find?_some (p := fun a : Nat × Stretch => a.2.period.contains d) hfind
      rw [h.eq_of_contains (List.mem_of_find?_eq_some hfind) hmem hda hd]

theorem covers_iff_isSome (h : Recorded source calls store log) (d : Date) :
    store.Covers d ↔ (fetchIn log d).isSome = true := by
  rw [h.covers_iff, fetchIn, List.find?_isSome]

/-- **The rows of each day are those of its fetch.** -/
theorem rowsOn_eq (h : Recorded source calls store log) : store.rowsOn = fetchedOn (fetchIn log) := by
  funext d
  rw [fetchedOn]
  cases hfetch : fetchIn log d with
  | none =>
    refine h.rowsOn_of_not_covers fun hd => ?_
    rw [h.covers_iff_isSome, hfetch] at hd
    exact Bool.false_ne_true hd
  | some a =>
    obtain ⟨hoccurs, hd⟩ := (h.fetchIn_eq_some_iff d a.1 a.2).mp hfetch
    exact h.rowsOn_of_mem ((h.occurs _ _).mp hoccurs) hd

/-- Nothing is missing of a period all of whose days have been fetched. -/
theorem missing_eq_nil (h : Recorded source calls store log) {p : Period}
    (hp : ∀ d, p.contains d = true → (fetchIn log d).isSome = true) : store.missing p = [] :=
  (Store.missing_eq_nil_iff h.valid).mpr fun d hd => (h.covers_iff_isSome d).mpr (hp d hd)

variable {calls' : List Call} {store' : Store Row} {log' : List (Nat × Stretch)}

/-- The fetch of a day is the same in a later record. -/
theorem fetchIn_later (h : Recorded source calls store log) (h' : Recorded source calls' store' log')
    (hgrow : calls <+: calls') {d : Date} (hd : (fetchIn log d).isSome = true) :
    fetchIn log' d = fetchIn log d := by
  obtain ⟨⟨before, x⟩, hfetch⟩ := Option.isSome_iff_exists.mp hd
  obtain ⟨hoccurs, hx⟩ := (h.fetchIn_eq_some_iff d before x).mp hfetch
  rw [hfetch, h'.fetchIn_eq_some_iff]
  exact ⟨hoccurs.mono hgrow, hx⟩

/-- **The rows of a period all of whose days have been fetched do not change any more.** -/
theorem rowsIn_later (h : Recorded source calls store log) (h' : Recorded source calls' store' log')
    (hgrow : calls <+: calls') {p : Period}
    (hp : ∀ d, p.contains d = true → (fetchIn log d).isSome = true) :
    store'.rowsIn p = store.rowsIn p := by
  rw [Store.rowsIn_eq_flatMap h'.valid, Store.rowsIn_eq_flatMap h.valid, h.rowsOn_eq, h'.rowsOn_eq]
  refine List.flatMap_congr fun d hd => ?_
  rw [fetchedOn, fetchedOn, h.fetchIn_later h' hgrow (hp d (Period.mem_days.mp hd))]

end Recorded

namespace Coordinator

variable {c : Coordinator} {source : Source} {log : List (Nat × Stretch)} {q : Query} {f : Filter}

/-- Sorting leaves no row out and adds none. -/
theorem apply_perm (f : Filter) (d : Directory) (order : Option SortOrder) (rows : List Row) :
    (f.apply d order rows).Perm (rows.filter (f.admits d)) := by
  rw [Filter.apply, Filter.sortRows]
  split
  · exact (List.reverse_perm _).trans (List.mergeSort_perm _ _)
  · exact List.mergeSort_perm _ _

/-- The rows for a query over a store with a record. -/
theorem apply_rowsIn_perm {calls : List Call} {store : Store Row}
    (h : Recorded source calls store log) (hf : Filter.ofQuery q c.directory = .ok f) :
    (f.apply c.directory q.sort (store.rowsIn q.window)).Perm (c.fetchedFor (fetchIn log) q) := by
  have hadmits : f.admits c.directory = q.wants c.directory := funext (Filter.admits_eq_wants hf)
  rw [fetchedFor, ← h.rowsOn_eq, ← Store.rowsIn_eq_flatMap h.valid, ← hadmits]
  exact apply_perm f c.directory q.sort _

/-- What the store has for a query. -/
theorem cached_eq_ok_iff {s : Session} {found : Lookup Row} : c.cached q s = .ok found ↔
    ∃ f, Filter.ofQuery q c.directory = .ok f ∧
      found = ⟨f.apply c.directory q.sort (s.store.rowsIn q.window), s.store.missing q.window⟩ := by
  rw [cached, Results.bind_eq_ok_iff]
  refine exists_congr fun f => and_congr_right fun _ => ?_
  exact ⟨fun h => (Except.ok.inj h).symm, fun h => h ▸ rfl⟩

/-- A report of which nothing is missing is what the store has, and changes nothing. -/
theorem report_of_missing_eq_nil {s : Session} (h : s.store.missing q.window = []) :
    c.report source q s = ((c.cached q s).map Lookup.rows, s) := by
  rw [report, cached, h]
  cases Filter.ofQuery q c.directory with
  | error err => rfl
  | ok f => rfl

/-! ## 3. All answers -/

theorem date_of_mem_fetchedOn {fetchOf : Date → Option (Nat × Stretch)} {d : Date} {r : Row}
    (h : r ∈ fetchedOn fetchOf d) : Dated.date r = d := by
  rw [fetchedOn] at h
  split at h
  · simp at h
  · exact of_decide_eq_true (List.mem_filter.mp h).2

/-- The rows that a report returns come from the fetches of its days, all of which are covered then. -/
theorem report_perm {s s' : Session} {rows : List Row} (hs : s.store.Valid)
    (hlog : Recorded source s'.calls s'.store log) (h : c.report source q s = (.ok rows, s')) :
    rows.Perm (c.fetchedFor (fetchIn log) q) ∧
      ∀ d, q.window.contains d = true → (fetchIn log d).isSome = true := by
  obtain ⟨f, hf, hfetch, rfl⟩ := exists_of_report_eq_ok h
  refine ⟨apply_rowsIn_perm hlog hf, fun d hd => ?_⟩
  have hmissing := missing_of_fetchAll_eq_ok hs hfetch
  exact (hlog.covers_iff_isSome d).mp ((Store.missing_eq_nil_iff hlog.valid).mp hmissing d hd)

/-- **Every answer is exact and stays so**, over any source and after any history. -/
theorem exists_answersExactly (c : Coordinator) (source : Source) (history : List Ask) :
    ∃ fetchOf, c.AnswersExactly source history fetchOf := by
  obtain ⟨log, hlog⟩ := exists_recorded_after c source history
  refine ⟨fetchIn log,
    { fetch_iff := hlog.fetchIn_eq_some_iff
      covered_iff := hlog.covers_iff_isSome
      cached := ?_
      reported := ?_
      within := ?_
      lasting := ?_
      stable := ?_ }⟩
  · intro q found hfound
    obtain ⟨f, hf, rfl⟩ := cached_eq_ok_iff.mp hfound
    exact apply_rowsIn_perm hlog hf
  · rintro earlier q rows rfl hrows
    obtain ⟨_, hearlier⟩ := exists_recorded_after c source earlier
    rw [after_append] at hlog
    exact report_perm hearlier.valid hlog (Prod.ext hrows rfl)
  · intro q r hr
    obtain ⟨d, hd, hr⟩ := List.mem_flatMap.mp (List.mem_of_mem_filter hr)
    rw [date_of_mem_fetchedOn hr]
    exact Period.mem_days.mp hd
  · intro later d before x hx
    exact ((hlog.fetchIn_eq_some_iff d before x).mp hx).1.mono
      (calls_prefix_after c source history later)
  · intro q hq later
    obtain ⟨log', hlog'⟩ := exists_recorded_after c source (history ++ later)
    have hgrow := calls_prefix_after c source history later
    have hmissing := hlog.missing_eq_nil hq
    have hmissing' := hlog'.missing_eq_nil fun d hd => by
      rw [hlog.fetchIn_later hlog' hgrow (hq d hd)]
      exact hq d hd
    have hrows := hlog.rowsIn_later hlog' hgrow hq
    have hcached : c.cached q (c.after source (history ++ later)) =
        c.cached q (c.after source history) := by
      simp only [cached, Store.get, hrows, hmissing, hmissing']
    refine ⟨hcached, ?_, fun found hfound => ?_⟩
    · rw [report_of_missing_eq_nil hmissing', hcached]
    · obtain ⟨f, -, rfl⟩ := cached_eq_ok_iff.mp hfound
      exact hmissing

end Coordinator

end Timesheet
