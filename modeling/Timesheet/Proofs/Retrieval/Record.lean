import Timesheet.Proofs.Retrieval.Stretches
import Timesheet.Proofs.Retrieval.Transparency
/-!
# The store can be read off the calls

The calls made so far and the answers of the source to them tell which periods have been fetched to
their ends: a complete stretch of pages occurs in the calls (`Stretch.OccursAt`).  After any history,
over any source, the store is what these stretches put, and no two of them share a day
(`exists_recorded_after`).

The record grows with each fetch of a period: its calls bring in one more complete stretch if the fetch
came to its end, and none if it failed (`Stretch.occursAt_append`).
-/

namespace Timesheet

/-! ## 1. Stretches in the calls -/

namespace Stretch

/-- After the first `before` of the calls, the pages of the period were asked for and given, one by
one, up to the first after which there were no more. -/
structure OccursAt (x : Stretch) (source : Source) (calls : List Call) (before : Nat) : Prop where
  asked : ∀ k, k < x.pages.length → calls[before + k]? = some ⟨.all x.period, k + 1⟩
  given : x.GivenBy source before
  complete : x.IsComplete

variable {source : Source} {calls : List Call} {limit before asked : Nat}
  {x y : Stretch} {result : Except ReportError (List Row)}

/-- Pages given in the same calls are the same. -/
theorem GivenBy.eq (hx : x.GivenBy source before) (hy : y.GivenBy source before)
    (hperiod : y.period = x.period) {k : Nat} {a b : Page} (ha : x.pages[k]? = some a)
    (hb : y.pages[k]? = some b) : a = b := by
  have h := hx k a ha
  rw [← hperiod, hy k b hb] at h
  exact (Except.ok.inj h).symm

/-- **A complete stretch in the calls of a fetch is what was fetched.**  It cannot end before the fetch
does, since there are more pages after all but the last. -/
theorem Ends.eq_of_isComplete (hends : x.Ends limit source before asked result)
    (hx : x.GivenBy source before) (hy : y.GivenBy source before) (hperiod : y.period = x.period)
    (hcomplete : y.IsComplete) (hlength : y.pages.length ≤ asked) : y = x ∧ x.IsComplete := by
  have hpos := hcomplete.pos
  obtain ⟨last, hlast, hnoMore⟩ := hcomplete.exists_last
  -- an open stretch would have more pages after the last of `y`
  have hopen : x.IsOpen → ¬ y.pages.length ≤ x.pages.length := by
    intro hopen hle
    have hsame := List.getElem?_eq_getElem (l := x.pages) (i := y.pages.length - 1) (by omega)
    have hmore := hopen _ (List.mem_of_getElem? hsame)
    rw [hx.eq hy hperiod hsame hlast, hnoMore] at hmore
    exact Bool.false_ne_true hmore
  cases hends with
  | complete hxc _ =>
    have hsame := List.getElem?_eq_getElem (l := x.pages) (i := y.pages.length - 1) (by omega)
    have heq : y.pages.length = x.pages.length := by
      have hmore := (hxc.2 _ _ hsame).not.mp (by simp [hx.eq hy hperiod hsame hlast, hnoMore])
      omega
    refine ⟨?_, hxc⟩
    have hpages : y.pages = x.pages := by
      refine List.ext_getElem? fun k => ?_
      by_cases hk : k < x.pages.length
      · have ha := List.getElem?_eq_getElem hk
        have hb := List.getElem?_eq_getElem (heq ▸ hk : k < y.pages.length)
        rw [ha, hb, hx.eq hy hperiod ha hb]
      · rw [List.getElem?_eq_none (by omega), List.getElem?_eq_none (by omega)]
    cases x
    cases y
    simp only at hperiod hpages
    rw [hperiod, hpages]
  | failed hxo _ herr =>
    have hgt := hopen hxo
    -- the call that failed would have given the last page of `y`
    have hsame := hy x.pages.length last (by rwa [show x.pages.length = y.pages.length - 1 by omega])
    rw [hperiod, herr] at hsame
    exact absurd hsame (by simp)
  | tooMany hxo _ => exact absurd hlength (hopen hxo)

/-- A fetch that fails has not given a complete stretch. -/
theorem Ends.not_isComplete {err : ReportError}
    (hends : x.Ends limit source before asked (.error err)) : ¬ x.IsComplete := by
  intro hcomplete
  obtain ⟨page, hpage, hnoMore⟩ := hcomplete.exists_last
  have hopen : x.IsOpen := by
    cases hends with
    | failed hopen _ _ => exact hopen
    | tooMany hopen _ => exact hopen
  rw [hopen page (List.mem_of_getElem? hpage)] at hnoMore
  exact Bool.false_ne_true hnoMore.symm

/-- **The calls of a fetch bring in the stretch that is fetched, if it is complete, and no other.** -/
theorem occursAt_append (hends : x.Ends limit source calls.length asked result)
    (hx : x.GivenBy source calls.length) :
    y.OccursAt source (calls ++ x.period.calls asked) before ↔
      y.OccursAt source calls before ∨ (before = calls.length ∧ y = x ∧ x.IsComplete) := by
  constructor
  · intro hy
    have hpos := hy.complete.pos
    by_cases hbefore : before < calls.length
    · -- a stretch that starts before the fetch ends before it, too: pages are not asked for twice
      have hend : before + y.pages.length ≤ calls.length := by
        by_contra hlt
        have hasked := hy.asked (calls.length - before) (by omega)
        rw [show before + (calls.length - before) = calls.length by omega,
          List.getElem?_append_right (Nat.le_refl _), Nat.sub_self] at hasked
        by_cases hzero : 0 < asked
        · rw [Period.getElem?_calls hzero, Option.some.injEq, Call.mk.injEq] at hasked
          omega
        · rw [List.getElem?_eq_none (by simpa using hzero)] at hasked
          simp at hasked
      refine Or.inl ⟨fun k hk => ?_, hy.given, hy.complete⟩
      rw [← hy.asked k hk, List.getElem?_append_left (by omega)]
    · have hcall : ∀ k, k < y.pages.length →
          (x.period.calls asked)[before - calls.length + k]? = some ⟨.all y.period, k + 1⟩ := by
        intro k hk
        rw [← hy.asked k hk, List.getElem?_append_right (by omega)]
        congr 1
        omega
      have hwithin : ∀ k, k < y.pages.length → before - calls.length + k < asked := by
        intro k hk
        obtain ⟨hlt, -⟩ := List.getElem?_eq_some_iff.mp (hcall k hk)
        simpa using hlt
      have hfirst := hcall 0 hpos
      rw [Period.getElem?_calls (hwithin 0 hpos), Option.some.injEq, Call.mk.injEq] at hfirst
      obtain rfl : before = calls.length := by omega
      have hperiod : y.period = x.period := congrArg Request.period hfirst.1.symm
      have hlength : y.pages.length ≤ asked := by
        have := hwithin (y.pages.length - 1) (by omega)
        omega
      exact Or.inr ⟨rfl, hends.eq_of_isComplete hx hy.given hperiod hy.complete hlength⟩
  · rintro (hy | ⟨rfl, rfl, hcomplete⟩)
    · refine ⟨fun k hk => ?_, hy.given, hy.complete⟩
      have hasked := hy.asked k hk
      obtain ⟨hlt, -⟩ := List.getElem?_eq_some_iff.mp hasked
      rw [List.getElem?_append_left hlt, hasked]
    · have hlength : y.pages.length ≤ asked := by
        cases hends with
        | complete => exact Nat.le_refl _
        | failed => exact Nat.le_succ _
        | tooMany => exact Nat.le_refl _
      refine ⟨fun k hk => ?_, hx, hcomplete⟩
      rw [List.getElem?_append_right (by omega), show calls.length + k - calls.length = k by omega,
        Period.getElem?_calls (by omega)]

end Stretch

/-! ## 2. The record of a store -/

/-- The log has the complete stretches in the calls, each with the number of calls before it.  No two
of them share a day, and the store is what they have put. -/
structure Recorded (source : Source) (calls : List Call) (store : Store Row)
    (log : List (Nat × Stretch)) : Prop where
  occurs : ∀ before x, x.OccursAt source calls before ↔ (before, x) ∈ log
  apart : log.Pairwise fun a b =>
    ∀ d, a.2.period.contains d = true → ¬ b.2.period.contains d = true
  store : store = Store.ofBatches (log.map fun a => a.2.batch)

namespace Recorded

variable {c : Coordinator} {source : Source} {calls : List Call} {store : Store Row}
  {log : List (Nat × Stretch)} {x : Stretch} {a b : Nat × Stretch} {d : Date}

theorem empty (source : Source) : Recorded source [] .empty [] := by
  refine ⟨fun before x => ?_, List.Pairwise.nil, rfl⟩
  simp only [List.not_mem_nil, iff_false]
  intro h
  have hasked := h.asked 0 h.complete.pos
  simp at hasked

theorem valid (h : Recorded source calls store log) : store.Valid := by
  rw [h.store]
  exact Store.valid_ofBatches _

/-- The days that are covered are those of the stretches. -/
theorem covers_iff (h : Recorded source calls store log) (d : Date) :
    store.Covers d ↔ ∃ a ∈ log, a.2.period.contains d = true := by
  rw [h.store, Store.covers_ofBatches]
  simp [Stretch.batch]

/-- **No day lies in two stretches.** -/
theorem eq_of_contains (h : Recorded source calls store log) (ha : a ∈ log) (hb : b ∈ log)
    (hda : a.2.period.contains d = true) (hdb : b.2.period.contains d = true) : a = b := by
  refine List.Pairwise.forall_of_forall_of_flip
    (R := fun a b => a.2.period.contains d = true → b.2.period.contains d = true → a = b)
    ?_ ?_ ?_ ha hb hda hdb
  · intros; rfl
  · exact h.apart.imp fun hab hda hdb => absurd hdb (hab d hda)
  · exact h.apart.imp fun hab hdb hda => absurd hdb (hab d hda)

/-- The rows of a day are those that its stretch has for it. -/
theorem rowsOn_of_mem (h : Recorded source calls store log) (ha : a ∈ log)
    (hd : a.2.period.contains d = true) :
    store.rowsOn d = a.2.rows.filter fun r => Dated.date r = d := by
  have hmem : ∃ b ∈ log.map fun a => a.2.batch, b.period.contains d = true :=
    ⟨a.2.batch, List.mem_map_of_mem ha, hd⟩
  rw [h.store, Store.rowsOn_ofBatches, Batch.rowsFor]
  cases hlast : Batch.lastFor? (log.map fun a => a.2.batch) d with
  | none =>
    obtain ⟨b, hb, hdb⟩ := hmem
    have hnone := List.find?_eq_none.mp hlast b (List.mem_reverse.mpr hb)
    exact absurd hdb hnone
  | some b =>
    obtain ⟨b', hb', rfl⟩ := List.mem_map.mp (List.mem_reverse.mp (List.mem_of_find?_eq_some hlast))
    have hdb : b'.2.batch.period.contains d = true :=
      List.find?_some (p := fun b : Batch Row => b.period.contains d) hlast
    obtain rfl := h.eq_of_contains hb' ha hdb hd
    rfl

/-- There are no rows on a day that is not covered. -/
theorem rowsOn_of_not_covers (h : Recorded source calls store log) (hd : ¬ store.Covers d) :
    store.rowsOn d = [] := by
  rw [h.store] at hd ⊢
  exact Store.rowsOn_of_not_covers hd

/-- A fetch that fails leaves the record as it was. -/
theorem failed {limit asked : Nat} {err : ReportError} (h : Recorded source calls store log)
    (hgiven : x.GivenBy source calls.length)
    (hends : x.Ends limit source calls.length asked (.error err)) :
    Recorded source (calls ++ x.period.calls asked) store log := by
  refine ⟨fun before y => ?_, h.apart, h.store⟩
  rw [Stretch.occursAt_append hends hgiven, h.occurs]
  refine or_iff_left fun hnew => ?_
  exact hends.not_isComplete hnew.2.2

/-- **A fetch of days that are not covered brings its stretch into the record.** -/
theorem put (h : Recorded source calls store log) (hgiven : x.GivenBy source calls.length)
    (hcomplete : x.IsComplete) (hnew : ∀ d, x.period.contains d = true → ¬ store.Covers d) :
    Recorded source (calls ++ x.calls) (store.put x.period x.rows) (log ++ [(calls.length, x)]) := by
  refine ⟨fun before y => ?_, ?_, ?_⟩
  · have hends : x.Ends x.pages.length source calls.length x.pages.length (.ok x.rows) :=
      .complete hcomplete (Nat.le_refl _)
    rw [Stretch.calls, Stretch.occursAt_append hends hgiven, h.occurs, List.mem_append,
      List.mem_singleton, Prod.mk.injEq]
    simp [hcomplete]
  · refine List.pairwise_append.mpr ⟨h.apart, List.pairwise_singleton _ _, ?_⟩
    intro a ha b hb d hda hdb
    rw [List.mem_singleton.mp hb] at hdb
    exact hnew d hdb ((h.covers_iff d).mpr ⟨a, ha, hda⟩)
  · rw [List.map_append, List.map_singleton, Store.ofBatches_append, ← h.store]
    rfl

/-- Stretches of missing periods that follow on each other come into the record one by one. -/
theorem putAll {p : Period} {rest : List Period} {done : List Stretch}
    (h : Recorded source calls store log) (hfollow : Stretch.Follow source calls.length done)
    (hmissing : store.missing p = done.map Stretch.period ++ rest) :
    ∃ log', Recorded source (calls ++ Stretch.callsOf done)
      (store.putAll (done.map Stretch.batch)) log' := by
  induction done generalizing calls store log with
  | nil => exact ⟨log, by simpa [Stretch.callsOf, Store.putAll] using h⟩
  | cons x done ih =>
    obtain ⟨hgiven, hcomplete, hfollow⟩ := hfollow
    have hnew : ∀ d, x.period.contains d = true → ¬ store.Covers d := by
      intro d hd
      refine ((Store.exists_mem_missing_iff h.valid.ascending (p := p)).mp ⟨x.period, ?_, hd⟩).2
      rw [hmissing]
      exact List.mem_cons_self
    have hput := h.put hgiven hcomplete hnew
    have hlength : (calls ++ x.calls).length = calls.length + x.pages.length := by simp
    have hnext := ih hput (hlength ▸ hfollow) (Store.missing_put h.valid hmissing x.rows)
    rwa [List.append_assoc] at hnext

end Recorded

/-! ## 3. The record of a history -/

namespace Coordinator

variable {c : Coordinator} {source : Source} {s : Session} {log : List (Nat × Stretch)}

/-- Fetching what is missing keeps a record, wherever it fails. -/
theorem exists_recorded_fetchAll (h : Recorded source s.calls s.store log) (p : Period) :
    ∃ log', Recorded source (c.fetchAll source (s.store.missing p) s).2.calls
      (c.fetchAll source (s.store.missing p) s).2.store log' := by
  rcases fetchAll_cases c source (s.store.missing p) s with
    ⟨s', done, hrun, hall⟩ | ⟨s', done, last, asked, rest, err, hrun, hupTo⟩
  · rw [hrun, hall.calls, hall.store]
    have hperiods : s.store.missing p = done.map Stretch.period ++ [] := by
      rw [List.append_nil]
      exact hall.periods
    exact h.putAll hall.follow hperiods
  · rw [hrun, hupTo.calls, hupTo.store]
    obtain ⟨log', hlog'⟩ := h.putAll hupTo.follow hupTo.periods
    have hlength : (s.calls ++ Stretch.callsOf done).length =
        s.calls.length + (Stretch.callsOf done).length := List.length_append
    exact ⟨log', hlog'.failed (hlength ▸ hupTo.given) (hlength ▸ hupTo.ends)⟩

theorem exists_recorded_ask (h : Recorded source s.calls s.store log) (a : Ask) :
    ∃ log', Recorded source (c.ask source s a).calls (c.ask source s a).store log' := by
  cases a with
  | cached q => exact ⟨log, h⟩
  | report q =>
    rcases report_cases c source q s with ⟨err, -, hreport⟩ | ⟨f, fetched, s', -, hfetch, hreport⟩
    · rw [ask, hreport]
      exact ⟨log, h⟩
    · rw [ask, hreport]
      have hrecorded := exists_recorded_fetchAll (c := c) h q.window
      rwa [hfetch] at hrecorded

/-- The session after one more question. -/
theorem after_append (c : Coordinator) (source : Source) (history : List Ask) (a : Ask) :
    c.after source (history ++ [a]) = c.ask source (c.after source history) a := by
  rw [after, List.foldl_append]
  rfl

/-- **After any history the store is what the complete stretches in the calls have put.** -/
theorem exists_recorded_after (c : Coordinator) (source : Source) (history : List Ask) :
    ∃ log, Recorded source (c.after source history).calls (c.after source history).store log := by
  induction history using List.reverseRecOn with
  | nil => exact ⟨[], Recorded.empty source⟩
  | append_singleton history a ih =>
    obtain ⟨log, hlog⟩ := ih
    rw [after_append]
    exact exists_recorded_ask hlog a

end Coordinator

end Timesheet
