import Timesheet.Proofs.Retrieval.Exactness
import Timesheet.Proofs.Retrieval.Reached
/-!
# A report that fails, and the same report again

Missing periods are fetched one after the other, and each is put as a whole.  So a report that fails
leaves the store with exactly the periods before the one that failed, and that one and those after it are
missing as before (`missing_of_fetchedUpTo`).  The same report again takes up there: it asks for the
period that failed from its first page on, and for no day that has been put
(`failed_report_resumes`).  It does not matter how the coordinator has come to its store: by reports one
after the other, at the same time, or left half-way.
-/

namespace Timesheet

namespace Coordinator

open Inquiries

variable {c : Coordinator} {source : Source} {q : Query} {s s' : Session}

/-! ## 1. What a report fetches -/

/-- The periods are fetched in order: all of them, or those up to the one with which the result fails. -/
def Fetches {α : Type} (c : Coordinator) (source : Source) (periods : List Period) (s s' : Session) :
    Except ReportError α → Prop
  | .ok _ => ∃ done, FetchedAll source periods s s' done
  | .error err => ∃ done last asked rest,
      c.FetchedUpTo source periods s s' done last asked rest err

/-- **A report fetches what is missing**, unless its names are unknown. -/
theorem fetches_report (source : Source) (hknown : q.Known c.directory) (s : Session) :
    c.Fetches source (s.store.missing q.window) s (c.report source q s).2
      (c.report source q s).1 := by
  obtain ⟨f, hf⟩ := (Filter.exists_ofQuery_iff q c.directory).mpr hknown
  obtain ⟨fetched, s₁, hfetch, hreport⟩ := report_of_ofQuery hf source s
  rw [hreport]
  rcases fetchAll_cases c source (s.store.missing q.window) s with
    ⟨s₂, done, hrun, hall⟩ | ⟨s₂, done, last, asked, rest, err, hrun, hupTo⟩
  · obtain ⟨rfl, rfl⟩ := Prod.mk.inj (hfetch.symm.trans hrun)
    exact ⟨done, hall⟩
  · obtain ⟨rfl, rfl⟩ := Prod.mk.inj (hfetch.symm.trans hrun)
    exact ⟨done, last, asked, rest, hupTo⟩

/-- The calls for stretches ask for their periods. -/
theorem exists_of_mem_callsOf {done : List Stretch} {call : Call}
    (h : call ∈ Stretch.callsOf done) : ∃ x ∈ done, call.request = .all x.period := by
  obtain ⟨x, hx, hcall⟩ := List.mem_flatMap.mp h
  exact ⟨x, hx, Period.request_of_mem_calls hcall⟩

/-- **All rows of the periods are asked for, and nothing else.** -/
theorem Fetches.exists_of_mem {α : Type} {periods : List Period} {result : Except ReportError α}
    (h : c.Fetches source periods s s' result) {call : Call}
    (hcall : call ∈ s'.calls.drop s.calls.length) : ∃ p ∈ periods, call.request = .all p := by
  cases result with
  | ok a =>
    obtain ⟨done, hall⟩ := h
    rw [hall.calls, List.drop_left] at hcall
    obtain ⟨x, hx, hrequest⟩ := exists_of_mem_callsOf hcall
    rw [hall.periods]
    exact ⟨x.period, List.mem_map_of_mem hx, hrequest⟩
  | error err =>
    obtain ⟨done, last, asked, rest, hupTo⟩ := h
    rw [hupTo.calls, List.append_assoc, List.drop_left] at hcall
    rw [hupTo.periods]
    rcases List.mem_append.mp hcall with hcall | hcall
    · obtain ⟨x, hx, hrequest⟩ := exists_of_mem_callsOf hcall
      exact ⟨x.period, List.mem_append_left _ (List.mem_map_of_mem hx), hrequest⟩
    · exact ⟨last.period, List.mem_append_right _ List.mem_cons_self,
        Period.request_of_mem_calls hcall⟩

/-! ## 2. What a failure leaves -/

section Failure

variable {p : Period} {done : List Stretch} {last : Stretch} {asked : Nat} {rest : List Period}
  {err : ReportError}

/-- **After a failure, the period that failed and those after it are missing**, and no others. -/
theorem missing_of_fetchedUpTo (hs : s.store.Valid)
    (h : c.FetchedUpTo source (s.store.missing p) s s' done last asked rest err) :
    s'.store.missing p = last.period :: rest := by
  rw [h.store]
  refine Store.missing_putAll hs ?_
  rw [List.map_map]
  exact h.periods

/-- Days outside the periods before the failure are as they were. -/
theorem unchanged_of_fetchedUpTo (hs : s.store.Valid)
    (h : c.FetchedUpTo source (s.store.missing p) s s' done last asked rest err) {d : Date}
    (hd : ∀ x ∈ done, ¬ x.period.contains d = true) :
    (s'.store.Covers d ↔ s.store.Covers d) ∧ s'.store.rowsOn d = s.store.rowsOn d := by
  have hbatches : ∀ b ∈ done.map Stretch.batch, b.period.contains d = false := by
    intro b hb
    obtain ⟨x, hx, rfl⟩ := List.mem_map.mp hb
    exact Bool.eq_false_iff.mpr (hd x hx)
  rw [h.store]
  refine ⟨?_, Store.rowsOn_putAll hs hbatches⟩
  rw [Store.covers_putAll]
  refine or_iff_left ?_
  rintro ⟨b, hb, hcontains⟩
  rw [hbatches b hb] at hcontains
  exact Bool.false_ne_true hcontains

/-- Periods that have been put share no day with those that are still missing. -/
theorem not_contains_of_fetchedUpTo (hs : s.store.Valid)
    (h : c.FetchedUpTo source (s.store.missing p) s s' done last asked rest err) {x : Stretch}
    (hx : x ∈ done) {r : Period} (hr : r ∈ last.period :: rest) {d : Date}
    (hd : x.period.contains d = true) : ¬ r.contains d = true := by
  intro hrd
  have hv : s'.store.Valid := h.store ▸ hs.putAll _
  have hmissing : r ∈ s'.store.missing p := missing_of_fetchedUpTo hs h ▸ hr
  refine ((Store.exists_mem_missing_iff hv.ascending).mp ⟨r, hmissing, hrd⟩).2 ?_
  rw [h.store, Store.covers_putAll]
  exact Or.inr ⟨x.batch, List.mem_map_of_mem hx, hd⟩

end Failure

/-! ## 3. The same report again -/

/-- **A report that fails has put the missing periods before the failure, and nothing else; the same
report again goes on from there.**  `done` are the periods that were put, `last` what has been fetched
of the one that failed, and `rest` the periods after it. -/
theorem failed_report_resumes (asks : List Ask) (schedule : List Nat)
    (hknown : q.Known c.directory) {err : ReportError}
    (hfails : (c.report source q (reached c source asks schedule).session).1 = .error err) :
    let s := (reached c source asks schedule).session
    let s' := (c.report source q s).2
    let s'' := (c.report source q s').2
    ∃ done last asked rest,
      c.FetchedUpTo source (s.store.missing q.window) s s' done last asked rest err ∧
      (∀ r ∈ last.period :: rest, ∀ d, r.contains d = true →
        ¬ s'.store.Covers d ∧ s'.store.rowsOn d = []) ∧
      (∀ d, (∀ x ∈ done, ¬ x.period.contains d = true) →
        (s'.store.Covers d ↔ s.store.Covers d) ∧ s'.store.rowsOn d = s.store.rowsOn d) ∧
      c.Fetches source (last.period :: rest) s' s'' (c.report source q s').1 ∧
      ∀ call ∈ s''.calls.drop s'.calls.length, ∀ x ∈ done, ∀ d, x.period.contains d = true →
        ¬ call.request.period.contains d = true := by
  intro s s' s''
  have hstore : s.store = Store.ofBatches _ := store_reached c source asks schedule
  have hvalid : s.store.Valid := (sound_reached c source asks schedule).valid
  have hfirst := fetches_report source hknown s
  rw [show (c.report source q s).1 = .error err from hfails] at hfirst
  obtain ⟨done, last, asked, rest, hupTo⟩ := hfirst
  obtain ⟨batches, hstore'⟩ : ∃ batches, s'.store = Store.ofBatches batches :=
    ⟨_, by rw [hupTo.store, hstore, Store.putAll_ofBatches]⟩
  have hmissing : s'.store.missing q.window = last.period :: rest :=
    missing_of_fetchedUpTo hvalid hupTo
  have hagain := fetches_report source hknown s'
  rw [hmissing] at hagain
  refine ⟨done, last, asked, rest, hupTo, ?_, ?_, hagain, ?_⟩
  · intro r hr d hd
    have hcovers : ¬ s'.store.Covers d := by
      have hvalid' : s'.store.Valid := hstore' ▸ Store.valid_ofBatches _
      refine ((Store.exists_mem_missing_iff hvalid'.ascending (p := q.window)).mp ⟨r, ?_, hd⟩).2
      exact hmissing ▸ hr
    refine ⟨hcovers, ?_⟩
    rw [hstore'] at hcovers ⊢
    exact Store.rowsOn_of_not_covers hcovers
  · exact fun d hd => unchanged_of_fetchedUpTo hvalid hupTo hd
  · intro call hcall x hx d hd
    obtain ⟨r, hr, hrequest⟩ := hagain.exists_of_mem hcall
    rw [hrequest]
    exact not_contains_of_fetchedUpTo hvalid hupTo hx hr hd

/-- The second of two missing periods fails on its second page.  The same report again asks for that
period only, from its first page on. -/
theorem resumes_with_second_period :
    let e : Export := { rows := [rowAt 1 1 5 0, rowAt 2 2 7 0, rowAt 3 3 9 0, rowAt 4 3 6 0] }
    let c : Coordinator := { directory := {}, pageLimit := 3 }
    let source := sourceFailingAt e 1 4
    let s := (reached c source [.report (listOf 2 2)] [0, 0, 0, 0, 0, 0, 0]).session
    let s' := (c.report source (listOf 1 3) s).2
    let s'' := (c.report source (listOf 1 3) s').2
    (c.report source (listOf 1 3) s).1 = .error (.sourceFailed "offline") ∧
      (∃ done last asked rest, c.FetchedUpTo source (s.store.missing (listOf 1 3).window) s s'
        done last asked rest (.sourceFailed "offline")) ∧
      s''.calls.drop s'.calls.length = Period.calls ⟨.clamp 3, .clamp 3⟩ 2 := by
  intro e c source s s' s''
  have hknown : (listOf 1 3).Known c.directory := by constructor <;> simp [listOf]
  have hfails : (c.report source (listOf 1 3) s).1 = .error (.sourceFailed "offline") := by
    decide +kernel
  obtain ⟨done, last, asked, rest, hupTo, -⟩ :=
    failed_report_resumes [.report (listOf 2 2)] [0, 0, 0, 0, 0, 0, 0] hknown hfails
  exact ⟨hfails, ⟨done, last, asked, rest, hupTo⟩, by decide +kernel⟩

end Coordinator

end Timesheet
