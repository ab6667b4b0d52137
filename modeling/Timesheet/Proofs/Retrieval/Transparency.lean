import Mathlib.Data.List.Induction
import Timesheet.Proofs.Retrieval.Fetching
/-!
# The store cannot be seen in an answer

A report is put together from rows that were fetched for earlier ones and rows that are fetched now.
`Coordinator.report_eq_reference` says that none of this shows: whatever was asked before, and whichever
calls failed, the rows of a report are those of `Export.reference`, which knows no history.

What carries the proof is an invariant of the store, `Store.Mirrors`: on the days that it covers it has
the rows of the export.  Every `put` of a fetched period keeps it, hence so do fetching
(`mirrors_fetchAll`) and every history of questions (`mirrors_after`).
-/

namespace Timesheet

/-! ## 1. Stores that mirror an export -/

/-- On the days that it covers, the store has the rows of the export. -/
structure Store.Mirrors (s : Store Row) (e : Export) : Prop where
  valid : s.Valid
  rows : ∀ d, s.Covers d → s.rowsOn d = e.rowsOn d

namespace Store.Mirrors

variable {s : Store Row} {e : Export}

theorem empty (e : Export) : (Store.empty : Store Row).Mirrors e :=
  ⟨valid_empty, fun d hd => absurd hd (Coverage.not_covers_empty d.dayNumber)⟩

/-- Putting the rows of a period keeps the mirror. -/
theorem put (h : s.Mirrors e) (p : Period) : (s.put p (e.rowsBetween p)).Mirrors e := by
  refine ⟨h.valid.put p _, fun d hd => ?_⟩
  rw [rowsOn_put h.valid]
  split
  · next hp => exact e.filter_rowsBetween hp
  · next hp =>
    rcases (covers_put s p _ d).mp hd with hd | hd
    · exact h.rows d hd
    · exact absurd hd hp

/-- So does putting batches, if each has the rows of its period. -/
theorem putAll {batches : List (Batch Row)} (h : s.Mirrors e)
    (hrows : ∀ b ∈ batches, b.rows = e.rowsBetween b.period) : (s.putAll batches).Mirrors e := by
  induction batches generalizing s with
  | nil => exact h
  | cons b batches ih =>
    obtain ⟨hb, hrows⟩ := List.forall_mem_cons.mp hrows
    refine ih ?_ hrows
    simp only [hb]
    exact h.put b.period

/-- **A period all of whose days are covered is stored with the rows of the export**, day by day. -/
theorem rowsIn_eq (h : s.Mirrors e) {p : Period} (hp : ∀ d, p.contains d = true → s.Covers d) :
    s.rowsIn p = p.days.flatMap e.rowsOn := by
  rw [rowsIn_eq_flatMap h.valid]
  exact List.flatMap_congr fun d hd => h.rows d (hp d (Period.mem_days.mp hd))

end Store.Mirrors

/-! ## 2. Histories -/

/-- A question to a coordinator: for a report, or for what the store has. -/
inductive Ask where
  | report (q : Query)
  | cached (q : Query)

namespace Coordinator

variable {c : Coordinator} {source : Source} {e : Export} {size : Nat} {s : Session}

/-- The session after a question.  A look at the store changes nothing. -/
def ask (c : Coordinator) (source : Source) (s : Session) : Ask → Session
  | .report q => (c.report source q s).2
  | .cached _ => s

/-- The session after some questions, one after the other. -/
def after (c : Coordinator) (source : Source) (history : List Ask) : Session :=
  history.foldl (c.ask source) {}

/-- **Fetching keeps the mirror**, wherever it fails. -/
theorem mirrors_fetchAll (hsource : source.Serves e size) (periods : List Period)
    (hs : s.store.Mirrors e) : (c.fetchAll source periods s).2.store.Mirrors e := by
  have hput : ∀ {done : List Stretch}, Stretch.Follow source s.calls.length done →
      (s.store.putAll (done.map Stretch.batch)).Mirrors e :=
    fun hfollow => hs.putAll (List.forall_mem_map.mpr (hfollow.rows_eq hsource))
  rcases fetchAll_cases c source periods s with
    ⟨s', done, hrun, hall⟩ | ⟨s', done, last, asked, rest, err, hrun, hupTo⟩
  · rw [hrun, hall.store]
    exact hput hall.follow
  · rw [hrun, hupTo.store]
    exact hput hupTo.follow

/-- When fetching what is missing has come to its end, nothing is missing. -/
theorem missing_of_fetchAll_eq_ok {s' : Session} {p : Period} (hs : s.store.Valid)
    (h : c.fetchAll source (s.store.missing p) s = (.ok (), s')) : s'.store.missing p = [] := by
  rcases fetchAll_cases c source (s.store.missing p) s with
    ⟨s₁, done, hrun, hall⟩ | ⟨s₁, done, last, asked, rest, err, hrun, -⟩
  · obtain rfl : s₁ = s' := congrArg Prod.snd (hrun.symm.trans h)
    rw [hall.store]
    refine Store.missing_putAll hs ?_
    rw [List.append_nil, List.map_map]
    exact hall.periods
  · rw [hrun] at h
    simp at h

/-- A query whose names are known goes on to fetch what is missing. -/
theorem report_of_ofQuery {q : Query} {f : Filter} (hf : Filter.ofQuery q c.directory = .ok f)
    (source : Source) (s : Session) :
    ∃ fetched s', c.fetchAll source (s.store.missing q.window) s = (fetched, s') ∧
      c.report source q s =
        (fetched.map fun _ => f.apply c.directory q.sort (s'.store.rowsIn q.window), s') := by
  refine ⟨_, _, rfl, ?_⟩
  rw [report, hf]
  rcases c.fetchAll source (s.store.missing q.window) s with ⟨_ | _, s'⟩
  · rfl
  · rfl

/-- The ways in which a report may end: names are unknown, the fetch fails, or there are rows. -/
theorem report_cases (c : Coordinator) (source : Source) (q : Query) (s : Session) :
    (∃ err, Filter.ofQuery q c.directory = .error err ∧ c.report source q s = (.error err, s)) ∨
    ∃ f fetched s', Filter.ofQuery q c.directory = .ok f ∧
      c.fetchAll source (s.store.missing q.window) s = (fetched, s') ∧
      c.report source q s =
        (fetched.map fun _ => f.apply c.directory q.sort (s'.store.rowsIn q.window), s') := by
  cases hf : Filter.ofQuery q c.directory with
  | error err => exact Or.inl ⟨err, rfl, by rw [report, hf]⟩
  | ok f =>
    obtain ⟨fetched, s', hfetch, hreport⟩ := report_of_ofQuery hf source s
    exact Or.inr ⟨f, fetched, s', rfl, hfetch, hreport⟩

/-- A report with rows has found the filter and fetched all that was missing. -/
theorem exists_of_report_eq_ok {q : Query} {rows : List Row} {s' : Session}
    (h : c.report source q s = (.ok rows, s')) : ∃ f, Filter.ofQuery q c.directory = .ok f ∧
      c.fetchAll source (s.store.missing q.window) s = (.ok (), s') ∧
      rows = f.apply c.directory q.sort (s'.store.rowsIn q.window) := by
  rcases report_cases c source q s with ⟨err, -, hreport⟩ | ⟨f, fetched, s₁, hf, hfetch, hreport⟩
  · rw [hreport] at h
    simp at h
  · obtain ⟨hrows, rfl⟩ := Prod.mk.inj (hreport.symm.trans h)
    obtain ⟨_, rfl, rfl⟩ := Results.map_eq_ok_iff.mp hrows
    exact ⟨f, hf, hfetch, rfl⟩

theorem mirrors_ask (hsource : source.Serves e size) (a : Ask) (hs : s.store.Mirrors e) :
    (c.ask source s a).store.Mirrors e := by
  cases a with
  | cached q => exact hs
  | report q =>
    rcases report_cases c source q s with ⟨err, -, hreport⟩ | ⟨f, fetched, s', -, hfetch, hreport⟩
    · rw [ask, hreport]
      exact hs
    · rw [ask, hreport]
      have hmirrors := mirrors_fetchAll (c := c) hsource (s.store.missing q.window) hs
      rwa [hfetch] at hmirrors

/-- **After any history the store mirrors the export.** -/
theorem mirrors_after (hsource : source.Serves e size) (history : List Ask) :
    (c.after source history).store.Mirrors e := by
  induction history using List.reverseRecOn with
  | nil => exact Store.Mirrors.empty e
  | append_singleton history a ih =>
    rw [after, List.foldl_append]
    exact mirrors_ask hsource a ih

/-! ## 3. One report -/

/-- The rows of a report over a store that mirrors the export. -/
theorem rows_of_report (hsource : source.Serves e size) (hs : s.store.Mirrors e) {q : Query}
    {rows : List Row} (h : (c.report source q s).1 = .ok rows) :
    rows = e.reference c.directory q := by
  obtain ⟨s', hreport⟩ : ∃ s', c.report source q s = (.ok rows, s') := ⟨_, Prod.ext h rfl⟩
  obtain ⟨f, hf, hfetch, rfl⟩ := exists_of_report_eq_ok hreport
  have hmirrors := mirrors_fetchAll (c := c) hsource (s.store.missing q.window) hs
  rw [hfetch] at hmirrors
  have hcovers := (Store.missing_eq_nil_iff hmirrors.valid).mp (missing_of_fetchAll_eq_ok hs.valid hfetch)
  rw [hmirrors.rowsIn_eq hcovers]
  exact Export.apply_flatMap_days hf e

/-- **The result and the calls of a report over a store that mirrors the export**, if each call is
answered. -/
theorem report_serves {q : Query} {f : Filter} (hsource : source.Serves e size)
    (hs : s.store.Mirrors e) (hf : Filter.ofQuery q c.directory = .ok f)
    (hanswers : source.Answers s (c.report source q s).2) :
    (c.report source q s).1 = (c.outcome e size (s.store.missing q.window)).map
        (fun _ => e.reference c.directory q) ∧
      (c.report source q s).2.calls = s.calls ++
        (c.tried e size (s.store.missing q.window)).flatMap (c.callsFor e size) := by
  obtain ⟨fetched, s', hfetch, hreport⟩ := report_of_ofQuery hf source s
  have hfetched : source.Answers s (c.fetchAll source (s.store.missing q.window) s).2 := by
    rw [hreport] at hanswers
    rwa [hfetch]
  obtain ⟨s₁, hrun, hcalls⟩ := fetchAll_serves hsource hfetched
  obtain ⟨rfl, rfl⟩ := Prod.mk.inj (hfetch.symm.trans hrun)
  refine ⟨?_, by rw [hreport, hcalls]⟩
  cases hresult : c.outcome e size (s.store.missing q.window) with
  | error err =>
    rw [hreport, hresult]
    rfl
  | ok u =>
    rw [hresult] at hreport
    have hrows := congrArg Prod.fst hreport
    rw [hrows]
    exact congrArg Except.ok (rows_of_report hsource hs hrows)

/-! ## 4. Every report -/

/-- **A report shows nothing of its history.**  The rows it returns are the reference answer, and it
does return them if the names are known, each of its calls is answered, and no longest run of days
that are not covered has more rows than fit into the pages allowed. -/
theorem report_eq_reference (hsource : source.Serves e size) (history : List Ask) (q : Query) :
    (∀ rows, (c.report source q (c.after source history)).1 = .ok rows →
      rows = e.reference c.directory q) ∧
    (q.Known c.directory →
      source.Answers (c.after source history) (c.report source q (c.after source history)).2 →
      (∀ r, q.window.IsRun (fun d => ¬ (c.after source history).store.Covers d) r →
        (e.rowsBetween r).length ≤ c.pages * max size 1) →
      (c.report source q (c.after source history)).1 = .ok (e.reference c.directory q)) := by
  have hmirrors := mirrors_after (c := c) hsource history
  refine ⟨fun rows h => rows_of_report hsource hmirrors h, fun hknown hanswers hfit => ?_⟩
  obtain ⟨f, hf⟩ := (Filter.exists_ofQuery_iff q c.directory).mpr hknown
  rw [(report_serves hsource hmirrors hf hanswers).1, outcome_eq_ok fun r hr => ?_]
  · rfl
  · exact decide_eq_true (hfit r ((Store.mem_missing_iff_isRun hmirrors.valid.ascending).mp hr))

/-- The source of an export, except that one call fails. -/
def sourceFailingAt (e : Export) (size failing : Nat) : Source where
  answer call q page :=
    if call = failing then .error (.sourceFailed "offline") else .ok (e.page size q page)

/-- A row of one entry, which started in this second of a day on a clock with this offset. -/
def rowAt (number : UInt64) (day : Int) (second : Nat) (offset : Int) : Row :=
  let start : Timestamp := ⟨.clamp day, 0, 0, second, 0, offset⟩
  { user := 0, project := none, description := "", tags := [],
    entries := [⟨number, 1, start, start, start⟩], number }

/-- A list of all rows of some days. -/
def listOf (first last : Int) : Query :=
  { kind := .list, start := .clamp first, stop := .clamp last }

/-- Three days of an export are asked for one by one, where the third call fails, and then together,
so that only the third day is fetched. -/
theorem report_after_failed_call :
    let e : Export := { rows := [rowAt 1 3 5 0, rowAt 2 1 7 0, rowAt 3 2 9 600] }
    let c : Coordinator := { directory := {}, pageLimit := 3 }
    let source := sourceFailingAt e 1 3
    let s := c.after source
      [.report (listOf 1 1), .report (listOf 2 2), .report (listOf 3 3), .cached (listOf 1 3)]
    s.calls.length = 3 ∧ (c.report source (listOf 1 3) s).1 = .ok (e.reference {} (listOf 1 3)) := by
  intro e c source s
  have hcalls : s.calls.length = 3 := by decide +kernel
  have hsource : source.Serves e 1 := by
    intro call q page
    by_cases hcall : call = 3
    · exact Or.inr ⟨.sourceFailed "offline", if_pos hcall⟩
    · exact Or.inl (if_neg hcall)
  refine ⟨hcalls, (report_eq_reference hsource _ (listOf 1 3)).2 ?_ ?_ ?_⟩
  · constructor <;> simp [listOf]
  · intro n call hn _
    have hn : 3 ≤ n := hcalls ▸ hn
    exact ⟨_, if_neg (by omega)⟩
  · -- all rows of the export fit into three pages
    exact fun r _ => List.length_filter_le _ _

end Coordinator

end Timesheet
