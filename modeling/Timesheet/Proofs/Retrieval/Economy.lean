import Timesheet.Proofs.Retrieval.Resumption
/-!
# No call is made in vain

Over an export it is known beforehand which calls a report makes (`calls_report`): for each longest run
of missing days, in order, one for each of its pages, at least one and at most as many as are allowed.  It
fails at the first run whose rows do not fit into these.

What a report does over a store that mirrors the export is known already (`report_serves`).  Here it is said
of every store that a coordinator can come to, and in terms of the days that are missing in it.
-/

namespace Timesheet.Coordinator

open Inquiries

variable {c : Coordinator} {source : Source} {e : Export} {size : Nat} {q : Query}

/-- **A report on a new coordinator returns the reference answer**, if its names are known and it does
not have too many pages. -/
theorem report_fresh {f : Filter} (hf : Filter.ofQuery q c.directory = .ok f) (e : Export)
    (size : Nat)
    (hfits : ∀ p limit, (c.report (e.source size) q {}).1 ≠ .error (.tooManyPages p limit)) :
    (c.report (e.source size) q {}).1 = .ok (e.reference c.directory q) := by
  have hsource : (e.source size).Serves e size := fun _ _ _ => Or.inl rfl
  obtain ⟨hresult, -⟩ :=
    report_serves (s := {}) hsource (Store.Mirrors.empty e) hf fun _ _ _ _ => ⟨_, rfl⟩
  rw [hresult] at hfits ⊢
  rw [outcome] at hfits ⊢
  split
  · rfl
  · next p hfind =>
    rw [hfind] at hfits
    exact absurd rfl (hfits p c.pages)

/-- **A report makes exactly the calls that its answer takes.**  `runs` are the longest runs of missing
days, in order.  For each of them up to the first whose rows do not fit into the pages allowed, there is
one call for each page; the report fails if there is such a run, and returns the reference answer if
there is none.  No call narrows down what the query selects. -/
theorem calls_report (hsource : source.Serves e size) (asks : List Ask) (schedule : List Nat)
    (hknown : q.Known c.directory)
    (hanswers : source.Answers (reached c source asks schedule).session
      (c.report source q (reached c source asks schedule).session).2) :
    let s := (reached c source asks schedule).session
    let s' := (c.report source q s).2
    ∃ runs : List Period,
      (∀ r, r ∈ runs ↔ q.window.IsRun (fun d => ¬ s.store.Covers d) r) ∧
      runs.Pairwise (fun r r' => r.last.dayNumber + 1 < r'.first.dayNumber) ∧
      s'.calls = s.calls ++ (c.tried e size runs).flatMap (c.callsFor e size) ∧
      (c.report source q s).1 =
        (c.outcome e size runs).map (fun _ => e.reference c.directory q) ∧
      ∀ call ∈ s'.calls.drop s.calls.length, call.request.projects = none ∧
        call.request.clients = none ∧ call.request.tags = none := by
  intro s s'
  have hmirrors := mirrors_reached (c := c) hsource asks schedule
  obtain ⟨f, hf⟩ := (Filter.exists_ofQuery_iff q c.directory).mpr hknown
  obtain ⟨hresult, hcalls⟩ := report_serves hsource hmirrors hf hanswers
  refine ⟨s.store.missing q.window, ?_, Store.missing_apart hmirrors.valid.ascending q.window,
    hcalls, hresult, ?_⟩
  · exact fun r => Store.mem_missing_iff_isRun hmirrors.valid.ascending
  · intro call hcall
    obtain ⟨p, -, hrequest⟩ := (fetches_report source hknown s).exists_of_mem hcall
    rw [hrequest]
    exact ⟨rfl, rfl, rfl⟩

/-- One day in the middle is covered.  The row before it takes one call; of the three pages behind it,
the two that are allowed are asked for. -/
theorem calls_around_covered_day :
    let e : Export := { rows := [rowAt 1 4 5 0, rowAt 2 1 7 0, rowAt 3 3 9 0, rowAt 4 4 6 0] }
    let c : Coordinator := { directory := {}, pageLimit := 2 }
    let s := (reached c (e.source 1) [.report (listOf 2 2)] [0, 0, 0, 0, 0, 0, 0]).session
    let s' := (c.report (e.source 1) (listOf 1 5) s).2
    s.calls.length = 1 ∧ s'.calls.length = 4 ∧
      (c.report (e.source 1) (listOf 1 5) s).1 =
        .error (.tooManyPages ⟨.clamp 3, .clamp 5⟩ 2) ∧
      ∃ runs, s'.calls = s.calls ++ (c.tried e 1 runs).flatMap (c.callsFor e 1) := by
  intro e c
  have hsource : (e.source 1).Serves e 1 := fun _ _ _ => Or.inl rfl
  have hknown : (listOf 1 5).Known c.directory := by constructor <;> simp [listOf]
  obtain ⟨runs, -, -, hcalls, -⟩ :=
    calls_report hsource [.report (listOf 2 2)] [0, 0, 0, 0, 0, 0, 0] hknown
      fun _ _ _ _ => ⟨_, rfl⟩
  exact ⟨by decide +kernel, by decide +kernel, by decide +kernel, runs, hcalls⟩

end Timesheet.Coordinator
