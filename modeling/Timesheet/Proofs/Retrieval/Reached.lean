import Timesheet.Proofs.Retrieval.Transparency
import Timesheet.Proofs.Retrieval.Turns
/-!
# What a coordinator can come to

Questions may be asked one after the other or at the same time, in steps that alternate in any order, and
some of them may never come to their end.  `reached` is what a new coordinator comes to in this way.

Its store is what was put on the way (`store_reached`).  Over an export it mirrors the export
(`mirrors_reached`): every inquiry that fetches has the rows of the pages before the next one
(`Stage.HoldsPages`), and so what it puts in the end are all rows of the period.
-/

namespace Timesheet

/-! ## 1. What is asked -/

/-- The inquiry by which a question is answered. -/
def Ask.inquiry : Ask → Inquiry
  | .report query => { query }
  | .cached query => { query, fetches := false }

namespace Inquiries

/-- The inquiries for some questions. -/
def ofAsks (asks : List Ask) : Inquiries := { all := asks.map Ask.inquiry }

/-- How far the questions have come, on a new coordinator, after the steps of a schedule. -/
def reached (c : Coordinator) (source : Source) (asks : List Ask) (schedule : List Nat) :
    Inquiries :=
  (ofAsks asks).run c source schedule

variable {c : Coordinator} {source : Source} {asks : List Ask} {m m' : Inquiries} {n : Nat}
  {i : Inquiry}

theorem sound_ofAsks (c : Coordinator) (asks : List Ask) : (ofAsks asks).Sound c := by
  refine ⟨Store.valid_empty, fun n i hi => ?_⟩
  obtain ⟨a, -, rfl⟩ := List.mem_map.mp (List.mem_of_getElem? hi)
  cases a <;> trivial

theorem sound_reached (c : Coordinator) (source : Source) (asks : List Ask) (schedule : List Nat) :
    (reached c source asks schedule).Sound c :=
  (sound_ofAsks c asks).run schedule

theorem reached_append_singleton (c : Coordinator) (source : Source) (asks : List Ask)
    (schedule : List Nat) (n : Nat) : reached c source asks (schedule ++ [n]) =
      ((reached c source asks schedule).step c source n).getD (reached c source asks schedule) :=
  run_append_singleton c source schedule n _

/-! ## 2. What is stored -/

/-- What the inquiry in the `n`-th place stores with its next step. -/
def put? (m : Inquiries) (n : Nat) : Option (Batch Row) :=
  match m.all[n]? with
  | some ⟨_, _, .storing _ w⟩ => some ⟨w.period, w.rows⟩
  | _ => none

/-- All that is stored in the course of a run. -/
def puts (c : Coordinator) (source : Source) : List Nat → Inquiries → List (Batch Row)
  | [], _ => []
  | n :: schedule, m =>
    (m.put? n).toList ++ puts c source schedule ((m.step c source n).getD m)

theorem put?_eq_some_iff {b : Batch Row} : m.put? n = some b ↔
    ∃ i f w, m.all[n]? = some i ∧ i.stage = .storing f w ∧ b = ⟨w.period, w.rows⟩ := by
  unfold put?
  split
  · next query fetches f w hi =>
    rw [hi]
    constructor
    · intro hb
      exact ⟨_, f, w, rfl, rfl, (Option.some.inj hb).symm⟩
    · rintro ⟨_, _, _, hi', hstage, rfl⟩
      obtain rfl := Option.some.inj hi'
      obtain ⟨rfl, rfl⟩ := Stage.storing.inj hstage
      rfl
  · next hnot =>
    refine iff_of_false (by simp) ?_
    rintro ⟨⟨query, fetches, _⟩, f, w, hi, rfl, -⟩
    exact hnot query fetches f w hi

/-- The stage after a step. -/
theorem getElem?_set_stage (hi : m.all[n]? = some i) (stage : Stage) :
    (m.all.set n { i with stage })[n]? = some { i with stage } :=
  List.getElem?_set_self (List.getElem?_eq_some_iff.mp hi).1

/-- What a step does to the store. -/
theorem store_of_step (hstep : m.step c source n = some m') :
    m'.session.store = m.session.store.putAll (m.put? n).toList := by
  obtain ⟨i, s', turn', stage, hi, hgoes, rfl⟩ := step_cases hstep
  have hput : ∀ f w, i.stage = .storing f w → m.put? n = some ⟨w.period, w.rows⟩ :=
    fun f w hstage => put?_eq_some_iff.mpr ⟨i, f, w, hi, hstage, rfl⟩
  have hnone : (∀ f w, i.stage ≠ .storing f w) → m.put? n = none := by
    intro hnot
    rw [Option.eq_none_iff_forall_ne_some]
    intro b hb
    obtain ⟨i', f, w, hi', hstage, -⟩ := put?_eq_some_iff.mp hb
    obtain rfl := Option.some.inj (hi.symm.trans hi')
    exact hnot f w hstage
  cases hgoes with
  | stores hstage | storesLast hstage =>
    rw [hput _ _ hstage]
    rfl
  | asks hstage hcalls hstore =>
    rw [hnone (by simp [hstage])]
    exact hstore
  | unknown hstage | waits hstage | skips hstage | enters hstage | begins hstage | finds hstage
  | turnsPage hstage | completes hstage | fails hstage | reads hstage =>
    rw [hnone (by simp [hstage])]
    rfl

theorem puts_append_singleton (c : Coordinator) (source : Source) (schedule : List Nat) (n : Nat)
    (m : Inquiries) : puts c source (schedule ++ [n]) m =
      puts c source schedule m ++ ((m.run c source schedule).put? n).toList := by
  induction schedule generalizing m with
  | nil => simp [puts, run]
  | cons k schedule ih =>
    rw [List.cons_append, puts, puts, ih, List.append_assoc]
    rfl

/-- An inquiry that cannot take a step does not store anything. -/
theorem put?_eq_none_of_step (hstep : m.step c source n = none) : m.put? n = none := by
  rw [Option.eq_none_iff_forall_ne_some]
  intro b hb
  obtain ⟨i, f, w, hi, hstage, -⟩ := put?_eq_some_iff.mp hb
  simp [step, hi, hstage] at hstep

/-- **The store is what was put.** -/
theorem store_reached (c : Coordinator) (source : Source) (asks : List Ask) (schedule : List Nat) :
    (reached c source asks schedule).session.store =
      Store.ofBatches (puts c source schedule (ofAsks asks)) := by
  induction schedule using List.reverseRecOn with
  | nil => rfl
  | append_singleton schedule n ih =>
    have hputs := puts_append_singleton c source schedule n (ofAsks asks)
    rw [reached_append_singleton, hputs]
    cases hstep : (reached c source asks schedule).step c source n with
    | none =>
      have hnone : ((ofAsks asks).run c source schedule).put? n = none := put?_eq_none_of_step hstep
      rw [hnone, Option.toList_none, List.append_nil]
      exact ih
    | some m' =>
      rw [Store.ofBatches, List.foldl_append, ← Store.ofBatches, ← ih]
      exact store_of_step hstep

end Inquiries

/-! ## 3. Over an export -/

/-- The rows so far are those of the pages before the next, the number of which has not wrapped around. -/
def Fetch.HoldsPages (e : Export) (size : Nat) (w : Fetch) : Prop :=
  ∃ k, w.page = k + 1 ∧ k * max size 1 < UInt64.size ∧
    w.rows = (e.selected (.all w.period)).take (k * max size 1)

theorem Fetch.HoldsPages.first (e : Export) (size : Nat) (period : Period) (rest : List Period) :
    Fetch.HoldsPages e size { period, rest } :=
  ⟨0, rfl, Export.zero_mul_lt size, by simp⟩

/-- How much of a period has been fetched from an export: the rows of the pages before the next, one
page more while it is on its way, and all rows when they are to be stored. -/
def Stage.HoldsPages (e : Export) (size : Nat) : Stage → Prop
  | .asking _ w => w.HoldsPages e size
  | .expecting _ w answer => w.HoldsPages e size ∧
      ∀ page, answer = .ok page → page = e.page size (.all w.period) w.page
  | .storing _ w => w.rows = e.rowsBetween w.period
  | _ => True

namespace Inquiries

variable {c : Coordinator} {source : Source} {asks : List Ask} {e : Export} {size n : Nat}
  {q : Query} {f : Filter}

/-- **A step keeps the mirror, and its inquiry goes on to the next page.** -/
theorem Goes.mirrors {i : Inquiry} {s s' : Session} {turn turn' : Option Nat} {stage : Stage}
    (hsource : source.Serves e size) (h : Goes c source n i s turn s' turn' stage)
    (hs : s.store.Mirrors e) (hi : i.stage.HoldsPages e size) :
    s'.store.Mirrors e ∧ stage.HoldsPages e size := by
  cases h with
  | begins hstage hmissing => exact ⟨hs, .first e size _ _⟩
  | @asks f w s' hstage hcalls hstore =>
    rw [hstage] at hi
    refine ⟨hstore ▸ hs, hi, fun page hanswer => ?_⟩
    rcases hsource (s.calls.length + 1) (.all w.period) w.page with hok | ⟨err, herr⟩
    · rw [hok] at hanswer
      exact (Except.ok.inj hanswer).symm
    · rw [herr] at hanswer
      simp at hanswer
  | turnsPage hstage hmore =>
    rw [hstage] at hi
    obtain ⟨⟨k, hpage, hoffset, hrows⟩, hanswer⟩ := hi
    have hnext := hanswer _ rfl
    rw [hpage] at hnext
    refine ⟨hs, k + 1, by simp only [hpage], ?_, ?_⟩
    · exact e.offset_lt_of_hasMore _ hoffset (hnext ▸ hmore)
    · simp only [hrows, hnext]
      exact e.take_selected_append _ hoffset
  | completes hstage hlast =>
    rw [hstage] at hi
    obtain ⟨⟨k, hpage, hoffset, hrows⟩, hanswer⟩ := hi
    have hnext := hanswer _ rfl
    rw [hpage] at hnext
    rw [hnext, Bool.eq_false_iff, ne_eq, e.hasMore_iff_selected _ hoffset, Nat.not_lt] at hlast
    refine ⟨hs, ?_⟩
    simp only [Stage.HoldsPages, hrows, hnext, e.take_selected_append _ hoffset]
    rw [List.take_of_length_le hlast, e.selected_all]
  | @stores f w period rest hstage hrest =>
    rw [hstage] at hi
    have hrows : w.rows = e.rowsBetween w.period := hi
    exact ⟨hrows ▸ hs.put w.period, .first e size _ _⟩
  | @storesLast f w hstage hrest =>
    rw [hstage] at hi
    have hrows : w.rows = e.rowsBetween w.period := hi
    exact ⟨hrows ▸ hs.put w.period, trivial⟩
  | _ => exact ⟨hs, trivial⟩

/-- **The store mirrors the export all along.** -/
theorem mirrors_reached (hsource : source.Serves e size) (asks : List Ask) (schedule : List Nat) :
    (reached c source asks schedule).session.store.Mirrors e := by
  refine And.left (run_induction (P := fun m => m.session.store.Mirrors e ∧
    ∀ (n : Nat) (i : Inquiry), m.all[n]? = some i → i.stage.HoldsPages e size) ?_ ?_ schedule)
  · refine ⟨Store.Mirrors.empty e, fun n i hi => ?_⟩
    obtain ⟨a, -, rfl⟩ := List.mem_map.mp (List.mem_of_getElem? hi)
    cases a <;> trivial
  · rintro m n m' ⟨hs, hall⟩ hstep
    obtain ⟨i, s', turn', stage, hi, hgoes, rfl⟩ := step_cases hstep
    obtain ⟨hs', hstage⟩ := hgoes.mirrors hsource hs (hall n i hi)
    refine ⟨hs', fun k j hj => ?_⟩
    by_cases hk : n = k
    · subst hk
      obtain rfl := Option.some.inj ((getElem?_set_stage hi stage).symm.trans hj)
      exact hstage
    · exact hall k j ((List.getElem?_set_ne hk).symm.trans hj)

end Inquiries

end Timesheet
