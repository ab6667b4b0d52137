import Timesheet.Retrieval.Concurrent
import Timesheet.Proofs.Coverage.Batches
import Timesheet.Proofs.Coverage.Filling
/-!
# Taking turns

Inquiries that run at the same time read and write one store, and may be stopped between any two steps.
What keeps them apart is the turn: whoever fetches has it (`Inquiry.Sound`), and so nobody else has
stored anything since it last looked.  Hence the periods that it still has to fetch are exactly those that
the store misses of its window, at every moment and not only when it looked.

`Inquiries.step_cases` says once what a step can do.  The invariant is one statement about each inquiry
(`Inquiry.Sound`), kept by its own steps (`Goes.sound`) and, since these need the turn, by those of all
others (`Inquiry.Sound.of_other`).
-/

namespace Timesheet

/-! ## 1. What a step can do -/

/-- The fetch that is under way at a stage. -/
def Stage.fetch? : Stage → Option Fetch
  | .asking _ w => some w
  | .expecting _ w _ => some w
  | .storing _ w => some w
  | _ => none

namespace Inquiries

/-- The ways in which an inquiry may go on in the `n`-th place, by the session, the turn and its stage
after the step. -/
inductive Goes (c : Coordinator) (source : Source) (n : Nat) (i : Inquiry) (s : Session)
    (turn : Option Nat) : Session → Option Nat → Stage → Prop
  /-- Some of its names are unknown. -/
  | unknown {err : ReportError} (hstage : i.stage = .made)
      (hf : Filter.ofQuery i.query c.directory = .error err) :
      Goes c source n i s turn s turn (.answered (.error err))
  /-- Days are missing. -/
  | waits {f : Filter} (hstage : i.stage = .made) (hf : Filter.ofQuery i.query c.directory = .ok f) :
      Goes c source n i s turn s turn (.waiting f)
  /-- There is nothing to fetch. -/
  | skips {f : Filter} (hstage : i.stage = .made) (hf : Filter.ofQuery i.query c.directory = .ok f)
      (hnone : i.fetches = true → s.store.missing i.query.window = []) :
      Goes c source n i s turn s turn (.reading f)
  /-- Nobody has the turn, and it takes it. -/
  | enters {f : Filter} (hstage : i.stage = .waiting f) (hturn : turn = none) :
      Goes c source n i s turn s (some n) (.looking f)
  /-- Days are still missing. -/
  | begins {f : Filter} {period : Period} {rest : List Period} (hstage : i.stage = .looking f)
      (hmissing : s.store.missing i.query.window = period :: rest) :
      Goes c source n i s turn s turn (.asking f { period, rest })
  /-- No days are missing any more. -/
  | finds {f : Filter} (hstage : i.stage = .looking f)
      (hmissing : s.store.missing i.query.window = []) :
      Goes c source n i s turn s none (.reading f)
  /-- It makes a call. -/
  | asks {f : Filter} {w : Fetch} {s' : Session} (hstage : i.stage = .asking f w)
      (hcalls : s'.calls = s.calls ++ [⟨.all w.period, w.page⟩]) (hstore : s'.store = s.store) :
      Goes c source n i s turn s' turn
        (.expecting f w (source.answer (s.calls.length + 1) (.all w.period) w.page))
  /-- There are more pages. -/
  | turnsPage {f : Filter} {w : Fetch} {page : Page} (hstage : i.stage = .expecting f w (.ok page))
      (hmore : page.hasMore = true) :
      Goes c source n i s turn s turn
        (.asking f { w with page := w.page + 1, rows := w.rows ++ page.rows })
  /-- This was the last page. -/
  | completes {f : Filter} {w : Fetch} {page : Page} (hstage : i.stage = .expecting f w (.ok page))
      (hlast : page.hasMore = false) :
      Goes c source n i s turn s turn (.storing f { w with rows := w.rows ++ page.rows })
  /-- The call has failed, or there are too many pages. -/
  | fails {f : Filter} {w : Fetch} {answer : Except ReportError Page} {err : ReportError}
      (hstage : i.stage = .expecting f w answer) :
      Goes c source n i s turn s none (.answered (.error err))
  /-- It stores a period, and has others to fetch. -/
  | stores {f : Filter} {w : Fetch} {period : Period} {rest : List Period}
      (hstage : i.stage = .storing f w) (hrest : w.rest = period :: rest) :
      Goes c source n i s turn { s with store := s.store.put w.period w.rows } turn
        (.asking f { period, rest })
  /-- It stores its last period. -/
  | storesLast {f : Filter} {w : Fetch} (hstage : i.stage = .storing f w) (hrest : w.rest = []) :
      Goes c source n i s turn { s with store := s.store.put w.period w.rows } none (.reading f)
  /-- It reads the store. -/
  | reads {f : Filter} (hstage : i.stage = .reading f) :
      Goes c source n i s turn s turn
        (.answered (.ok (f.apply c.directory i.query.sort (s.store.rowsIn i.query.window))))

variable {c : Coordinator} {source : Source} {n : Nat} {i : Inquiry} {m m' : Inquiries}
  {s s' : Session} {turn turn' : Option Nat} {stage : Stage}

/-- An answer of the source is followed by one of these. -/
theorem goes_receive (f : Filter) (w : Fetch) (answer : Except ReportError Page)
    (hstage : i.stage = .expecting f w answer) :
    Goes c source n i s turn s (turnAfter turn (receive c f w answer)) (receive c f w answer) := by
  cases answer with
  | error err => exact .fails hstage
  | ok page =>
    simp only [receive]
    split
    · next hlast => exact .completes hstage (by simpa using hlast)
    · next hmore =>
      split
      · exact .turnsPage hstage (by simpa using hmore)
      · exact .fails hstage

/-- **What a step can do**: one inquiry goes on, and the others stay where they are. -/
theorem step_cases (h : m.step c source n = some m') :
    ∃ i s' turn' stage, m.all[n]? = some i ∧ Goes c source n i m.session m.turn s' turn' stage ∧
      m' = { session := s', turn := turn', all := m.all.set n { i with stage } } := by
  unfold step at h
  split at h
  · simp at h
  · next i hi =>
    refine ⟨i, ?_⟩
    split at h
    · next hstage =>
      split at h
      · next hf =>
        obtain rfl := Option.some.inj h
        exact ⟨_, _, _, hi, .unknown hstage hf, rfl⟩
      · next hf =>
        split at h
        · obtain rfl := Option.some.inj h
          exact ⟨_, _, _, hi, .waits hstage hf, rfl⟩
        · next hnone =>
          obtain rfl := Option.some.inj h
          exact ⟨_, _, _, hi, .skips hstage hf (by simpa using hnone), rfl⟩
    · next hstage =>
      split at h
      · next hturn =>
        obtain rfl := Option.some.inj h
        exact ⟨_, _, _, hi, .enters hstage (by simpa using hturn), rfl⟩
      · simp at h
    · next hstage =>
      obtain rfl := Option.some.inj h
      cases hmissing : m.session.store.missing i.query.window with
      | nil => exact ⟨_, _, _, hi, .finds hstage hmissing, rfl⟩
      | cons period rest => exact ⟨_, _, _, hi, .begins hstage hmissing, rfl⟩
    · next f w hstage =>
      obtain rfl := Option.some.inj h
      have hasks : Goes c source n i m.session m.turn
          (c.call source (.all w.period) w.page m.session).2 m.turn
          (.expecting f w (c.call source (.all w.period) w.page m.session).1) :=
        .asks hstage rfl rfl
      exact ⟨_, _, _, hi, hasks, rfl⟩
    · next f w answer hstage =>
      obtain rfl := Option.some.inj h
      exact ⟨_, _, _, hi, goes_receive f w answer hstage, rfl⟩
    · next f w hstage =>
      obtain rfl := Option.some.inj h
      cases hrest : w.rest with
      | nil => exact ⟨_, _, _, hi, .storesLast hstage hrest, rfl⟩
      | cons period rest => exact ⟨_, _, _, hi, .stores hstage hrest, rfl⟩
    · next hstage =>
      obtain rfl := Option.some.inj h
      exact ⟨_, _, _, hi, .reads hstage, rfl⟩
    · simp at h

/-! ## 2. The invariant of one inquiry -/

end Inquiries

/-- Whoever fetches for a query has the turn, and what it still has to fetch is what the store misses of
the window, at every moment. -/
structure Fetch.Sound (c : Coordinator) (store : Store Row) (turn : Option Nat) (n : Nat) (q : Query)
    (f : Filter) (w : Fetch) : Prop where
  filter : Filter.ofQuery q c.directory = .ok f
  turn : turn = some n
  missing : store.missing q.window = w.period :: w.rest

/-- What holds of the inquiry in the `n`-th place, at each of its stages.  It has the turn from its look
at the store to the storing of its last period, and once it has fetched, nothing is missing. -/
def Inquiry.Sound (c : Coordinator) (store : Store Row) (turn : Option Nat) (n : Nat)
    (i : Inquiry) : Prop :=
  match i.stage with
  | .made | .answered _ => True
  | .waiting f => Filter.ofQuery i.query c.directory = .ok f
  | .looking f => Filter.ofQuery i.query c.directory = .ok f ∧ turn = some n
  | .asking f w | .expecting f w _ | .storing f w => w.Sound c store turn n i.query f
  | .reading f =>
    Filter.ofQuery i.query c.directory = .ok f ∧
      (i.fetches = true → store.missing i.query.window = [])

namespace Inquiry.Sound

variable {c : Coordinator} {store store' : Store Row} {turn turn' : Option Nat} {n : Nat}
  {i : Inquiry} {f : Filter} {w : Fetch}

/-- Whoever fetches has the turn, and the period is the first that is missing. -/
theorem of_fetch (h : i.Sound c store turn n) (hw : i.stage.fetch? = some w) :
    turn = some n ∧ store.missing i.query.window = w.period :: w.rest := by
  unfold Sound at h
  unfold Stage.fetch? at hw
  split at hw
  · next hstage => rw [hstage] at h; exact Option.some.inj hw ▸ ⟨h.turn, h.missing⟩
  · next hstage => rw [hstage] at h; exact Option.some.inj hw ▸ ⟨h.turn, h.missing⟩
  · next hstage => rw [hstage] at h; exact Option.some.inj hw ▸ ⟨h.turn, h.missing⟩
  · simp at hw

theorem of_reading (h : i.Sound c store turn n) (hstage : i.stage = .reading f) :
    Filter.ofQuery i.query c.directory = .ok f ∧
      (i.fetches = true → store.missing i.query.window = []) := by
  unfold Sound at h
  rwa [hstage] at h

/-- **No day of a period that is being fetched is covered.** -/
theorem not_covers (h : i.Sound c store turn n) (hs : store.Valid) (hw : i.stage.fetch? = some w)
    {d : Date} (hd : w.period.contains d = true) : ¬ store.Covers d := by
  refine ((Store.exists_mem_missing_iff hs.ascending (p := i.query.window)).mp ⟨w.period, ?_, hd⟩).2
  rw [(h.of_fetch hw).2]
  exact List.mem_cons_self

/-- What others do leaves an inquiry sound: if it has the turn they change neither the store nor the
turn, and otherwise it is enough that the days that were covered stay covered. -/
theorem of_other (h : i.Sound c store turn n) (hs : store.Valid) (hs' : store'.Valid)
    (hcovers : ∀ d, store.Covers d → store'.Covers d)
    (hturn : turn = some n → store' = store ∧ turn' = turn) : i.Sound c store' turn' n := by
  have hfetch : ∀ {f : Filter} {w : Fetch}, w.Sound c store turn n i.query f →
      w.Sound c store' turn' n i.query f := by
    intro f w hw
    obtain ⟨rfl, rfl⟩ := hturn hw.turn
    exact hw
  unfold Sound at h ⊢
  split at h
  · trivial
  · trivial
  · exact h
  · obtain ⟨hf, rfl⟩ := h
    exact ⟨hf, (hturn rfl).2⟩
  · exact hfetch h
  · exact hfetch h
  · exact hfetch h
  · obtain ⟨hf, hmissing⟩ := h
    refine ⟨hf, fun hfetches => (Store.missing_eq_nil_iff hs').mpr fun d hd => hcovers d ?_⟩
    exact (Store.missing_eq_nil_iff hs).mp (hmissing hfetches) d hd

end Inquiry.Sound

namespace Inquiries.Goes

variable {c : Coordinator} {source : Source} {n : Nat} {i : Inquiry} {s s' : Session}
  {turn turn' : Option Nat} {stage : Stage}

/-- A step leaves the store as it is, or puts the rows of the period that was fetched. -/
theorem store_cases (h : Goes c source n i s turn s' turn' stage) :
    s'.store = s.store ∨
      ∃ f w, i.stage = .storing f w ∧ s'.store = s.store.put w.period w.rows := by
  cases h with
  | asks hstage hcalls hstore => exact Or.inl hstore
  | stores hstage hrest => exact Or.inr ⟨_, _, hstage, rfl⟩
  | storesLast hstage hrest => exact Or.inr ⟨_, _, hstage, rfl⟩
  | _ => exact Or.inl rfl

theorem valid (h : Goes c source n i s turn s' turn' stage) (hs : s.store.Valid) :
    s'.store.Valid := by
  rcases h.store_cases with hstore | ⟨f, w, -, hstore⟩
  · rwa [hstore]
  · rw [hstore]
    exact hs.put _ _

/-- What is covered stays covered. -/
theorem covers (h : Goes c source n i s turn s' turn' stage) {d : Date} (hd : s.store.Covers d) :
    s'.store.Covers d := by
  rcases h.store_cases with hstore | ⟨f, w, -, hstore⟩
  · rwa [hstore]
  · rw [hstore]
    exact (Store.covers_put _ _ _ d).mpr (Or.inl hd)

/-- **An inquiry keeps itself sound.**  When it stores a period, what is left to fetch is what is left
missing (`Store.missing_put`). -/
theorem sound (h : Goes c source n i s turn s' turn' stage) (hs : s.store.Valid)
    (hi : i.Sound c s.store turn n) :
    Inquiry.Sound c s'.store turn' n { i with stage } := by
  unfold Inquiry.Sound at hi
  cases h with
  | unknown hstage hf => trivial
  | waits hstage hf => exact hf
  | skips hstage hf hnone => exact ⟨hf, hnone⟩
  | enters hstage hturn =>
    rw [hstage] at hi
    exact ⟨hi, rfl⟩
  | begins hstage hmissing =>
    rw [hstage] at hi
    exact ⟨hi.1, hi.2, hmissing⟩
  | finds hstage hmissing =>
    rw [hstage] at hi
    exact ⟨hi.1, fun _ => hmissing⟩
  | asks hstage hcalls hstore =>
    rw [hstage] at hi
    rw [hstore]
    exact hi
  | turnsPage hstage | completes hstage =>
    rw [hstage] at hi
    exact ⟨hi.filter, hi.turn, hi.missing⟩
  | fails hstage => trivial
  | stores hstage hrest =>
    rw [hstage] at hi
    exact ⟨hi.filter, hi.turn, (Store.missing_put hs hi.missing _).trans hrest⟩
  | storesLast hstage hrest =>
    rw [hstage] at hi
    exact ⟨hi.filter, fun _ => (Store.missing_put hs hi.missing _).trans hrest⟩
  | reads hstage => trivial

/-- **While another has the turn, an inquiry leaves the store and the turn alone.** -/
theorem eq_of_other (h : Goes c source n i s turn s' turn' stage) (hi : i.Sound c s.store turn n)
    {k : Nat} (hk : k ≠ n) (hturn : turn = some k) : s'.store = s.store ∧ turn' = turn := by
  have hnot : turn ≠ some n := by
    rw [hturn]
    exact fun heq => hk (Option.some.inj heq)
  unfold Inquiry.Sound at hi
  cases h with
  | enters hstage hnone =>
    rw [hnone] at hturn
    simp at hturn
  | finds hstage hmissing =>
    rw [hstage] at hi
    exact absurd hi.2 hnot
  | asks hstage hcalls hstore => exact ⟨hstore, rfl⟩
  | fails hstage | stores hstage | storesLast hstage =>
    rw [hstage] at hi
    exact absurd hi.turn hnot
  | _ => exact ⟨rfl, rfl⟩

end Inquiries.Goes

/-! ## 3. The invariant of all inquiries -/

namespace Inquiries

variable {c : Coordinator} {source : Source} {n : Nat} {m m' : Inquiries}

/-- All inquiries are sound, in a store that is in order. -/
structure Sound (c : Coordinator) (m : Inquiries) : Prop where
  valid : m.session.store.Valid
  each : ∀ (n : Nat) (i : Inquiry), m.all[n]? = some i → i.Sound c m.session.store m.turn n

/-- **Every step keeps all inquiries sound.** -/
theorem Sound.step (h : m.Sound c) (hstep : m.step c source n = some m') : m'.Sound c := by
  obtain ⟨i, s', turn', stage, hi, hgoes, rfl⟩ := step_cases hstep
  have hsound := h.each n i hi
  refine ⟨hgoes.valid h.valid, fun k j hj => ?_⟩
  have hlt := (List.getElem?_eq_some_iff.mp hi).1
  by_cases hk : k = n
  · subst hk
    rw [List.getElem?_set_self hlt] at hj
    obtain rfl := Option.some.inj hj
    exact hgoes.sound h.valid hsound
  · rw [List.getElem?_set_ne (Ne.symm hk)] at hj
    refine (h.each k j hj).of_other h.valid (hgoes.valid h.valid) ?_ ?_
    · exact fun d hd => hgoes.covers hd
    · exact fun hturn => hgoes.eq_of_other hsound hk hturn

/-- **Only one inquiry fetches at a time.** -/
theorem Sound.eq_of_fetch (h : m.Sound c) {k n : Nat} {i j : Inquiry} {v w : Fetch}
    (hi : m.all[n]? = some i) (hw : i.stage.fetch? = some w) (hj : m.all[k]? = some j)
    (hv : j.stage.fetch? = some v) : k = n := by
  have hn := ((h.each n i hi).of_fetch hw).1
  have hk := ((h.each k j hj).of_fetch hv).1
  exact Option.some.inj (hk.symm.trans hn)

/-! ## 4. Runs -/

theorem run_append (c : Coordinator) (source : Source) (schedule later : List Nat)
    (m : Inquiries) :
    m.run c source (schedule ++ later) = (m.run c source schedule).run c source later :=
  List.foldl_append

theorem run_append_singleton (c : Coordinator) (source : Source) (schedule : List Nat) (n : Nat)
    (m : Inquiries) : m.run c source (schedule ++ [n]) =
      ((m.run c source schedule).step c source n).getD (m.run c source schedule) := by
  rw [run_append]
  rfl

/-- **What every step keeps holds all along a run.** -/
theorem run_induction {P : Inquiries → Prop} (hstart : P m)
    (hstep : ∀ m n m', P m → m.step c source n = some m' → P m') (schedule : List Nat) :
    P (m.run c source schedule) := by
  induction schedule using List.reverseRecOn with
  | nil => exact hstart
  | append_singleton schedule n ih =>
    rw [run_append_singleton]
    cases hs : (m.run c source schedule).step c source n with
    | none => exact ih
    | some m' => exact hstep _ n m' ih hs

theorem Sound.run (h : m.Sound c) (schedule : List Nat) : (m.run c source schedule).Sound c :=
  run_induction h (fun _ _ _ h hstep => h.step hstep) schedule

/-- Running inquiries to their ends follows some schedule. -/
theorem exists_finish_eq_run (c : Coordinator) (source : Source) (m : Inquiries) :
    ∃ schedule, m.finish c source = m.run c source schedule := by
  induction m using finish.induct c source with
  | case1 m hnone =>
    refine ⟨[], ?_⟩
    rw [finish, hnone]
    rfl
  | case2 m m' hnext ih =>
    obtain ⟨schedule, hschedule⟩ := ih
    have hstep : ∃ n, m.step c source n = some m' := by
      unfold next at hnext
      split at hnext
      · exact ⟨_, hnext⟩
      · obtain ⟨n, -, hn⟩ := List.exists_of_findSome?_eq_some hnext
        exact ⟨n, hn⟩
    obtain ⟨n, hn⟩ := hstep
    have hrun : m.run c source (n :: schedule) = m'.run c source schedule := by
      rw [run, List.foldl_cons, hn]
      rfl
    exact ⟨n :: schedule, by rw [hrun, ← hschedule, finish, hnext]⟩

end Inquiries

end Timesheet
