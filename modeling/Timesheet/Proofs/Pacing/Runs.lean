import Mathlib.Data.List.Induction
import Mathlib.Data.List.Infix
import Timesheet.Proofs.Pacing.Service
/-!
# Runs of a queue

The queue keeps its timetable whatever its callers do (`Tracks.run`), and whenever they have just let
time pass or looked for a result, it has done all that can be done by then (`Tracks.quiet_step`).  So
what has happened can be read off the timetable: after any steps it is the beginning of it
(`Tracks.log_begins`), and after all but those that only add jobs, it is all that lies not ahead
(`Tracks.log_eq_filter`).
-/

namespace Timesheet

variable {α : Type}

/-- The job that a step adds. -/
def QueueStep.arrivals (now : Nat) : QueueStep α → List (Arrival α)
  | add job => [⟨now, job⟩]
  | await _ | drop _ | sleep _ => []

/-- The step only adds a job. -/
def QueueStep.isAdd : QueueStep α → Bool
  | add _ => true
  | await _ | drop _ | sleep _ => false

namespace Queue

/-- The jobs that steps add, in their order. -/
def arrivals (q : Queue α) : List (QueueStep α) → List (Arrival α)
  | [] => []
  | s :: steps => s.arrivals q.now ++ (q.step s).2.arrivals steps

variable {q q' : Queue α} {as : List (Arrival α)} {t limit id : Nat} {steps steps' : List (QueueStep α)}

/-! ## 1. Letting everything happen -/

/-- **What each event up to a time keeps holds when all of them have happened.** -/
theorem runUntil_induction (limit : Nat) {P : Queue α → Prop}
    (hP : ∀ q t q', P q → q.next = some (t, q') → t ≤ limit → P q') (h : P q) :
    P (q.runUntil limit) ∧ (q.runUntil limit).QuietUntil limit := by
  fun_induction runUntil limit q with
  | case1 q hnext =>
    refine ⟨h, fun t q' hnext' => ?_⟩
    rw [hnext] at hnext'
    simp at hnext'
  | case2 q t q' hnext hle ih => exact ih (hP q t q' h hnext hle)
  | case3 q t q' hnext hlt =>
    refine ⟨h, fun t' q'' hnext' => ?_⟩
    rw [hnext] at hnext'
    obtain ⟨rfl, -⟩ := Prod.mk.inj (Option.some.inj hnext')
    exact Nat.not_le.mp hlt

/-- **What each event keeps holds when something has come for a job**, or nothing more can come. -/
theorem runFor_induction (id : Nat) {P : Queue α → Prop}
    (hP : ∀ q t q', P q → q.next = some (t, q') → P q') (h : P q) :
    P (q.runFor id) ∧
      ((q.runFor id).next = none ∨ (q.runFor id).channels[id]?.any Channel.isEmpty = false) := by
  fun_induction runFor id q with
  | case1 q _ hnext => exact ⟨h, Or.inl hnext⟩
  | case2 q _ t q' hnext ih => exact ih (hP q t q' h hnext)
  | case3 q hcome => exact ⟨h, Or.inr (by simpa using hcome)⟩

theorem Tracks.runUntil (h : q.Tracks as) (hlimit : q.now ≤ limit) :
    (q.runUntil limit).Tracks as ∧ q.now ≤ (q.runUntil limit).now ∧
      (q.runUntil limit).now ≤ limit ∧ (q.runUntil limit).QuietUntil limit := by
  have hkeeps := runUntil_induction limit (q := q)
    (P := fun r => r.Tracks as ∧ q.now ≤ r.now ∧ r.now ≤ limit) ?_ ⟨h, Nat.le_refl _, hlimit⟩
  · exact ⟨hkeeps.1.1, hkeeps.1.2.1, hkeeps.1.2.2, hkeeps.2⟩
  · rintro r t r' ⟨hr, hge, -⟩ hnext hle
    rw [now_next hnext]
    exact ⟨hr.next hnext, Nat.le_trans hge (hr.now_le hnext), hle⟩

theorem Tracks.settle (h : q.Tracks as) :
    q.settle.Tracks as ∧ q.settle.now = q.now ∧ q.settle.Quiet := by
  obtain ⟨hs, hge, hle, hquiet⟩ := h.runUntil (Nat.le_refl q.now)
  have hnow : q.settle.now = q.now := Nat.le_antisymm hle hge
  refine ⟨hs, hnow, ?_⟩
  rw [Quiet, hnow]
  exact hquiet

/-- Whether the receiving end of a channel is there makes no difference to what happens when. -/
theorem Quiet.release (h : q.Quiet) (id : Nat) : (q.release id).Quiet := by
  intro t q' hnext
  have hq : ∃ q'', q.next = some (t, q'') := by
    rcases next_cases hnext with ⟨id, job, rest, hw, hl, rfl, -⟩ | ⟨id, job, hw, -⟩ | ⟨id, job, hw, -⟩
    · have hw : q.worker = .idle := hw
      have hl : q.waiting = (id, job) :: rest := hl
      rw [next, hw, hl]
      exact ⟨_, rfl⟩
    · have hw : q.worker = .holding id job t := hw
      rw [next, hw]
      exact ⟨_, rfl⟩
    · have hw : q.worker = .running id job t := hw
      rw [next, hw]
      exact ⟨_, rfl⟩
  obtain ⟨q'', hq⟩ := hq
  exact h t q'' hq

/-- Where nothing more happens up to a time, nothing more happens once it has come. -/
theorem QuietUntil.wait (h : q.QuietUntil limit) (hlimit : q.now ≤ limit) :
    ({ q with now := limit } : Queue α).Quiet := by
  intro t q' hnext
  rcases next_cases hnext with ⟨id, job, rest, hw, hl, -, -⟩ | ⟨id, job, hw, -⟩ | ⟨id, job, hw, -⟩
  · -- the worker would take the job without time passing
    have hw : q.worker = .idle := hw
    have hl : q.waiting = (id, job) :: rest := hl
    have hlt := h q.now _ (by rw [next, hw, hl])
    omega
  · have hw : q.worker = .holding id job t := hw
    exact h t _ (by rw [next, hw])
  · have hw : q.worker = .running id job t := hw
    exact h t _ (by rw [next, hw])

/-! ## 2. Steps and runs -/

theorem Tracks.await (h : q.Tracks as) (id : Nat) :
    (q.await id).2.Tracks as ∧ (q.await id).2.Quiet := by
  have hfor := (runFor_induction id (P := fun r => r.Tracks as)
    (fun _ _ _ hr hnext => hr.next hnext) h).1
  obtain ⟨hs, -, hquiet⟩ := hfor.settle
  exact ⟨hs.release id, hquiet.release id⟩

/-- **Every step of a caller keeps the queue on its timetable**, with the job that it adds. -/
theorem Tracks.step (h : q.Tracks as) (s : QueueStep α) :
    (q.step s).2.Tracks (as ++ s.arrivals q.now) := by
  cases s with
  | add job => exact h.enqueue job
  | await id =>
    rw [QueueStep.arrivals, List.append_nil]
    exact (h.await id).1
  | drop id =>
    rw [QueueStep.arrivals, List.append_nil]
    exact (h.release id).settle.1
  | sleep ms =>
    rw [QueueStep.arrivals, List.append_nil]
    obtain ⟨hs, -, hle, hquiet⟩ := h.runUntil (Nat.le_add_right q.now ms)
    exact hs.wait hle hquiet

/-- **After a step that does not only add a job, nothing more can happen by then.** -/
theorem Tracks.quiet_step (h : q.Tracks as) {s : QueueStep α} (hs : s.isAdd = false) :
    (q.step s).2.Quiet := by
  cases s with
  | add job => simp [QueueStep.isAdd] at hs
  | await id => exact (h.await id).2
  | drop id => exact (h.release id).settle.2.2
  | sleep ms =>
    obtain ⟨-, -, hle, hquiet⟩ := h.runUntil (Nat.le_add_right q.now ms)
    exact hquiet.wait hle

theorem run_append (q : Queue α) (steps steps' : List (QueueStep α)) :
    q.run (steps ++ steps') = (q.run steps).run steps' := List.foldl_append

theorem arrivals_append (q : Queue α) (steps steps' : List (QueueStep α)) :
    q.arrivals (steps ++ steps') = q.arrivals steps ++ (q.run steps).arrivals steps' := by
  induction steps generalizing q with
  | nil => rfl
  | cons s steps ih =>
    rw [List.cons_append, arrivals, ih, arrivals, List.append_assoc]
    rfl

theorem Tracks.run (h : q.Tracks as) (steps : List (QueueStep α)) :
    (q.run steps).Tracks (as ++ q.arrivals steps) := by
  induction steps generalizing q as with
  | nil =>
    rw [arrivals, List.append_nil]
    exact h
  | cons s steps ih =>
    rw [arrivals, ← List.append_assoc]
    exact ih (h.step s)

/-- A new queue. -/
def ofSpacing (spacing : Nat) : Queue α := { spacing }

/-- The queue with this spacing after steps. -/
def after (spacing : Nat) (steps : List (QueueStep α)) : Queue α := (ofSpacing spacing).run steps

/-- The jobs that steps add to a new queue. -/
def arrivalsOf (spacing : Nat) (steps : List (QueueStep α)) : List (Arrival α) :=
  (ofSpacing spacing).arrivals steps

theorem tracks_ofSpacing (spacing : Nat) : (ofSpacing spacing : Queue α).Tracks [] := by
  refine ⟨[], [], rfl, .idle rfl rfl rfl (by simp), rfl, Nat.le_refl _, ?_, ?_, rfl, rfl, ?_⟩
  · simp
  · simp [ofSpacing]
  · simp

/-- **A queue keeps its timetable whatever is done with it.** -/
theorem tracks_after (spacing : Nat) (steps : List (QueueStep α)) :
    (after spacing steps).Tracks (arrivalsOf spacing steps) :=
  (tracks_ofSpacing spacing).run steps

/-- The spacing stays what it was. -/
theorem spacing_step (q : Queue α) (s : QueueStep α) : (q.step s).2.spacing = q.spacing := by
  have hevents : ∀ (r : Queue α) t r', r.spacing = q.spacing → r.next = some (t, r') →
      r'.spacing = q.spacing := fun r t r' hr hnext => (spacing_next hnext).trans hr
  have huntil : ∀ (limit : Nat) (r : Queue α), r.spacing = q.spacing →
      (r.runUntil limit).spacing = q.spacing := fun limit r hr =>
    (runUntil_induction limit (P := fun r => r.spacing = q.spacing)
      (fun r t r' hr hnext _ => hevents r t r' hr hnext) hr).1
  cases s with
  | add job => rfl
  | await id =>
    exact huntil _ _ (runFor_induction id (P := fun r => r.spacing = q.spacing) hevents rfl).1
  | drop id => exact huntil _ _ rfl
  | sleep ms => exact huntil _ _ rfl

@[simp] theorem spacing_after (spacing : Nat) (steps : List (QueueStep α)) :
    (after spacing steps).spacing = spacing := by
  induction steps using List.reverseRecOn with
  | nil => rfl
  | append_singleton steps s ih =>
    rw [after, run_append]
    exact (spacing_step _ s).trans ih

/-! ## 3. What has happened -/

variable {before rest : List (Arrival α)}

/-- What has happened is the beginning of the timetable, and if nothing more can happen by now, then the
rest of it lies ahead. -/
theorem Serves.exists_later (h : q.Serves before rest) :
    ∃ later, events (timetable q.spacing (before ++ rest)) = q.log ++ later ∧
      (q.Quiet → ∀ e ∈ later, q.now < e.time) := by
  have hsplit : events (timetable q.spacing (before ++ rest)) =
      events (timetable q.spacing before) ++
        eventsFrom before.length (spansAfter q.spacing q.settled (rest.map Arrival.timing)) := by
    rw [timetable_append, ← h.settled, events, eventsFrom_append, length_timetable, Nat.zero_add]
    rfl
  rw [hsplit]
  cases h.stage with
  | idle hworker hwaiting hlog hprompt =>
    refine ⟨_, by rw [hlog], fun hquiet => ?_⟩
    cases rest with
    | nil => simp [spansAfter, eventsFrom]
    | cons a rest =>
      have := hquiet q.now _ (by rw [next, hworker, hwaiting]; rfl)
      omega
  | @holding a rest hworker hwaiting hlog hahead =>
    refine ⟨_, by rw [hlog], fun hquiet e he => ?_⟩
    have hlt := hquiet _ _ (by rw [next, hworker])
    simp only [List.map_cons, spansAfter, eventsFrom, List.mem_cons] at he
    rcases he with rfl | rfl | he
    · exact hlt
    · exact Nat.lt_of_lt_of_le hlt (Nat.le_add_right _ _)
    · have := settled_le_of_mem he
      simp only [Option.getD_some, stop_span] at this
      omega
  | @running a rest hworker hwaiting hlog hahead =>
    refine ⟨⟨before.length, .stop, (a.timing.span q.spacing q.settled).stop⟩ ::
      eventsFrom (before.length + 1) (spansAfter q.spacing
        (some (a.timing.span q.spacing q.settled).stop) (rest.map Arrival.timing)), ?_,
      fun hquiet e he => ?_⟩
    · rw [hlog]
      simp [spansAfter, eventsFrom]
    · have hlt := hquiet _ _ (by rw [next, hworker])
      rcases List.mem_cons.mp he with rfl | he
      · exact hlt
      · exact Nat.lt_of_lt_of_le hlt (settled_le_of_mem he)

/-- **What has happened is the beginning of the timetable.** -/
theorem Tracks.log_begins (h : q.Tracks as) : q.log <+: events (timetable q.spacing as) := by
  obtain ⟨before, rest, rfl, hs⟩ := h
  obtain ⟨later, hlater, -⟩ := hs.exists_later
  exact ⟨later, hlater.symm⟩

/-- **Of the timetable all has happened that lies not ahead.** -/
theorem Tracks.log_eq_filter (h : q.Tracks as) (hquiet : q.Quiet) :
    q.log = (events (timetable q.spacing as)).filter fun e => e.time ≤ q.now := by
  obtain ⟨before, rest, rfl, hs⟩ := h
  obtain ⟨later, hlater, hahead⟩ := hs.exists_later
  have hlog : q.log.filter (fun e => e.time ≤ q.now) = q.log :=
    List.filter_eq_self.mpr fun e he => decide_eq_true (hs.log_le e he)
  have hrest : later.filter (fun e => e.time ≤ q.now) = [] := by
    rw [List.filter_eq_nil_iff]
    intro e he
    have := hahead hquiet e he
    simp only [decide_eq_true_eq]
    omega
  rw [hlater, List.filter_append, hlog, hrest, List.append_nil]

/-- **The count is that of the jobs that have not settled.** -/
theorem Tracks.pending_add (h : q.Tracks as) :
    q.pending + q.log.countP LogEntry.isStop = as.length := by
  obtain ⟨before, rest, rfl, hs⟩ := h
  have hbefore : (events (timetable q.spacing before)).countP LogEntry.isStop = before.length := by
    rw [events, countP_isStop_eventsFrom, length_timetable]
  have hlog : q.log.countP LogEntry.isStop = before.length := by
    cases hs.stage with
    | idle _ _ hlog => rw [hlog, hbefore]
    | holding _ _ hlog => rw [hlog, hbefore]
    | running _ _ hlog =>
      rw [hlog, List.countP_append, hbefore]
      rfl
  rw [hs.pending, hlog, List.length_append]
  omega

end Queue

end Timesheet
