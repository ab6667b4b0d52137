import Timesheet.Proofs.Pacing.Runs
/-!
# Jobs run when the timetable says

The timetable of the jobs that a queue is given says all about its runs (`follows_timetable`): jobs start
in the order in which they were added, each of them once; the first when it is added, and each later one
when it is there and the pause after the one before is over; no two run at the same time; and the count
of the queue is that of the jobs that have not settled.  Neither results nor receivers play any part in
that.

The pause is that of the queue up to the longest wait.  A longer one is cut short
(`long_pause_is_cut_short`).
-/

namespace Timesheet

variable {α : Type}

/-! ## 1. The events of one job -/

/-- A job has one start and one stop in a timetable. -/
theorem filter_job_eventsFrom {sp : List Span} {i : Nat} {s : Span} (k : Nat) (hs : sp[i]? = some s) :
    (eventsFrom k sp).filter (fun e => e.job = k + i) =
      [⟨k + i, .start, s.start⟩, ⟨k + i, .stop, s.stop⟩] := by
  have hlater : ∀ (sp : List Span) (k n : Nat), n < k →
      (eventsFrom k sp).filter (fun e => e.job = n) = [] := by
    intro sp
    induction sp with
    | nil => exact fun _ _ _ => rfl
    | cons s sp ih =>
      intro k n hn
      have hne : ¬ k = n := by omega
      simp [eventsFrom, hne, ih (k + 1) n (by omega)]
  induction sp generalizing k i with
  | nil => simp at hs
  | cons s₀ sp ih =>
    cases i with
    | zero =>
      obtain rfl : s₀ = s := Option.some.inj hs
      simp [eventsFrom, hlater sp (k + 1) k (by omega)]
    | succ i =>
      have hne : ¬ k = k + (i + 1) := by omega
      have hk : k + 1 + i = k + (i + 1) := by omega
      have := ih (k + 1) hs
      rw [hk] at this
      simpa [eventsFrom, hne] using this

/-- The jobs of which a part of a timetable has the start are the first ones, in their order. -/
theorem map_job_starts_of_prefix {sp : List Span} {log : List LogEntry} (h : log <+: events sp) :
    (log.filter LogEntry.isStart).map LogEntry.job = List.range (log.countP LogEntry.isStart) := by
  have hstarts := (h.filter LogEntry.isStart).map LogEntry.job
  rw [events, map_job_starts, ← List.range_eq_range'] at hstarts
  have hlength := hstarts.length_le
  rw [List.prefix_iff_eq_take.mp hstarts, List.length_map, ← List.countP_eq_length_filter,
    List.take_range, Nat.min_eq_left]
  simpa [List.countP_eq_length_filter] using hlength

/-! ## 2. Runs follow their timetable -/

namespace Queue

/-- What is seen of a queue of this spacing after these steps is what the timetable of its jobs says. -/
structure FollowsTimetable (spacing : Nat) (steps : List (QueueStep α)) : Prop where
  /-- The spans of the jobs make a timetable. -/
  isTimetable : IsTimetable spacing ((arrivalsOf spacing steps).map Arrival.timing)
    (timetable spacing (arrivalsOf spacing steps))
  /-- If the pause is no longer than the longest wait, each job but the first starts as soon as it is
  there and the pause is over. -/
  unhurried : spacing ≤ longestWait → ∀ (k : Nat) (a : Arrival α) (s s' : Span),
    (arrivalsOf spacing steps)[k + 1]? = some a →
    (timetable spacing (arrivalsOf spacing steps))[k]? = some s →
    (timetable spacing (arrivalsOf spacing steps))[k + 1]? = some s' →
      s'.start = max a.time (s.stop + spacing)
  /-- Jobs do not run at the same time, and between them lies a pause. -/
  apart : (timetable spacing (arrivalsOf spacing steps)).Pairwise fun s s' =>
    s.stop + min spacing longestWait ≤ s'.start
  /-- What has happened is the beginning of the timetable. -/
  log : (after spacing steps).log <+: events (timetable spacing (arrivalsOf spacing steps))
  /-- The jobs that have started are the first ones, each once and in their order. -/
  inOrder : ((after spacing steps).log.filter LogEntry.isStart).map LogEntry.job =
    List.range ((after spacing steps).log.countP LogEntry.isStart)
  /-- After all steps but those that only add a job, everything has happened that lies not ahead, -/
  complete : (∀ s, steps.getLast? = some s → s.isAdd = false) →
    (after spacing steps).log = (events (timetable spacing (arrivalsOf spacing steps))).filter
      fun e => e.time ≤ (after spacing steps).now
  /-- so that a job whose time is over has started and ended once, as its span says. -/
  once : (∀ s, steps.getLast? = some s → s.isAdd = false) → ∀ (k : Nat) (s : Span),
    (timetable spacing (arrivalsOf spacing steps))[k]? = some s →
    s.stop ≤ (after spacing steps).now →
      (after spacing steps).log.filter (fun e => e.job = k) = [⟨k, .start, s.start⟩, ⟨k, .stop, s.stop⟩]
  /-- That time comes for every job: time can pass, and changes no timetable. -/
  passes : ∀ ms, (after spacing (steps ++ [.sleep ms])).now = (after spacing steps).now + ms ∧
    arrivalsOf spacing (steps ++ [.sleep ms]) = arrivalsOf spacing steps
  /-- The count is that of the jobs that were added less those that have ended. -/
  pending : (after spacing steps).pending + (after spacing steps).log.countP LogEntry.isStop =
    (arrivalsOf spacing steps).length

/-- After the last step, if it was not one that only adds a job, nothing more can happen by now. -/
theorem quiet_after {spacing : Nat} {steps : List (QueueStep α)}
    (h : ∀ s, steps.getLast? = some s → s.isAdd = false) : (after spacing steps).Quiet := by
  rcases List.eq_nil_or_concat steps with rfl | ⟨steps, s, rfl⟩
  · intro t q' hnext
    simp [after, run, ofSpacing, next] at hnext
  · rw [after, List.concat_eq_append, run_append]
    exact (tracks_after spacing steps).quiet_step (h s (by simp))

theorem now_after_sleep (spacing : Nat) (steps : List (QueueStep α)) (ms : Nat) :
    (after spacing (steps ++ [.sleep ms])).now = (after spacing steps).now + ms := by
  rw [after, run_append]
  rfl

theorem arrivalsOf_sleep (spacing : Nat) (steps : List (QueueStep α)) (ms : Nat) :
    arrivalsOf spacing (steps ++ [.sleep ms]) = arrivalsOf spacing steps := by
  rw [arrivalsOf, arrivals_append]
  exact List.append_nil _

/-- **A queue runs its jobs by their timetable**, whatever is done with it. -/
theorem follows_timetable (spacing : Nat) (steps : List (QueueStep α)) :
    FollowsTimetable spacing steps := by
  have htracks := tracks_after spacing steps
  have hspans := isTimetable_spans spacing ((arrivalsOf spacing steps).map Arrival.timing)
  have hlog := htracks.log_begins
  rw [spacing_after] at hlog
  have hcomplete : (∀ s, steps.getLast? = some s → s.isAdd = false) → (after spacing steps).log =
      (events (timetable spacing (arrivalsOf spacing steps))).filter
        fun e => e.time ≤ (after spacing steps).now := by
    intro hlast
    rw [htracks.log_eq_filter (quiet_after hlast), spacing_after]
  refine
    { isTimetable := hspans
      unhurried := ?_
      apart := spans_apart spacing _
      log := hlog
      inOrder := map_job_starts_of_prefix hlog
      complete := hcomplete
      once := ?_
      passes := fun ms => ⟨now_after_sleep spacing steps ms, arrivalsOf_sleep spacing steps ms⟩
      pending := htracks.pending_add }
  · intro hspacing k a s s' ha hs hs'
    exact hspans.start_eq hspacing (by rw [List.getElem?_map, ha]; rfl) hs hs'
  · intro hlast k s hs hstop
    have hjob := filter_job_eventsFrom 0 hs
    have hk : k < ((arrivalsOf spacing steps).map Arrival.timing).length := by
      rw [← hspans.length]
      exact (List.getElem?_eq_some_iff.mp hs).1
    have hstart := hspans.stop k _ s (List.getElem?_eq_getElem hk) hs
    rw [Nat.zero_add] at hjob
    rw [hcomplete hlast, List.filter_comm, events, hjob]
    have hstart_le : s.start ≤ (after spacing steps).now := by omega
    simp [hstart_le, hstop]

/-- A pause of more than thirty years is over too soon: the second of two jobs starts when the longest
wait after the first is over. -/
theorem long_pause_is_cut_short :
    ¬ ∀ (spacing : Nat) (steps : List (QueueStep Nat)) (k stop start : Nat) (a : Arrival Nat),
      (arrivalsOf spacing steps)[k + 1]? = some a →
      ⟨k, .stop, stop⟩ ∈ (after spacing steps).log →
      ⟨k + 1, .start, start⟩ ∈ (after spacing steps).log →
        start = max a.time (stop + spacing) := by
  intro h
  have hlog : (after (longestWait + 1) [.add ⟨1, .value 1⟩, .add ⟨2, .failed (.sourceFailed "x")⟩,
      .await 0, .sleep 5, .await 1]).log =
        [⟨0, .start, 0⟩, ⟨0, .stop, 1⟩, ⟨1, .start, longestWait + 1⟩,
          ⟨1, .stop, longestWait + 3⟩] := by
    decide +kernel
  have hstart := h (longestWait + 1) [.add ⟨1, .value 1⟩, .add ⟨2, .failed (.sourceFailed "x")⟩,
    .await 0, .sleep 5, .await 1] 0 1 (longestWait + 1) ⟨0, ⟨2, .failed (.sourceFailed "x")⟩⟩ rfl
    (by rw [hlog]; simp) (by rw [hlog]; simp)
  exact absurd hstart (by decide)

end Queue

end Timesheet
