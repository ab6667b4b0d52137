import Mathlib.Data.List.Basic
import Timesheet.Proofs.Pacing.Timetable
/-!
# The queue keeps its timetable

Whatever is done with a queue, its worker is where the timetable of the jobs added so far puts it, and each
channel holds what its job has sent (`Serves`).  A step of the worker keeps that (`Tracks.next`), and so do
the steps of callers (`Tracks.step`); hence it holds after any run (`Tracks.run`).

What carries the proof is that the worker is never late: a job that it could take is there since this
very moment (`Stage.idle`), and what it is about to do still lies ahead, since time passes only when
everything up to then has happened (`Tracks.wait`).
-/

namespace Timesheet

variable {α : Type}

/-! ## 1. Jobs as they are added -/

/-- A job, and when it is added. -/
structure Arrival (α : Type) where
  time : Nat
  job : Job α
deriving DecidableEq

/-- When the job is added, and how long it runs. -/
def Arrival.timing (a : Arrival α) : Timing := ⟨a.time, a.job.duration⟩

/-- The timetable of jobs. -/
def timetable (spacing : Nat) (as : List (Arrival α)) : List Span :=
  spans spacing (as.map Arrival.timing)

/-- The jobs with their numbers, counted from `k`. -/
def numbered : Nat → List (Arrival α) → List (Nat × Job α)
  | _, [] => []
  | k, a :: as => (k, a.job) :: numbered (k + 1) as

theorem numbered_append (k : Nat) (as as' : List (Arrival α)) :
    numbered k (as ++ as') = numbered k as ++ numbered (k + as.length) as' := by
  induction as generalizing k with
  | nil => rfl
  | cons a as ih =>
    have hk : k + 1 + as.length = k + (as.length + 1) := by omega
    simp only [List.cons_append, numbered, ih, List.length_cons, hk]

@[simp] theorem length_timetable (spacing : Nat) (as : List (Arrival α)) :
    (timetable spacing as).length = as.length := by
  simp [timetable, spans]

/-- The jobs that have settled have their spans whatever comes after them. -/
theorem timetable_append (spacing : Nat) (as as' : List (Arrival α)) :
    timetable spacing (as ++ as') = timetable spacing as ++
      spansAfter spacing (lastStop (timetable spacing as)) (as'.map Arrival.timing) := by
  rw [timetable, List.map_append, spans_append]
  rfl

namespace Queue

/-! ## 2. What the worker does next -/

variable {q q' : Queue α} {t : Nat}

/-- **What can happen next**: the worker takes a job, starts it, or is done with it. -/
theorem next_cases (h : q.next = some (t, q')) :
    (∃ id job rest, q.worker = .idle ∧ q.waiting = (id, job) :: rest ∧ t = q.now ∧
      q' = { q with
        waiting := rest
        worker := .holding id job (earliestStart q.spacing q.settled q.now) }) ∨
    (∃ id job, q.worker = .holding id job t ∧
      q' = { q with
        now := t
        worker := .running id job (t + job.duration)
        log := q.log ++ [⟨id, .start, t⟩] }) ∨
    ∃ id job, q.worker = .running id job t ∧
      q' = { q with
        now := t
        worker := .idle
        settled := some t
        pending := q.pending - 1
        channels := q.channels.modify id (Channel.finish job.outcome)
        log := q.log ++ [⟨id, .stop, t⟩] } := by
  unfold next at h
  split at h
  · next hw =>
    split at h
    · simp at h
    · next id job rest hl =>
      obtain ⟨rfl, rfl⟩ := Prod.mk.inj (Option.some.inj h)
      exact Or.inl ⟨id, job, rest, hw, hl, rfl, rfl⟩
  · next id job start hw =>
    obtain ⟨rfl, rfl⟩ := Prod.mk.inj (Option.some.inj h)
    exact Or.inr (Or.inl ⟨id, job, hw, rfl⟩)
  · next id job stop hw =>
    obtain ⟨rfl, rfl⟩ := Prod.mk.inj (Option.some.inj h)
    exact Or.inr (Or.inr ⟨id, job, hw, rfl⟩)

theorem now_next (h : q.next = some (t, q')) : q'.now = t := by
  rcases next_cases h with ⟨-, -, -, -, -, rfl, rfl⟩ | ⟨-, -, -, rfl⟩ | ⟨-, -, -, rfl⟩ <;> rfl

theorem spacing_next (h : q.next = some (t, q')) : q'.spacing = q.spacing := by
  rcases next_cases h with ⟨-, -, -, -, -, -, rfl⟩ | ⟨-, -, -, rfl⟩ | ⟨-, -, -, rfl⟩ <;> rfl

/-- Nothing more happens up to a time. -/
def QuietUntil (limit : Nat) (q : Queue α) : Prop := ∀ t q', q.next = some (t, q') → limit < t

/-- Nothing more happens without time passing. -/
def Quiet (q : Queue α) : Prop := q.QuietUntil q.now

/-! ## 3. Where the worker stands -/

/-- Where the worker stands when the jobs of `before` have settled and those of `after` have not. -/
inductive Stage (q : Queue α) (before : List (Arrival α)) : List (Arrival α) → Prop where
  /-- It waits for a job.  If there is one, then since this moment. -/
  | idle {after : List (Arrival α)} (worker : q.worker = .idle)
      (waiting : q.waiting = numbered before.length after)
      (log : q.log = events (timetable q.spacing before))
      (prompt : ∀ a, after.head? = some a → q.now = max a.time (q.settled.getD 0)) :
      Stage q before after
  /-- It has a job, whose start lies ahead. -/
  | holding {a : Arrival α} {rest : List (Arrival α)}
      (worker : q.worker =
        .holding before.length a.job (a.timing.span q.spacing q.settled).start)
      (waiting : q.waiting = numbered (before.length + 1) rest)
      (log : q.log = events (timetable q.spacing before))
      (ahead : q.now ≤ (a.timing.span q.spacing q.settled).start) :
      Stage q before (a :: rest)
  /-- It runs a job, whose end lies ahead. -/
  | running {a : Arrival α} {rest : List (Arrival α)}
      (worker : q.worker =
        .running before.length a.job (a.timing.span q.spacing q.settled).stop)
      (waiting : q.waiting = numbered (before.length + 1) rest)
      (log : q.log = events (timetable q.spacing before) ++
        [⟨before.length, .start, (a.timing.span q.spacing q.settled).start⟩])
      (ahead : q.now ≤ (a.timing.span q.spacing q.settled).stop) :
      Stage q before (a :: rest)

/-- The queue has settled the jobs of `before` and has those of `after` left. -/
structure Serves (q : Queue α) (before after : List (Arrival α)) : Prop where
  stage : q.Stage before after
  settled : q.settled = lastStop (timetable q.spacing before)
  /-- What has happened lies not ahead. -/
  settled_le : q.settled.getD 0 ≤ q.now
  added_le : ∀ a ∈ after, a.time ≤ q.now
  log_le : ∀ e ∈ q.log, e.time ≤ q.now
  /-- The count is that of the jobs that are left. -/
  pending : q.pending = after.length
  added : q.added = before.length + after.length
  /-- A channel that is not closed holds what its job has sent, if it has settled, and else nothing. -/
  channels : ∀ k a c, (before ++ after)[k]? = some a → q.channels[k]? = some c →
    c = .closed ∨ c = if k < before.length then Channel.empty.finish a.job.outcome else .empty

/-- The queue has been given these jobs and does with them what it should. -/
def Tracks (q : Queue α) (as : List (Arrival α)) : Prop :=
  ∃ before after, as = before ++ after ∧ q.Serves before after

variable {before after as : List (Arrival α)}

/-- What happens next does not lie in the past. -/
theorem Stage.now_le (h : q.Stage before after) (hnext : q.next = some (t, q')) : q.now ≤ t := by
  cases h with
  | idle hworker =>
    rcases next_cases hnext with ⟨-, -, -, -, -, rfl, -⟩ | ⟨id, job, hw, -⟩ | ⟨id, job, hw, -⟩
    · exact Nat.le_refl _
    · rw [hworker] at hw
      contradiction
    · rw [hworker] at hw
      contradiction
  | holding hworker _ _ hahead | running hworker _ _ hahead =>
    rw [next, hworker] at hnext
    obtain ⟨rfl, -⟩ := Prod.mk.inj (Option.some.inj hnext)
    exact hahead

/-- A job that is added has a channel of its own, on which nothing has come. -/
theorem Serves.channels_enqueue (h : q.Serves before after) (job : Job α) (k : Nat) (a : Arrival α)
    (c : Channel α) (ha : (before ++ (after ++ [⟨q.now, job⟩]))[k]? = some a)
    (hc : (q.enqueue job).channels[k]? = some c) :
    c = .closed ∨ c = if k < before.length then Channel.empty.finish a.job.outcome else .empty := by
  have hadded := h.added
  rw [← List.append_assoc] at ha
  by_cases hk : k < q.added
  · have hlt : k < (before ++ after).length := by
      rw [List.length_append, ← hadded]
      exact hk
    rw [List.getElem?_append_left hlt] at ha
    refine h.channels k a c ha ?_
    rwa [Queue.enqueue, List.getElem?_append_left hk] at hc
  · rw [Queue.enqueue, List.getElem?_append_right (Nat.not_lt.mp hk)] at hc
    obtain rfl := List.mem_singleton.mp (List.mem_of_getElem? hc)
    rw [if_neg (by omega)]
    exact Or.inr rfl

/-- A job that is done sends on its own channel and on no other. -/
theorem Serves.channels_finish {a : Arrival α} {rest : List (Arrival α)}
    (h : q.Serves before (a :: rest)) (k : Nat) (b : Arrival α) (c : Channel α)
    (hb : ((before ++ [a]) ++ rest)[k]? = some b)
    (hc : (q.channels.modify before.length (Channel.finish a.job.outcome))[k]? = some c) :
    c = .closed ∨
      c = if k < (before ++ [a]).length then Channel.empty.finish b.job.outcome else .empty := by
  rw [List.append_assoc, List.singleton_append] at hb
  simp only [List.getElem?_modify, Option.map_eq_map, Option.map_eq_some_iff] at hc
  obtain ⟨c₀, hc₀, rfl⟩ := hc
  have hc₀ := h.channels k b c₀ hb hc₀
  simp only [List.length_append, List.length_singleton]
  by_cases hk : before.length = k
  · subst hk
    obtain rfl : a = b := by
      rw [List.getElem?_append_right (Nat.le_refl _), Nat.sub_self] at hb
      exact Option.some.inj hb
    rw [if_neg (Nat.lt_irrefl _)] at hc₀
    rw [if_pos (Nat.lt_succ_self _), if_pos rfl]
    rcases hc₀ with rfl | rfl
    · exact Or.inl rfl
    · exact Or.inr rfl
  · rw [if_neg hk]
    have hlt : k < before.length + 1 ↔ k < before.length := by omega
    simpa only [hlt, id] using hc₀

/-- What happens now comes last of what has happened. -/
theorem Serves.log_le_concat (h : q.Serves before after) (ht : q.now ≤ t) (k : Nat) (m : Moment) :
    ∀ e ∈ q.log ++ [⟨k, m, t⟩], e.time ≤ t := by
  intro e he
  rcases List.mem_append.mp he with he | he
  · exact Nat.le_trans (h.log_le e he) ht
  · obtain rfl := List.mem_singleton.mp he
    exact Nat.le_refl _

/-! ## 4. What keeps the queue on its timetable -/

theorem Serves.enqueue (h : q.Serves before after) (job : Job α) :
    (q.enqueue job).Serves before (after ++ [⟨q.now, job⟩]) := by
  have hadded := h.added
  have hwaits : ∀ k as, q.waiting = numbered k as → k + as.length = q.added →
      (q.enqueue job).waiting = numbered k (as ++ [⟨q.now, job⟩]) := by
    intro k as hwaiting hk
    rw [Queue.enqueue, numbered_append, hk, hwaiting]
    rfl
  refine ⟨?_, h.settled, h.settled_le, ?_, h.log_le, ?_, ?_, ?_⟩
  · cases h.stage with
    | idle hworker hwaiting hlog hprompt =>
      refine .idle hworker (hwaits _ _ hwaiting hadded.symm) hlog fun a ha => ?_
      cases after with
      | nil =>
        obtain rfl := Option.some.inj ha
        exact (Nat.max_eq_left h.settled_le).symm
      | cons b rest => exact hprompt a ha
    | holding hworker hwaiting hlog hahead =>
      rw [List.length_cons] at hadded
      exact .holding hworker (hwaits _ _ hwaiting (by omega)) hlog hahead
    | running hworker hwaiting hlog hahead =>
      rw [List.length_cons] at hadded
      exact .running hworker (hwaits _ _ hwaiting (by omega)) hlog hahead
  · intro a ha
    rcases List.mem_append.mp ha with ha | ha
    · exact h.added_le a ha
    · obtain rfl := List.mem_singleton.mp ha
      exact Nat.le_refl _
  · rw [List.length_append, ← h.pending]
    rfl
  · simp only [Queue.added, Queue.enqueue, List.length_append, List.length_singleton] at hadded ⊢
    omega
  · exact h.channels_enqueue job

/-- To drop the receiving end of a channel changes nothing else. -/
theorem Serves.release (h : q.Serves before after) (id : Nat) :
    (q.release id).Serves before after := by
  refine ⟨?_, h.settled, h.settled_le, h.added_le, h.log_le, h.pending, ?_, ?_⟩
  · cases h.stage with
    | idle hworker hwaiting hlog hprompt => exact .idle hworker hwaiting hlog hprompt
    | holding hworker hwaiting hlog hahead => exact .holding hworker hwaiting hlog hahead
    | running hworker hwaiting hlog hahead => exact .running hworker hwaiting hlog hahead
  · rw [← h.added, Queue.added, Queue.release, List.length_set]
    rfl
  · intro k a c ha hc
    rw [Queue.release, List.getElem?_set] at hc
    split at hc
    · split at hc
      · exact Or.inl (Option.some.inj hc).symm
      · simp at hc
    · exact h.channels k a c ha hc

/-- Time may pass as long as nothing happens. -/
theorem Serves.wait {limit : Nat} (h : q.Serves before after) (hlimit : q.now ≤ limit)
    (hquiet : q.QuietUntil limit) : ({ q with now := limit } : Queue α).Serves before after := by
  refine ⟨?_, h.settled, Nat.le_trans h.settled_le hlimit,
    fun a ha => Nat.le_trans (h.added_le a ha) hlimit,
    fun e he => Nat.le_trans (h.log_le e he) hlimit, h.pending, h.added, h.channels⟩
  cases h.stage with
  | idle hworker hwaiting hlog hprompt =>
    -- a job that the worker could take would be something that happens
    refine .idle hworker hwaiting hlog fun a ha => ?_
    obtain ⟨rest, rfl⟩ := List.head?_eq_some_iff.mp ha
    have hlt := hquiet q.now _ (by rw [next, hworker, hwaiting]; rfl)
    omega
  | holding hworker hwaiting hlog hahead =>
    exact .holding hworker hwaiting hlog (Nat.le_of_lt (hquiet _ _ (by rw [next, hworker])))
  | running hworker hwaiting hlog hahead =>
    exact .running hworker hwaiting hlog (Nat.le_of_lt (hquiet _ _ (by rw [next, hworker])))

/-- The worker takes the job that is first. -/
theorem Serves.take {a : Arrival α} {rest : List (Arrival α)} (h : q.Serves before (a :: rest))
    (hlog : q.log = events (timetable q.spacing before))
    (hprompt : q.now = max a.time (q.settled.getD 0)) :
    ({ q with
      waiting := numbered (before.length + 1) rest
      worker := .holding before.length a.job (earliestStart q.spacing q.settled q.now) } :
        Queue α).Serves before (a :: rest) := by
  have hstart : earliestStart q.spacing q.settled q.now =
      (a.timing.span q.spacing q.settled).start := by
    rw [hprompt]
    rfl
  refine ⟨.holding ?_ rfl hlog ?_, h.settled, h.settled_le, h.added_le, h.log_le, h.pending, h.added,
    h.channels⟩
  · simp only [hstart]
  · simp only [← hstart, earliestStart]
    split <;> omega

/-- The worker starts the job that it has. -/
theorem Serves.start {a : Arrival α} {rest : List (Arrival α)} (h : q.Serves before (a :: rest))
    (hwaiting : q.waiting = numbered (before.length + 1) rest)
    (hlog : q.log = events (timetable q.spacing before))
    (hahead : q.now ≤ (a.timing.span q.spacing q.settled).start) :
    ({ q with
      now := (a.timing.span q.spacing q.settled).start
      worker := .running before.length a.job
        ((a.timing.span q.spacing q.settled).start + a.job.duration)
      log := q.log ++ [⟨before.length, .start, (a.timing.span q.spacing q.settled).start⟩] } :
        Queue α).Serves before (a :: rest) := by
  refine ⟨.running rfl hwaiting (by simp only [hlog]) (Nat.le_add_right _ _), h.settled,
    Nat.le_trans h.settled_le hahead, fun b hb => Nat.le_trans (h.added_le b hb) hahead,
    h.log_le_concat hahead _ _, h.pending, h.added, h.channels⟩

/-- The worker is done with the job that it runs. -/
theorem Serves.finish {a : Arrival α} {rest : List (Arrival α)} (h : q.Serves before (a :: rest))
    (hwaiting : q.waiting = numbered (before.length + 1) rest)
    (hlog : q.log = events (timetable q.spacing before) ++
      [⟨before.length, .start, (a.timing.span q.spacing q.settled).start⟩])
    (hahead : q.now ≤ (a.timing.span q.spacing q.settled).stop) :
    ({ q with
      now := (a.timing.span q.spacing q.settled).stop
      worker := .idle
      settled := some (a.timing.span q.spacing q.settled).stop
      pending := q.pending - 1
      channels := q.channels.modify before.length (Channel.finish a.job.outcome)
      log := q.log ++ [⟨before.length, .stop, (a.timing.span q.spacing q.settled).stop⟩] } :
        Queue α).Serves (before ++ [a]) rest := by
  have htable : timetable q.spacing (before ++ [a]) =
      timetable q.spacing before ++ [a.timing.span q.spacing q.settled] := by
    rw [timetable_append, ← h.settled]
    rfl
  have hadded := h.added
  have hpending := h.pending
  rw [List.length_cons] at hadded hpending
  refine ⟨.idle rfl ?_ ?_ ?_, ?_, Nat.le_refl _, ?_, ?_, ?_, ?_, ?_⟩
  · rw [List.length_append]
    exact hwaiting
  · simp only [htable, hlog, events, eventsFrom_append, length_timetable, Nat.zero_add]
    simp [eventsFrom]
  · -- the next job was there before
    intro b hb
    have := h.added_le b (List.mem_cons_of_mem _ (List.mem_of_mem_head? hb))
    simp only [Option.getD_some]
    omega
  · simp [htable, lastStop]
  · exact fun b hb => Nat.le_trans (h.added_le b (List.mem_cons_of_mem _ hb)) hahead
  · exact h.log_le_concat hahead _ _
  · simp only [hpending]
    omega
  · simp only [Queue.added, List.length_modify, List.length_append, List.length_singleton] at hadded ⊢
    omega
  · exact h.channels_finish

/-- **What happens next keeps the queue on its timetable.** -/
theorem Tracks.next (h : q.Tracks as) (hnext : q.next = some (t, q')) : q'.Tracks as := by
  obtain ⟨before, after, rfl, hs⟩ := h
  cases hs.stage with
  | idle hworker hwaiting hlog hprompt =>
    cases after with
    | nil =>
      rw [Queue.next, hworker, hwaiting] at hnext
      simp [numbered] at hnext
    | cons a rest =>
      rw [Queue.next, hworker, hwaiting] at hnext
      obtain ⟨-, rfl⟩ := Prod.mk.inj (Option.some.inj hnext)
      exact ⟨before, a :: rest, rfl, hs.take hlog (hprompt a rfl)⟩
  | @holding a rest hworker hwaiting hlog hahead =>
    rw [Queue.next, hworker] at hnext
    obtain ⟨-, rfl⟩ := Prod.mk.inj (Option.some.inj hnext)
    exact ⟨before, a :: rest, rfl, hs.start hwaiting hlog hahead⟩
  | @running a rest hworker hwaiting hlog hahead =>
    rw [Queue.next, hworker] at hnext
    obtain ⟨-, rfl⟩ := Prod.mk.inj (Option.some.inj hnext)
    exact ⟨before ++ [a], rest, by simp, hs.finish hwaiting hlog hahead⟩

theorem Tracks.now_le (h : q.Tracks as) (hnext : q.next = some (t, q')) : q.now ≤ t := by
  obtain ⟨before, after, -, hs⟩ := h
  exact hs.stage.now_le hnext

theorem Tracks.wait {limit : Nat} (h : q.Tracks as) (hlimit : q.now ≤ limit)
    (hquiet : q.QuietUntil limit) : ({ q with now := limit } : Queue α).Tracks as := by
  obtain ⟨before, after, rfl, hs⟩ := h
  exact ⟨before, after, rfl, hs.wait hlimit hquiet⟩

theorem Tracks.release (h : q.Tracks as) (id : Nat) : (q.release id).Tracks as := by
  obtain ⟨before, after, rfl, hs⟩ := h
  exact ⟨before, after, rfl, hs.release id⟩

theorem Tracks.enqueue (h : q.Tracks as) (job : Job α) :
    (q.enqueue job).Tracks (as ++ [⟨q.now, job⟩]) := by
  obtain ⟨before, after, rfl, hs⟩ := h
  exact ⟨before, after ++ [⟨q.now, job⟩], List.append_assoc _ _ _, hs.enqueue job⟩

end Queue

end Timesheet
