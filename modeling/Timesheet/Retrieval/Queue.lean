import Timesheet.Retrieval.Error
import Timesheet.Retrieval.Pace
/-!
# The request queue

A `Queue` runs jobs one at a time, in the order in which they were added, with a pause between the
end of one and the start of the next.  Jobs are numbered in that order.

Whoever adds a job is given the receiving end of a `Channel`, on which the result of the job comes.  A
job that breaks off leaves its channel without having sent anything, and a receiving end may be dropped
before anything has come.

Time is virtual: it passes only while a caller waits, and `Queue.next` says what happens next and
when.  `Queue.runUntil` lets everything happen up to a time, `Queue.runFor` until something has come for
a job.  What a caller can do is a `QueueStep`.
-/

namespace Timesheet

/-! ## 1. Jobs and their results -/

/-- How a job ends. -/
inductive Outcome (α : Type) where
  | value (a : α)
  | failed (e : ReportError)
  /-- The job breaks off without a result. -/
  | crashed
deriving DecidableEq

/-- What whoever waits for a job is to be given. -/
def Outcome.result {α : Type} : Outcome α → Except ReportError α
  | value a => .ok a
  | failed e => .error e
  | crashed => .error .requestLost

/-- A job: how long it takes, in milliseconds, and how it ends. -/
structure Job (α : Type) where
  duration : Nat
  outcome : Outcome α
deriving DecidableEq

/-- The channel on which the result of one job comes. -/
inductive Channel (α : Type) where
  /-- Nothing has come. -/
  | empty
  /-- This has come, and has not been taken. -/
  | sent (result : Except ReportError α)
  /-- The job is gone, and nothing will come. -/
  | deserted
  /-- The receiving end is gone. -/
  | closed

namespace Channel

variable {α : Type}

/-- Nothing has come, but something may. -/
def isEmpty : Channel α → Bool
  | empty => true
  | sent _ | deserted | closed => false

/-- The job ends and sends its result, if it has one and there is somebody to receive it. -/
def finish (o : Outcome α) : Channel α → Channel α
  | empty =>
    match o with
    | .value a => sent (.ok a)
    | .failed e => sent (.error e)
    | .crashed => deserted
  | c => c

/-- What the receiving end is given, if anything yet. -/
def received? : Channel α → Option (Except ReportError α)
  | sent r => some r
  | deserted => some (.error .requestLost)
  | empty | closed => none

end Channel

/-! ## 2. Queues -/

/-- The start or end of a job. -/
inductive Moment where
  | start
  | stop
deriving DecidableEq

/-- The start or end of a job, and when it was. -/
structure LogEntry where
  job : Nat
  moment : Moment
  time : Nat
deriving DecidableEq

/-- What the one worker of a queue does. -/
inductive Worker (α : Type) where
  /-- It waits for a job. -/
  | idle
  /-- It has a job, which it starts at a time. -/
  | holding (id : Nat) (job : Job α) (start : Nat)
  /-- It runs a job, which ends at a time. -/
  | running (id : Nat) (job : Job α) (stop : Nat)

/-- Jobs that run one at a time. -/
structure Queue (α : Type) where
  /-- The milliseconds between the end of a job and the start of the next. -/
  spacing : Nat := 0
  now : Nat := 0
  /-- The jobs that the worker has not taken. -/
  waiting : List (Nat × Job α) := []
  worker : Worker α := .idle
  /-- When the last job ended. -/
  settled : Option Nat := none
  /-- The count of jobs: one more when a job is added, one less when the worker is done with it. -/
  pending : Nat := 0
  /-- The channels of all jobs, by their numbers. -/
  channels : List (Channel α) := []
  /-- The starts and ends of jobs so far, in order. -/
  log : List LogEntry := []

namespace Queue

variable {α : Type}

/-- The jobs added so far, which is the number of the next one. -/
def added (q : Queue α) : Nat := q.channels.length

/-- Adds a job at the end. -/
def enqueue (q : Queue α) (job : Job α) : Queue α :=
  { q with
    waiting := q.waiting ++ [(q.added, job)]
    pending := q.pending + 1
    channels := q.channels ++ [.empty] }

/-- Drops the receiving end of the channel of a job. -/
def release (q : Queue α) (id : Nat) : Queue α := { q with channels := q.channels.set id .closed }

/-- What has come for a job, if anything. -/
def received? (q : Queue α) (id : Nat) : Option (Except ReportError α) :=
  q.channels[id]?.bind Channel.received?

/-- What happens next if time passes: the time of it, and the queue after it. -/
def next (q : Queue α) : Option (Nat × Queue α) :=
  match q.worker with
  | .idle =>
    match q.waiting with
    | [] => none
    | (id, job) :: rest =>
      let start := earliestStart q.spacing q.settled q.now
      some (q.now, { q with waiting := rest, worker := .holding id job start })
  | .holding id job start =>
    some (start, { q with
      now := start
      worker := .running id job (start + job.duration)
      log := q.log ++ [⟨id, .start, start⟩] })
  | .running id job stop =>
    some (stop, { q with
      now := stop
      worker := .idle
      settled := some stop
      pending := q.pending - 1
      channels := q.channels.modify id (Channel.finish job.outcome)
      log := q.log ++ [⟨id, .stop, stop⟩] })

/-- The steps that are left to do: three for a job that waits, one less for each step that has
been taken. -/
def work (q : Queue α) : Nat :=
  3 * q.waiting.length + match q.worker with
    | .idle => 0
    | .running .. => 1
    | .holding .. => 2

theorem work_next {q q' : Queue α} {t : Nat} (h : q.next = some (t, q')) : q'.work < q.work := by
  unfold next at h
  split at h
  · next hw =>
    split at h
    · simp at h
    · next hl =>
      obtain ⟨-, rfl⟩ := Prod.mk.inj (Option.some.inj h)
      simp only [work, hw, hl, List.length_cons]
      omega
  · next hw =>
    obtain ⟨-, rfl⟩ := Prod.mk.inj (Option.some.inj h)
    simp [work, hw]
  · next hw =>
    obtain ⟨-, rfl⟩ := Prod.mk.inj (Option.some.inj h)
    simp [work, hw]

/-! ## 3. Letting time pass -/

/-- Lets everything happen that happens up to a time. -/
def runUntil (limit : Nat) (q : Queue α) : Queue α :=
  match _h : q.next with
  | none => q
  | some (t, q') => if t ≤ limit then runUntil limit q' else q
termination_by q.work
decreasing_by exact work_next _h

/-- Lets everything happen that can happen without time passing. -/
def settle (q : Queue α) : Queue α := q.runUntil q.now

/-- Lets time pass. -/
def sleep (q : Queue α) (ms : Nat) : Queue α :=
  { q.runUntil (q.now + ms) with now := q.now + ms }

/-- Lets time pass as long as something may come for a job and has not. -/
def runFor (id : Nat) (q : Queue α) : Queue α :=
  if q.channels[id]?.any Channel.isEmpty then
    match _h : q.next with
    | none => q
    | some (_, q') => runFor id q'
  else q
termination_by q.work
decreasing_by exact work_next _h

/-- Waits for the result of a job, and then for everything that happens at that same time.  Whoever has
waited has no more use for the channel. -/
def await (q : Queue α) (id : Nat) : Option (Except ReportError α) × Queue α :=
  let q := (q.runFor id).settle
  (q.received? id, q.release id)

end Queue

/-! ## 4. What a caller does -/

/-- What a caller can do with a queue. -/
inductive QueueStep (α : Type) where
  | add (job : Job α)
  /-- To wait for the result of a job. -/
  | await (id : Nat)
  /-- To drop the receiving end for a job. -/
  | drop (id : Nat)
  | sleep (ms : Nat)
deriving DecidableEq

namespace Queue

variable {α : Type}

/-- Takes a step: the result that has come by it, and the queue after it.  Everything happens that can
happen by then, except that nothing does while jobs are added. -/
def step (q : Queue α) : QueueStep α → Option (Except ReportError α) × Queue α
  | .add job => (none, q.enqueue job)
  | .await id => q.await id
  | .drop id => (none, (q.release id).settle)
  | .sleep ms => (none, q.sleep ms)

/-- The queue after steps. -/
def run (q : Queue α) (steps : List (QueueStep α)) : Queue α :=
  steps.foldl (fun q s => (q.step s).2) q

end Queue

end Timesheet
