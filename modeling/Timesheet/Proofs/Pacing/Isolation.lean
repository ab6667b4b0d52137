import Timesheet.Proofs.Pacing.Runs
/-!
# Outcomes do not reach other jobs

Whoever waits for a job is given its own result and no other (`Tracks.await_eq`), and how a job ends makes
no difference to anything else: two runs in which the same jobs are added at the same times have the same
starts and stops and, at the same points, the same count, whatever becomes of the jobs and of their
receivers (`outcomes_are_isolated`).

The first comes from the channels, of which the one with the number of a job holds what that job has sent
and stays as it is once something has come.  The second comes from the timetable, in which outcomes do
not occur: what has happened after steps is the part of it that lies not ahead, for all jobs but those
that have just been added (`log_after`).
-/

namespace Timesheet

variable {α : Type}

/-! ## 1. Channels -/

namespace Channel

variable {c : Channel α} {o : Outcome α}

@[simp] theorem finish_eq_closed_iff : c.finish o = .closed ↔ c = .closed := by
  cases c <;> cases o <;> simp [finish]

/-- What has come stays, and a channel that is closed stays closed. -/
theorem finish_of_not_isEmpty (h : c.isEmpty = false) : c.finish o = c := by
  cases c <;> simp_all [finish, isEmpty]

/-- A job that ends with a receiver has its result received. -/
@[simp] theorem received?_finish_empty (o : Outcome α) : (empty.finish o).received? = some o.result := by
  cases o <;> rfl

@[simp] theorem isEmpty_finish_empty (o : Outcome α) : (empty.finish o).isEmpty = false := by
  cases o <;> rfl

end Channel

namespace Queue

variable {q q' : Queue α} {as : List (Arrival α)} {a : Arrival α} {id t : Nat}
variable {spacing : Nat} {steps : List (QueueStep α)}

/-- The receiving end for a job is there. -/
def Holds (q : Queue α) (id : Nat) : Prop := ∃ c, q.channels[id]? = some c ∧ c ≠ .closed

/-- What happens to a channel next: its job ends, or nothing. -/
theorem channel_next (h : q.next = some (t, q')) {c : Channel α} (hc : q.channels[id]? = some c) :
    q'.channels[id]? = some c ∨ ∃ o, q'.channels[id]? = some (c.finish o) := by
  rcases next_cases h with ⟨-, -, -, -, -, -, rfl⟩ | ⟨-, -, -, rfl⟩ | ⟨i, job, -, rfl⟩
  · exact Or.inl hc
  · exact Or.inl hc
  · simp only [List.getElem?_modify, hc, Option.map_eq_map, Option.map_some]
    by_cases hi : i = id
    · exact Or.inr ⟨job.outcome, by rw [if_pos hi]⟩
    · exact Or.inl (by rw [if_neg hi])

/-- What has come on a channel stays. -/
theorem channel_next_of_not_isEmpty (h : q.next = some (t, q')) {c : Channel α}
    (hc : q.channels[id]? = some c) (hcome : c.isEmpty = false) : q'.channels[id]? = some c := by
  rcases channel_next h hc with hc' | ⟨o, hc'⟩
  · exact hc'
  · rwa [Channel.finish_of_not_isEmpty hcome] at hc'

theorem Holds.next (h : q.Holds id) (hnext : q.next = some (t, q')) : q'.Holds id := by
  obtain ⟨c, hc, hopen⟩ := h
  rcases channel_next hnext hc with hc' | ⟨o, hc'⟩
  · exact ⟨c, hc', hopen⟩
  · exact ⟨c.finish o, hc', by simpa using hopen⟩

theorem Holds.runUntil (h : q.Holds id) (limit : Nat) : (q.runUntil limit).Holds id :=
  (runUntil_induction limit (P := fun r => r.Holds id) (fun _ _ _ hr hnext _ => hr.next hnext) h).1

theorem Holds.release (h : q.Holds id) {other : Nat} (hother : other ≠ id) :
    (q.release other).Holds id := by
  obtain ⟨c, hc, hopen⟩ := h
  exact ⟨c, by rw [Queue.release, List.getElem?_set_ne hother, hc], hopen⟩

/-- A receiving end goes only when it is waited with or dropped. -/
theorem Holds.step (h : q.Holds id) {s : QueueStep α} (hawait : s ≠ .await id) (hdrop : s ≠ .drop id) :
    (q.step s).2.Holds id := by
  cases s with
  | add job =>
    obtain ⟨c, hc, hopen⟩ := h
    have hlt : id < q.channels.length := (List.getElem?_eq_some_iff.mp hc).1
    exact ⟨c, by rw [Queue.step, enqueue, List.getElem?_append_left hlt, hc], hopen⟩
  | await other =>
    have hfor : (q.runFor other).Holds id :=
      (runFor_induction other (P := fun r => r.Holds id) (fun _ _ _ hr hnext => hr.next hnext) h).1
    exact (hfor.runUntil _).release fun heq => hawait (heq ▸ rfl)
  | drop other => exact (h.release fun heq => hdrop (heq ▸ rfl)).runUntil _
  | sleep ms => exact h.runUntil _

/-- In the steps nobody waits for the job or drops its receiving end. -/
def Unclaimed (id : Nat) (steps : List (QueueStep α)) : Prop :=
  ∀ s ∈ steps, s ≠ .await id ∧ s ≠ .drop id

/-- Whoever adds a job has the receiving end for it until the result is waited for or given up. -/
theorem holds_after (hid : id < (arrivalsOf spacing steps).length) (h : Unclaimed id steps) :
    (after spacing steps).Holds id := by
  induction steps using List.reverseRecOn with
  | nil => simp [arrivalsOf, arrivals] at hid
  | append_singleton steps s ih =>
    have hsteps : Unclaimed id steps := fun s' hs' => h s' (List.mem_append_left _ hs')
    obtain ⟨hawait, hdrop⟩ := h s (List.mem_append_right _ List.mem_cons_self)
    have hafter : after spacing (steps ++ [s]) = ((after spacing steps).step s).2 := run_append _ _ _
    rw [hafter]
    by_cases hlt : id < (arrivalsOf spacing steps).length
    · exact (ih hlt hsteps).step hawait hdrop
    · -- the step has added the job
      rw [arrivalsOf, arrivals_append, List.length_append] at hid
      obtain ⟨before, rest, has, hserves⟩ := tracks_after spacing steps
      have hadded : (after spacing steps).channels.length = (arrivalsOf spacing steps).length := by
        rw [has, List.length_append]
        exact hserves.added
      cases s with
      | add job =>
        have hid' : id = (after spacing steps).channels.length := by
          simp only [arrivals, QueueStep.arrivals, List.append_nil, List.length_singleton] at hid
          rw [hadded]
          exact Nat.le_antisymm (Nat.le_of_lt_succ hid) (Nat.not_lt.mp hlt)
        refine ⟨.empty, ?_, by simp⟩
        rw [hid', Queue.step, enqueue, List.getElem?_append_right (Nat.le_refl _), Nat.sub_self]
        rfl
      | _ =>
        simp only [arrivals, QueueStep.arrivals, List.append_nil, List.length_nil] at hid
        exact absurd hid hlt

/-! ## 2. What is waited for -/

/-- The channel of a job that is waited for has what the job sends, if nothing more can happen or
something has come. -/
theorem Tracks.channel_eq (h : q.Tracks as) (ha : as[id]? = some a) (hholds : q.Holds id)
    (hend : q.next = none ∨ q.channels[id]?.any Channel.isEmpty = false) :
    q.channels[id]? = some (Channel.empty.finish a.job.outcome) := by
  obtain ⟨before, rest, rfl, hs⟩ := h
  obtain ⟨c, hc, hopen⟩ := hholds
  have hchannel := (hs.channels id a c ha hc).resolve_left hopen
  suffices hlt : id < before.length by rwa [hchannel, if_pos hlt] at hc
  rcases hend with hnone | hcome
  · -- nothing is left to do, so that all jobs have settled
    have hrest : rest = [] := by
      cases hs.stage with
      | idle hworker hwaiting =>
        cases rest with
        | nil => rfl
        | cons b rest =>
          rw [Queue.next, hworker, hwaiting] at hnone
          simp [numbered] at hnone
      | holding hworker | running hworker =>
        rw [Queue.next, hworker] at hnone
        simp at hnone
    rw [hrest, List.append_nil] at ha
    exact (List.getElem?_eq_some_iff.mp ha).1
  · by_contra hlt
    rw [if_neg hlt] at hchannel
    simp [hc, hchannel, Channel.isEmpty] at hcome

/-- **Whoever waits for a job is given the result of that job.** -/
theorem Tracks.await_eq (h : q.Tracks as) (ha : as[id]? = some a) (hholds : q.Holds id) :
    (q.await id).1 = some a.job.outcome.result := by
  obtain ⟨⟨htracks, hheld⟩, hend⟩ := runFor_induction id
    (P := fun r => r.Tracks as ∧ r.Holds id)
    (fun _ _ _ hr hnext => ⟨hr.1.next hnext, hr.2.next hnext⟩) ⟨h, hholds⟩
  have hsettled := (runUntil_induction (q.runFor id).now
    (P := fun r => r.channels[id]? = some (Channel.empty.finish a.job.outcome))
    (fun _ _ _ hr hnext _ => channel_next_of_not_isEmpty hnext hr (by simp))
    (htracks.channel_eq ha hheld hend)).1
  have hreceived : (q.runFor id).settle.received? id = some a.job.outcome.result := by
    rw [received?, Queue.settle, hsettled]
    simp
  exact hreceived

/-! ## 3. Two runs -/

/-- How many jobs were added since anything else was done. -/
def lastAdds (steps : List (QueueStep α)) : Nat := (steps.reverse.takeWhile QueueStep.isAdd).length

theorem lastAdds_concat (steps : List (QueueStep α)) (s : QueueStep α) :
    lastAdds (steps ++ [s]) = if s.isAdd then lastAdds steps + 1 else 0 := by
  rw [lastAdds, List.reverse_concat, List.takeWhile_cons]
  split
  · rfl
  · rfl

/-- **What has happened after steps** is what lies not ahead in the timetable of all jobs but those that
have just been added. -/
theorem log_after (spacing : Nat) (steps : List (QueueStep α)) :
    lastAdds steps ≤ (arrivalsOf spacing steps).length ∧
    (after spacing steps).log = (events (spans spacing
      (((arrivalsOf spacing steps).map Arrival.timing).take
        ((arrivalsOf spacing steps).length - lastAdds steps)))).filter
          fun e => e.time ≤ (after spacing steps).now := by
  induction steps using List.reverseRecOn with
  | nil => exact ⟨Nat.le_refl _, rfl⟩
  | append_singleton steps s ih =>
    obtain ⟨hle, hlog⟩ := ih
    have hafter : after spacing (steps ++ [s]) = ((after spacing steps).step s).2 := run_append _ _ _
    have harrivals : arrivalsOf spacing (steps ++ [s]) =
        arrivalsOf spacing steps ++ s.arrivals (after spacing steps).now := by
      rw [arrivalsOf, arrivals_append, arrivals, arrivals, List.append_nil]
      rfl
    rw [lastAdds_concat]
    by_cases hs : s.isAdd
    · -- nothing happens while a job is added
      obtain ⟨job, rfl⟩ : ∃ job, s = .add job := by
        cases s with
        | add job => exact ⟨job, rfl⟩
        | _ => simp [QueueStep.isAdd] at hs
      rw [if_pos hs, harrivals, QueueStep.arrivals, List.length_append, List.length_singleton,
        Nat.add_sub_add_right, List.map_append, List.take_append_of_le_length (by simp), hafter]
      exact ⟨by omega, hlog⟩
    · have hquiet := (tracks_after spacing steps).quiet_step (by simpa using hs)
      have htracks := tracks_after spacing (steps ++ [s])
      rw [← hafter] at hquiet
      have hall := htracks.log_eq_filter hquiet
      rw [spacing_after] at hall
      rw [if_neg hs, Nat.sub_zero, List.take_of_length_le (by simp)]
      exact ⟨Nat.zero_le _, hall⟩

/-- When no job is left, all of the timetable has happened. -/
theorem Tracks.log_eq_of_pending (h : q.Tracks as) (hpending : q.pending = 0) :
    q.log = events (timetable q.spacing as) := by
  obtain ⟨before, rest, rfl, hs⟩ := h
  have hnil : rest = [] := List.length_eq_zero_iff.mp (hs.pending ▸ hpending)
  subst hnil
  rw [List.append_nil]
  cases hs.stage with
  | idle _ _ hlog => exact hlog

/-- The same jobs at the same times, but for the outcomes of those in `X`. -/
structure AlikeOutside (X : Nat → Prop) (as as' : List (Arrival α)) : Prop where
  timings : as.map Arrival.timing = as'.map Arrival.timing
  outcomes : ∀ (id : Nat) (a a' : Arrival α), ¬ X id → as[id]? = some a → as'[id]? = some a' →
    a.job.outcome = a'.job.outcome

/-- Two runs are at the same point: as many jobs have been added, as many of them just now, and it is the
same time. -/
structure SamePoint (spacing : Nat) (steps steps' : List (QueueStep α)) : Prop where
  added : (arrivalsOf spacing steps).length = (arrivalsOf spacing steps').length
  lastAdds : lastAdds steps = lastAdds steps'
  now : (after spacing steps).now = (after spacing steps').now

/-- What two runs have in common, but for the results of jobs in `X`. -/
structure AgreeOutside (X : Nat → Prop) (spacing : Nat) (steps steps' : List (QueueStep α)) :
    Prop where
  /-- As far as both have come, jobs have started and ended at the same times in the same order, -/
  log : ∀ done done', done <+: steps → done' <+: steps' →
    (after spacing done).log <+: (after spacing done').log ∨
      (after spacing done').log <+: (after spacing done).log
  /-- and so have all jobs when none is left. -/
  log_of_pending : (after spacing steps).pending = 0 → (after spacing steps').pending = 0 →
    (after spacing steps).log = (after spacing steps').log
  /-- At the same point the same has happened in both, and the count is the same. -/
  pending : ∀ done done', done <+: steps → done' <+: steps' → SamePoint spacing done done' →
    (after spacing done).log = (after spacing done').log ∧
      (after spacing done).pending = (after spacing done').pending
  /-- Whoever waits in both runs for a job outside `X` is given the same in both. -/
  results : ∀ (id : Nat) (steps₁ steps₂ steps₁' steps₂' : List (QueueStep α)), ¬ X id →
    steps = steps₁ ++ .await id :: steps₂ → steps' = steps₁' ++ .await id :: steps₂' →
    id < (arrivalsOf spacing steps₁).length → id < (arrivalsOf spacing steps₁').length →
    Unclaimed id steps₁ → Unclaimed id steps₁' →
      ((after spacing steps₁).await id).1 = ((after spacing steps₁').await id).1

/-- Waiting for a job that nobody has waited for before gives its result. -/
theorem await_after (ha : (arrivalsOf spacing steps)[id]? = some a) (h : Unclaimed id steps) :
    ((after spacing steps).await id).1 = some a.job.outcome.result :=
  (tracks_after spacing steps).await_eq ha (holds_after (List.getElem?_eq_some_iff.mp ha).1 h)

/-- The jobs that were added before some step are the first ones of all. -/
theorem arrivalsOf_mono {done : List (QueueStep α)} (h : done <+: steps) :
    arrivalsOf spacing done <+: arrivalsOf spacing steps := by
  obtain ⟨later, rfl⟩ := h
  rw [arrivalsOf, arrivalsOf, arrivals_append]
  exact List.prefix_append _ _

/-- What has happened before some step is the beginning of the timetable of all jobs. -/
theorem log_begins_timetable {done : List (QueueStep α)} (h : done <+: steps) :
    (after spacing done).log <+: events (timetable spacing (arrivalsOf spacing steps)) := by
  have hlog := (tracks_after spacing done).log_begins
  rw [spacing_after] at hlog
  refine hlog.trans ?_
  obtain ⟨later, hlater⟩ : arrivalsOf spacing done <+: arrivalsOf spacing steps := arrivalsOf_mono h
  rw [← hlater, timetable_append, events, events, eventsFrom_append]
  exact List.prefix_append _ _

/-- Runs that are at the same point have had jobs added at the same times, if the whole runs have. -/
theorem AlikeOutside.timings_of_length_eq {X : Nat → Prop} {steps' done done' : List (QueueStep α)}
    (h : AlikeOutside X (arrivalsOf spacing steps) (arrivalsOf spacing steps')) (hdone : done <+: steps)
    (hdone' : done' <+: steps')
    (hlength : (arrivalsOf spacing done).length = (arrivalsOf spacing done').length) :
    (arrivalsOf spacing done).map Arrival.timing = (arrivalsOf spacing done').map Arrival.timing := by
  have hfirst := (arrivalsOf_mono hdone : arrivalsOf spacing done <+: _).map Arrival.timing
  have hfirst' := (arrivalsOf_mono hdone' : arrivalsOf spacing done' <+: _).map Arrival.timing
  rw [← h.timings] at hfirst'
  have hle : ((arrivalsOf spacing done).map Arrival.timing).length ≤
      ((arrivalsOf spacing done').map Arrival.timing).length := by simp [hlength]
  exact (List.prefix_of_prefix_length_le hfirst hfirst' hle).eq_of_length (by simp [hlength])

/-- **Runs with the same jobs at the same times agree**, whatever becomes of the jobs and their
receivers. -/
theorem AlikeOutside.agree {X : Nat → Prop} {steps' : List (QueueStep α)}
    (h : AlikeOutside X (arrivalsOf spacing steps) (arrivalsOf spacing steps')) :
    AgreeOutside X spacing steps steps' := by
  have htable : timetable spacing (arrivalsOf spacing steps) =
      timetable spacing (arrivalsOf spacing steps') := congrArg (spans spacing) h.timings
  refine ⟨?_, ?_, ?_, ?_⟩
  · intro done done' hdone hdone'
    have hlog' : (after spacing done').log <+: _ := log_begins_timetable hdone'
    rw [← htable] at hlog'
    exact List.prefix_or_prefix_of_prefix (log_begins_timetable hdone) hlog'
  · intro hpending hpending'
    rw [(tracks_after spacing steps).log_eq_of_pending hpending,
      (tracks_after spacing steps').log_eq_of_pending hpending', spacing_after, spacing_after, htable]
  · rintro done done' hdone hdone' ⟨hlength, hadds, hnow⟩
    have hlog : (after spacing done).log = (after spacing done').log := by
      rw [(log_after spacing done).2, (log_after spacing done').2,
        h.timings_of_length_eq hdone hdone' hlength, hlength, hadds, hnow]
    refine ⟨hlog, ?_⟩
    have hcount := (tracks_after spacing done).pending_add
    have hcount' := (tracks_after spacing done').pending_add
    rw [hlog, hlength] at hcount
    omega
  · rintro id steps₁ steps₂ steps₁' steps₂' hX rfl rfl hid hid' hclaim hclaim'
    have ha := List.getElem?_eq_getElem hid
    have ha' := List.getElem?_eq_getElem hid'
    rw [await_after ha hclaim, await_after ha' hclaim', h.outcomes id _ _ hX
      (List.prefix_iff_getElem?.mp (arrivalsOf_mono (List.prefix_append _ _)) id hid)
      (List.prefix_iff_getElem?.mp (arrivalsOf_mono (List.prefix_append _ _)) id hid')]

/-- **How a job ends concerns only whoever waits for it.**  A receiver is given the result of its own job,
and two runs that differ only in the outcomes of some jobs and in what becomes of the receivers agree in
all else. -/
theorem outcomes_are_isolated (spacing : Nat) :
    (∀ (steps : List (QueueStep α)) (id : Nat) (a : Arrival α),
      (arrivalsOf spacing steps)[id]? = some a → Unclaimed id steps →
        ((after spacing steps).await id).1 = some a.job.outcome.result) ∧
    ∀ (X : Nat → Prop) (steps steps' : List (QueueStep α)),
      AlikeOutside X (arrivalsOf spacing steps) (arrivalsOf spacing steps') →
        AgreeOutside X spacing steps steps' :=
  ⟨fun _ _ _ ha h => await_after ha h, fun _ _ _ h => h.agree⟩

/-- A job that breaks off, and for which nobody waits, disturbs the next one no more than one that ends
well. -/
theorem isolated_crash :
    ((after 10 [.add ⟨5, .value 1⟩, .add ⟨3, .value 2⟩, .await 0]).await 1).1 = some (.ok 2) ∧
      AgreeOutside (· = 0) 10 [.add ⟨5, .value 1⟩, .add ⟨3, .value 2⟩, .await 0, .await 1]
        [.add ⟨5, .crashed⟩, .drop 0, .add ⟨3, .value 2⟩, .sleep 40, .await 1] := by
  have hisolated := @outcomes_are_isolated Nat 10
  have harrivals : arrivalsOf 10 [.add ⟨5, .value 1⟩, .add ⟨3, .value 2⟩, .await 0, .await 1] =
      [⟨0, ⟨5, .value 1⟩⟩, ⟨0, ⟨3, .value 2⟩⟩] := by decide +kernel
  have harrivals' : arrivalsOf 10 [.add ⟨5, .crashed⟩, .drop 0, .add ⟨3, .value 2⟩, .sleep 40,
      .await 1] = [⟨0, ⟨5, .crashed⟩⟩, ⟨0, ⟨3, .value 2⟩⟩] := by decide +kernel
  refine ⟨hisolated.1 _ 1 ⟨0, ⟨3, .value 2⟩⟩ (by decide +kernel) (by simp [Unclaimed]),
    hisolated.2 _ _ _ ⟨?_, ?_⟩⟩
  · rw [harrivals, harrivals']
    rfl
  · intro id a a' hid ha ha'
    rw [harrivals] at ha
    rw [harrivals'] at ha'
    match id with
    | 0 => exact absurd rfl hid
    | 1 =>
      obtain rfl := Option.some.inj ha
      obtain rfl := Option.some.inj ha'
      rfl
    | _ + 2 => simp at ha

end Queue

end Timesheet
