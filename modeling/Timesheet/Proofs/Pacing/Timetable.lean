import Mathlib.Data.List.Basic
import Timesheet.Retrieval.Queue
/-!
# Timetables

When jobs are to run that a queue takes one at a time.  The first starts when it is added.  Each later
one starts once it is there and the pause after the one before is over, but no pause goes on for longer
than `longestWait` (`IsTimetable`).

* `spans` is the timetable of jobs of which it is known when they were added and how long they run
  (`isTimetable_spans`); what comes first does not depend on what comes later (`spans_append`).
* `events` are its starts and stops one after the other.  Each job starts once, in the order of the jobs
  (`map_job_starts`).
-/

namespace Timesheet

/-! ## 1. Spans -/

/-- When a job is added, and how long it runs. -/
structure Timing where
  added : Nat
  duration : Nat
deriving DecidableEq

/-- When a job runs. -/
structure Span where
  start : Nat
  stop : Nat
deriving DecidableEq

/-- The span of a job that comes after one that settled, if any has. -/
def Timing.span (spacing : Nat) (settled : Option Nat) (t : Timing) : Span :=
  let start := earliestStart spacing settled (max t.added (settled.getD 0))
  ⟨start, start + t.duration⟩

/-- The spans of jobs that come after one that settled, if any has. -/
def spansAfter (spacing : Nat) : Option Nat → List Timing → List Span
  | _, [] => []
  | settled, t :: ts =>
    t.span spacing settled :: spansAfter spacing (some (t.span spacing settled).stop) ts

/-- The spans of jobs. -/
def spans (spacing : Nat) (ts : List Timing) : List Span := spansAfter spacing none ts

/-- When the last of some spans ends. -/
def lastStop (sp : List Span) : Option Nat := sp.getLast?.map Span.stop

variable {spacing : Nat} {settled : Option Nat} {t : Timing} {ts ts' : List Timing}

@[simp] theorem stop_span : (t.span spacing settled).stop =
    (t.span spacing settled).start + t.duration := rfl

theorem start_span_none : (t.span spacing none).start = t.added := by
  simp [Timing.span, earliestStart]

/-- A job waits for the end of the pause after the one before. -/
theorem start_span_some (e : Nat) : (t.span spacing (some e)).start =
    max t.added e + min (e + spacing - max t.added e) longestWait := rfl

/-- No job starts before those before it have settled. -/
theorem settled_le_start_span : settled.getD 0 ≤ (t.span spacing settled).start := by
  cases settled with
  | none => exact Nat.zero_le _
  | some e =>
    rw [start_span_some, Option.getD_some]
    omega

@[simp] theorem length_spansAfter : (spansAfter spacing settled ts).length = ts.length := by
  induction ts generalizing settled with
  | nil => rfl
  | cons t ts ih => simp [spansAfter, ih]

theorem lastStop_cons (s : Span) (sp : List Span) :
    lastStop (s :: sp) = (lastStop sp).or (some s.stop) := by
  rw [lastStop, lastStop, List.getLast?_cons]
  cases sp.getLast? <;> rfl

/-- The first jobs have the same spans whatever comes after them. -/
theorem spansAfter_append : spansAfter spacing settled (ts ++ ts') =
    spansAfter spacing settled ts ++
      spansAfter spacing ((lastStop (spansAfter spacing settled ts)).or settled) ts' := by
  induction ts generalizing settled with
  | nil => simp [spansAfter, lastStop]
  | cons t ts ih =>
    have hlast : ∀ o : Option Nat, (o.or (some (t.span spacing settled).stop)).or settled =
        o.or (some (t.span spacing settled).stop) := by
      rintro (_ | e) <;> rfl
    rw [List.cons_append, spansAfter, ih, spansAfter, List.cons_append, lastStop_cons, hlast]

theorem spans_append (spacing : Nat) (ts ts' : List Timing) : spans spacing (ts ++ ts') =
    spans spacing ts ++ spansAfter spacing (lastStop (spans spacing ts)) ts' := by
  rw [spans, spansAfter_append, Option.or_none]
  rfl

/-! ## 2. What makes a timetable -/

/-- The spans in which jobs are to run. -/
structure IsTimetable (spacing : Nat) (ts : List Timing) (sp : List Span) : Prop where
  /-- Each job has one. -/
  length : sp.length = ts.length
  /-- The first job starts when it is added, -/
  first : ∀ (t : Timing) (s : Span), ts[0]? = some t → sp[0]? = some s → s.start = t.added
  /-- and each later one once it is there and the pause after the one before is over.  A pause that would
  go on for longer than the longest wait ends with that. -/
  later : ∀ (k : Nat) (t : Timing) (s s' : Span), ts[k + 1]? = some t → sp[k]? = some s →
    sp[k + 1]? = some s' →
      s'.start = max t.added s.stop + min (s.stop + spacing - max t.added s.stop) longestWait
  /-- Each job ends when it has run for its time. -/
  stop : ∀ (k : Nat) (t : Timing) (s : Span), ts[k]? = some t → sp[k]? = some s →
    s.stop = s.start + t.duration

theorem getElem?_zero_spansAfter :
    (spansAfter spacing settled ts)[0]? = ts[0]?.map (Timing.span spacing settled) := by
  cases ts <;> rfl

theorem getElem?_succ_spansAfter (k : Nat) : (spansAfter spacing settled ts)[k + 1]? =
    (spansAfter spacing settled ts)[k]?.bind fun s =>
      ts[k + 1]?.map (Timing.span spacing (some s.stop)) := by
  induction ts generalizing settled k with
  | nil => rfl
  | cons t ts ih =>
    simp only [spansAfter, List.getElem?_cons_succ]
    cases k with
    | zero => rw [getElem?_zero_spansAfter, List.getElem?_cons_zero, Option.bind_some]
    | succ k => rw [ih, List.getElem?_cons_succ]

/-- **Jobs have a timetable.** -/
theorem isTimetable_spans (spacing : Nat) (ts : List Timing) :
    IsTimetable spacing ts (spans spacing ts) := by
  refine ⟨length_spansAfter, ?_, ?_, ?_⟩
  · intro t s ht hs
    rw [spans, getElem?_zero_spansAfter, ht, Option.map_some, Option.some.injEq] at hs
    rw [← hs, start_span_none]
  · intro k t s s' ht hs hs'
    rw [spans] at hs hs'
    rw [getElem?_succ_spansAfter, hs, ht, Option.bind_some, Option.map_some, Option.some.injEq] at hs'
    rw [← hs', start_span_some]
  · intro k t s ht hs
    have hspan : ∃ settled, t.span spacing settled = s := by
      cases k with
      | zero =>
        rw [spans, getElem?_zero_spansAfter, ht] at hs
        exact ⟨none, Option.some.inj hs⟩
      | succ k =>
        rw [spans, getElem?_succ_spansAfter, ht, Option.bind_eq_some_iff] at hs
        obtain ⟨s₀, -, hs⟩ := hs
        exact ⟨some s₀.stop, Option.some.inj hs⟩
    obtain ⟨settled, rfl⟩ := hspan
    rfl

/-- A pause that is not too long is kept to the end. -/
theorem IsTimetable.start_eq {sp : List Span} (h : IsTimetable spacing ts sp)
    (hspacing : spacing ≤ longestWait) {k : Nat} {s s' : Span} (ht : ts[k + 1]? = some t)
    (hs : sp[k]? = some s) (hs' : sp[k + 1]? = some s') :
    s'.start = max t.added (s.stop + spacing) := by
  rw [h.later k t s s' ht hs hs']
  omega

/-- A pause lies before each job that comes after a settled one. -/
theorem pause_le_of_mem {e : Nat} {s : Span} (h : s ∈ spansAfter spacing (some e) ts) :
    e + min spacing longestWait ≤ s.start := by
  induction ts generalizing e with
  | nil => simp [spansAfter] at h
  | cons t ts ih =>
    have hstart : (t.span spacing (some e)).start = _ := start_span_some e
    rw [spansAfter, List.mem_cons] at h
    rcases h with rfl | h
    · omega
    · have := ih h
      rw [stop_span] at this
      omega

/-- **No two jobs run at the same time**, and between them lies a pause. -/
theorem spans_apart (spacing : Nat) (ts : List Timing) :
    (spans spacing ts).Pairwise fun s s' => s.stop + min spacing longestWait ≤ s'.start := by
  rw [spans]
  generalize (none : Option Nat) = settled
  induction ts generalizing settled with
  | nil => exact List.Pairwise.nil
  | cons t ts ih => exact List.pairwise_cons.mpr ⟨fun s hs => pause_le_of_mem hs, ih _⟩

/-! ## 3. Starts and stops -/

/-- The starts and stops of jobs that are numbered from `k` on, in their order. -/
def eventsFrom : Nat → List Span → List LogEntry
  | _, [] => []
  | k, s :: sp => ⟨k, .start, s.start⟩ :: ⟨k, .stop, s.stop⟩ :: eventsFrom (k + 1) sp

/-- The starts and stops of a timetable. -/
def events (sp : List Span) : List LogEntry := eventsFrom 0 sp

/-- The entry is that of a start. -/
def LogEntry.isStart (e : LogEntry) : Bool := e.moment = .start

/-- The entry is that of a stop. -/
def LogEntry.isStop (e : LogEntry) : Bool := e.moment = .stop

theorem eventsFrom_append (k : Nat) (sp sp' : List Span) :
    eventsFrom k (sp ++ sp') = eventsFrom k sp ++ eventsFrom (k + sp.length) sp' := by
  induction sp generalizing k with
  | nil => rfl
  | cons s sp ih =>
    have hk : k + 1 + sp.length = k + (sp.length + 1) := by omega
    simp only [List.cons_append, eventsFrom, ih, List.length_cons, hk]

/-- The jobs of a timetable start in their order, each of them once. -/
theorem map_job_starts (k : Nat) (sp : List Span) :
    ((eventsFrom k sp).filter LogEntry.isStart).map LogEntry.job = List.range' k sp.length := by
  induction sp generalizing k with
  | nil => rfl
  | cons s sp ih =>
    have hfilter : (eventsFrom k (s :: sp)).filter LogEntry.isStart =
        ⟨k, .start, s.start⟩ :: (eventsFrom (k + 1) sp).filter LogEntry.isStart := rfl
    rw [hfilter, List.map_cons, ih, List.length_cons, List.range'_succ]

theorem countP_isStop_eventsFrom (k : Nat) (sp : List Span) :
    (eventsFrom k sp).countP LogEntry.isStop = sp.length := by
  induction sp generalizing k with
  | nil => rfl
  | cons s sp ih => simp [eventsFrom, LogEntry.isStop, ih]

/-- Nothing happens before what has settled. -/
theorem settled_le_of_mem {k : Nat} {e : LogEntry}
    (h : e ∈ eventsFrom k (spansAfter spacing settled ts)) : settled.getD 0 ≤ e.time := by
  induction ts generalizing k settled with
  | nil => simp [spansAfter, eventsFrom] at h
  | cons t ts ih =>
    have hstart : settled.getD 0 ≤ (t.span spacing settled).start := settled_le_start_span
    simp only [spansAfter, eventsFrom, List.mem_cons] at h
    rcases h with rfl | rfl | h
    · exact hstart
    · exact Nat.le_trans hstart (Nat.le_add_right _ _)
    · have := ih h
      rw [Option.getD_some, stop_span] at this
      omega

end Timesheet
