import Timesheet.Retrieval.Coordinator
/-!
# Inquiries at the same time

Several inquiries may run on one coordinator at the same time.  This module takes them apart into
the steps between which others may run.

An inquiry looks for missing days when it begins.  If there are any, it waits for the turn to fetch,
which one inquiry at a time has (`Inquiries.turn`).  Then it looks again, since the one before it
may have fetched the same days, and fetches and stores what is still missing.  In the end it
reads the store.

* `Inquiries.step` is one step of one inquiry, so that every list of numbers is a schedule
  (`Inquiries.run`).
* `Inquiries.finish` runs all of them to their ends: each begins in the order in which they were
  made, and so each gets its turn.  `Inquiries.work_step` is why this comes to an end.
-/

namespace Timesheet

/-! ## 1. Stages -/

/-- The fetching of a period that is under way: the page that is next, the rows of the pages before,
and the periods that are missing beside. -/
structure Fetch where
  period : Period
  page : Nat := 1
  rows : List Row := []
  rest : List Period

/-- Where an inquiry stands. -/
inductive Stage where
  /-- It has not begun. -/
  | made
  /-- It waits for its turn to fetch. -/
  | waiting (f : Filter)
  /-- It has its turn and has to look again for missing days. -/
  | looking (f : Filter)
  /-- It has to ask for a page. -/
  | asking (f : Filter) (w : Fetch)
  /-- It has asked for a page, and this answer is on its way. -/
  | expecting (f : Filter) (w : Fetch) (answer : Except ReportError Page)
  /-- It has all rows of a period and has to store them. -/
  | storing (f : Filter) (w : Fetch)
  /-- It has to read the store. -/
  | reading (f : Filter)
  /-- It has its answer. -/
  | answered (answer : Except ReportError (List Row))

/-- A query, whether missing days are to be fetched for it, and how far that has come. -/
structure Inquiry where
  query : Query
  fetches : Bool := true
  stage : Stage := .made

/-- The answer of an inquiry, if it has one. -/
def Inquiry.answer? (i : Inquiry) : Option (Except ReportError (List Row)) :=
  match i.stage with
  | .answered r => some r
  | _ => none

/-- Inquiries on one coordinator. -/
structure Inquiries where
  session : Session := {}
  /-- The number of the inquiry whose turn it is to fetch. -/
  turn : Option Nat := none
  all : List Inquiry := []

/-! ## 2. Steps -/

namespace Inquiries

/-- The stage of a fetch of periods before its first step. -/
def fetching (f : Filter) : List Period → Stage
  | [] => .reading f
  | period :: rest => .asking f { period, rest }

/-- The turn that is left when an inquiry goes on to a stage: it gives its turn back with its last
period, or with an error. -/
def turnAfter (turn : Option Nat) : Stage → Option Nat
  | .reading _ | .answered _ => none
  | _ => turn

/-- The stage after an answer of the source. -/
def receive (c : Coordinator) (f : Filter) (w : Fetch) : Except ReportError Page → Stage
  | .error e => .answered (.error e)
  | .ok p =>
    let rows := w.rows ++ p.rows
    if !p.hasMore then .storing f { w with rows }
    else if w.page < c.pages then .asking f { w with page := w.page + 1, rows }
    else .answered (.error (.tooManyPages w.period c.pages))

/-- The inquiry in the `n`-th place goes on to a stage. -/
def goOn (m : Inquiries) (n : Nat) (i : Inquiry) (stage : Stage) : Inquiries :=
  { m with all := m.all.set n { i with stage } }

/-- The next step of the inquiry in the `n`-th place, if it can take one. -/
def step (c : Coordinator) (source : Source) (n : Nat) (m : Inquiries) : Option Inquiries :=
  match m.all[n]? with
  | none => none
  | some i =>
    match i.stage with
    | .made =>
      match Filter.ofQuery i.query c.directory with
      | .error e => some (m.goOn n i (.answered (.error e)))
      | .ok f =>
        if i.fetches && !(m.session.store.missing i.query.window).isEmpty then
          some (m.goOn n i (.waiting f))
        else some (m.goOn n i (.reading f))
    | .waiting f =>
      if m.turn.isNone then some ({ m with turn := some n }.goOn n i (.looking f)) else none
    | .looking f =>
      let stage := fetching f (m.session.store.missing i.query.window)
      some ({ m with turn := turnAfter m.turn stage }.goOn n i stage)
    | .asking f w =>
      let (answer, session) := c.call source (.all w.period) w.page m.session
      some ({ m with session }.goOn n i (.expecting f w answer))
    | .expecting f w answer =>
      let stage := receive c f w answer
      some ({ m with turn := turnAfter m.turn stage }.goOn n i stage)
    | .storing f w =>
      let session := { m.session with store := m.session.store.put w.period w.rows }
      let stage := fetching f w.rest
      some ({ m with session, turn := turnAfter m.turn stage }.goOn n i stage)
    | .reading f =>
      let rows := m.session.store.rowsIn i.query.window
      some (m.goOn n i (.answered (.ok (f.apply c.directory i.query.sort rows))))
    | .answered _ => none

/-- Lets inquiries take steps in the order of their numbers; one that cannot is passed over. -/
def run (c : Coordinator) (source : Source) (schedule : List Nat) (m : Inquiries) : Inquiries :=
  schedule.foldl (fun m n => (m.step c source n).getD m) m

/-! ## 3. Every step makes progress -/

/-- How far an inquiry is from fetching. -/
def rank (i : Inquiry) : Nat :=
  match i.stage with
  | .made => 3
  | .waiting _ => 2
  | .looking _ => 1
  | _ => 0

/-- The steps that are enough for periods of at most `pages` pages each. -/
def periodSteps (pages periods : Nat) : Nat := periods * (2 * pages + 3)

/-- The steps that are enough for an inquiry that fetches or has fetched. -/
def stepsLeft (pages : Nat) (i : Inquiry) : Nat :=
  match i.stage with
  | .asking _ w => 4 + 2 * (pages + 1 - w.page) + periodSteps pages w.rest.length
  | .expecting _ w _ => 3 + 2 * (pages + 1 - w.page) + periodSteps pages w.rest.length
  | .storing _ w => 2 + periodSteps pages w.rest.length
  | .reading _ => 1
  | _ => 0

/-- Progress: first the distance of all inquiries from fetching, then the steps of those that
fetch. -/
def work (c : Coordinator) (m : Inquiries) : Nat × Nat :=
  (m.all.foldr (rank · + ·) 0, m.all.foldr (stepsLeft c.pages · + ·) 0)

/-- An element that is replaced changes a sum by the difference. -/
theorem foldr_add_set {α : Type} (f : α → Nat) {l : List α} {n : Nat} {a : α} (h : l[n]? = some a)
    (b : α) : (l.set n b).foldr (f · + ·) 0 + f a = l.foldr (f · + ·) 0 + f b := by
  induction l generalizing n with
  | nil => simp at h
  | cons x l ih =>
    cases n with
    | zero =>
      obtain rfl : x = a := by simpa using h
      simp only [List.set_cons_zero, List.foldr_cons]
      omega
    | succ n =>
      have := ih (n := n) (by simpa using h)
      simp only [List.set_cons_succ, List.foldr_cons]
      omega

/-- An inquiry that goes on to a stage closer to its end takes all of them closer. -/
theorem work_goOn {c : Coordinator} {m m' : Inquiries} {n : Nat} {i : Inquiry} {stage : Stage}
    (hi : m.all[n]? = some i) (hall : m'.all = m.all)
    (h : rank { i with stage } < rank i ∨
      rank { i with stage } = rank i ∧ stepsLeft c.pages { i with stage } < stepsLeft c.pages i) :
    Prod.Lex (· < ·) (· < ·) ((m'.goOn n i stage).work c) (m.work c) := by
  have hr := foldr_add_set rank hi { i with stage }
  have hs := foldr_add_set (stepsLeft c.pages) hi { i with stage }
  simp only [work, goOn, hall]
  rcases h with h | ⟨h, h'⟩
  · exact .left _ _ (by omega)
  · have hsame : (m.all.set n { i with stage }).foldr (rank · + ·) 0 = m.all.foldr (rank · + ·) 0 := by
      omega
    rw [hsame]
    exact .right _ (by omega)

theorem work_fetching (c : Coordinator) (f : Filter) (i : Inquiry) (periods : List Period) :
    rank { i with stage := fetching f periods } = 0 ∧
      stepsLeft c.pages { i with stage := fetching f periods }
        < 2 + periodSteps c.pages periods.length := by
  cases periods with
  | nil => exact ⟨rfl, by simp [stepsLeft, fetching, periodSteps]⟩
  | cons p rest =>
    refine ⟨rfl, ?_⟩
    simp only [stepsLeft, fetching, periodSteps, List.length_cons, Nat.add_mul]
    omega

theorem work_receive (c : Coordinator) (f : Filter) (i : Inquiry) (w : Fetch)
    (answer : Except ReportError Page) :
    rank { i with stage := receive c f w answer } = 0 ∧
      stepsLeft c.pages { i with stage := receive c f w answer }
        < stepsLeft c.pages { i with stage := .expecting f w answer } := by
  cases answer with
  | error e => exact ⟨rfl, by simp only [receive, stepsLeft]; omega⟩
  | ok p =>
    simp only [receive]
    split
    · exact ⟨rfl, by simp only [stepsLeft]; omega⟩
    · split
      · exact ⟨rfl, by simp only [stepsLeft]; omega⟩
      · exact ⟨rfl, by simp only [stepsLeft]; omega⟩

/-- Each step brings all inquiries closer to their ends. -/
theorem work_step {c : Coordinator} {source : Source} {n : Nat} {m m' : Inquiries}
    (h : m.step c source n = some m') : Prod.Lex (· < ·) (· < ·) (m'.work c) (m.work c) := by
  unfold step at h
  split at h
  · simp at h
  · next i hi =>
    split at h
    · next hs =>
      split at h
      · obtain rfl := Option.some.inj h
        exact work_goOn hi rfl (.inl (by simp [rank, hs]))
      · split at h <;> obtain rfl := Option.some.inj h
        · exact work_goOn hi rfl (.inl (by simp [rank, hs]))
        · exact work_goOn hi rfl (.inl (by simp [rank, hs]))
    · next hs =>
      split at h
      · obtain rfl := Option.some.inj h
        exact work_goOn hi rfl (.inl (by simp [rank, hs]))
      · simp at h
    · next f hs =>
      have hrank : rank i = 1 := by simp [rank, hs]
      obtain rfl := Option.some.inj h
      exact work_goOn hi rfl (.inl (by rw [hrank, (work_fetching c f i _).1]; decide))
    · next hs =>
      obtain rfl := Option.some.inj h
      exact work_goOn hi rfl (.inr ⟨by simp [rank, hs], by simp only [stepsLeft, hs]; omega⟩)
    · next f w answer hs =>
      obtain rfl := Option.some.inj h
      obtain ⟨h1, h2⟩ := work_receive c f i w answer
      refine work_goOn hi rfl (.inr ⟨by rw [h1]; simp [rank, hs], ?_⟩)
      have : stepsLeft c.pages i = stepsLeft c.pages { i with stage := .expecting f w answer } := by
        simp [stepsLeft, hs]
      omega
    · next f w hs =>
      obtain rfl := Option.some.inj h
      obtain ⟨h1, h2⟩ := work_fetching c f i w.rest
      exact work_goOn hi rfl (.inr ⟨by rw [h1]; simp [rank, hs], by simpa [stepsLeft, hs] using h2⟩)
    · next hs =>
      obtain rfl := Option.some.inj h
      exact work_goOn hi rfl (.inr ⟨by simp [rank, hs], by simp [stepsLeft, hs]⟩)
    · simp at h

/-! ## 4. To the end -/

/-- The inquiry has not begun. -/
def isMade (i : Inquiry) : Bool :=
  match i.stage with
  | .made => true
  | _ => false

/-- The step that comes next when inquiries begin in their order and go on as soon as they can. -/
def next (c : Coordinator) (source : Source) (m : Inquiries) : Option Inquiries :=
  match m.all.findIdx? isMade with
  | some n => m.step c source n
  | none => (List.range m.all.length).findSome? fun n => m.step c source n

theorem work_next {c : Coordinator} {source : Source} {m m' : Inquiries}
    (h : m.next c source = some m') : Prod.Lex (· < ·) (· < ·) (m'.work c) (m.work c) := by
  unfold next at h
  split at h
  · exact work_step h
  · obtain ⟨n, -, hn⟩ := List.exists_of_findSome?_eq_some h
    exact work_step hn

/-- Runs all inquiries to their ends. -/
def finish (c : Coordinator) (source : Source) (m : Inquiries) : Inquiries :=
  match _h : m.next c source with
  | none => m
  | some m' => finish c source m'
termination_by m.work c
decreasing_by exact work_next _h

/-- The inquiries for queries that are asked at the same time. -/
def ofQueries (queries : List Query) (s : Session) : Inquiries :=
  { session := s, all := queries.map fun query => { query } }

/-- The answers, where there are any. -/
def answers (m : Inquiries) : List (Option (Except ReportError (List Row))) :=
  m.all.map Inquiry.answer?

end Inquiries

end Timesheet
