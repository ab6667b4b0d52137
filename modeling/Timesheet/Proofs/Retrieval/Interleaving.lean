import Timesheet.Proofs.Retrieval.Economy
/-!
# Nothing is fetched twice, whatever runs at the same time

Any number of reports and looks at the store may run on one coordinator at the same time, in steps that
alternate in any order, over any source (`reached`).  `FetchesOnce` is what they can rely on.  One call
at most is under way.  A period is asked for only while none of its days is covered, and none becomes
covered until the inquiry that asks has stored exactly this period or failed.  So no day is stored twice,
and a report that returns rows has read them when all days of its window were covered.

Over an export a report therefore returns what it would return alone on a new coordinator.  A look at the
store does not: it takes what is there (`cached_before_days_are_covered`).

All of it rests on the two invariants of a run: each inquiry is sound (`Inquiry.Sound`), and over an
export the store mirrors it (`mirrors_reached`).
-/

namespace Timesheet

/-! ## 1. What holds of questions at the same time -/

/-- The query of a question. -/
def Ask.query : Ask → Query
  | .report q => q
  | .cached q => q

/-- The question to which an inquiry belongs. -/
def Inquiry.ask (i : Inquiry) : Ask := if i.fetches then .report i.query else .cached i.query

@[simp] theorem Inquiry.query_ask (i : Inquiry) : i.ask.query = i.query := by
  unfold ask
  split <;> rfl

theorem Inquiry.fetches_of_ask {i : Inquiry} {q : Query} (h : i.ask = .report q) :
    i.fetches = true := by
  unfold ask at h
  split at h
  · assumption
  · simp at h

namespace Inquiries

/-- The inquiry in the `n`-th place has begun to fetch the period, and has not stored it. -/
def IsFetching (m : Inquiries) (n : Nat) (p : Period) : Prop :=
  ∃ i w, m.all[n]? = some i ∧ i.stage.fetch? = some w ∧ w.period = p

/-- The inquiry in the `n`-th place has asked for a page of the period, which is on its way. -/
def IsExpecting (m : Inquiries) (n : Nat) (p : Period) : Prop :=
  ∃ i f w answer, m.all[n]? = some i ∧ i.stage = .expecting f w answer ∧ w.period = p

/-- With the step to `m'`, the inquiry in the `n`-th place stores the period, and nothing else, or
fails, and stores nothing. -/
def EndsFetch (m m' : Inquiries) (n : Nat) (p : Period) : Prop :=
  (∃ rows, m.put? n = some ⟨p, rows⟩ ∧ m'.session.store = m.session.store.put p rows) ∨
    ∃ err, m'.answers[n]? = some (some (.error err)) ∧ m'.session.store = m.session.store

/-- What holds of questions that are asked at the same time, in whatever order their steps come. -/
structure FetchesOnce (c : Coordinator) (source : Source) (asks : List Ask) : Prop where
  /-- No two inquiries expect pages at the same time. -/
  single : ∀ schedule n k p p', (reached c source asks schedule).IsExpecting n p →
    (reached c source asks schedule).IsExpecting k p' → n = k
  /-- Whoever makes a call asks for the period that it is fetching. -/
  called : ∀ schedule n,
    (reached c source asks (schedule ++ [n])).session.calls =
      (reached c source asks schedule).session.calls ∨
    ∃ p page, (reached c source asks schedule).IsFetching n p ∧
      (reached c source asks (schedule ++ [n])).IsExpecting n p ∧
      (reached c source asks (schedule ++ [n])).session.calls =
        (reached c source asks schedule).session.calls ++ [⟨.all p, page⟩]
  /-- While a period is being fetched, none of its days is covered. -/
  uncovered : ∀ schedule n p d, (reached c source asks schedule).IsFetching n p →
    p.contains d = true → ¬ (reached c source asks schedule).session.store.Covers d
  /-- It is being fetched until the inquiry itself stores it, or fails. -/
  lasts : ∀ schedule later n p, (reached c source asks schedule).IsFetching n p →
    (∀ before, before <+: later → (reached c source asks (schedule ++ before)).IsFetching n p) ∨
    ∃ first rest, later = first ++ n :: rest ∧
      (∀ before, before <+: first →
        (reached c source asks (schedule ++ before)).IsFetching n p) ∧
      (reached c source asks (schedule ++ first)).EndsFetch
        (reached c source asks (schedule ++ first ++ [n])) n p
  /-- The store is what was put, and no day was put twice. -/
  stored : ∀ schedule, (reached c source asks schedule).session.store =
    Store.ofBatches (puts c source schedule (ofAsks asks))
  apart : ∀ schedule, (puts c source schedule (ofAsks asks)).Pairwise fun a b =>
    ∀ d, a.period.contains d = true → ¬ b.period.contains d = true
  /-- Rows that are returned were read from the store at one moment; for a report, all days of its
  window were covered then. -/
  read : ∀ (schedule : List Nat) (n : Nat) (a : Ask) (rows : List Row), asks[n]? = some a →
    (reached c source asks schedule).answers[n]? = some (some (.ok rows)) →
    ∃ earlier f, earlier <+: schedule ∧ Filter.ofQuery a.query c.directory = .ok f ∧
      rows = f.apply c.directory a.query.sort
        ((reached c source asks earlier).session.store.rowsIn a.query.window) ∧
      (a = .report a.query → ∀ d, a.query.window.contains d = true →
        (reached c source asks earlier).session.store.Covers d)
  /-- Over an export, a report that returns rows returns those that it would return alone on a new
  coordinator for the same workspace, unless it had too many pages for that one. -/
  same : ∀ (e : Export) (size : Nat), source.Serves e size →
    ∀ (schedule : List Nat) (n : Nat) (q : Query) (rows : List Row), asks[n]? = some (.report q) →
    (reached c source asks schedule).answers[n]? = some (some (.ok rows)) →
    ∀ (c' : Coordinator) (size' : Nat), c'.directory = c.directory →
      (∀ p limit, (c'.report (e.source size') q {}).1 ≠ .error (.tooManyPages p limit)) →
      (c'.report (e.source size') q {}).1 = .ok rows

/-! ## 2. What a step does to a fetch -/

variable {c : Coordinator} {source : Source} {asks : List Ask} {m m' : Inquiries} {n k : Nat}
  {i : Inquiry} {p : Period}

theorem answers_eq_some_iff {r : Except ReportError (List Row)} :
    m.answers[n]? = some (some r) ↔ ∃ i, m.all[n]? = some i ∧ i.stage = .answered r := by
  rw [answers, List.getElem?_map, Option.map_eq_some_iff]
  refine exists_congr fun i => and_congr_right fun _ => ?_
  unfold Inquiry.answer?
  split
  · next hstage => rw [hstage]; simp
  · next hnot => simpa using hnot r

/-- What is about to be stored is being fetched. -/
theorem isFetching_of_put? {b : Batch Row} (h : m.put? n = some b) : m.IsFetching n b.period := by
  obtain ⟨i, f, w, hi, hstage, rfl⟩ := put?_eq_some_iff.mp h
  exact ⟨i, w, hi, by rw [hstage]; rfl, rfl⟩

theorem IsExpecting.isFetching (h : m.IsExpecting n p) : m.IsFetching n p := by
  obtain ⟨i, f, w, answer, hi, hstage, rfl⟩ := h
  exact ⟨i, w, hi, by rw [hstage]; rfl, rfl⟩

/-- **A fetch goes on or comes to its end** with a step of its own. -/
theorem isFetching_of_step (h : m.IsFetching n p) (hstep : m.step c source k = some m') :
    m'.IsFetching n p ∨ k = n ∧ m.EndsFetch m' n p := by
  obtain ⟨i, w, hi, hw, rfl⟩ := h
  obtain ⟨j, s', turn', stage, hj, hgoes, rfl⟩ := step_cases hstep
  by_cases hk : k = n
  · subst hk
    obtain rfl := Option.some.inj (hi.symm.trans hj)
    have hnext := getElem?_set_stage hi
    cases hgoes with
    | asks hstage | turnsPage hstage | completes hstage =>
      rw [hstage] at hw
      obtain rfl := Option.some.inj hw
      exact Or.inl ⟨_, _, hnext _, rfl, rfl⟩
    | fails hstage =>
      exact Or.inr ⟨rfl, Or.inr ⟨_, answers_eq_some_iff.mpr ⟨_, hnext _, rfl⟩, rfl⟩⟩
    | stores hstage | storesLast hstage =>
      rw [hstage] at hw
      obtain rfl := Option.some.inj hw
      exact Or.inr ⟨rfl, Or.inl ⟨_, put?_eq_some_iff.mpr ⟨_, _, _, hi, hstage, rfl⟩, rfl⟩⟩
    | unknown hstage | waits hstage | skips hstage | enters hstage | begins hstage | finds hstage
    | reads hstage =>
      rw [hstage] at hw
      simp [Stage.fetch?] at hw
  · refine Or.inl ⟨i, w, ?_, hw, rfl⟩
    show (m.all.set k _)[n]? = some i
    rw [List.getElem?_set_ne hk, hi]

/-- A step that makes a call makes it for the period that is being fetched. -/
theorem calls_of_step (hstep : m.step c source n = some m') :
    m'.session.calls = m.session.calls ∨
      ∃ p page, m.IsFetching n p ∧ m'.IsExpecting n p ∧
        m'.session.calls = m.session.calls ++ [⟨.all p, page⟩] := by
  obtain ⟨i, s', turn', stage, hi, hgoes, rfl⟩ := step_cases hstep
  cases hgoes with
  | asks hstage hcalls hstore =>
    refine Or.inr ⟨_, _, ⟨i, _, hi, by rw [hstage]; rfl, rfl⟩, ?_, hcalls⟩
    exact ⟨_, _, _, _, getElem?_set_stage hi _, rfl, rfl⟩
  | _ => exact Or.inl rfl

/-! ## 3. Runs -/

/-- No inquiry changes its question. -/
theorem ask_reached (c : Coordinator) (source : Source) (asks : List Ask) (schedule : List Nat) :
    (reached c source asks schedule).all.map Inquiry.ask = asks := by
  refine run_induction (P := fun m => m.all.map Inquiry.ask = asks) ?_ ?_ schedule
  · have hask : ∀ a : Ask, a.inquiry.ask = a := fun a => by cases a <;> rfl
    simp [ofAsks, Function.comp_def, hask]
  · intro m n m' hm hstep
    obtain ⟨i, s', turn', stage, hi, -, rfl⟩ := step_cases hstep
    have hsame : (m.all.map Inquiry.ask)[n]? = some (Inquiry.ask { i with stage }) := by
      rw [List.getElem?_map, hi]
      rfl
    obtain ⟨hlt, hget⟩ := List.getElem?_eq_some_iff.mp hsame
    rw [List.map_set, ← hm, ← hget]
    exact List.set_getElem_self hlt

/-- What holds of all prefixes holds at first and of all prefixes that come after. -/
theorem forall_prefix_cons {P : List Nat → Prop} (k : Nat) (l : List Nat) :
    (∀ before, before <+: k :: l → P before) ↔ P [] ∧ ∀ before, before <+: l → P (k :: before) := by
  constructor
  · intro h
    refine ⟨h [] List.nil_prefix, fun before hbefore => h _ ?_⟩
    exact List.cons_prefix_cons.mpr ⟨rfl, hbefore⟩
  · rintro ⟨hnil, hcons⟩ before hbefore
    rcases List.prefix_cons_iff.mp hbefore with rfl | ⟨tail, rfl, htail⟩
    · exact hnil
    · exact hcons tail htail

/-- **A period is being fetched until it is stored or the fetch fails.**  The induction is on what comes
later, from its front. -/
theorem isFetching_until {schedule : List Nat} (later : List Nat)
    (h : (reached c source asks schedule).IsFetching n p) :
    (∀ before, before <+: later → (reached c source asks (schedule ++ before)).IsFetching n p) ∨
    ∃ first rest, later = first ++ n :: rest ∧
      (∀ before, before <+: first →
        (reached c source asks (schedule ++ before)).IsFetching n p) ∧
      (reached c source asks (schedule ++ first)).EndsFetch
        (reached c source asks (schedule ++ first ++ [n])) n p := by
  induction later generalizing schedule with
  | nil => exact Or.inl (by simpa using h)
  | cons k later ih =>
    have hnext : (reached c source asks (schedule ++ [k])).IsFetching n p ∨ k = n ∧
        (reached c source asks schedule).EndsFetch (reached c source asks (schedule ++ [k])) n p := by
      rw [reached_append_singleton]
      cases hstep : (reached c source asks schedule).step c source k with
      | none => exact Or.inl h
      | some m' => exact isFetching_of_step h hstep
    rcases hnext with hnext | ⟨rfl, hends⟩
    · have hfirst : (reached c source asks (schedule ++ [])).IsFetching n p := by
        rwa [List.append_nil]
      have hlater := ih hnext
      simp only [List.append_assoc, List.singleton_append] at hlater
      rcases hlater with hall | ⟨first, rest, rfl, hall, hends⟩
      · exact Or.inl ((forall_prefix_cons k later).mpr ⟨hfirst, hall⟩)
      · refine Or.inr ⟨k :: first, rest, rfl, (forall_prefix_cons k first).mpr ⟨hfirst, hall⟩, ?_⟩
        simpa using hends
    · refine Or.inr ⟨[], later, rfl, by simpa using h, ?_⟩
      rwa [List.append_nil]

/-- **No day is stored twice**, since what is stored has not been covered before. -/
theorem puts_apart (c : Coordinator) (source : Source) (asks : List Ask) (schedule : List Nat) :
    (puts c source schedule (ofAsks asks)).Pairwise fun a b =>
      ∀ d, a.period.contains d = true → ¬ b.period.contains d = true := by
  induction schedule using List.reverseRecOn with
  | nil => exact List.Pairwise.nil
  | append_singleton schedule n ih =>
    rw [puts_append_singleton]
    cases hput : ((ofAsks asks).run c source schedule).put? n with
    | none => simpa using ih
    | some b =>
      refine List.pairwise_append.mpr ⟨ih, List.pairwise_singleton _ _, ?_⟩
      intro a ha b' hb' d hda hdb
      obtain rfl : b' = b := by simpa using hb'
      obtain ⟨i, w, hi, hw, hperiod⟩ := isFetching_of_put? hput
      have hsound := sound_reached c source asks schedule
      refine (hsound.each n i hi).not_covers hsound.valid hw (hperiod ▸ hdb) ?_
      rw [store_reached, Store.covers_ofBatches]
      exact ⟨a, ha, hda⟩

/-- **Rows that are returned were read at one moment.**  The induction is on the schedule from its end,
back to the step that has read them. -/
theorem exists_reading {schedule : List Nat} {rows : List Row}
    (hi : (reached c source asks schedule).all[n]? = some i) (hstage : i.stage = .answered (.ok rows)) :
    ∃ earlier j f, earlier <+: schedule ∧ (reached c source asks earlier).all[n]? = some j ∧
      j.stage = .reading f ∧
      rows = f.apply c.directory j.query.sort
        ((reached c source asks earlier).session.store.rowsIn j.query.window) := by
  induction schedule using List.reverseRecOn with
  | nil =>
    obtain ⟨a, -, rfl⟩ := List.mem_map.mp (List.mem_of_getElem? hi)
    cases a <;> simp [Ask.inquiry] at hstage
  | append_singleton schedule k ih =>
    have hearlier : (reached c source asks schedule).all[n]? = some i →
        ∃ earlier j f, earlier <+: schedule ++ [k] ∧
          (reached c source asks earlier).all[n]? = some j ∧ j.stage = .reading f ∧
          rows = f.apply c.directory j.query.sort
            ((reached c source asks earlier).session.store.rowsIn j.query.window) := by
      intro hi
      obtain ⟨earlier, j, f, hgrow, hj⟩ := ih hi
      exact ⟨earlier, j, f, hgrow.trans (List.prefix_append _ _), hj⟩
    rw [reached_append_singleton] at hi
    cases hstep : (reached c source asks schedule).step c source k with
    | none => exact hearlier (by rwa [hstep] at hi)
    | some m' =>
      rw [hstep] at hi
      obtain ⟨j, s', turn', stage, hj, hgoes, rfl⟩ := step_cases hstep
      by_cases hk : k = n
      · subst hk
        obtain rfl := Option.some.inj ((getElem?_set_stage hj stage).symm.trans hi)
        cases hgoes with
        | reads hreading =>
          obtain rfl := Except.ok.inj (Stage.answered.inj hstage)
          exact ⟨schedule, j, _, List.prefix_append _ _, hj, hreading, rfl⟩
        | _ => simp at hstage
      · refine hearlier ?_
        rw [← hi]
        exact (List.getElem?_set_ne hk).symm

/-! ## 4. All of it -/

variable {e : Export} {size : Nat} {q : Query}

/-- The question of an inquiry that has been reached. -/
theorem ask_of_getElem? {schedule : List Nat} {a : Ask} {i : Inquiry} (ha : asks[n]? = some a)
    (hi : (reached c source asks schedule).all[n]? = some i) : i.ask = a := by
  rw [← ask_reached c source asks schedule, List.getElem?_map, hi] at ha
  exact Option.some.inj ha

/-- **Rows that are returned were read from the store at one moment**, and for a report all days were
covered then. -/
theorem exists_read {schedule : List Nat} {a : Ask} {rows : List Row} (ha : asks[n]? = some a)
    (hrows : (reached c source asks schedule).answers[n]? = some (some (.ok rows))) :
    ∃ earlier f, earlier <+: schedule ∧ Filter.ofQuery a.query c.directory = .ok f ∧
      rows = f.apply c.directory a.query.sort
        ((reached c source asks earlier).session.store.rowsIn a.query.window) ∧
      (a = .report a.query → ∀ d, a.query.window.contains d = true →
        (reached c source asks earlier).session.store.Covers d) := by
  obtain ⟨i, hi, hstage⟩ := answers_eq_some_iff.mp hrows
  obtain ⟨earlier, j, f, hgrow, hj, hreading, hread⟩ := exists_reading hi hstage
  have hsound := sound_reached c source asks earlier
  obtain ⟨hf, hmissing⟩ := (hsound.each n j hj).of_reading hreading
  obtain rfl := ask_of_getElem? ha hj
  rw [Inquiry.query_ask]
  refine ⟨earlier, f, hgrow, hf, hread, fun hreport d hd => ?_⟩
  have hnone := hmissing (Inquiry.fetches_of_ask hreport)
  exact (Store.missing_eq_nil_iff hsound.valid).mp hnone d hd

/-- **Over an export, a report that returns rows returns the reference answer.** -/
theorem eq_reference_of_answers (hsource : source.Serves e size) {schedule : List Nat}
    {rows : List Row} (ha : asks[n]? = some (.report q))
    (hrows : (reached c source asks schedule).answers[n]? = some (some (.ok rows))) :
    (∃ f, Filter.ofQuery q c.directory = .ok f) ∧ rows = e.reference c.directory q := by
  obtain ⟨earlier, f, -, hf, rfl, hcovers⟩ := exists_read ha hrows
  refine ⟨⟨f, hf⟩, ?_⟩
  rw [(mirrors_reached hsource asks earlier).rowsIn_eq (hcovers rfl)]
  exact Export.apply_flatMap_days hf e

/-- **Nothing is fetched twice**, in whatever order the steps of reports and looks at the store come. -/
theorem fetchesOnce (c : Coordinator) (source : Source) (asks : List Ask) :
    FetchesOnce c source asks := by
  refine
    { single := ?_
      called := ?_
      uncovered := ?_
      lasts := fun schedule later n p h => isFetching_until later h
      stored := store_reached c source asks
      apart := puts_apart c source asks
      read := fun schedule n a rows ha hrows => exists_read ha hrows
      same := ?_ }
  · intro schedule n k p p' hn hk
    obtain ⟨i, w, hi, hw, -⟩ := hn.isFetching
    obtain ⟨j, v, hj, hv, -⟩ := hk.isFetching
    exact (sound_reached c source asks schedule).eq_of_fetch hj hv hi hw
  · intro schedule n
    rw [reached_append_singleton]
    cases hstep : (reached c source asks schedule).step c source n with
    | none => exact Or.inl rfl
    | some m' => exact calls_of_step hstep
  · rintro schedule n p d ⟨i, w, hi, hw, rfl⟩ hd
    have hsound := sound_reached c source asks schedule
    exact (hsound.each n i hi).not_covers hsound.valid hw hd
  · intro e size hsource schedule n q rows ha hrows c' size' hdirectory hfits
    obtain ⟨⟨f, hf⟩, rfl⟩ := eq_reference_of_answers hsource ha hrows
    rw [← hdirectory] at hf ⊢
    exact Coordinator.report_fresh hf e size' hfits

/-- A look at the store takes what is there.  The second question is answered with a row although at no
moment all days of its window are covered, and alone on a new coordinator it would have none. -/
theorem cached_before_days_are_covered :
    let e : Export := { rows := [Coordinator.rowAt 1 1 5 0] }
    let c : Coordinator := { directory := {} }
    let asks : List Ask :=
      [.report (Coordinator.listOf 1 1), .cached (Coordinator.listOf 1 2)]
    let schedule := [0, 0, 0, 0, 0, 0, 0, 1, 1]
    (reached c (e.source 50) asks schedule).answers[1]? =
        some (some (.ok [Coordinator.rowAt 1 1 5 0])) ∧
      (∀ k ≤ schedule.length, (reached c (e.source 50) asks (schedule.take k)).session.store.missing
        (Coordinator.listOf 1 2).window ≠ []) ∧
      (reached c (e.source 50) [.cached (Coordinator.listOf 1 2)] [0, 0]).answers[0]? =
        some (some (.ok [])) := by
  decide +kernel

end Inquiries

end Timesheet
