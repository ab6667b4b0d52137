import Timesheet.Proofs.Retrieval.Interleaving
/-!
# Inquiries without a break

An inquiry that takes all its steps in a row does what a coordinator does in one go: it ends with the
session and the answer of a report (`leads_report`), or with the rows of a look at the store
(`leads_ask`).  So every history of questions, one after the other, is one of the interleavings of
`Interleaving` (`exists_reached_after`), and what is proved of all of them holds of it.

The loop over pages, the loop over periods and the report are followed in turn, each by the steps into
which it is taken apart.
-/

namespace Timesheet.Inquiries

/-! ## 1. Steps in a row -/

/-- Steps of the inquiry in the `n`-th place alone lead from one state to the other. -/
def Leads (c : Coordinator) (source : Source) (n : Nat) (m m' : Inquiries) : Prop :=
  ∃ k, m.run c source (List.replicate k n) = m'

/-- The inquiry in the `n`-th place is at a stage. -/
def placed (all : List Inquiry) (n : Nat) (i : Inquiry) (s : Session) (turn : Option Nat)
    (stage : Stage) : Inquiries :=
  { session := s, turn, all := all.set n { i with stage } }

variable {c : Coordinator} {source : Source} {n : Nat} {m m₁ m₂ m₃ : Inquiries}
  {all : List Inquiry} {i : Inquiry} {s : Session} {turn : Option Nat} {f : Filter} {w : Fetch}

theorem Leads.refl (m : Inquiries) : Leads c source n m m := ⟨0, rfl⟩

theorem Leads.trans (h : Leads c source n m₁ m₂) (h' : Leads c source n m₂ m₃) :
    Leads c source n m₁ m₃ := by
  obtain ⟨k, rfl⟩ := h
  obtain ⟨k', rfl⟩ := h'
  exact ⟨k + k', by rw [← List.replicate_append_replicate, run_append]⟩

theorem Leads.of_step (h : m₁.step c source n = some m₂) : Leads c source n m₁ m₂ := by
  refine ⟨1, ?_⟩
  rw [List.replicate_one, run, List.foldl_cons, h]
  rfl

theorem getElem?_placed (hn : n < all.length) (stage : Stage) :
    (placed all n i s turn stage).all[n]? = some { i with stage } :=
  List.getElem?_set_self hn

/-- A step that makes the inquiry go on leads to its next stage. -/
theorem leads_goOn {s' : Session} {turn' : Option Nat} {stage stage' : Stage}
    (h : (placed all n i s turn stage).step c source n =
      some (({ placed all n i s turn stage with session := s', turn := turn' } : Inquiries).goOn n
        { i with stage } stage')) :
    Leads c source n (placed all n i s turn stage) (placed all n i s' turn' stage') := by
  have hgoOn : ({ placed all n i s turn stage with session := s', turn := turn' } : Inquiries).goOn n
      { i with stage } stage' = placed all n i s' turn' stage' := by
    simp [goOn, placed]
  exact .of_step (h.trans (congrArg some hgoOn))

/-! ## 2. One step at each stage -/

section Steps

variable (hn : n < all.length)
include hn

theorem leads_enter (f : Filter) : Leads c source n (placed all n i s none (.waiting f))
    (placed all n i s (some n) (.looking f)) :=
  leads_goOn (by rw [step, getElem?_placed hn]; rfl)

theorem leads_look (f : Filter) : Leads c source n (placed all n i s turn (.looking f))
    (placed all n i s (turnAfter turn (fetching f (s.store.missing i.query.window)))
      (fetching f (s.store.missing i.query.window))) :=
  leads_goOn (by rw [step, getElem?_placed hn]; rfl)

theorem leads_call (f : Filter) (w : Fetch) :
    Leads c source n (placed all n i s turn (.asking f w))
      (placed all n i (c.call source (.all w.period) w.page s).2 turn
        (.expecting f w (c.call source (.all w.period) w.page s).1)) :=
  leads_goOn (by rw [step, getElem?_placed hn]; rfl)

theorem leads_receive (f : Filter) (w : Fetch) (answer : Except ReportError Page) :
    Leads c source n (placed all n i s turn (.expecting f w answer))
      (placed all n i s (turnAfter turn (receive c f w answer)) (receive c f w answer)) :=
  leads_goOn (by rw [step, getElem?_placed hn]; rfl)

theorem leads_store (f : Filter) (w : Fetch) :
    Leads c source n (placed all n i s turn (.storing f w))
      (placed all n i { s with store := s.store.put w.period w.rows }
        (turnAfter turn (fetching f w.rest)) (fetching f w.rest)) :=
  leads_goOn (by rw [step, getElem?_placed hn]; rfl)

theorem leads_read (f : Filter) : Leads c source n (placed all n i s turn (.reading f))
    (placed all n i s turn
      (.answered (.ok (f.apply c.directory i.query.sort (s.store.rowsIn i.query.window))))) :=
  leads_goOn (by rw [step, getElem?_placed hn]; rfl)

end Steps

/-! ## 3. All pages of a period -/

/-- The inquiry has taken its turn and is at a stage since: it has given the turn back if it has come
to its last period or has failed. -/
def holding (all : List Inquiry) (n : Nat) (i : Inquiry) (s : Session) (stage : Stage) : Inquiries :=
  placed all n i s (turnAfter (some n) stage) stage

/-- Where an inquiry stands after a period: it has to store all rows, or it has failed. -/
def afterPages (f : Filter) (period : Period) (page : Nat) (rest : List Period) :
    Except ReportError (List Row) → Stage
  | .ok rows => .storing f { period, page, rows, rest }
  | .error err => .answered (.error err)

/-- **The steps for the pages of a period fetch them as `fetchPages` does.**  The induction is on the
pages that are left. -/
theorem leads_fetchPages (hn : n < all.length) (f : Filter) (period : Period) (rest : List Period)
    {left page : Nat} {rows : List Row} {s s' : Session} {result : Except ReportError (List Row)}
    (hleft : page + left = c.pages + 1) (hpos : 0 < left)
    (h : c.fetchPages source period left page rows s = (result, s')) :
    ∃ last, Leads c source n (holding all n i s (.asking f { period, page, rows, rest }))
      (holding all n i s' (afterPages f period last rest result)) := by
  induction left generalizing page rows s with
  | zero => omega
  | succ left ih =>
    have hcall : Leads c source n
        (holding all n i s (.asking f { period, page, rows, rest }))
        (holding all n i (c.call source (.all period) page s).2
          (receive c f { period, page, rows, rest } (c.call source (.all period) page s).1)) :=
      (leads_call hn f _).trans (leads_receive hn f _ _)
    rcases hanswer : c.call source (.all period) page s with ⟨err | p, s₁⟩
    · simp only [Coordinator.fetchPages, hanswer] at h
      obtain ⟨rfl, rfl⟩ := Prod.mk.inj h
      rw [hanswer] at hcall
      exact ⟨page, hcall⟩
    · simp only [Coordinator.fetchPages, hanswer] at h
      rw [hanswer] at hcall
      simp only [receive] at hcall
      cases hmore : p.hasMore with
      | false =>
        simp only [hmore, Bool.not_false, if_true] at hcall
        simp only [hmore, Bool.false_eq_true, if_false] at h
        obtain ⟨rfl, rfl⟩ := Prod.mk.inj h
        exact ⟨page, hcall⟩
      | true =>
        simp only [hmore, Bool.not_true, Bool.false_eq_true, if_false] at hcall
        simp only [hmore, if_true] at h
        by_cases hlimit : page < c.pages
        · rw [if_pos hlimit] at hcall
          obtain ⟨last, hlast⟩ := ih (by omega) (by omega) h
          exact ⟨last, hcall.trans hlast⟩
        · obtain rfl : left = 0 := by omega
          rw [if_neg hlimit] at hcall
          obtain ⟨rfl, rfl⟩ := Prod.mk.inj h
          exact ⟨page, hcall⟩

/-! ## 4. All periods, and the report -/

/-- Where an inquiry stands after all periods: it has to read the store, or it has failed. -/
def afterAll (f : Filter) : Except ReportError Unit → Stage
  | .ok _ => .reading f
  | .error err => .answered (.error err)

/-- **The steps for several periods fetch them as `fetchAll` does.**  The induction is on the
periods. -/
theorem leads_fetchAll (hn : n < all.length) (f : Filter) {periods : List Period} {s s' : Session}
    {result : Except ReportError Unit} (h : c.fetchAll source periods s = (result, s')) :
    Leads c source n (holding all n i s (fetching f periods))
      (holding all n i s' (afterAll f result)) := by
  induction periods generalizing s with
  | nil =>
    obtain ⟨rfl, rfl⟩ := Prod.mk.inj h
    exact .refl _
  | cons period rest ih =>
    rcases hfetch : c.fetchPeriod source period s with ⟨fetched, s₁⟩
    obtain ⟨last, hlast⟩ := leads_fetchPages (i := i) hn f period rest (Nat.add_comm 1 c.pages)
      c.pages_pos hfetch
    simp only [Coordinator.fetchAll, hfetch] at h
    cases fetched with
    | error err =>
      obtain ⟨rfl, rfl⟩ := Prod.mk.inj h
      exact hlast
    | ok rows =>
      exact (hlast.trans (leads_store hn f _)).trans (ih h)

/-- **An inquiry that takes all its steps in a row answers as a report does**, and leaves the same
session and no turn. -/
theorem leads_report (hn : n < all.length) (hfetches : i.fetches = true) (s : Session) :
    Leads c source n (placed all n i s none .made)
      (placed all n i (c.report source i.query s).2 none
        (.answered (c.report source i.query s).1)) := by
  have hmade : (placed all n i s none .made).all[n]? = some { i with stage := .made } :=
    getElem?_placed hn _
  rcases Coordinator.report_cases c source i.query s with
    ⟨err, hf, hreport⟩ | ⟨f, fetched, s', hf, hfetch, hreport⟩
  · rw [hreport]
    refine leads_goOn ?_
    rw [step, hmade]
    simp only [hf]
    rfl
  · rw [hreport]
    cases hmissing : s.store.missing i.query.window with
    | nil =>
      rw [hmissing] at hfetch
      obtain ⟨rfl, rfl⟩ := Prod.mk.inj hfetch
      have hskips : Leads c source n (placed all n i s none .made)
          (placed all n i s none (.reading f)) := by
        refine leads_goOn ?_
        rw [step, hmade]
        simp only [hf]
        rw [if_neg (by simp [placed, hmissing])]
        rfl
      exact hskips.trans (leads_read hn f)
    | cons period rest =>
      have hwaits : Leads c source n (placed all n i s none .made)
          (placed all n i s none (.waiting f)) := by
        refine leads_goOn ?_
        rw [step, hmade]
        simp only [hf]
        rw [if_pos (by simp [placed, hmissing, hfetches])]
        rfl
      have hall := ((hwaits.trans (leads_enter hn f)).trans (leads_look hn f)).trans
        (leads_fetchAll hn f hfetch)
      cases fetched with
      | error err => exact hall
      | ok u => exact hall.trans (leads_read hn f)

/-! ## 5. Histories -/

/-- The rows with which a question is answered. -/
def answerTo (c : Coordinator) (source : Source) (s : Session) : Ask → Except ReportError (List Row)
  | .report q => (c.report source q s).1
  | .cached q => (c.cached q s).map Lookup.rows

/-- **An inquiry that takes all its steps in a row answers its question**, and leaves the session as the
question does. -/
theorem leads_ask (hn : n < all.length) (a : Ask) (s : Session) :
    Leads c source n (placed all n a.inquiry s none .made)
      (placed all n a.inquiry (c.ask source s a) none (.answered (answerTo c source s a))) := by
  cases a with
  | report q => exact leads_report hn rfl s
  | cached q =>
    have hmade : (placed all n (Ask.cached q).inquiry s none .made).all[n]? =
        some (Ask.cached q).inquiry := getElem?_placed hn _
    cases hf : Filter.ofQuery q c.directory with
    | error err =>
      have hanswer : answerTo c source s (.cached q) = .error err := by
        simp only [answerTo, Coordinator.cached, hf]
        rfl
      rw [hanswer]
      refine leads_goOn ?_
      rw [step, hmade]
      simp only [Ask.inquiry, hf]
      rfl
    | ok f =>
      have hanswer : answerTo c source s (.cached q) =
          .ok (f.apply c.directory q.sort (s.store.rowsIn q.window)) := by
        simp only [answerTo, Coordinator.cached, hf]
        rfl
      rw [hanswer]
      have hskips : Leads c source n (placed all n (Ask.cached q).inquiry s none .made)
          (placed all n (Ask.cached q).inquiry s none (.reading f)) := by
        refine leads_goOn ?_
        rw [step, hmade]
        simp only [Ask.inquiry, hf]
        rfl
      exact hskips.trans (leads_read hn f)

/-- The first `k` questions have been answered, one after the other, and the others have not begun. -/
structure Answered (c : Coordinator) (source : Source) (history : List Ask) (k : Nat)
    (m : Inquiries) : Prop where
  session : m.session = c.after source (history.take k)
  turn : m.turn = none
  unbegun : ∀ n, k ≤ n → m.all[n]? = history[n]?.map Ask.inquiry
  answers : ∀ n a, n < k → history[n]? = some a →
    m.answers[n]? = some (some (answerTo c source (c.after source (history.take n)) a))

/-- After the next question, one more is answered. -/
theorem Answered.succ {history : List Ask} {k : Nat} {a : Ask} (h : Answered c source history k m)
    (ha : history[k]? = some a) : ∃ steps, Answered c source history (k + 1)
      (m.run c source (List.replicate steps k)) := by
  have hi : m.all[k]? = some a.inquiry := by
    rw [h.unbegun k (Nat.le_refl k), ha]
    rfl
  obtain ⟨hlt, hget⟩ := List.getElem?_eq_some_iff.mp hi
  have hplaced : placed m.all k a.inquiry m.session none .made = m := by
    have hmade : ({ a.inquiry with stage := .made } : Inquiry) = m.all[k] := by
      rw [hget]
      cases a <;> rfl
    rw [placed, hmade, List.set_getElem_self, ← h.turn]
  have hleads : Leads c source k (placed m.all k a.inquiry m.session none .made) _ :=
    leads_ask hlt a m.session
  rw [hplaced] at hleads
  obtain ⟨steps, hsteps⟩ := hleads
  refine ⟨steps, ?_⟩
  rw [hsteps]
  have hother : ∀ n, n ≠ k → ∀ i : Inquiry, (m.all.set k i)[n]? = m.all[n]? :=
    fun n hn i => List.getElem?_set_ne (Ne.symm hn)
  refine ⟨?_, rfl, fun n hn => ?_, fun n b hn hb => ?_⟩
  · rw [List.take_add_one, ha, Option.toList_some, Coordinator.after_append, ← h.session]
    rfl
  · exact (hother n (by omega) _).trans (h.unbegun n (by omega))
  · by_cases hnk : n = k
    · subst hnk
      obtain rfl := Option.some.inj (ha.symm.trans hb)
      rw [← h.session]
      exact answers_eq_some_iff.mpr ⟨_, getElem?_placed hlt _, rfl⟩
    · obtain ⟨i, hi', hstage⟩ := answers_eq_some_iff.mp (h.answers n b (by omega) hb)
      exact answers_eq_some_iff.mpr ⟨i, (hother n hnk _).trans hi', hstage⟩

/-- **Questions that are asked one after the other are an interleaving**, too: there is a schedule in
which they leave the same session and have the same answers. -/
theorem exists_reached_after (c : Coordinator) (source : Source) (history : List Ask) :
    ∃ schedule, Answered c source history history.length
      (reached c source history schedule) := by
  have hsome : ∀ k ≤ history.length, ∃ schedule, Answered c source history k
      (reached c source history schedule) := by
    intro k hk
    induction k with
    | zero =>
      refine ⟨[], rfl, rfl, fun n _ => List.getElem?_map, ?_⟩
      exact fun n a hn => absurd hn (Nat.not_lt_zero n)
    | succ k ih =>
      obtain ⟨schedule, hm⟩ := ih (by omega)
      obtain ⟨steps, hsteps⟩ := hm.succ (List.getElem?_eq_getElem hk)
      exact ⟨schedule ++ List.replicate steps k, by rwa [reached, run_append]⟩
  exact hsome history.length (Nat.le_refl _)

end Timesheet.Inquiries
