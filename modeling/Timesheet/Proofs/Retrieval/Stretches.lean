import Timesheet.Retrieval.Coordinator
import Timesheet.Proofs.Coverage.Filling
/-!
# What is asked for when periods are fetched

A source may answer as it likes.  Whatever it does, fetching a period asks for its pages from the first
one on, each once and in order, and ends in one of three ways (`Stretch.Ends`): with the first page
after which there are no more, with the first call that fails, or when all pages allowed are there and
there are still more.

`fetchPeriod_ends` says so of one period.  Fetching several periods is a list of stretches that are
complete and put, up to the first one that is not (`fetchAll_cases`).  Both name the calls that are
made, and thereby the answers on which the outcome depends.
-/

namespace Timesheet

/-! ## 1. Stretches of pages -/

/-- The calls for the first `n` pages of a period. -/
def Period.calls (p : Period) (n : Nat) : List Call :=
  (List.range n).map fun k => ⟨.all p, k + 1⟩

@[simp] theorem Period.length_calls (p : Period) (n : Nat) : (p.calls n).length = n := by
  simp [calls]

theorem Period.calls_succ (p : Period) (n : Nat) :
    p.calls (n + 1) = p.calls n ++ [⟨.all p, n + 1⟩] := by
  simp [calls, List.range_succ]

theorem Period.getElem?_calls {p : Period} {n k : Nat} (hk : k < n) :
    (p.calls n)[k]? = some ⟨.all p, k + 1⟩ := by
  simp [calls, hk]

theorem Period.request_of_mem_calls {p : Period} {n : Nat} {call : Call} (h : call ∈ p.calls n) :
    call.request = .all p := by
  obtain ⟨k, -, rfl⟩ := List.mem_map.mp h
  rfl

/-- The first pages of a period. -/
structure Stretch where
  period : Period
  pages : List Page

namespace Stretch

/-- The rows of all pages. -/
def rows (x : Stretch) : List Row := x.pages.flatMap Page.rows

/-- The calls for the pages. -/
def calls (x : Stretch) : List Call := x.period.calls x.pages.length

/-- What there is to put once all pages are there. -/
def batch (x : Stretch) : Batch Row := ⟨x.period, x.rows⟩

/-- One more page. -/
def add (x : Stretch) (page : Page) : Stretch := { x with pages := x.pages ++ [page] }

/-- After `before` calls, the source gives the pages one by one. -/
def GivenBy (x : Stretch) (source : Source) (before : Nat) : Prop :=
  ∀ k page, x.pages[k]? = some page →
    source.answer (before + k + 1) (.all x.period) (k + 1) = .ok page

/-- There are more pages after each of these. -/
def IsOpen (x : Stretch) : Prop := ∀ page ∈ x.pages, page.hasMore = true

/-- There are more pages after each of these but the last, and none after that. -/
def IsComplete (x : Stretch) : Prop :=
  x.pages ≠ [] ∧
    ∀ k page, x.pages[k]? = some page → (page.hasMore = true ↔ k + 1 < x.pages.length)

/-- The ways in which fetching at most `limit` pages ends with these, by the number of calls made and
the result. -/
inductive Ends (limit : Nat) (source : Source) (before : Nat) (x : Stretch) :
    Nat → Except ReportError (List Row) → Prop
  /-- All pages are there. -/
  | complete (h : x.IsComplete) (hlimit : x.pages.length ≤ limit) :
      Ends limit source before x x.pages.length (.ok x.rows)
  /-- The call for the next page fails. -/
  | failed (h : x.IsOpen) (hlimit : x.pages.length < limit) {err : ReportError}
      (herr : source.answer (before + x.pages.length + 1) (.all x.period) (x.pages.length + 1) =
        .error err) : Ends limit source before x (x.pages.length + 1) (.error err)
  /-- No more pages are allowed, although there are more. -/
  | tooMany (h : x.IsOpen) (hlimit : x.pages.length = limit) :
      Ends limit source before x x.pages.length (.error (.tooManyPages x.period limit))

variable {x : Stretch} {source : Source} {before : Nat} {page : Page}

@[simp] theorem period_add (x : Stretch) (page : Page) : (x.add page).period = x.period := rfl

theorem calls_add (x : Stretch) (page : Page) :
    (x.add page).calls = x.calls ++ [⟨.all x.period, x.pages.length + 1⟩] := by
  simp [calls, add, Period.calls_succ]

theorem rows_add (x : Stretch) (page : Page) : (x.add page).rows = x.rows ++ page.rows := by
  simp [rows, add]

@[simp] theorem length_calls (x : Stretch) : x.calls.length = x.pages.length := by
  simp [calls]

@[simp] theorem length_pages_add (x : Stretch) (page : Page) :
    (x.add page).pages.length = x.pages.length + 1 := by
  simp [add]

/-- The pages with one more are those before it and, behind them, this one. -/
theorem getElem?_add {k : Nat} {page' : Page} (hk : (x.add page).pages[k]? = some page') :
    (k < x.pages.length ∧ x.pages[k]? = some page') ∨ k = x.pages.length ∧ page' = page := by
  rw [add, List.getElem?_append] at hk
  split at hk
  · next hlt => exact Or.inl ⟨hlt, hk⟩
  · next hge =>
    rw [List.getElem?_singleton] at hk
    split at hk
    · next hzero => exact Or.inr ⟨by omega, (Option.some.inj hk).symm⟩
    · simp at hk

theorem GivenBy.add (h : x.GivenBy source before)
    (hpage : source.answer (before + x.pages.length + 1) (.all x.period) (x.pages.length + 1) =
      .ok page) : (x.add page).GivenBy source before := by
  intro k page' hk
  rcases getElem?_add hk with ⟨-, hk⟩ | ⟨rfl, rfl⟩
  · exact h k page' hk
  · exact hpage

theorem IsComplete.pos (h : x.IsComplete) : 0 < x.pages.length := List.length_pos_iff.mpr h.1

/-- The last page of a complete stretch, after which there are no more. -/
theorem IsComplete.exists_last (h : x.IsComplete) :
    ∃ page, x.pages[x.pages.length - 1]? = some page ∧ page.hasMore = false := by
  have hpos := h.pos
  have hlast := List.getElem?_eq_getElem (l := x.pages) (i := x.pages.length - 1) (by omega)
  refine ⟨_, hlast, ?_⟩
  rw [Bool.eq_false_iff, ne_eq, h.2 _ _ hlast]
  omega

theorem IsOpen.add (h : x.IsOpen) (hmore : page.hasMore = true) : (x.add page).IsOpen := by
  intro page' hmem
  rcases List.mem_append.mp hmem with hmem | hmem
  · exact h page' hmem
  · rw [List.mem_singleton.mp hmem]
    exact hmore

theorem IsOpen.isComplete_add (h : x.IsOpen) (hmore : page.hasMore = false) :
    (x.add page).IsComplete := by
  refine ⟨by simp [Stretch.add], fun k page' hk => ?_⟩
  rw [length_pages_add]
  rcases getElem?_add hk with ⟨hlt, hk⟩ | ⟨rfl, rfl⟩
  · simp only [h page' (List.mem_of_getElem? hk), true_iff]
    omega
  · simp [hmore]

end Stretch

/-! ## 2. One period -/

namespace Coordinator

variable {c : Coordinator} {source : Source}

/-- What a call does to the session: it is added to the calls, and the store stays. -/
theorem call_cases (c : Coordinator) (source : Source) (request : Request) (page : Nat)
    (s : Session) : ∃ s', c.call source request page s =
        (source.answer (s.calls.length + 1) request page, s') ∧
      s'.calls = s.calls ++ [⟨request, page⟩] ∧ s'.store = s.store :=
  ⟨_, rfl, rfl, rfl⟩

/-- **Fetching goes on from the pages that are there to one of the three ends.**  The induction is on the
pages that are left; `x` is what the calls after `base` have given so far. -/
theorem fetchPages_ends {x : Stretch} {s : Session} {base : List Call} {left : Nat}
    (hcalls : s.calls = base ++ x.calls) (hgiven : x.GivenBy source base.length) (hopen : x.IsOpen)
    (hleft : x.pages.length + left = c.pages) :
    ∃ (y : Stretch) (asked : Nat) (result : Except ReportError (List Row)) (s' : Session),
      c.fetchPages source x.period left (x.pages.length + 1) x.rows s = (result, s') ∧
      y.period = x.period ∧ y.GivenBy source base.length ∧
      y.Ends c.pages source base.length asked result ∧
      s'.calls = base ++ x.period.calls asked ∧ s'.store = s.store := by
  induction left generalizing x s with
  | zero => exact ⟨x, _, _, s, rfl, rfl, hgiven, .tooMany hopen hleft, hcalls, rfl⟩
  | succ left ih =>
    obtain ⟨s₁, hcall, hcalls₁, hstore₁⟩ :=
      call_cases c source (.all x.period) (x.pages.length + 1) s
    rw [hcalls, List.append_assoc] at hcalls₁
    rw [hcalls, List.length_append, x.length_calls] at hcall
    simp only [fetchPages, hcall]
    cases hanswer : source.answer (base.length + x.pages.length + 1) (.all x.period)
        (x.pages.length + 1) with
    | error err =>
      refine ⟨x, _, _, s₁, rfl, rfl, hgiven, .failed hopen (by omega) hanswer, ?_, hstore₁⟩
      rw [hcalls₁, Period.calls_succ, Stretch.calls]
    | ok page =>
      have hgiven' := hgiven.add hanswer
      rw [← Stretch.calls_add x page] at hcalls₁
      cases hmore : page.hasMore with
      | true =>
        have hnext := ih hcalls₁ hgiven' (hopen.add hmore) (by rw [Stretch.length_pages_add]; omega)
        rw [Stretch.length_pages_add, Stretch.rows_add, Stretch.period_add, hstore₁] at hnext
        simpa only [hmore, if_true] using hnext
      | false =>
        have hlimit : (x.add page).pages.length ≤ c.pages := by
          rw [Stretch.length_pages_add]
          omega
        refine ⟨x.add page, _, _, s₁, ?_, rfl, hgiven',
          .complete (hopen.isComplete_add hmore) hlimit, hcalls₁, hstore₁⟩
        simp [hmore, Stretch.rows_add]

/-- **Fetching a period asks for its pages in order and ends in one of the three ways.** -/
theorem fetchPeriod_ends (c : Coordinator) (source : Source) (p : Period) (s : Session) :
    ∃ (x : Stretch) (asked : Nat) (result : Except ReportError (List Row)) (s' : Session),
      c.fetchPeriod source p s = (result, s') ∧
      x.period = p ∧ x.GivenBy source s.calls.length ∧
      x.Ends c.pages source s.calls.length asked result ∧
      s'.calls = s.calls ++ p.calls asked ∧ s'.store = s.store :=
  fetchPages_ends (x := ⟨p, []⟩) (by simp [Stretch.calls, Period.calls]) (by simp [Stretch.GivenBy])
    (by simp [Stretch.IsOpen]) (Nat.zero_add _)

/-! ## 3. Several periods -/

end Coordinator

namespace Stretch

/-- The stretches are complete, and the source gives them one after the other, in the calls that come
after the first `before`. -/
def Follow (source : Source) : (before : Nat) → List Stretch → Prop
  | _, [] => True
  | before, x :: rest =>
    x.GivenBy source before ∧ x.IsComplete ∧ Follow source (before + x.pages.length) rest

/-- The calls for stretches, one after the other. -/
def callsOf (l : List Stretch) : List Call := l.flatMap calls

end Stretch

namespace Coordinator

variable {c : Coordinator} {source : Source}

/-- All periods have been fetched and put. -/
structure FetchedAll (source : Source) (periods : List Period) (s s' : Session)
    (done : List Stretch) : Prop where
  periods : periods = done.map Stretch.period
  follow : Stretch.Follow source s.calls.length done
  calls : s'.calls = s.calls ++ Stretch.callsOf done
  store : s'.store = s.store.putAll (done.map Stretch.batch)

/-- Of the periods, those of `done` have been fetched and put.  Fetching the one after them has failed
with `err` after `asked` calls, in which there were the pages of `last`; those of `rest` have not been
tried. -/
structure FetchedUpTo (c : Coordinator) (source : Source) (periods : List Period) (s s' : Session)
    (done : List Stretch) (last : Stretch) (asked : Nat) (rest : List Period) (err : ReportError) :
    Prop where
  periods : periods = done.map Stretch.period ++ last.period :: rest
  follow : Stretch.Follow source s.calls.length done
  given : last.GivenBy source (s.calls.length + (Stretch.callsOf done).length)
  ends : last.Ends c.pages source (s.calls.length + (Stretch.callsOf done).length) asked (.error err)
  calls : s'.calls = s.calls ++ Stretch.callsOf done ++ last.period.calls asked
  store : s'.store = s.store.putAll (done.map Stretch.batch)

/-- **Fetching periods puts those before a failure, and nothing else.**  The induction is on the
periods; the calls of each follow on those of the periods before. -/
theorem fetchAll_cases (c : Coordinator) (source : Source) (periods : List Period) (s : Session) :
    (∃ s' done, c.fetchAll source periods s = (.ok (), s') ∧ FetchedAll source periods s s' done) ∨
    ∃ s' done last asked rest err, c.fetchAll source periods s = (.error err, s') ∧
      c.FetchedUpTo source periods s s' done last asked rest err := by
  induction periods generalizing s with
  | nil => exact Or.inl ⟨s, [], rfl, rfl, trivial, by simp [Stretch.callsOf], rfl⟩
  | cons p periods ih =>
    obtain ⟨x, asked, result, s₁, hfetch, rfl, hgiven, hends, hcalls, hstore⟩ :=
      fetchPeriod_ends c source p s
    simp only [fetchAll, hfetch]
    cases result with
    | error err =>
      refine Or.inr ⟨s₁, [], x, asked, periods, err, rfl, ⟨rfl, trivial, hgiven, hends, ?_, hstore⟩⟩
      simpa [Stretch.callsOf] using hcalls
    | ok rows =>
      cases hends with
      | complete hcomplete =>
        -- the period is put, and the others follow on its calls
        have hlength : s₁.calls.length = s.calls.length + x.pages.length := by
          rw [hcalls, List.length_append, Period.length_calls]
        have hput : ∀ done : List Stretch,
            (s₁.store.put x.period x.rows).putAll (done.map Stretch.batch) =
              s.store.putAll ((x :: done).map Stretch.batch) := by
          intro done
          rw [hstore]
          rfl
        have hcallsOf : ∀ done : List Stretch,
            s₁.calls ++ Stretch.callsOf done = s.calls ++ Stretch.callsOf (x :: done) := by
          intro done
          rw [hcalls, Stretch.callsOf, Stretch.callsOf, List.flatMap_cons, List.append_assoc]
          rfl
        rcases ih { s₁ with store := s₁.store.put x.period x.rows } with
          ⟨s', done, hrun, hall⟩ | ⟨s', done, last, asked', rest, err, hrun, hupTo⟩
        · refine Or.inl ⟨s', x :: done, hrun, ?_, ⟨hgiven, hcomplete, ?_⟩, ?_, ?_⟩
          · rw [hall.periods, List.map_cons]
          · exact hlength ▸ hall.follow
          · rw [hall.calls, hcallsOf]
          · rw [hall.store, hput]
        · have hbefore : s₁.calls.length + (Stretch.callsOf done).length =
              s.calls.length + (Stretch.callsOf (x :: done)).length := by
            rw [← List.length_append, hcallsOf, List.length_append]
          refine Or.inr ⟨s', x :: done, last, asked', rest, err, hrun,
            ⟨?_, ⟨hgiven, hcomplete, ?_⟩, ?_, ?_, ?_, ?_⟩⟩
          · rw [hupTo.periods, List.map_cons, List.cons_append]
          · exact hlength ▸ hupTo.follow
          · exact hbefore ▸ hupTo.given
          · exact hbefore ▸ hupTo.ends
          · rw [hupTo.calls, hcallsOf]
          · rw [hupTo.store, hput]

/-- Fetching only adds to the calls. -/
theorem calls_prefix_fetchAll (c : Coordinator) (source : Source) (periods : List Period)
    (s : Session) : s.calls <+: (c.fetchAll source periods s).2.calls := by
  rcases fetchAll_cases c source periods s with
    ⟨s', done, hrun, hall⟩ | ⟨s', done, last, asked, rest, err, hrun, hupTo⟩
  · rw [hrun, hall.calls]
    exact List.prefix_append _ _
  · rw [hrun, hupTo.calls, List.append_assoc]
    exact List.prefix_append _ _

end Coordinator

end Timesheet
