import Timesheet.Proofs.Retrieval.Resumption
/-!
# What a source may sort out

A request can narrow down what a source returns to what a query includes; what the query excludes has to
be sorted out afterwards.  A report does not make use of this: it asks for all rows of missing days, and
sorts out both by itself.  The two ways come to the same (`Coordinator.report_eq_narrowed`).

What a query includes is said twice in the program, in `Request.selects` as lists that may be absent and in
`Filter.admits` as tests of memberships.  The filter of a query without its exclusions
(`Query.inclusions`) is made of just the lists of the request (`Filter.ofQuery_inclusions`), and so both
select the same rows (`Request.selects_iff`).  Pages add up to all that is selected
(`Export.download_eq_selected`), whatever their size.
-/

namespace Timesheet

variable {q : Query} {d : Directory} {request : Request}

/-! ## 1. What a query includes, and what it drops -/

/-- The query without what it excludes. -/
def Query.inclusions (q : Query) : Query :=
  { q with
    projects := q.projects.filter (·.mode = .keep)
    clients := q.clients.filter (·.mode = .keep)
    excludedTags := none }

/-- The row is hit by one of the exclusions of the query. -/
def Query.drops (q : Query) (d : Directory) (r : Row) : Bool :=
  q.projects.any (fun s => s.mode = .drop && !s.passes (Item.projectIn? d) r.project)
    || q.clients.any (fun s => s.mode = .drop && !s.passes (Item.clientIn? d) (Request.clientOf? d r))
    || q.excludedTags.any (r.isTagged d)

/-- A selection lets pass what it keeps and what it does not drop. -/
theorem Selection.all_passes (s : Option Selection) (meant : Item → Option UInt64)
    (id : Option UInt64) :
    s.all (·.passes meant id) =
      ((s.filter (·.mode = .keep)).all (·.passes meant id) &&
        !s.any fun s => s.mode = .drop && !s.passes meant id) := by
  rcases s with _ | ⟨_ | _, items⟩
  · rfl
  · simp
  · simp

/-- **A query wants the rows that it includes and does not drop.** -/
theorem Query.wants_eq (q : Query) (d : Directory) (r : Row) :
    q.wants d r = (q.inclusions.wants d r && !q.drops d r) := by
  have htags : q.excludedTags.all (!r.isTagged d ·) = !q.excludedTags.any (r.isTagged d) := by
    cases q.excludedTags <;> rfl
  simp only [wants, inclusions, drops, htags, Selection.all_passes q.projects,
    Selection.all_passes q.clients, Bool.not_or, Option.all_none, Bool.and_true]
  ac_rfl

/-! ## 2. The request and the filter -/

namespace Filter

variable {resolve : List Item → Except ReportError (List UInt64)}

theorem resolveIncluded_filter (s : Option Selection) :
    Request.resolveIncluded resolve (s.filter (·.mode = .keep)) =
      Request.resolveIncluded resolve s := by
  rcases s with _ | ⟨_ | _, items⟩ <;> rfl

theorem membership_filter (s : Option Selection) (included : Option (List UInt64)) :
    membership resolve (s.filter (·.mode = .keep)) included = .ok (included.map .among) := by
  rcases s with _ | ⟨_ | _, items⟩ <;> rfl

/-- **The filter of what a query includes is made of the lists of its request.** -/
theorem ofQuery_inclusions (h : Request.ofQuery q d = .ok request) :
    ofQuery q.inclusions d = .ok
      ⟨request.projects.map .among, request.clients.map .among, request.tags, none⟩ := by
  have hrequest : Request.ofQuery q.inclusions d = .ok request := by
    rw [← h]
    simp only [Request.ofQuery, Query.inclusions, resolveIncluded_filter]
    rfl
  rw [ofQuery, hrequest]
  simp only [Query.inclusions, bind, Except.bind, membership_filter]
  rfl

/-- A query whose names are known has a request. -/
theorem exists_request (hknown : q.Known d) : ∃ request, Request.ofQuery q d = .ok request := by
  obtain ⟨f, hf⟩ := (exists_ofQuery_iff q d).mpr hknown
  rw [ofQuery, Results.bind_eq_ok_iff] at hf
  obtain ⟨request, hrequest, -⟩ := hf
  exact ⟨request, hrequest⟩

end Filter

namespace Request

theorem period_of_ofQuery (h : ofQuery q d = .ok request) : request.period = q.window := by
  simp only [ofQuery, Results.bind_eq_ok_iff, pure, Except.pure, Except.ok.injEq] at h
  obtain ⟨_, -, _, -, _, -, rfl⟩ := h
  rfl

theorem narrows_among (ids : Option (List UInt64)) (id : Option UInt64) :
    narrows (ids.map Membership.among) (·.admits id) = narrows ids (isMember · id) := by
  cases ids <;> rfl

/-- **A request selects the rows of its period that its lists, taken for a filter, admit.** -/
theorem selects_eq (request : Request) (d : Directory) (r : Row) :
    request.selects d r = (r.startDate?.any request.period.contains &&
      Filter.admits
        ⟨request.projects.map .among, request.clients.map .among, request.tags, none⟩ d r) := by
  simp only [selects, Filter.admits, narrows_among]
  cases r.startDate? with
  | none => rfl
  | some date => simp [narrows, Bool.and_assoc]

/-- **The request of a query selects the rows of the window that the filter of its inclusions admits.** -/
theorem selects_iff (h : ofQuery q d = .ok request) {kept : Filter}
    (hkept : Filter.ofQuery q.inclusions d = .ok kept) (r : Row) :
    request.selects d r = true ↔
      ∃ date, r.startDate? = some date ∧ q.window.contains date = true ∧ kept.admits d r = true := by
  obtain rfl := Except.ok.inj ((Filter.ofQuery_inclusions h).symm.trans hkept)
  rw [selects_eq, period_of_ofQuery h, Bool.and_eq_true, Option.any_eq_true]
  simp only [← and_assoc, exists_and_right]

end Request

/-! ## 3. All pages -/

namespace Export

/-- The rows of all pages after the `page`-th, up to the first page behind which there are no more. -/
def rowsAfter (e : Export) (size : Nat) (q : Request) (page : Nat)
    (h : page * max size 1 < UInt64.size) : List Row :=
  if hmore : (e.page size q (page + 1)).hasMore then
    (e.page size q (page + 1)).rows ++
      e.rowsAfter size q (page + 1) (e.offset_lt_of_hasMore q h hmore)
  else (e.page size q (page + 1)).rows
termination_by (e.selected q).length - page
decreasing_by
  -- the next page is full, so that it has at least one row
  rw [hasMore_iff_selected e q h] at hmore
  have hle := Nat.le_mul_of_pos_right (page + 1) (by omega : 0 < max size 1)
  omega

/-- The rows of all pages. -/
def download (e : Export) (size : Nat) (q : Request) : List Row :=
  e.rowsAfter size q 0 (zero_mul_lt size)

/-- The pages up to the `page`-th and those after it make up what is selected.  The induction follows the
pages to the last. -/
theorem take_append_rowsAfter (e : Export) (size : Nat) (q : Request) (page : Nat)
    (h : page * max size 1 < UInt64.size) :
    (e.selected q).take (page * max size 1) ++ e.rowsAfter size q page h = e.selected q := by
  induction page, h using rowsAfter.induct e size q with
  | case1 page h hmore ih =>
    rw [rowsAfter, dif_pos hmore, ← List.append_assoc, e.take_selected_append q h, ih]
  | case2 page h hmore =>
    rw [rowsAfter, dif_neg hmore, e.take_selected_append q h]
    rw [e.hasMore_iff_selected q h, Nat.not_lt] at hmore
    exact List.take_of_length_le hmore

/-- **All pages make up what is selected**, whatever their size. -/
theorem download_eq_selected (e : Export) (size : Nat) (q : Request) :
    e.download size q = e.selected q := by
  have hnone : (e.selected q).take (0 * max size 1) = [] := by rw [Nat.zero_mul, List.take_zero]
  have hall := e.take_append_rowsAfter size q 0 (zero_mul_lt size)
  rwa [hnone, List.nil_append] at hall

/-- What a source selects for a query, without the rows that the query drops, are the rows of the window
that it wants. -/
theorem filter_selected (e : Export) (h : Request.ofQuery q e.directory = .ok request) :
    (e.selected request).filter (!q.drops e.directory ·) =
      (e.rowsBetween q.window).filter (q.wants e.directory) := by
  rw [selected, rowsBetween, List.filter_filter, List.filter_filter]
  refine List.filter_congr fun r _ => ?_
  rw [Request.selects_eq, Request.period_of_ofQuery h,
    Filter.admits_eq_wants (Filter.ofQuery_inclusions h), q.wants_eq]
  ac_rfl

end Export

/-! ## 4. Reports -/

/-- **To narrow down at the source and to sort out in the end come to the same.**  A source selects just
the rows that started in the window and that the filter of the query without its exclusions admits.  A
report, for which all rows of missing days are fetched, returns the rows that a source gives for the
query, page by page to the end, without those that the query drops: sorted by date, then by start, and in
reverse if the order is descending. -/
theorem Coordinator.report_eq_narrowed (hknown : q.Known d) :
    ∃ request kept, Request.ofQuery q d = .ok request ∧ Filter.ofQuery q.inclusions d = .ok kept ∧
      (∀ r : Row, request.selects d r = true ↔ ∃ date, r.startDate? = some date ∧
        q.window.contains date = true ∧ kept.admits d r = true) ∧
      ∀ (e : Export) (size : Nat) (c : Coordinator) (source : Source) (paged : Nat)
        (history : List Ask) (rows : List Row),
        e.directory = d → c.directory = d → source.Serves e paged →
        (c.report source q (c.after source history)).1 = .ok rows →
          rows = Filter.sortRows q.sort
            (((e.download size request).filter (!q.drops d ·)).mergeSort Row.byDate) ∧
          ∀ call ∈ (c.report source q (c.after source history)).2.calls.drop
            (c.after source history).calls.length, ∃ p, call.request = .all p := by
  obtain ⟨request, hrequest⟩ := Filter.exists_request hknown
  have hkept := Filter.ofQuery_inclusions hrequest
  refine ⟨request, _, hrequest, hkept, Request.selects_iff hrequest hkept, ?_⟩
  rintro e size c source paged history rows rfl hdirectory hsource hrows
  constructor
  · rw [Export.download_eq_selected, Export.filter_selected e hrequest, Export.sortRows_byDate,
      rows_of_report hsource (mirrors_after hsource history) hrows, hdirectory, Export.reference]
  · intro call hcall
    rw [← hdirectory] at hknown
    obtain ⟨p, -, hp⟩ := (fetches_report source hknown (c.after source history)).exists_of_mem hcall
    exact ⟨p, hp⟩

/-- Of five rows, one has a client and one a tag that are dropped, and one has no project. -/
theorem Coordinator.narrowed_to_two_rows :
    let d : Directory := ⟨[⟨1, "Web", some 10⟩, ⟨2, "Ops", some 11⟩], [⟨11, "Initech"⟩], [⟨6, "late"⟩]⟩
    let q : Query := { listOf 1 3 with
      projects := some ⟨.keep, [.name "web", .id 2]⟩, clients := some ⟨.drop, [.name "initech"]⟩,
      excludedTags := some ["late"], sort := some .descending }
    let e : Export := { directory := d, rows := [{ rowAt 1 1 5 0 with project := some 1 },
      { rowAt 2 1 5 0 with project := some 2 }, { rowAt 3 1 7 0 with project := some 1, tags := [6] },
      rowAt 4 2 5 0, { rowAt 5 2 9 0 with project := some 1 }] }
    let c : Coordinator := { directory := d }
    ∃ request rows, Request.ofQuery q d = .ok request ∧
      (c.report (e.source 2) q (c.after (e.source 2) [.report (listOf 2 2)])).1 = .ok rows ∧
      rows = Filter.sortRows q.sort
        (((e.download 1 request).filter (!q.drops d ·)).mergeSort Row.byDate) ∧
      rows.map Row.number = [5, 1] := by
  intro d q e c
  have hsource : (e.source 2).Serves e 2 := fun _ _ _ => Or.inl rfl
  have hknown : q.Known d := (Filter.exists_ofQuery_iff q d).mp
    ⟨⟨some (.among [1, 2]), some (.outside [11]), none, some [6]⟩, by decide +kernel⟩
  have hrows := (report_eq_reference (c := c) hsource [.report (listOf 2 2)] q).2 hknown
    (fun _ _ _ _ => ⟨_, rfl⟩) fun r _ => (List.length_filter_le _ _).trans (by decide)
  obtain ⟨request, kept, hrequest, -, -, hreport⟩ := report_eq_narrowed hknown
  refine ⟨request, _, hrequest, hrows, (hreport e 1 c (e.source 2) 2 _ _ rfl rfl hsource hrows).1, ?_⟩
  have hwanted : (e.rowsBetween q.window).filter (q.wants d) =
      [{ rowAt 1 1 5 0 with project := some 1 }, { rowAt 5 2 9 0 with project := some 1 }] := by
    decide +kernel
  rw [Export.reference, hwanted, List.mergeSort_of_pairwise (by decide)]
  rfl

end Timesheet
