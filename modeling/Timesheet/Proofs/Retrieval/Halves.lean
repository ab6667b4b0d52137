import Timesheet.Proofs.Retrieval.Exactness
/-!
# What is kept and what is dropped

Two queries that differ in one list, which the one keeps and the other drops, share out what is answered
without the list: each row of that answer is in one of theirs and in no other, and stands there in the
order that it had, also among rows that start together (`Coordinator.cached_shared_out`).

A row passes the list that is dropped exactly if it does not pass the list that is kept, whether it has a
project or not, and whether the directory knows its project or not.  So each of the two answers is that of
the rows that pass one more test, and such a test may be made after sorting as well as before
(`Filter.apply_of_admits`).
-/

namespace Timesheet

/-! ## 1. One more test -/

namespace Filter

variable {f f' : Filter} {d : Directory} {test : Row → Bool}

theorem sortRows_filter (order : Option SortOrder) (test : Row → Bool) (rows : List Row) :
    sortRows order (rows.filter test) = (sortRows order rows).filter test := by
  rw [sortRows, sortRows, Row.isOrder_startsBefore.mergeSort_filter]
  split
  · exact List.filter_reverse.symm
  · rfl

/-- **A filter with one more test** finds the rows of the other filter that pass the test, in the order in
which they are found there. -/
theorem apply_of_admits (h : ∀ r, f'.admits d r = (f.admits d r && test r))
    (order : Option SortOrder) (rows : List Row) :
    f'.apply d order rows = (f.apply d order rows).filter test := by
  rw [apply, apply, ← sortRows_filter, List.filter_filter]
  refine congrArg (sortRows order) (List.filter_congr fun r _ => ?_)
  rw [h, Bool.and_comm]

end Filter

namespace Query

variable {q : Query} {d : Directory}

/-! ## 2. One more selection -/

theorem Known.addProjects (h : q.Known d) {s : Selection}
    (hs : ∀ i ∈ s.items, (i.projectIn? d).isSome) : { q with projects := some s }.Known d :=
  { h with projects := fun _ hs' => Option.some.inj hs' ▸ hs }

theorem Known.addClients (h : q.Known d) {s : Selection}
    (hs : ∀ i ∈ s.items, (i.clientIn? d).isSome) : { q with clients := some s }.Known d :=
  { h with clients := fun _ hs' => Option.some.inj hs' ▸ hs }

theorem Known.addIncludedTags (h : q.Known d) {names : List String}
    (hnames : ∀ s ∈ names, (d.tagId? s).isSome) : { q with includedTags := some names }.Known d :=
  { h with includedTags := fun _ hnames' => Option.some.inj hnames' ▸ hnames }

theorem Known.addExcludedTags (h : q.Known d) {names : List String}
    (hnames : ∀ s ∈ names, (d.tagId? s).isSome) : { q with excludedTags := some names }.Known d :=
  { h with excludedTags := fun _ hnames' => Option.some.inj hnames' ▸ hnames }

theorem wants_addProjects (h : q.projects = none) (s : Selection) (r : Row) :
    { q with projects := some s }.wants d r =
      (q.wants d r && s.passes (Item.projectIn? d) r.project) := by
  simp only [wants, h, Option.all_some, Option.all_none, Bool.true_and]
  ac_rfl

theorem wants_addClients (h : q.clients = none) (s : Selection) (r : Row) :
    { q with clients := some s }.wants d r =
      (q.wants d r && s.passes (Item.clientIn? d) (Request.clientOf? d r)) := by
  simp only [wants, h, Option.all_some, Option.all_none, Bool.and_true]
  ac_rfl

theorem wants_addIncludedTags (h : q.includedTags = none) (names : List String) (r : Row) :
    { q with includedTags := some names }.wants d r = (q.wants d r && r.isTagged d names) := by
  simp only [wants, h, Option.all_some, Option.all_none, Bool.and_true]
  ac_rfl

theorem wants_addExcludedTags (h : q.excludedTags = none) (names : List String) (r : Row) :
    { q with excludedTags := some names }.wants d r = (q.wants d r && !r.isTagged d names) := by
  simp only [wants, h, Option.all_some, Option.all_none, Bool.and_true]

end Query

namespace Coordinator

variable {c : Coordinator} {q q' : Query} {test : Row → Bool}

/-- **A query that wants the rows of another that pass a test** has just these in its answer. -/
theorem cached_of_wants (hq' : q'.Known c.directory) {f : Filter}
    (hf : Filter.ofQuery q c.directory = .ok f) (hwindow : q'.window = q.window)
    (hsort : q'.sort = q.sort)
    (hwants : ∀ r, q'.wants c.directory r = (q.wants c.directory r && test r)) (s : Session) :
    c.cached q' s = .ok
      ⟨(f.apply c.directory q.sort (s.store.rowsIn q.window)).filter test,
        s.store.missing q.window⟩ := by
  obtain ⟨f', hf'⟩ := (Filter.exists_ofQuery_iff q' c.directory).mpr hq'
  have hadmits : ∀ r, f'.admits c.directory r = (f.admits c.directory r && test r) := fun r => by
    rw [Filter.admits_eq_wants hf', Filter.admits_eq_wants hf, hwants]
  refine cached_eq_ok_iff.mpr ⟨f', hf', ?_⟩
  rw [hwindow, hsort, Filter.apply_of_admits hadmits]

/-! ## 3. Two answers -/

/-- Two queries share out what the store has for a third: the rows that pass the test are for the first,
all others for the second, and they keep their order.  The same days are missing. -/
def SharesOut (c : Coordinator) (s : Session) (q kept dropped : Query) (test : Row → Bool) : Prop :=
  ∃ rows missing, c.cached q s = .ok ⟨rows, missing⟩ ∧
    c.cached kept s = .ok ⟨rows.filter test, missing⟩ ∧
    c.cached dropped s = .ok ⟨rows.filter (!test ·), missing⟩

/-- **To keep what a list names and to drop it share out what is answered without the list**, whatever
the store holds and in whatever order rows are asked for.  This goes for projects, for clients and for
tags. -/
theorem cached_shared_out (hknown : q.Known c.directory) (s : Session) :
    (∀ items, q.projects = none → (∀ i ∈ items, (i.projectIn? c.directory).isSome) →
      c.SharesOut s q { q with projects := some ⟨.keep, items⟩ }
        { q with projects := some ⟨.drop, items⟩ }
        fun r => items.any fun i => r.project.isSome && i.projectIn? c.directory == r.project) ∧
    (∀ items, q.clients = none → (∀ i ∈ items, (i.clientIn? c.directory).isSome) →
      c.SharesOut s q { q with clients := some ⟨.keep, items⟩ }
        { q with clients := some ⟨.drop, items⟩ }
        fun r => items.any fun i => (Request.clientOf? c.directory r).isSome &&
          i.clientIn? c.directory == Request.clientOf? c.directory r) ∧
    (∀ names, q.includedTags = none → q.excludedTags = none →
      (∀ name ∈ names, (c.directory.tagId? name).isSome) →
      c.SharesOut s q { q with includedTags := some names } { q with excludedTags := some names }
        (Row.isTagged c.directory names)) := by
  obtain ⟨f, hf⟩ := (Filter.exists_ofQuery_iff q c.directory).mpr hknown
  have hcached : c.cached q s =
      .ok ⟨f.apply c.directory q.sort (s.store.rowsIn q.window), s.store.missing q.window⟩ :=
    cached_eq_ok_iff.mpr ⟨f, hf, rfl⟩
  refine ⟨fun items hnone hitems => ?_, fun items hnone hitems => ?_,
    fun names hincluded hexcluded hnames => ?_⟩
  · exact ⟨_, _, hcached,
      cached_of_wants (hknown.addProjects hitems) hf rfl rfl (Query.wants_addProjects hnone _) s,
      cached_of_wants (hknown.addProjects hitems) hf rfl rfl (Query.wants_addProjects hnone _) s⟩
  · exact ⟨_, _, hcached,
      cached_of_wants (hknown.addClients hitems) hf rfl rfl (Query.wants_addClients hnone _) s,
      cached_of_wants (hknown.addClients hitems) hf rfl rfl (Query.wants_addClients hnone _) s⟩
  · exact ⟨_, _, hcached,
      cached_of_wants (hknown.addIncludedTags hnames) hf rfl rfl
        (Query.wants_addIncludedTags hincluded _) s,
      cached_of_wants (hknown.addExcludedTags hnames) hf rfl rfl
        (Query.wants_addExcludedTags hexcluded _) s⟩

/-- Four rows that start at once, one of them without a project and one with a project that is not in the
directory. -/
theorem rows_that_start_together :
    let d : Directory := ⟨[⟨1, "Web", some 10⟩, ⟨2, "Ops", none⟩], [⟨10, "ACME"⟩], [⟨5, "billed"⟩]⟩
    let rows : List Row := [{ rowAt 1 1 5 0 with project := some 1, tags := [5] }, rowAt 2 1 5 0,
      { rowAt 3 1 5 0 with project := some 7, tags := [6, 5] }, { rowAt 4 1 5 0 with project := some 2 }]
    let c : Coordinator := { directory := d }
    let s : Session := { store := Store.empty.put ⟨.clamp 1, .clamp 1⟩ rows }
    let q : Query := { listOf 1 2 with sort := some .descending }
    c.cached q s = .ok ⟨rows.reverse, [⟨.clamp 2, .clamp 2⟩]⟩ ∧
    c.SharesOut s q { q with projects := some ⟨.keep, [.name "web", .id 2]⟩ }
      { q with projects := some ⟨.drop, [.name "web", .id 2]⟩ }
      (fun r => [Item.name "web", .id 2].any fun i =>
        r.project.isSome && i.projectIn? d == r.project) ∧
    c.SharesOut s q { q with clients := some ⟨.keep, [.name "acme"]⟩ }
      { q with clients := some ⟨.drop, [.name "acme"]⟩ }
      (fun r => [Item.name "acme"].any fun i =>
        (Request.clientOf? d r).isSome && i.clientIn? d == Request.clientOf? d r) ∧
    c.SharesOut s q { q with includedTags := some ["billed"] } { q with excludedTags := some ["billed"] }
      (Row.isTagged d ["billed"]) := by
  intro d rows c s q
  have hf : Filter.ofQuery q d = .ok ⟨none, none, none, none⟩ := rfl
  have hrows : s.store.rowsIn q.window = rows := by decide +kernel
  have hmissing : s.store.missing q.window = [⟨.clamp 2, .clamp 2⟩] := by decide +kernel
  have hall : rows.filter (Filter.admits ⟨none, none, none, none⟩ d) = rows := by decide +kernel
  have hsort : Filter.sortRows q.sort rows = rows.reverse := by
    rw [Filter.sortRows, List.mergeSort_of_pairwise (by decide)]
    rfl
  obtain ⟨hprojects, hclients, htags⟩ :=
    cached_shared_out (c := c) ((Filter.exists_ofQuery_iff q d).mp ⟨_, hf⟩) s
  refine ⟨cached_eq_ok_iff.mpr ⟨_, hf, ?_⟩, hprojects _ rfl (by decide), hclients _ rfl (by decide),
    htags _ rfl rfl (by decide)⟩
  rw [hrows, hmissing, Filter.apply, hall, hsort]

end Coordinator

end Timesheet
