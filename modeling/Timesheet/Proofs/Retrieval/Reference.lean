import Timesheet.Retrieval.Filter
import Timesheet.Proofs.Coverage.Contents
import Timesheet.Proofs.Results
import Timesheet.Proofs.Sorting
/-!
# The reference answer

What a query asks for, said of the rows of an export alone: those of the window that the query wants
(`Query.wants`), in order of their start (`Row.precedes`).  No store, request or filter occurs in
`Export.reference`.

The rest of the module relates the parts to those of the program: a filter admits what the query wants
(`Filter.admits_eq_wants`), it is found exactly if the directory knows all names
(`Filter.exists_ofQuery_iff`), and sorting rows that are in order of days makes them come in the order of
the reference (`Export.sortRows_flatMap_days`).
-/

namespace Timesheet

/-! ## 1. What a query asks for -/

/-- The project that an item means. -/
def Item.projectIn? (d : Directory) : Item → Option UInt64
  | .id n => some n
  | .name s => d.projectId? s

/-- The client that an item means. -/
def Item.clientIn? (d : Directory) : Item → Option UInt64
  | .id n => some n
  | .name s => d.clientId? s

/-- The selection lets a number pass: one of its items means it, or, if it drops, none does. -/
def Selection.passes (s : Selection) (meant : Item → Option UInt64) (id : Option UInt64) : Bool :=
  match s.mode with
  | .keep => s.items.any fun i => id.isSome && meant i == id
  | .drop => !s.items.any fun i => id.isSome && meant i == id

/-- The row has one of the tags. -/
def Row.isTagged (d : Directory) (names : List String) (r : Row) : Bool :=
  r.tags.any fun tag => names.any fun name => d.tagId? name == some tag

/-- The row passes all selections of the query. -/
def Query.wants (q : Query) (d : Directory) (r : Row) : Bool :=
  q.projects.all (·.passes (Item.projectIn? d) r.project)
    && q.clients.all (·.passes (Item.clientIn? d) (Request.clientOf? d r))
    && q.includedTags.all (r.isTagged d)
    && q.excludedTags.all (!r.isTagged d ·)

/-- All names of the query are in the directory. -/
structure Query.Known (q : Query) (d : Directory) : Prop where
  projects : ∀ s, q.projects = some s → ∀ i ∈ s.items, (i.projectIn? d).isSome
  clients : ∀ s, q.clients = some s → ∀ i ∈ s.items, (i.clientIn? d).isSome
  includedTags : ∀ names, q.includedTags = some names → ∀ s ∈ names, (d.tagId? s).isSome
  excludedTags : ∀ names, q.excludedTags = some names → ∀ s ∈ names, (d.tagId? s).isSome

/-- The first row starts before the second, or together with it on no later date. -/
def Row.precedes (a b : Row) : Bool :=
  decide (Option.lt (· < ·) a.startInstant? b.startInstant? ∨
    a.startInstant? = b.startInstant? ∧ a.date ≤ b.date)

namespace Export

/-- The rows whose first entry started on a day of the period. -/
def rowsBetween (e : Export) (p : Period) : List Row :=
  e.rows.filter fun r => r.startDate?.any p.contains

/-- The rows whose first entry started on the day. -/
def rowsOn (e : Export) (d : Date) : List Row := e.rows.filter fun r => r.startDate? = some d

/-- The rows of the window that the query wants, in order of their start; those that start together
on one date keep the order of the export. -/
def reference (e : Export) (d : Directory) (q : Query) : List Row :=
  let sorted := ((e.rowsBetween q.window).filter (q.wants d)).mergeSort Row.precedes
  if q.sort = some .descending then sorted.reverse else sorted

end Export

/-! ## 2. Names -/

namespace Filter

/-- Resolving a list gives what its members mean, provided that all of them mean something. -/
structure Resolves {α : Type} (resolve : List α → Except ReportError (List UInt64))
    (meant : α → Option UInt64) : Prop where
  mem : ∀ {items ids}, resolve items = .ok ids → ∀ n, n ∈ ids ↔ ∃ i ∈ items, meant i = some n
  succeeds : ∀ items, (∃ ids, resolve items = .ok ids) ↔ ∀ i ∈ items, (meant i).isSome

theorem resolves_mapM {α : Type} {find : α → Except ReportError UInt64} {meant : α → Option UInt64}
    (h : ∀ a n, find a = .ok n ↔ meant a = some n) : Resolves (·.mapM find) meant := by
  constructor
  · intro items ids hids n
    rw [Results.mem_of_mapM_eq_ok hids]
    simp only [h]
  · intro items
    rw [Results.exists_mapM_eq_ok_iff]
    simp only [h, Option.isSome_iff_exists]

theorem found_eq_ok_iff {kind : NameKind} {name : String} {id : Option UInt64} {n : UInt64} :
    Directory.found kind name id = .ok n ↔ id = some n := by
  cases id <;> simp [Directory.found]

theorem resolves_projects (d : Directory) : Resolves d.resolveProjects (Item.projectIn? d) := by
  refine resolves_mapM fun i n => ?_
  cases i with
  | id m => simp [Item.projectIn?]
  | name s => exact found_eq_ok_iff

theorem resolves_clients (d : Directory) : Resolves d.resolveClients (Item.clientIn? d) := by
  refine resolves_mapM fun i n => ?_
  cases i with
  | id m => simp [Item.clientIn?]
  | name s => exact found_eq_ok_iff

theorem resolves_tags (d : Directory) : Resolves d.resolveTags d.tagId? :=
  resolves_mapM fun _ _ => found_eq_ok_iff

/-! ## 3. The tests of a filter -/

variable {resolve : List Item → Except ReportError (List UInt64)} {meant : Item → Option UInt64}

/-- A number is a member of a resolved list if an item means it. -/
theorem isMember_eq_any (h : Resolves resolve meant) {items : List Item} {ids : List UInt64}
    (hids : resolve items = .ok ids) (id : Option UInt64) :
    Request.isMember ids id = items.any fun i => id.isSome && meant i == id := by
  cases id with
  | none => simp [Request.isMember]
  | some n =>
    rw [Bool.eq_iff_iff]
    simp [Request.isMember, h.mem hids n]

/-- **The test of a selection lets pass what the selection does.** -/
theorem narrows_membership (h : Resolves resolve meant) {s : Option Selection}
    {included : Option (List UInt64)} {test : Option Membership}
    (hincluded : Request.resolveIncluded resolve s = .ok included)
    (htest : membership resolve s included = .ok test) (id : Option UInt64) :
    Request.narrows test (·.admits id) = s.all (·.passes meant id) := by
  rcases s with _ | ⟨_ | _, items⟩
  · obtain rfl : none = included := Except.ok.inj hincluded
    obtain rfl : none = test := Except.ok.inj htest
    rfl
  · obtain ⟨ids, hids, rfl⟩ := Results.map_eq_ok_iff.mp hincluded
    obtain rfl : some (.among ids) = test := Except.ok.inj htest
    exact isMember_eq_any h hids id
  · obtain ⟨ids, hids, rfl⟩ := Results.map_eq_ok_iff.mp htest
    simp only [Request.narrows, Membership.admits, isMember_eq_any h hids id]
    rfl

/-- A selection can be tested if all of its items mean something. -/
theorem exists_membership_iff (h : Resolves resolve meant) (s : Option Selection) :
    (∃ included, Request.resolveIncluded resolve s = .ok included ∧
        ∃ test, membership resolve s included = .ok test) ↔
      ∀ s', s = some s' → ∀ i ∈ s'.items, (meant i).isSome := by
  rcases s with _ | ⟨_ | _, items⟩
  · simp [Request.resolveIncluded, membership]
  · simp [Request.resolveIncluded, membership, Results.map_eq_ok_iff, ← h.succeeds items]
  · simp [Request.resolveIncluded, membership, Results.map_eq_ok_iff, ← h.succeeds items]

theorem hasTag_eq_isTagged {d : Directory} {names : List String} {ids : List UInt64}
    (hids : d.resolveTags names = .ok ids) (r : Row) : Request.hasTag ids r = r.isTagged d names := by
  refine List.any_congr rfl fun tag => ?_
  rw [Bool.eq_iff_iff]
  simp [(resolves_tags d).mem hids tag]

/-- The test of tags holds of the rows that have one of them. -/
theorem narrows_tags {d : Directory} {names : Option (List String)} {ids : Option (List UInt64)}
    (hids : Request.resolveTags d names = .ok ids) (test : Bool → Bool) (r : Row) :
    Request.narrows ids (fun l => test (Request.hasTag l r)) =
      names.all fun l => test (r.isTagged d l) := by
  cases names with
  | none =>
    obtain rfl : none = ids := Except.ok.inj hids
    rfl
  | some names =>
    obtain ⟨l, hl, rfl⟩ := Results.map_eq_ok_iff.mp hids
    simp only [Request.narrows, Option.all_some, hasTag_eq_isTagged hl]

theorem exists_resolveTags_iff (d : Directory) (names : Option (List String)) :
    (∃ ids, Request.resolveTags d names = .ok ids) ↔
      ∀ names', names = some names' → ∀ s ∈ names', (d.tagId? s).isSome := by
  cases names with
  | none => simp [Request.resolveTags]
  | some names =>
    simp [Request.resolveTags, Results.map_eq_ok_iff, ← (resolves_tags d).succeeds names]

/-- The steps of finding the filter of a query. -/
theorem ofQuery_eq_ok_iff {q : Query} {d : Directory} {f : Filter} :
    ofQuery q d = .ok f ↔ ∃ projects clients tags,
      Request.resolveIncluded d.resolveProjects q.projects = .ok projects ∧
      Request.resolveIncluded d.resolveClients q.clients = .ok clients ∧
      Request.resolveTags d q.includedTags = .ok tags ∧
      ∃ test test' dropped,
        membership d.resolveProjects q.projects projects = .ok test ∧
        membership d.resolveClients q.clients clients = .ok test' ∧
        Request.resolveTags d q.excludedTags = .ok dropped ∧ ⟨test, test', tags, dropped⟩ = f := by
  simp only [ofQuery, Request.ofQuery, Results.bind_eq_ok_iff, pure, Except.pure, Except.ok.injEq]
  constructor
  · rintro ⟨_, ⟨projects, hp, clients, hc, tags, ht, rfl⟩, test, hp', test', hc', dropped, hd, rfl⟩
    exact ⟨projects, clients, tags, hp, hc, ht, test, test', dropped, hp', hc', hd, rfl⟩
  · rintro ⟨projects, clients, tags, hp, hc, ht, test, test', dropped, hp', hc', hd, rfl⟩
    exact ⟨_, ⟨projects, hp, clients, hc, tags, ht, rfl⟩, test, hp', test', hc', dropped, hd, rfl⟩

/-- **The filter of a query admits what the query wants.** -/
theorem admits_eq_wants {q : Query} {d : Directory} {f : Filter} (h : ofQuery q d = .ok f)
    (r : Row) : f.admits d r = q.wants d r := by
  obtain ⟨projects, clients, tags, hp, hc, ht, test, test', dropped, hp', hc', hd, rfl⟩ :=
    ofQuery_eq_ok_iff.mp h
  have hprojects := narrows_membership (resolves_projects d) hp hp' r.project
  have hclients := narrows_membership (resolves_clients d) hc hc' (Request.clientOf? d r)
  have htags := narrows_tags ht id r
  have hdropped := narrows_tags hd not r
  simp only [id] at htags
  simp only [admits, Query.wants, hprojects, hclients, htags, hdropped]

/-- **A query has a filter exactly if all of its names are known.** -/
theorem exists_ofQuery_iff (q : Query) (d : Directory) :
    (∃ f, ofQuery q d = .ok f) ↔ q.Known d := by
  have hprojects := exists_membership_iff (resolves_projects d) q.projects
  have hclients := exists_membership_iff (resolves_clients d) q.clients
  have hincluded := exists_resolveTags_iff d q.includedTags
  have hexcluded := exists_resolveTags_iff d q.excludedTags
  simp only [ofQuery_eq_ok_iff]
  constructor
  · rintro ⟨_, projects, clients, tags, hp, hc, ht, test, test', dropped, hp', hc', hd, -⟩
    exact ⟨hprojects.mp ⟨projects, hp, test, hp'⟩, hclients.mp ⟨clients, hc, test', hc'⟩,
      hincluded.mp ⟨tags, ht⟩, hexcluded.mp ⟨dropped, hd⟩⟩
  · intro hknown
    obtain ⟨projects, hp, test, hp'⟩ := hprojects.mpr hknown.projects
    obtain ⟨clients, hc, test', hc'⟩ := hclients.mpr hknown.clients
    obtain ⟨tags, ht⟩ := hincluded.mpr hknown.includedTags
    obtain ⟨dropped, hd⟩ := hexcluded.mpr hknown.excludedTags
    exact ⟨_, projects, clients, tags, hp, hc, ht, test, test', dropped, hp', hc', hd, rfl⟩

end Filter

/-! ## 4. The order of rows -/

namespace Row

/-- The first row belongs to no later day. -/
def byDate (a b : Row) : Bool := decide (a.date ≤ b.date)

theorem isOrder_byDate : Sorting.IsOrder byDate := by
  constructor
  · intro a b c hab hbc
    simp only [byDate, decide_eq_true_eq, Date.le_def] at *
    omega
  · intro a b
    simp only [byDate, Bool.or_eq_true, decide_eq_true_eq, Date.le_def]
    omega

theorem isOrder_startsBefore : Sorting.IsOrder Filter.startsBefore := by
  constructor
  · intro a b c
    simp only [Filter.startsBefore]
    cases a.startInstant? <;> cases b.startInstant? <;> cases c.startInstant? <;> simp
    exact Int.le_trans
  · intro a b
    simp only [Filter.startsBefore]
    cases a.startInstant? <;> cases b.startInstant? <;> simp
    exact Int.le_total _ _

/-- The order of the reference is that of the start, and where that ties that of the date. -/
theorem precedes_eq_lexLE : precedes = Sorting.lexLE Filter.startsBefore byDate := by
  funext a b
  simp only [precedes, Sorting.lexLE, Filter.startsBefore, byDate]
  cases a.startInstant? with
  | none => cases b.startInstant? <;> simp [Option.lt]
  | some x =>
    cases b.startInstant? with
    | none => simp [Option.lt]
    | some y =>
      rw [Bool.eq_iff_iff]
      simp only [Option.lt, Option.some.injEq, decide_eq_true_eq, Bool.and_eq_true,
        Bool.or_eq_true, Bool.not_eq_true', decide_eq_false_iff_not, Int.not_le]
      constructor
      · rintro (hlt | ⟨rfl, hdate⟩)
        · exact ⟨Int.le_of_lt hlt, Or.inl hlt⟩
        · exact ⟨Int.le_refl x, Or.inr hdate⟩
      · rintro ⟨hle, hlt | hdate⟩
        · exact Or.inl hlt
        · rcases Int.lt_or_eq_of_le hle with hlt | heq
          · exact Or.inl hlt
          · exact Or.inr ⟨heq, hdate⟩

end Row

namespace Export

variable {l : List Row}

/-- Rows that are taken day by day are in order of days, otherwise in the order they had. -/
theorem flatMap_days_eq_mergeSort (l : List Row) (p : Period) :
    (p.days.flatMap fun d => l.filter fun r => r.startDate? = some d) =
      (l.filter fun r => r.startDate?.any p.contains).mergeSort Row.byDate := by
  generalize hkept : (l.filter fun r => r.startDate?.any p.contains) = kept
  have hdate : ∀ r ∈ kept, p.contains r.date = true ∧ r.startDate? = some r.date := by
    intro r hr
    rw [← hkept, List.mem_filter] at hr
    cases hstart : r.startDate? with
    | none => simp [hstart] at hr
    | some d => simpa [Row.date, hstart] using hr.2
  have hsorted : InOrder (kept.mergeSort Row.byDate) := by
    refine (List.pairwise_mergeSort Row.isOrder_byDate.trans Row.isOrder_byDate.total kept).imp ?_
    exact fun hab => of_decide_eq_true hab
  have hall : ((kept.mergeSort Row.byDate).filter fun r => p.contains (Dated.date r)) =
      kept.mergeSort Row.byDate :=
    List.filter_eq_self.mpr fun r hr => (hdate r (List.mem_mergeSort.mp hr)).1
  rw [← hall, ← hsorted.flatMap_days p]
  refine List.flatMap_congr fun d hd => ?_
  rw [Row.isOrder_byDate.filter_mergeSort, ← hkept, List.filter_filter]
  · refine List.filter_congr fun r _ => ?_
    show _ = (decide (r.date = d) && _)
    cases hstart : r.startDate? with
    | none => simp
    | some d' =>
      have hd := Period.mem_days.mp hd
      by_cases hdd : d' = d
      · simp [Row.date, hstart, hdd, hd]
      · simp [Row.date, hstart, hdd]
  · intro a b ha hb
    simp only [decide_eq_true_eq] at ha hb
    have hab : a.date = b.date := ha.trans hb.symm
    simp [Row.byDate, hab, Date.le_def]

/-- Rows that are sorted by their date and then by their start are in the order of the reference. -/
theorem sortRows_byDate (order : Option SortOrder) (l : List Row) :
    Filter.sortRows order (l.mergeSort Row.byDate) =
      let sorted := l.mergeSort Row.precedes
      if order = some .descending then sorted.reverse else sorted := by
  rw [Filter.sortRows, Row.isOrder_startsBefore.mergeSort_mergeSort Row.isOrder_byDate,
    ← Row.precedes_eq_lexLE]

/-- **Rows taken day by day come into the order of the reference**, once they are sorted by their
start. -/
theorem sortRows_flatMap_days (order : Option SortOrder) (l : List Row) (p : Period) :
    Filter.sortRows order (p.days.flatMap fun d => l.filter fun r => r.startDate? = some d) =
      let sorted := (l.filter fun r => r.startDate?.any p.contains).mergeSort Row.precedes
      if order = some .descending then sorted.reverse else sorted := by
  rw [flatMap_days_eq_mergeSort, sortRows_byDate]

/-- **A filter that is applied to the rows of all days of the window gives the reference.** -/
theorem apply_flatMap_days {q : Query} {d : Directory} {f : Filter} (hf : Filter.ofQuery q d = .ok f)
    (e : Export) : f.apply d q.sort (q.window.days.flatMap e.rowsOn) = e.reference d q := by
  have hrows : (q.window.days.flatMap e.rowsOn).filter (f.admits d) =
      q.window.days.flatMap fun day =>
        (e.rows.filter (q.wants d)).filter fun r => r.startDate? = some day := by
    rw [List.filter_flatMap]
    refine List.flatMap_congr fun day _ => ?_
    rw [rowsOn, List.filter_filter, List.filter_filter]
    refine List.filter_congr fun r _ => ?_
    rw [Filter.admits_eq_wants hf, Bool.and_comm]
  rw [Filter.apply, hrows, sortRows_flatMap_days, reference, rowsBetween, List.filter_filter,
    List.filter_filter]
  simp only [Bool.and_comm]

end Export

end Timesheet
