import Timesheet.Proofs.Retrieval.Exactness
import Timesheet.Proofs.Retrieval.Lookup
/-!
# Unknown names

A query may name projects, clients and tags.  All of them are looked up before anything else happens:
first those of what the query keeps, then those of what it drops (`Query.names`).  The first name that the
directory does not know is the error, for a report as for what the store has, and neither the store nor
the source has been touched then (`Coordinator.resolvesNames`).  Numbers stand for themselves and never
fail.

Two passes look up the names, one for the request and one for the rest of the filter;
`Filter.looksUp_ofQuery` says that together they go through each selection once.  If all names are known,
the filter has each item resolved, to its own number or to that of the first bearer of its name
(`Query.ResolvesTo`).
-/

namespace Timesheet

/-! ## 1. The names of a query -/

/-- The name of an item, if it has one. -/
def Item.names (kind : NameKind) : Item → List (NameKind × String)
  | .id _ => []
  | .name s => [(kind, s)]

/-- The names in a selection of this mode. -/
def Selection.namesIn (kind : NameKind) (mode : Mode) : Option Selection → List (NameKind × String)
  | none => []
  | some s => if s.mode = mode then s.items.flatMap (Item.names kind) else []

/-- The names of tags. -/
def tagNames (tags : Option (List String)) : List (NameKind × String) :=
  (tags.getD []).map fun s => (.tag, s)

/-- The names of a query: those of projects, clients and tags that it keeps, and then of those that it
drops. -/
def Query.names (q : Query) : List (NameKind × String) :=
  Selection.namesIn .project .keep q.projects ++ Selection.namesIn .client .keep q.clients ++
    tagNames q.includedTags ++
  Selection.namesIn .project .drop q.projects ++ Selection.namesIn .client .drop q.clients ++
    tagNames q.excludedTags

/-- What an item is resolved to. -/
inductive Item.Means (d : Directory) (kind : NameKind) : Item → UInt64 → Prop
  /-- A number stands for itself. -/
  | id (n : UInt64) : Means d kind (.id n) n
  /-- A name stands for the first that bears it. -/
  | name {s : String} {n : UInt64} (h : d.IsNumberOf kind s n) : Means d kind (.name s) n

/-- The test for a selection, with its items resolved one by one. -/
inductive Selection.Tests (d : Directory) (kind : NameKind) :
    Option Selection → Option Membership → Prop
  | none : Tests d kind none none
  | keep {items : List Item} {ids : List UInt64} (h : List.Forall₂ (Item.Means d kind) items ids) :
      Tests d kind (some ⟨.keep, items⟩) (some (.among ids))
  | drop {items : List Item} {ids : List UInt64} (h : List.Forall₂ (Item.Means d kind) items ids) :
      Tests d kind (some ⟨.drop, items⟩) (some (.outside ids))

/-- The filter has all that the query selects, each item and each tag resolved. -/
structure Query.ResolvesTo (q : Query) (d : Directory) (f : Filter) : Prop where
  projects : Selection.Tests d .project q.projects f.projects
  clients : Selection.Tests d .client q.clients f.clients
  includedTags : Option.Rel (List.Forall₂ (d.IsNumberOf .tag)) q.includedTags f.includedTags
  excludedTags : Option.Rel (List.Forall₂ (d.IsNumberOf .tag)) q.excludedTags f.excludedTags

/-! ## 2. The steps of the lookup -/

namespace Directory

variable {d : Directory} {kind : NameKind}

/-- Resolves an item that is of some kind. -/
def find (d : Directory) (kind : NameKind) : Item → Except ReportError UInt64
  | .id n => .ok n
  | .name s => found kind s (d.number? kind s)

theorem resolveProjects_eq (d : Directory) : d.resolveProjects = (·.mapM (d.find .project)) := by
  funext items
  refine congrArg items.mapM (funext fun i => ?_)
  cases i <;> rfl

theorem resolveClients_eq (d : Directory) : d.resolveClients = (·.mapM (d.find .client)) := by
  funext items
  refine congrArg items.mapM (funext fun i => ?_)
  cases i <;> rfl

theorem looksUp_find (d : Directory) (kind : NameKind) (i : Item) :
    d.LooksUp (i.names kind) (d.find kind i) := by
  cases i with
  | id n => exact .nothing n
  | name s => exact looksUp_found d kind s

theorem find_eq_ok_iff {i : Item} {n : UInt64} : d.find kind i = .ok n ↔ i.Means d kind n := by
  cases i with
  | id m =>
    constructor
    · intro h
      obtain rfl : m = n := Except.ok.inj h
      exact .id m
    · rintro ⟨⟩
      rfl
  | name s =>
    rw [find, Filter.found_eq_ok_iff, number?_eq_some_iff]
    constructor
    · exact .name
    · rintro (_ | h)
      exact h

end Directory

namespace Filter

open Directory

variable {d : Directory} {kind : NameKind} {q : Query} {f : Filter}

theorem looksUp_resolveIncluded (d : Directory) (kind : NameKind) (s : Option Selection) :
    d.LooksUp (Selection.namesIn kind .keep s) (Request.resolveIncluded (·.mapM (d.find kind)) s) := by
  rcases s with _ | ⟨_ | _, items⟩
  · exact .nothing none
  · exact (looksUp_mapM (looksUp_find d kind) items).map some
  · exact .nothing none

theorem looksUp_membership (d : Directory) (kind : NameKind) (s : Option Selection)
    (included : Option (List UInt64)) :
    d.LooksUp (Selection.namesIn kind .drop s) (membership (·.mapM (d.find kind)) s included) := by
  rcases s with _ | ⟨_ | _, items⟩
  · exact .nothing _
  · exact .nothing _
  · exact (looksUp_mapM (looksUp_find d kind) items).map fun ids => some (Membership.outside ids)

theorem looksUp_resolveTags (d : Directory) (tags : Option (List String)) :
    d.LooksUp (tagNames tags) (Request.resolveTags d tags) := by
  cases tags with
  | none => exact .nothing none
  | some tags =>
    rw [tagNames, Option.getD_some, List.map_eq_flatMap]
    exact (looksUp_mapM (looksUp_found d .tag) tags).map some

/-- **Finding the filter of a query goes through all its names.**  What it keeps is looked up for the
request, what it drops after that. -/
theorem looksUp_ofQuery (q : Query) (d : Directory) : d.LooksUp q.names (ofQuery q d) := by
  have hrequest : d.LooksUp (Selection.namesIn .project .keep q.projects ++
      (Selection.namesIn .client .keep q.clients ++ (tagNames q.includedTags ++ [])))
      (Request.ofQuery q d) := by
    rw [Request.ofQuery, resolveProjects_eq, resolveClients_eq]
    exact (looksUp_resolveIncluded d .project q.projects).bind fun projects =>
      (looksUp_resolveIncluded d .client q.clients).bind fun clients =>
        (looksUp_resolveTags d q.includedTags).bind fun tags => .nothing _
  rw [ofQuery, resolveProjects_eq, resolveClients_eq]
  have hfilter := hrequest.bind fun request =>
    (looksUp_membership d .project q.projects request.projects).bind fun projects =>
      (looksUp_membership d .client q.clients request.clients).bind fun clients =>
        (looksUp_resolveTags d q.excludedTags).bind fun dropped =>
          .nothing (Filter.mk projects clients request.tags dropped)
  simpa only [Query.names, List.append_assoc, List.append_nil] using hfilter

/-- What is kept is resolved for the request, and what is dropped for the test itself. -/
theorem exists_membership_eq_ok_iff {s : Option Selection} {test : Option Membership} :
    (∃ included, Request.resolveIncluded (·.mapM (d.find kind)) s = .ok included ∧
      membership (·.mapM (d.find kind)) s included = .ok test) ↔ Selection.Tests d kind s test := by
  have hitems : ∀ items ids, items.mapM (d.find kind) = .ok ids ↔
      List.Forall₂ (Item.Means d kind) items ids :=
    fun _ _ => Results.mapM_eq_ok_iff_forall₂ fun _ _ => find_eq_ok_iff
  constructor
  · rintro ⟨included, hincluded, htest⟩
    rcases s with _ | ⟨_ | _, items⟩
    · obtain rfl : none = included := Except.ok.inj hincluded
      obtain rfl : none = test := Except.ok.inj htest
      exact .none
    · obtain ⟨ids, hids, rfl⟩ := Results.map_eq_ok_iff.mp hincluded
      obtain rfl : some (.among ids) = test := Except.ok.inj htest
      exact .keep ((hitems _ _).mp hids)
    · obtain ⟨ids, hids, rfl⟩ := Results.map_eq_ok_iff.mp htest
      exact .drop ((hitems _ _).mp hids)
  · rintro (_ | h | h)
    · exact ⟨none, rfl, rfl⟩
    · exact ⟨_, Results.map_eq_ok_iff.mpr ⟨_, (hitems _ _).mpr h, rfl⟩, rfl⟩
    · exact ⟨none, rfl, Results.map_eq_ok_iff.mpr ⟨_, (hitems _ _).mpr h, rfl⟩⟩

theorem resolveTags_eq_ok_iff {tags : Option (List String)} {ids : Option (List UInt64)} :
    Request.resolveTags d tags = .ok ids ↔
      Option.Rel (List.Forall₂ (d.IsNumberOf .tag)) tags ids := by
  have htags : ∀ tags ids, d.resolveTags tags = .ok ids ↔
      List.Forall₂ (d.IsNumberOf .tag) tags ids :=
    fun _ _ => Results.mapM_eq_ok_iff_forall₂ fun _ _ =>
      found_eq_ok_iff.trans (@number?_eq_some_iff d .tag _ _)
  constructor
  · intro h
    cases tags with
    | none =>
      obtain rfl : none = ids := Except.ok.inj h
      exact .none
    | some tags =>
      obtain ⟨ids, hids, rfl⟩ := Results.map_eq_ok_iff.mp h
      exact .some ((htags _ _).mp hids)
  · rintro (h | _)
    · exact Results.map_eq_ok_iff.mpr ⟨_, (htags _ _).mpr h, rfl⟩
    · rfl

/-- **The filter of a query is the one that has each of its items resolved**, to its own number or to that
of the first bearer of its name. -/
theorem ofQuery_eq_ok_iff_resolvesTo : ofQuery q d = .ok f ↔ q.ResolvesTo d f := by
  rw [ofQuery_eq_ok_iff, resolveProjects_eq, resolveClients_eq]
  constructor
  · rintro ⟨projects, clients, tags, hp, hc, ht, test, test', dropped, hp', hc', hd, rfl⟩
    exact ⟨exists_membership_eq_ok_iff.mp ⟨projects, hp, hp'⟩,
      exists_membership_eq_ok_iff.mp ⟨clients, hc, hc'⟩,
      resolveTags_eq_ok_iff.mp ht, resolveTags_eq_ok_iff.mp hd⟩
  · rintro ⟨htest, htest', ht, hd⟩
    obtain ⟨projects, hp, hp'⟩ := exists_membership_eq_ok_iff.mpr htest
    obtain ⟨clients, hc, hc'⟩ := exists_membership_eq_ok_iff.mpr htest'
    exact ⟨projects, clients, _, hp, hc, resolveTags_eq_ok_iff.mpr ht, _, _, _, hp', hc',
      resolveTags_eq_ok_iff.mpr hd, rfl⟩

end Filter

/-! ## 3. Before anything happens -/

namespace Coordinator

open Directory

variable {c : Coordinator} {source : Source} {q : Query} {s s' : Session} {err : ReportError}

/-- The error is one of fetching: the source gave it to the last call, or there were too many pages. -/
def FetchFails (c : Coordinator) (source : Source) (s s' : Session) (err : ReportError) : Prop :=
  (∃ p page, s'.calls.getLast? = some ⟨.all p, page⟩ ∧ s.calls.length < s'.calls.length ∧
    source.answer s'.calls.length (.all p) page = .error err) ∨
  ∃ p, err = .tooManyPages p c.pages

theorem fetchFails_of_eq_error {periods : List Period}
    (h : c.fetchAll source periods s = (.error err, s')) : c.FetchFails source s s' err := by
  rcases fetchAll_cases c source periods s with
    ⟨s₁, done, hrun, -⟩ | ⟨s₁, done, last, asked, rest, err', hrun, hupTo⟩
  · rw [hrun] at h
    simp at h
  · obtain ⟨herr, rfl⟩ := Prod.mk.inj (hrun.symm.trans h)
    obtain rfl := Except.error.inj herr
    have hcalls := hupTo.calls
    cases hupTo.ends with
    | tooMany _ _ => exact Or.inr ⟨last.period, rfl⟩
    | failed _ _ hanswer =>
      -- the call that failed comes after all others
      rw [Period.calls_succ, ← List.append_assoc] at hcalls
      have hlength : s₁.calls.length =
          s.calls.length + (Stretch.callsOf done).length + last.pages.length + 1 := by
        rw [hcalls]
        simp [Nat.add_assoc]
      refine Or.inl ⟨last.period, last.pages.length + 1, ?_, by omega, ?_⟩
      · rw [hcalls, List.getLast?_concat]
      · rw [hlength]
        exact hanswer

/-- An unknown name is an error of fetching only if the source gives it. -/
theorem FetchFails.exists_answer {kind : NameKind} {name : String}
    (h : c.FetchFails source s s' (.unknownName kind name)) :
    s.calls.length < s'.calls.length ∧ ∃ p page,
      source.answer s'.calls.length (.all p) page = .error (.unknownName kind name) := by
  rcases h with ⟨p, page, -, hlt, hanswer⟩ | ⟨p, htooMany⟩
  · exact ⟨hlt, p, page, hanswer⟩
  · exact absurd htooMany ReportError.noConfusion

theorem looksUp_cached (c : Coordinator) (q : Query) (s : Session) :
    c.directory.LooksUp q.names (c.cached q s) := by
  rw [cached, ← List.append_nil q.names]
  exact (Filter.looksUp_ofQuery q c.directory).bind fun f => .nothing _

theorem report_of_isFirstUnknown (source : Source) (s : Session) {kind : NameKind} {name : String}
    (h : c.directory.IsFirstUnknown q.names kind name) :
    c.report source q s = (.error (.unknownName kind name), s) := by
  rw [report, (Filter.looksUp_ofQuery q c.directory).eq_error_iff.mpr h]

/-- An error of a report is the first unknown name, or one of fetching. -/
theorem report_error_cases (h : c.report source q s = (.error err, s')) :
    (s' = s ∧ ∃ kind name, err = .unknownName kind name ∧
      c.directory.IsFirstUnknown q.names kind name) ∨
    (∀ n ∈ q.names, c.directory.Knows n.1 n.2) ∧ c.FetchFails source s s' err := by
  have hlooks := Filter.looksUp_ofQuery q c.directory
  rcases report_cases c source q s with ⟨err', hf, hreport⟩ | ⟨f, fetched, s₁, hf, hfetch, hreport⟩
  · obtain ⟨herr, rfl⟩ := Prod.mk.inj (hreport.symm.trans h)
    obtain rfl := Except.error.inj herr
    rw [hf] at hlooks
    cases hlooks with
    | unknown hfirst => exact Or.inl ⟨rfl, _, _, rfl, hfirst⟩
  · obtain ⟨hfetched, rfl⟩ := Prod.mk.inj (hreport.symm.trans h)
    rw [Results.map_eq_error_iff.mp hfetched] at hfetch
    rw [hf] at hlooks
    cases hlooks with
    | known hall _ => exact Or.inr ⟨hall, fetchFails_of_eq_error hfetch⟩

/-- If all names are known, the answers are what the query selects. -/
theorem exists_resolved (source : Source) (s : Session)
    (hall : ∀ n ∈ q.names, c.directory.Knows n.1 n.2) :
    ∃ f, q.ResolvesTo c.directory f ∧ (∀ f', q.ResolvesTo c.directory f' → f' = f) ∧
      c.cached q s = .ok
        ⟨f.apply c.directory q.sort (s.store.rowsIn q.window), s.store.missing q.window⟩ ∧
      ∀ rows s', c.report source q s = (.ok rows, s') →
        rows = f.apply c.directory q.sort (s'.store.rowsIn q.window) := by
  obtain ⟨f, hf⟩ := (Filter.looksUp_ofQuery q c.directory).exists_eq_ok_iff.mpr hall
  refine ⟨f, Filter.ofQuery_eq_ok_iff_resolvesTo.mp hf, fun f' hf' => ?_,
    cached_eq_ok_iff.mpr ⟨f, hf, rfl⟩, fun rows s' h => ?_⟩
  · exact Except.ok.inj ((Filter.ofQuery_eq_ok_iff_resolvesTo.mpr hf').symm.trans hf)
  · obtain ⟨f', hf', -, hrows⟩ := exists_of_report_eq_ok h
    rw [hrows, Except.ok.inj (hf.symm.trans hf')]

/-- What becomes of the names of a query. -/
structure ResolvesNames (c : Coordinator) (source : Source) (q : Query) (s : Session) : Prop where
  /-- What the store has is not told if one of the names is unknown, and only then. -/
  cached_fails_iff : (∃ kind name, c.cached q s = .error (.unknownName kind name)) ↔
    ∃ n ∈ q.names, ¬c.directory.Knows n.1 n.2
  /-- So it is for a report, as long as the source does not give errors of this form itself. -/
  report_fails_iff :
    (∀ n request page kind name, source.answer n request page ≠ .error (.unknownName kind name)) →
    ((∃ kind name, (c.report source q s).1 = .error (.unknownName kind name)) ↔
      ∃ n ∈ q.names, ¬c.directory.Knows n.1 n.2)
  /-- The error is the first unknown name. -/
  cached_iff : ∀ kind name, c.cached q s = .error (.unknownName kind name) ↔
    c.directory.IsFirstUnknown q.names kind name
  /-- A report has the same error, and leaves all as it was: the store, the calls and the clock. -/
  report_iff : ∀ kind name, c.report source q s = (.error (.unknownName kind name), s) ↔
    c.directory.IsFirstUnknown q.names kind name
  /-- All other errors of a report are those of fetching, and all names are known then. -/
  report_error : ∀ err s', c.report source q s = (.error err, s') →
    (s' = s ∧ ∃ kind name, err = .unknownName kind name ∧
      c.directory.IsFirstUnknown q.names kind name) ∨
    (∀ n ∈ q.names, c.directory.Knows n.1 n.2) ∧ c.FetchFails source s s' err
  /-- If all names are known, each item is resolved in the one way there is, and the answers are what the
  query selects then.  The store always has one. -/
  resolved : (∀ n ∈ q.names, c.directory.Knows n.1 n.2) → ∃ f, q.ResolvesTo c.directory f ∧
    (∀ f', q.ResolvesTo c.directory f' → f' = f) ∧
    c.cached q s = .ok
      ⟨f.apply c.directory q.sort (s.store.rowsIn q.window), s.store.missing q.window⟩ ∧
    ∀ rows s', c.report source q s = (.ok rows, s') →
      rows = f.apply c.directory q.sort (s'.store.rowsIn q.window)

/-- **Names are looked up before anything else happens**, and the first unknown one is the error. -/
theorem resolvesNames (c : Coordinator) (source : Source) (q : Query) (s : Session) :
    c.ResolvesNames source q s := by
  have hcached := looksUp_cached c q s
  refine
    { cached_fails_iff := hcached.exists_eq_error_iff
      report_fails_iff := fun hsource => ?_
      cached_iff := fun kind name => hcached.eq_error_iff
      report_iff := fun kind name => ⟨fun h => ?_, report_of_isFirstUnknown source s⟩
      report_error := fun err s' => report_error_cases
      resolved := exists_resolved source s }
  · rw [← hcached.exists_eq_error_iff]
    constructor
    · rintro ⟨kind, name, h⟩
      rcases report_error_cases (Prod.ext h rfl) with ⟨-, kind', name', -, hfirst⟩ | ⟨-, hfails⟩
      · exact ⟨kind', name', hcached.eq_error_iff.mpr hfirst⟩
      · obtain ⟨-, p, page, hanswer⟩ := hfails.exists_answer
        exact absurd hanswer (hsource _ _ _ kind name)
    · rintro ⟨kind, name, h⟩
      have hreport := report_of_isFirstUnknown source s (hcached.eq_error_iff.mp h)
      exact ⟨kind, name, congrArg Prod.fst hreport⟩
  · rcases report_error_cases h with ⟨-, kind', name', herr, hfirst⟩ | ⟨-, hfails⟩
    · obtain ⟨rfl, rfl⟩ := ReportError.unknownName.inj herr
      exact hfirst
    · -- a call would have been made
      exact absurd hfails.exists_answer.1 (Nat.lt_irrefl _)

/-- A client and a tag are unknown, of which the client comes first; its number 9 is no error.  Without
these the query is resolved, to the first of two projects whose names differ in letter case only. -/
theorem unknown_client_before_tag :
    let d : Directory :=
      ⟨[⟨10, "Website", none⟩, ⟨11, "WEBSITE", none⟩], [⟨1, "Acme"⟩], [⟨5, "Billed"⟩]⟩
    let q : Query := { listOf 1 3 with
      projects := some ⟨.keep, [.name "webSite", .id 77]⟩, excludedTags := some ["BILLED"] }
    let q' : Query := { q with
      clients := some ⟨.drop, [.id 9, .name "Nobody"]⟩, excludedTags := some ["lunch"] }
    let e : Export := { directory := d }
    let c : Coordinator := { directory := d }
    (∃ kind name, (c.report (e.source 2) q' {}).1 = .error (.unknownName kind name)) ∧
      c.cached q' {} = .error (.unknownName .client "Nobody") ∧
      c.report (e.source 2) q' {} = (.error (.unknownName .client "Nobody"), {}) ∧
      q.ResolvesTo d ⟨some (.among [10, 77]), none, none, some [5]⟩ ∧
      ∃ found, c.cached q {} = .ok found ∧ found.missing = [q.window] := by
  intro d q q' e c
  have hknown : ∀ n ∈ q.names, d.Knows n.1 n.2 := by
    unfold Directory.Knows
    decide +kernel
  have hfirst : d.IsFirstUnknown q'.names .client "Nobody" := by
    unfold Directory.IsFirstUnknown Directory.Knows
    exact IsFirst.iff_find?.mpr (by decide +kernel)
  have hfails := resolvesNames c (e.source 2) q' {}
  obtain ⟨f, hf, -, hcached, -⟩ := (resolvesNames c (e.source 2) q {}).resolved hknown
  have hresolved : Filter.ofQuery q d = .ok ⟨some (.among [10, 77]), none, none, some [5]⟩ := by
    decide +kernel
  obtain rfl := Except.ok.inj ((Filter.ofQuery_eq_ok_iff_resolvesTo.mpr hf).symm.trans hresolved)
  exact ⟨(hfails.report_fails_iff fun _ _ _ _ _ h => nomatch h).mpr ⟨_, hfirst.mem, hfirst.holds⟩,
    (hfails.cached_iff _ _).mpr hfirst, (hfails.report_iff _ _).mpr hfirst, hf, _, hcached,
    by decide +kernel⟩

end Coordinator

end Timesheet
