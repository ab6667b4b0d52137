import Mathlib.Data.String.Basic
import Timesheet.Proofs.Report.Partition
import Timesheet.Proofs.Retrieval.Exactness
/-!
# Totals conserve time

The totals of projects are known from the rows without the order in which these come: each name once, with
the seconds of its rows, and sorted (`IsTally`).  Only one list is like that (`IsTally.unique`), and the
totals that are collected row by row are (`isTally_projectTotals`).  So they do not change when the rows are
put in another order, and neither does the report of a summary when its query asks for another
(`text_of_perm`, `toJson_of_perm`), except that the object of the report repeats the query.

Together the totals have all seconds of the rows (`sum_projectTotals`).
-/

namespace Timesheet.Report

/-! ## 1. Totals and groups -/

theorem makes_total : Total.collector.Makes fun name rows => ⟨name, totalSeconds rows⟩ where
  keyOf _ _ := rfl
  new name r := by rw [totalSeconds_singleton]; rfl
  add name rows r := by rw [totalSeconds_append, totalSeconds_singleton]; rfl

/-- The total of a group. -/
def Group.total (g : Group) : Total := ⟨g.key, totalSeconds g.rows⟩

/-- **The totals that are collected are those of the groups by project.** -/
theorem collect_totals_eq (d : Directory) (rows : List Row) :
    Total.collector.collect (projectName d) rows = (groupBy (projectName d) rows).map Group.total := by
  rw [makes_total.collect_eq, groupBy_eq, List.map_map]
  rfl

/-- To sort the totals leaves none out. -/
theorem projectTotals_perm_groups (d : Directory) (rows : List Row) :
    (projectTotals d rows).Perm ((groupBy (projectName d) rows).map Group.total) := by
  rw [← collect_totals_eq]
  exact List.mergeSort_perm _ _

/-- **The totals have all seconds of the rows.** -/
theorem sum_projectTotals (d : Directory) (rows : List Row) :
    ((projectTotals d rows).map Total.seconds).sum = totalSeconds rows := by
  have hgroups : ((groupBy (projectName d) rows).map Group.total).map Total.seconds =
      (groupBy (projectName d) rows).map fun g => totalSeconds g.rows := List.map_map
  rw [sum_perm ((projectTotals_perm_groups d rows).map Total.seconds), hgroups, sum_totalSeconds,
    totalSeconds_perm (flatMap_rows_groupBy _ rows)]

/-! ## 2. What totals are -/

/-- The first total comes before the second one: it is larger, or as large and its name comes first. -/
def Total.precedes (a b : Total) : Prop :=
  b.seconds < a.seconds ∨ a.seconds = b.seconds ∧ a.name < b.name

/-- The totals of the projects of rows, by the names under which they are shown. -/
structure IsTally (d : Directory) (rows : List Row) (totals : List Total) : Prop where
  /-- No name has two totals. -/
  nodup : (totals.map Total.name).Nodup
  name_iff : ∀ name, name ∈ totals.map Total.name ↔ ∃ r ∈ rows, projectName d r = name
  /-- A total has the seconds of all entries of the rows of its name, wrapped around. -/
  seconds : ∀ t ∈ totals, t.seconds.toInt =
    wrapped (exactSeconds (rows.filter fun r => projectName d r = t.name))
  /-- The total is exact if these seconds are a number of 64 bits. -/
  exact : ∀ t ∈ totals, Representable (exactSeconds (rows.filter fun r => projectName d r = t.name)) →
    t.seconds.toInt = exactSeconds (rows.filter fun r => projectName d r = t.name)
  sorted : totals.Pairwise Total.precedes

theorem Total.before_iff (a b : Total) : a.before b = true ↔
    b.seconds.toInt < a.seconds.toInt ∨ a.seconds.toInt = b.seconds.toInt ∧ a.name ≤ b.name := by
  simp only [before, Bool.or_eq_true, Bool.and_eq_true, decide_eq_true_eq, beq_iff_eq,
    Int64.lt_iff_toInt_lt, Int64.toInt_inj]

theorem Total.precedes_iff (a b : Total) : a.precedes b ↔
    b.seconds.toInt < a.seconds.toInt ∨ a.seconds.toInt = b.seconds.toInt ∧ a.name < b.name := by
  rw [precedes, Int64.lt_iff_toInt_lt, Int64.toInt_inj]

theorem Total.isOrder_before : Sorting.IsOrder Total.before := by
  constructor
  · intro a b c hab hbc
    rw [before_iff] at *
    rcases hab with hab | ⟨hab, habName⟩
    · exact Or.inl (by omega)
    · rcases hbc with hbc | ⟨hbc, hbcName⟩
      · exact Or.inl (by omega)
      · exact Or.inr ⟨hab.trans hbc, habName.trans hbcName⟩
  · intro a b
    rw [Bool.or_eq_true, before_iff, before_iff]
    rcases lt_trichotomy a.seconds.toInt b.seconds.toInt with hlt | heq | hlt
    · exact Or.inr (Or.inl hlt)
    · exact (le_total a.name b.name).imp (fun hname => Or.inr ⟨heq, hname⟩)
        fun hname => Or.inr ⟨heq.symm, hname⟩
    · exact Or.inl (Or.inl hlt)

theorem Total.precedes_asymm {a b : Total} (h : a.precedes b) : ¬ b.precedes a := by
  rw [precedes_iff] at *
  rcases h with hlt | ⟨heq, hname⟩
  · rintro (hlt' | ⟨heq', -⟩) <;> omega
  · rintro (hlt' | ⟨-, hname'⟩)
    · omega
    · exact lt_asymm hname hname'

/-- **The totals of the projects are what they are said to be.** -/
theorem isTally_projectTotals (d : Directory) (rows : List Row) :
    IsTally d rows (projectTotals d rows) := by
  have hperm := projectTotals_perm_groups d rows
  have hnames : ((groupBy (projectName d) rows).map Group.total).map Total.name =
      distinct (rows.map (projectName d)) := by
    rw [List.map_map]
    exact keys_groupBy _ rows
  have hnodup : ((projectTotals d rows).map Total.name).Nodup := by
    rw [(hperm.map Total.name).nodup_iff, hnames]
    exact nodup_distinct _
  have hseconds : ∀ t ∈ projectTotals d rows, t.seconds.toInt =
      wrapped (exactSeconds (rows.filter fun r => projectName d r = t.name)) := by
    intro t ht
    obtain ⟨g, hg, rfl⟩ := List.mem_map.mp (hperm.mem_iff.mp ht)
    rw [Group.total, totalSeconds_eq_exactSeconds, (isGrouping_groupBy _ rows).rows_eq g hg, wrapped]
  refine ⟨hnodup, fun name => ?_, hseconds, fun t ht hfits => ?_, ?_⟩
  · rw [(hperm.map Total.name).mem_iff, hnames, mem_distinct, List.mem_map]
  · rw [hseconds t ht, (wrapped_eq_iff _).mpr hfits]
  · -- no two names are the same, so that totals which tie by seconds are told apart
    have hsorted := List.pairwise_mergeSort Total.isOrder_before.trans Total.isOrder_before.total
      (Total.collector.collect (projectName d) rows)
    have hne : (projectTotals d rows).Pairwise fun a b => a.name ≠ b.name := List.pairwise_map.mp hnodup
    refine (hsorted.and hne).imp fun {a b} hab => ?_
    obtain ⟨hbefore, hname⟩ := hab
    simp only [Total.before, Bool.or_eq_true, Bool.and_eq_true, decide_eq_true_eq, beq_iff_eq] at hbefore
    exact hbefore.imp_right fun h => ⟨h.1, lt_of_le_of_ne h.2 hname⟩

/-- **There is no other list of totals.** -/
theorem IsTally.unique {d : Directory} {rows : List Row} {totals totals' : List Total}
    (h : IsTally d rows totals) (h' : IsTally d rows totals') : totals = totals' := by
  have hsub : ∀ {totals totals' : List Total}, IsTally d rows totals → IsTally d rows totals' →
      ∀ t ∈ totals, t ∈ totals' := by
    intro totals totals' h h' t ht
    obtain ⟨t', ht', hname⟩ := List.mem_map.mp
      ((h'.name_iff t.name).mpr ((h.name_iff t.name).mp (List.mem_map_of_mem ht)))
    have hseconds : t'.seconds = t.seconds := by
      rw [← Int64.toInt_inj, h'.seconds t' ht', h.seconds t ht, hname]
    obtain rfl : t' = t := by
      cases t'
      cases t
      simp only at hname hseconds
      rw [hname, hseconds]
    exact ht'
  have hperm : totals.Perm totals' :=
    (List.perm_ext_iff_of_nodup (List.Nodup.of_map _ h.nodup) (List.Nodup.of_map _ h'.nodup)).mpr
      fun t => ⟨hsub h h' t, hsub h' h t⟩
  exact hperm.eq_of_pairwise (fun _ _ _ _ hab hba => absurd hba (Total.precedes_asymm hab))
    h.sorted h'.sorted

/-- Totals are the same for rows in another order. -/
theorem IsTally.perm {d : Directory} {rows rows' : List Row} {totals : List Total}
    (h : IsTally d rows totals) (hrows : rows.Perm rows') : IsTally d rows' totals := by
  have hsame : ∀ name, exactSeconds (rows.filter fun r => projectName d r = name) =
      exactSeconds (rows'.filter fun r => projectName d r = name) :=
    fun name => exactSeconds_perm (hrows.filter _)
  refine ⟨h.nodup, fun name => ?_, fun t ht => ?_, fun t ht => ?_, h.sorted⟩
  · rw [h.name_iff]
    simp only [hrows.mem_iff]
  · rw [h.seconds t ht, hsame]
  · rw [← hsame]
    exact h.exact t ht

/-- **The totals of the projects do not depend on the order of the rows.** -/
theorem projectTotals_of_perm (d : Directory) {rows rows' : List Row} (h : rows.Perm rows') :
    projectTotals d rows' = projectTotals d rows :=
  (isTally_projectTotals d rows').unique ((isTally_projectTotals d rows).perm h)

/-! ## 3. Summaries -/

/-- The object of a report with another text for its query. -/
def withQuery (text : String) : Json → Json
  | .obj members => .obj (members.map fun m => if m.1 = "query" then (m.1, .str text) else m)
  | j => j

section

variable {q : Query} {rows rows' : List Row}

/-- **The text of a summary is the same in every order**, of the rows and of the query. -/
theorem text_of_perm (hkind : q.kind = .summary) (order : Option SortOrder) (d : Directory)
    (h : rows.Perm rows') : text { q with sort := order } d rows' = text q d rows := by
  generalize hq' : { q with sort := order } = q'
  have hkind' : q'.kind = .summary := by rw [← hq']; exact hkind
  have htitle : title q' = title q := by rw [← hq']; rfl
  simp only [text, lines, bodyLines, htitle, hkind, hkind', h.isEmpty_eq, projectTotals_of_perm d h,
    totalSeconds_perm h]

/-- **So is its object**, except that it repeats the query. -/
theorem toJson_of_perm (hkind : q.kind = .summary) (order : Option SortOrder) (d : Directory)
    (h : rows.Perm rows') : toJson { q with sort := order } d rows' =
      withQuery { q with sort := order }.text (toJson q d rows) := by
  generalize hq' : { q with sort := order } = q'
  have hkind' : q'.kind = .summary := by rw [← hq']; exact hkind
  have htitle : title q' = title q := by rw [← hq']; rfl
  have hwindow : q'.start = q.start ∧ q'.stop = q.stop := by rw [← hq']; exact ⟨rfl, rfl⟩
  simp [toJson, Json.ofFields, withQuery, htitle, hwindow, hkind, hkind', projectTotals_of_perm d h,
    totalSeconds_perm h]

end

/-- **The order of a query decides on the order of the rows of its report and on nothing else.** -/
theorem report_sort_cases (c : Coordinator) (source : Source) (q : Query) (order : Option SortOrder)
    (s : Session) :
    (∃ err s', c.report source q s = (.error err, s') ∧
      c.report source { q with sort := order } s = (.error err, s')) ∨
    ∃ rows rows' s', c.report source q s = (.ok rows, s') ∧
      c.report source { q with sort := order } s = (.ok rows', s') ∧ rows.Perm rows' := by
  have hfilter : Filter.ofQuery { q with sort := order } c.directory = Filter.ofQuery q c.directory := rfl
  have hwindow : { q with sort := order }.window = q.window := rfl
  simp only [Coordinator.report, hfilter, hwindow]
  cases Filter.ofQuery q c.directory with
  | error err => exact Or.inl ⟨err, s, rfl, rfl⟩
  | ok f =>
    rcases c.fetchAll source (s.store.missing q.window) s with ⟨err | _, s'⟩
    · exact Or.inl ⟨err, s', rfl, rfl⟩
    · refine Or.inr ⟨_, _, s', rfl, rfl, ?_⟩
      exact (Coordinator.apply_perm f _ _ _).trans (Coordinator.apply_perm f _ _ _).symm

/-- **The totals of the projects conserve the time of the rows and do not depend on their order.**  Each name
under which rows are shown has one total, with the seconds of all entries of its rows; larger totals come
first, and of equal ones that whose name comes first.  Together they have what the object of the report gives
for all rows.  All these sums are taken in 64 bits, and they are exact if the exact ones are numbers of 64
bits.  A summary is the same in every order that its query may ask for, apart from the text of the query. -/
theorem projectTotals_conserve (d : Directory) (rows : List Row) :
    IsTally d rows (projectTotals d rows) ∧
    (∀ q, total? (toJson q d rows) =
      some (wrapped ((projectTotals d rows).map (·.seconds.toInt)).sum)) ∧
    (Representable ((projectTotals d rows).map (·.seconds.toInt)).sum → ∀ q,
      total? (toJson q d rows) = some ((projectTotals d rows).map (·.seconds.toInt)).sum) ∧
    (∀ rows', rows.Perm rows' → projectTotals d rows' = projectTotals d rows) ∧
    ∀ (c : Coordinator) (source : Source) (q : Query) (order : Option SortOrder) (s : Session),
      q.kind = .summary →
        (c.report source { q with sort := order } s).2 = (c.report source q s).2 ∧
        (c.report source { q with sort := order } s).1.map (text { q with sort := order } d) =
          (c.report source q s).1.map (text q d) ∧
        (c.report source { q with sort := order } s).1.map (toJson { q with sort := order } d) =
          (c.report source q s).1.map fun rows =>
            withQuery { q with sort := order }.text (toJson q d rows) := by
  have htotal : ∀ q, total? (toJson q d rows) =
      some (wrapped ((projectTotals d rows).map (·.seconds.toInt)).sum) := by
    intro q
    rw [total?_toJson_of_sum q d (sum_projectTotals d rows), List.map_map]
    rfl
  refine ⟨isTally_projectTotals d rows, htotal, fun hfits q => ?_,
    fun rows' h => projectTotals_of_perm d h, ?_⟩
  · rw [htotal, (wrapped_eq_iff _).mpr hfits]
  · intro c source q order s hkind
    rcases report_sort_cases c source q order s with
      ⟨err, s', hreport, hreport'⟩ | ⟨rows, rows', s', hreport, hreport', hperm⟩
    · rw [hreport, hreport']
      exact ⟨rfl, rfl, rfl⟩
    · rw [hreport, hreport']
      exact ⟨rfl, congrArg Except.ok (text_of_perm hkind order d hperm),
        congrArg Except.ok (toJson_of_perm hkind order d hperm)⟩

/-- Two projects of one name share a total, in whatever order their rows and that of no project come. -/
theorem totals_of_namesakes :
    let d : Directory := ⟨[⟨1, "Site", none⟩, ⟨2, "Site", none⟩], [], []⟩
    let rows := [minuteRow (some 1) "Call", minuteRow none "Walk", minuteRow (some 2) "Mail"]
    let q : Query := { byProject with kind := .summary, grouping := none }
    let c : Coordinator := { directory := d }
    let source := Export.source { directory := d, rows } 2
    projectTotals d rows = [⟨"Site", 120⟩, ⟨"(no project)", 60⟩] ∧
      projectTotals d rows.reverse = [⟨"Site", 120⟩, ⟨"(no project)", 60⟩] ∧
      total? (toJson q d rows) = some 180 ∧
      (c.report source { q with sort := some .descending } {}).1.map
          (text { q with sort := some .descending } d) =
        (c.report source q {}).1.map (text q d) := by
  intro d rows q c source
  have htotals : projectTotals d rows = [⟨"Site", 120⟩, ⟨"(no project)", 60⟩] := by
    have hcollect : Total.collector.collect (projectName d) rows =
        [⟨"Site", 120⟩, ⟨"(no project)", 60⟩] := by decide +kernel
    rw [projectTotals, hcollect, List.mergeSort_of_pairwise (by decide)]
  obtain ⟨-, -, htotal, horder, hreport⟩ := projectTotals_conserve d rows
  refine ⟨htotals, ?_, ?_, (hreport c source q (some .descending) {} rfl).2.1⟩
  · rw [horder _ (List.reverse_perm rows).symm, htotals]
  · rw [htotals] at htotal
    exact htotal (by decide) q

end Timesheet.Report
