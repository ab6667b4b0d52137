import Mathlib.Data.List.Induction
import Mathlib.Data.List.Nodup
import Timesheet.Proofs.Calendar.DateText
import Timesheet.Report.Groups
/-!
# The keys of groups

Rows are collected one after the other, each into the member of its key.  What has been collected in the
end can be said without the order of steps (`Collector.Makes.collect_eq`): there is one member for each key,
in the order in which the keys appear first, and it is made of the rows of the key.  What carries the proof
is one step: a row that is placed among such members makes them those of the rows with this one behind them
(`Collector.Makes.place_collected`).

So groups come with each key once, in the order of first appearance (`keys_groupBy`).  Grouped by date, the
keys are the texts of dates, and since no two dates are written alike they can be told by the dates
themselves (`keys_groups_date`).
-/

namespace Timesheet.Report

variable {α β : Type} [DecidableEq α] [DecidableEq β]

/-! ## 1. Each member once -/

/-- Each member once, in the order of first appearance. -/
def distinct {α : Type} [DecidableEq α] : List α → List α
  | [] => []
  | a :: rest => a :: (distinct rest).filter (· ≠ a)

theorem distinct_sublist (l : List α) : (distinct l).Sublist l := by
  induction l with
  | nil => exact List.Sublist.slnil
  | cons a l ih => exact (List.filter_sublist.trans ih).cons_cons a

theorem nodup_distinct (l : List α) : (distinct l).Nodup := by
  induction l with
  | nil => exact List.nodup_nil
  | cons a l ih => exact List.nodup_cons.mpr ⟨by simp, ih.filter _⟩

theorem mem_distinct {l : List α} {a : α} : a ∈ distinct l ↔ a ∈ l := by
  induction l with
  | nil => exact Iff.rfl
  | cons b l ih =>
    rw [distinct, List.mem_cons, List.mem_cons, List.mem_filter, ih, decide_eq_true_eq]
    constructor
    · rintro (hab | ⟨ha, -⟩)
      · exact Or.inl hab
      · exact Or.inr ha
    · intro h
      by_cases hab : a = b
      · exact Or.inl hab
      · exact Or.inr ⟨h.resolve_left hab, hab⟩

/-- What is told apart before is told apart after. -/
theorem distinct_map {f : α → β} (hf : Function.Injective f) (l : List α) :
    distinct (l.map f) = (distinct l).map f := by
  induction l with
  | nil => rfl
  | cons a l ih =>
    rw [List.map_cons, distinct, distinct, ih, List.map_cons, List.filter_map]
    congr 2
    refine List.filter_congr fun b _ => ?_
    simp [hf.eq_iff]

/-- Of more members those are new that are not there already. -/
theorem distinct_append (l l' : List α) :
    distinct (l ++ l') = distinct l ++ (distinct l').filter (· ∉ l) := by
  induction l with
  | nil => simp [distinct]
  | cons b l ih =>
    rw [List.cons_append, distinct, distinct, ih, List.filter_append, List.filter_filter]
    simp [not_or]

theorem distinct_concat (l : List α) (a : α) :
    distinct (l ++ [a]) = if a ∈ l then distinct l else distinct l ++ [a] := by
  rw [distinct_append, distinct, distinct, List.filter_nil, List.filter_singleton]
  by_cases ha : a ∈ l <;> simp [ha]

/-! ## 2. Collecting -/

namespace Collector

variable {γ : Type}

/-- Of the rows of a key the collector makes what `make` says, whether there is one or more. -/
structure Makes (c : Collector γ) (make : String → List Row → γ) : Prop where
  keyOf : ∀ key rows, c.keyOf (make key rows) = key
  new : ∀ key r, c.new key r = make key [r]
  add : ∀ key rows r, c.add (make key rows) r = make key (rows ++ [r])

/-- For each key, in the order of first appearance, what is made of its rows. -/
def collected (make : String → List Row → γ) (key : Row → String) (rows : List Row) : List γ :=
  (distinct (rows.map key)).map fun k => make k (rows.filter fun r => key r = k)

namespace Makes

variable {c : Collector γ} {make : String → List Row → γ}

/-- A row is added to what its key has, and to nothing else. -/
theorem place_map (h : c.Makes make) {keys : List String} (hkeys : keys.Nodup)
    {rowsOf : String → List Row} {key : String} (hnone : key ∉ keys → rowsOf key = []) (r : Row) :
    c.place key r (keys.map fun k => make k (rowsOf k)) =
      (if key ∈ keys then keys else keys ++ [key]).map fun k =>
        make k (rowsOf k ++ if k = key then [r] else []) := by
  induction keys with
  | nil => simp [place, h.new, hnone]
  | cons k keys ih =>
    obtain ⟨hk, hkeys⟩ := List.nodup_cons.mp hkeys
    rw [List.map_cons, place, h.keyOf]
    by_cases hkey : k = key
    · subst hkey
      have hother : ∀ k' ∈ keys, make k' (rowsOf k') =
          make k' (rowsOf k' ++ if k' = k then [r] else []) := by
        intro k' hk'
        have hne : k' ≠ k := fun heq => hk (heq ▸ hk')
        rw [if_neg hne, List.append_nil]
      rw [if_pos rfl, if_pos List.mem_cons_self, List.map_cons, h.add, if_pos rfl,
        List.map_congr_left hother]
    · have hmem : key ∈ k :: keys ↔ key ∈ keys := by simp [Ne.symm hkey]
      rw [if_neg hkey, ih hkeys fun hnot => hnone (hmem.not.mpr hnot)]
      by_cases hin : key ∈ keys <;> simp [hmem, hin, hkey]

/-- **One more row makes of the members those of all rows.** -/
theorem place_collected (h : c.Makes make) (key : Row → String) (rows : List Row) (r : Row) :
    c.place (key r) r (collected make key rows) = collected make key (rows ++ [r]) := by
  have hnone : key r ∉ distinct (rows.map key) → rows.filter (fun r' => key r' = key r) = [] := by
    intro hnot
    rw [mem_distinct] at hnot
    refine List.filter_eq_nil_iff.mpr fun r' hr' heq => hnot ?_
    rw [← of_decide_eq_true heq]
    exact List.mem_map_of_mem hr'
  have hmake : ∀ k, (rows.filter fun r' => key r' = k) ++ (if k = key r then [r] else []) =
      (rows ++ [r]).filter fun r' => key r' = k := by
    intro k
    rw [List.filter_append, List.filter_singleton]
    by_cases hk : k = key r <;> simp [hk, Ne.symm]
  rw [collected, h.place_map (nodup_distinct _) hnone, collected]
  simp only [hmake, List.map_append, List.map_cons, List.map_nil, distinct_concat, mem_distinct]

/-- **What is collected is, for each key, what is made of its rows.**  The induction adds the rows one by
one. -/
theorem collect_eq (h : c.Makes make) (key : Row → String) (rows : List Row) :
    c.collect key rows = collected make key rows := by
  induction rows using List.reverseRecOn with
  | nil => rfl
  | append_singleton rows r ih =>
    rw [collect] at ih
    rw [collect, List.foldl_append, ih]
    exact h.place_collected key rows r

end Makes

end Collector

theorem makes_group : Group.collector.Makes Group.mk := ⟨fun _ _ => rfl, fun _ _ => rfl, fun _ _ _ => rfl⟩

/-- **The groups are those of the rows of each key.** -/
theorem groupBy_eq (key : Row → String) (rows : List Row) :
    groupBy key rows = (distinct (rows.map key)).map fun k => ⟨k, rows.filter fun r => key r = k⟩ :=
  makes_group.collect_eq key rows

/-! ## 3. Keys of groups -/

theorem keys_groupBy (key : Row → String) (rows : List Row) :
    (groupBy key rows).map Group.key = distinct (rows.map key) := by
  simp [groupBy_eq, Function.comp_def]

/-- The keys of groups are those of the rows. -/
theorem exists_mem_groupBy_iff (key : Row → String) (rows : List Row) {P : String → Prop} :
    (∃ g ∈ groupBy key rows, P g.key) ↔ ∃ r ∈ rows, P (key r) := by
  have hmem : ∀ k, k ∈ (groupBy key rows).map Group.key ↔ k ∈ rows.map key := by
    intro k
    rw [keys_groupBy, mem_distinct]
  constructor
  · rintro ⟨g, hg, hP⟩
    obtain ⟨r, hr, hkey⟩ := List.mem_map.mp ((hmem g.key).mp (List.mem_map_of_mem hg))
    exact ⟨r, hr, hkey ▸ hP⟩
  · rintro ⟨r, hr, hP⟩
    obtain ⟨g, hg, hkey⟩ := List.mem_map.mp ((hmem (key r)).mpr (List.mem_map_of_mem hr))
    exact ⟨g, hg, hkey ▸ hP⟩

/-- **Grouped by date, rows have one group for each of their dates.** -/
theorem keys_groups_date {q : Query} (h : q.grouping = some .date) (d : Directory) (rows : List Row) :
    (groups q d rows).map Group.key = (distinct (rows.map Row.date)).map Date.text := by
  have hinjective : Function.Injective Date.text := fun _ _ => Date.text_injective
  have hkeys : rows.map (groupKey .date d) = (rows.map Row.date).map Date.text := by
    rw [List.map_map]
    rfl
  rw [groups, h]
  exact (keys_groupBy _ rows).trans (by rw [hkeys, distinct_map hinjective])

end Timesheet.Report
