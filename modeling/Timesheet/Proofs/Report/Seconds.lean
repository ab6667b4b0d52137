import Mathlib.Algebra.BigOperators.Group.List.Basic
import Mathlib.Algebra.Ring.Int.Defs
import Timesheet.Report.Json
/-!
# Sums of seconds

Seconds are added up in 64 bits, so that sums may wrap around.  Such a sum is the exact one, wrapped around
once and for all (`sum_eq_ofInt`), whatever it passes through on the way.  Hence it does not depend on the
order in which rows are added up (`totalSeconds_perm`), nor on how they are shared out
(`sum_totalSeconds`), and it is exact just if the exact sum is a number of 64 bits (`wrapped_eq_iff`).
-/

namespace Timesheet

/-! ## 1. Numbers of 64 bits -/

/-- The number is one of 64 bits. -/
def Representable (n : Int) : Prop := -2 ^ 63 ≤ n ∧ n < 2 ^ 63

instance (n : Int) : Decidable (Representable n) := inferInstanceAs (Decidable (_ ∧ _))

/-- What is left of a number in 64 bits. -/
def wrapped (n : Int) : Int := (Int64.ofInt n).toInt

/-- **Just the numbers of 64 bits are left as they are.** -/
theorem wrapped_eq_iff (n : Int) : wrapped n = n ↔ Representable n := by
  constructor
  · intro h
    rw [← h]
    exact ⟨Int64.le_toInt _, Int64.toInt_lt _⟩
  · rintro ⟨hlow, hhigh⟩
    exact Int64.toInt_ofInt_of_le hlow hhigh

/-- **A sum in 64 bits is the exact sum, wrapped around.** -/
theorem sum_eq_ofInt (l : List Int64) : l.sum = Int64.ofInt (l.map Int64.toInt).sum := by
  induction l with
  | nil => rfl
  | cons n l ih =>
    rw [List.sum_cons, ih, List.map_cons, List.sum_cons, Int64.ofInt_add, Int64.ofInt_toInt]

/-- So it does not depend on the order. -/
theorem sum_perm {l l' : List Int64} (h : l.Perm l') : l.sum = l'.sum := by
  rw [sum_eq_ofInt, sum_eq_ofInt, (h.map Int64.toInt).sum_eq]

namespace Report

/-! ## 2. The seconds of rows -/

/-- The seconds of all entries of some rows, added up exactly. -/
def exactSeconds (rows : List Row) : Int := ((rows.flatMap Row.entries).map (·.seconds.toInt)).sum

theorem totalSeconds_singleton (r : Row) : totalSeconds [r] = r.seconds := by
  rw [totalSeconds, List.map_singleton, List.sum_singleton]

/-- The seconds of rows in one list and in another are those of both in one. -/
theorem totalSeconds_append (rows rows' : List Row) :
    totalSeconds (rows ++ rows') = totalSeconds rows + totalSeconds rows' := by
  simp only [totalSeconds, List.map_append, List.sum_append]

/-- **The seconds of rows are those of all their entries**, wrapped around. -/
theorem totalSeconds_eq_exactSeconds (rows : List Row) :
    totalSeconds rows = Int64.ofInt (exactSeconds rows) := by
  induction rows with
  | nil => rfl
  | cons r rows ih =>
    have hrow : totalSeconds [r] = Int64.ofInt (r.entries.map (·.seconds.toInt)).sum := by
      rw [totalSeconds_singleton, Row.seconds, sum_eq_ofInt, List.map_map]
      rfl
    rw [exactSeconds] at ih
    rw [← List.singleton_append, totalSeconds_append, hrow, ih, exactSeconds, List.flatMap_append,
      List.flatMap_singleton, List.map_append, List.sum_append, Int64.ofInt_add]

theorem exactSeconds_perm {rows rows' : List Row} (h : rows.Perm rows') :
    exactSeconds rows = exactSeconds rows' := by
  rw [exactSeconds, exactSeconds]
  exact ((h.flatMap_right _).map _).sum_eq

/-- Seconds do not depend on the order of rows. -/
theorem totalSeconds_perm {rows rows' : List Row} (h : rows.Perm rows') :
    totalSeconds rows = totalSeconds rows' := by
  rw [totalSeconds_eq_exactSeconds, totalSeconds_eq_exactSeconds, exactSeconds_perm h]

/-- **The seconds of groups add up to those of all their rows.** -/
theorem sum_totalSeconds (gs : List Group) :
    (gs.map fun g => totalSeconds g.rows).sum = totalSeconds (gs.flatMap Group.rows) := by
  induction gs with
  | nil => rfl
  | cons g gs ih => rw [List.map_cons, List.sum_cons, ih, List.flatMap_cons, totalSeconds_append]

/-! ## 3. The seconds in the object -/

/-- The seconds of all rows that the object of a report gives. -/
def total? (j : Json) : Option Int := do
  let [some (.int seconds)] ← j.fields? ["total_seconds"] | none
  return seconds

theorem total?_toJson (q : Query) (d : Directory) (rows : List Row) :
    total? (toJson q d rows) = some (totalSeconds rows).toInt := by
  have hfields : (toJson q d rows).fields? ["total_seconds"] =
      some [some (.int (totalSeconds rows).toInt)] := by
    by_cases hlist : q.kind = .list
    · by_cases hgrouping : q.grouping.isSome
      · simp only [toJson, hlist, hgrouping, and_self, if_true]
        rfl
      · simp only [toJson, hlist, hgrouping, if_true]
        rfl
    · simp only [toJson, hlist, false_and, if_false]
      rfl
  rw [total?, hfields]
  rfl

/-- **The object gives the sum of any list of seconds that add up to those of the rows**, wrapped around. -/
theorem total?_toJson_of_sum (q : Query) (d : Directory) {rows : List Row} {l : List Int64}
    (h : l.sum = totalSeconds rows) :
    total? (toJson q d rows) = some (wrapped (l.map Int64.toInt).sum) := by
  rw [total?_toJson, ← h, sum_eq_ofInt, wrapped]

end Report

end Timesheet
