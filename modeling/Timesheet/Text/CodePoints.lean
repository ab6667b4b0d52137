/-!
# Sets of characters

Sets of characters are given as lists of ranges of code points.  The letters and digits of core are such
ranges of ASCII (`isAlpha_iff`, `isDigit_iff`).
-/

namespace Timesheet.Text

/-- The code point lies in one of the ranges, both ends of which belong to it. -/
def inRanges (ranges : List (Nat × Nat)) (n : Nat) : Bool :=
  ranges.any fun r => r.1 ≤ n && n ≤ r.2

variable {c : Char}

/-- Characters between two others. -/
theorem val_between_iff (a b : Char) :
    a.val ≤ c.val ∧ c.val ≤ b.val ↔ a.toNat ≤ c.toNat ∧ c.toNat ≤ b.toNat := by
  rw [UInt32.le_iff_toNat_le, UInt32.le_iff_toNat_le]
  exact Iff.rfl

theorem isDigit_iff : c.isDigit = true ↔ 48 ≤ c.toNat ∧ c.toNat ≤ 57 := by
  show (decide ('0'.val ≤ c.val) && decide (c.val ≤ '9'.val)) = true ↔ _
  rw [Bool.and_eq_true, decide_eq_true_iff, decide_eq_true_iff, val_between_iff]
  exact Iff.rfl

theorem isLower_iff : c.isLower = true ↔ 97 ≤ c.toNat ∧ c.toNat ≤ 122 := by
  show (decide ('a'.val ≤ c.val) && decide (c.val ≤ 'z'.val)) = true ↔ _
  rw [Bool.and_eq_true, decide_eq_true_iff, decide_eq_true_iff, val_between_iff]
  exact Iff.rfl

theorem isUpper_iff : c.isUpper = true ↔ 65 ≤ c.toNat ∧ c.toNat ≤ 90 := by
  show decide ('A'.val ≤ c.val ∧ c.val ≤ 'Z'.val) = true ↔ _
  rw [decide_eq_true_iff, val_between_iff]
  exact Iff.rfl

theorem isAlpha_iff :
    c.isAlpha = true ↔ 65 ≤ c.toNat ∧ c.toNat ≤ 90 ∨ 97 ≤ c.toNat ∧ c.toNat ≤ 122 := by
  rw [← isUpper_iff, ← isLower_iff]
  exact Bool.or_eq_true_iff

/-- Only small letters of ASCII have a capital of ASCII. -/
theorem toUpper_of_isLower_eq_false (h : c.isLower = false) : c.toUpper = c := by
  refine dif_neg ?_
  intro hval
  rw [isLower_iff.mpr ((val_between_iff 'a' 'z').mp hval)] at h
  exact Bool.noConfusion h

end Timesheet.Text
