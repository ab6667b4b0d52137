/-!
# Decimal numerals

`Decimal.digits` writes a natural number in base ten without leading zeros and `Decimal.value`
reads a run of digits; `value_digits` says that reading undoes writing.  `Decimal.padded` fills up
with zeros to a width and `Decimal.read` takes a numeral of limited length off the front of a text.
-/

namespace Timesheet.Decimal

/-! ## 1. Writing -/

/-- The character of a digit. -/
def digitChar (d : Nat) : Char := Char.ofNat (48 + d)

/-- The digits of `n` in base ten, most significant first. -/
def digits (n : Nat) : List Char :=
  if n < 10 then [digitChar n] else digits (n / 10) ++ [digitChar (n % 10)]
termination_by n
decreasing_by omega

/-- The digits of `n` behind as many zeros as make up `width` characters. -/
def padded (width n : Nat) : List Char :=
  List.replicate (width - (digits n).length) '0' ++ digits n

/-- The numeral of `n`. -/
def text (n : Nat) : String := String.ofList (digits n)

/-- The numeral of an integer, with a minus sign if it is negative. -/
def intText (i : Int) : String :=
  String.ofList (if i < 0 then '-' :: digits i.natAbs else digits i.natAbs)

/-! ## 2. Reading -/

/-- The number that a digit character stands for. -/
def digitValue (c : Char) : Nat := c.toNat - 48

/-- The number that a run of digits stands for. -/
def value (cs : List Char) : Nat :=
  cs.foldl (fun n c => 10 * n + digitValue c) 0

/-- Splits off the leading digits, at most `width` of them; there must be at least one. -/
def read (width : Nat) (cs : List Char) : Option (Nat × List Char) :=
  match (cs.take width).takeWhile Char.isDigit with
  | [] => none
  | d :: ds => some (value (d :: ds), cs.drop (ds.length + 1))

/-- Splits off all leading digits; there must be at least one. -/
def readAll (cs : List Char) : Option (Nat × List Char) := read cs.length cs

/-! ## 3. Reading undoes writing -/

theorem digits_ne_nil (n : Nat) : digits n ≠ [] := by
  unfold digits; split <;> simp

theorem isDigit_digitChar {d : Nat} (h : d < 10) : (digitChar d).isDigit = true := by
  match d, h with
  | 0, _ | 1, _ | 2, _ | 3, _ | 4, _ | 5, _ | 6, _ | 7, _ | 8, _ | 9, _ => rfl

theorem digitValue_digitChar {d : Nat} (h : d < 10) : digitValue (digitChar d) = d := by
  match d, h with
  | 0, _ | 1, _ | 2, _ | 3, _ | 4, _ | 5, _ | 6, _ | 7, _ | 8, _ | 9, _ => rfl

theorem isDigit_of_mem_digits {n : Nat} {c : Char} (h : c ∈ digits n) : c.isDigit = true := by
  induction n using Nat.strongRecOn with
  | _ n ih =>
    unfold digits at h
    split at h
    · next hn =>
      obtain rfl := List.mem_singleton.1 h
      exact isDigit_digitChar hn
    · rcases List.mem_append.1 h with h | h
      · exact ih (n / 10) (by omega) h
      · obtain rfl := List.mem_singleton.1 h
        exact isDigit_digitChar (by omega)

theorem value_append_singleton (cs : List Char) (c : Char) :
    value (cs ++ [c]) = 10 * value cs + digitValue c := by
  simp [value]

theorem value_digits (n : Nat) : value (digits n) = n := by
  induction n using Nat.strongRecOn with
  | _ n ih =>
    unfold digits
    split
    · next hn => simp [value, digitValue_digitChar hn]
    · rw [value_append_singleton, ih (n / 10) (by omega), digitValue_digitChar (by omega)]
      omega

end Timesheet.Decimal
