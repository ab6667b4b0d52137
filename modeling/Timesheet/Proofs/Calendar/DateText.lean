import Mathlib.Data.List.GetD
import Mathlib.Data.List.Induction
import Mathlib.Data.List.TakeWhile
import Mathlib.Tactic.IntervalCases
import Timesheet.Calendar.DateText
import Timesheet.Text.CodePoints
/-!
# Dates read back

A date of any year is read back from its written form, by either reader (`Date.readStrict?_text`,
`Date.readLenient?_text`), so that no two dates are written alike (`Date.text_injective`).  Dates of the
years 0 to 9999 are those that are written as ten characters, with no sign.

Behind this are numerals filled up to a width: they are read by that width (`Decimal.read_padded`), and,
where no more digits follow, as a whole (`Decimal.readAll_padded`).
-/

namespace Timesheet

/-! ## 1. Numerals of a width -/

theorem Text.isBlank_of_isDigit {c : Char} (h : c.isDigit = true) : Text.isBlank c = false := by
  rw [isDigit_iff] at h
  simp only [Text.isBlank, Bool.or_eq_false_iff, Bool.and_eq_false_iff, decide_eq_false_iff_not,
    beq_eq_false_iff_ne]
  omega

theorem Text.trimStart_of_not_isBlank {c : Char} (h : Text.isBlank c = false) (cs : List Char) :
    Text.trimStart (c :: cs) = c :: cs := by
  rw [Text.trimStart, List.dropWhile_cons_of_neg]
  simp [h]

theorem Text.trimStart_of_isDigit {c : Char} (h : c.isDigit = true) (cs : List Char) :
    Text.trimStart (c :: cs) = c :: cs :=
  Text.trimStart_of_not_isBlank (Text.isBlank_of_isDigit h) cs

namespace Decimal

theorem length_digits_le {n k : Nat} (hk : 0 < k) (hn : n < 10 ^ k) : (digits n).length ≤ k := by
  induction k generalizing n with
  | zero => omega
  | succ k ih =>
    unfold digits
    split
    · simp
    · next hn10 =>
      have hpos : 0 < k := by
        by_contra hzero
        obtain rfl : k = 0 := by omega
        omega
      have hle := ih (n := n / 10) hpos (by rw [Nat.pow_succ] at hn; omega)
      rw [List.length_append, List.length_singleton]
      omega

theorem length_padded {n w : Nat} (hw : 0 < w) (hn : n < 10 ^ w) : (padded w n).length = w := by
  have hle := length_digits_le hw hn
  rw [padded, List.length_append, List.length_replicate]
  omega

theorem isDigit_of_mem_padded {n w : Nat} {c : Char} (h : c ∈ padded w n) : c.isDigit = true := by
  rcases List.mem_append.mp h with h | h
  · rw [List.eq_of_mem_replicate h]
    rfl
  · exact isDigit_of_mem_digits h

theorem value_padded (w n : Nat) : value (padded w n) = n := by
  rw [padded]
  generalize w - (digits n).length = k
  induction k with
  | zero => exact value_digits n
  | succ k ih =>
    rw [List.replicate_succ, List.cons_append]
    exact ih

theorem digitValue_lt {c : Char} (h : c.isDigit = true) : digitValue c < 10 := by
  rw [Text.isDigit_iff] at h
  unfold digitValue
  omega

theorem value_lt {cs : List Char} (h : ∀ c ∈ cs, c.isDigit = true) : value cs < 10 ^ cs.length := by
  induction cs using List.reverseRecOn with
  | nil => decide
  | append_singleton cs c ih =>
    have hc := digitValue_lt (h c (by simp))
    have hcs := ih fun c hc => h c (List.mem_append_left _ hc)
    rw [value_append_singleton, List.length_append, List.length_singleton, Nat.pow_succ]
    omega

/-- Digits that are all that is taken are read as the number that they stand for. -/
theorem read_eq_some {k w n : Nat} {rest : List Char}
    (h : ((padded w n ++ rest).take k).takeWhile Char.isDigit = padded w n) :
    read k (padded w n ++ rest) = some (n, rest) := by
  unfold read
  rw [h]
  cases hp : padded w n with
  | nil =>
    have hnil := List.append_eq_nil_iff.mp hp
    exact absurd hnil.2 (digits_ne_nil n)
  | cons c cs =>
    have hvalue := value_padded w n
    rw [hp] at hvalue
    simp only [hvalue, List.cons_append, List.drop_succ_cons, List.drop_left]

/-- **A numeral filled up to a width is read by that width.** -/
theorem read_padded {n w : Nat} (hw : 0 < w) (hn : n < 10 ^ w) (rest : List Char) :
    read w (padded w n ++ rest) = some (n, rest) := by
  have hlen := length_padded hw hn
  refine read_eq_some ?_
  rw [List.take_append_of_le_length (by omega), List.take_of_length_le (by omega),
    List.takeWhile_eq_self_iff]
  exact fun c hc => isDigit_of_mem_padded hc

/-- **A numeral is read to its end**, however long it is. -/
theorem readAll_padded (w n : Nat) {c : Char} (hc : c.isDigit = false) (rest : List Char) :
    readAll (padded w n ++ c :: rest) = some (n, c :: rest) := by
  refine read_eq_some ?_
  rw [List.take_length, List.takeWhile_append_of_pos fun c hc => isDigit_of_mem_padded hc,
    List.takeWhile_cons_of_neg (by simp [hc]), List.append_nil]

end Decimal

/-! ## 2. Dates -/

namespace Date

theorem monthLength_le {leap : Bool} {month : Nat} (h : 0 < monthLength leap month) :
    month ≤ 12 ∧ monthLength leap month ≤ 31 := by
  have hle : month ≤ 12 := by
    by_contra hlt
    have hnone : (monthLengths leap).getD (month - 1) 0 = 0 := by
      rw [List.getD_eq_default]
      simp only [monthLengths, List.length_cons, List.length_nil]
      omega
    rw [monthLength, hnone] at h
    split at h <;> omega
  refine ⟨hle, ?_⟩
  interval_cases month <;> cases leap <;> decide

/-- The month and the day of a date have two digits at most. -/
theorem month_day_lt (d : Date) : d.month < 10 ^ 2 ∧ d.day < 10 ^ 2 := by
  have h := ofCivil?_civil d
  unfold ofCivil? at h
  split at h
  · next hday =>
    obtain ⟨h1, h2⟩ := monthLength_le (Nat.lt_of_lt_of_le hday.1 hday.2)
    omega
  · simp at h

theorem readPart_padded {n : Nat} (hn : n < 10 ^ 2) (rest : List Char) :
    readPart (Decimal.padded 2 n ++ rest) = some (n, rest) := by
  have hread := Decimal.read_padded (by omega : 0 < 2) hn rest
  have hdigit : ∀ c ∈ Decimal.padded 2 n, c.isDigit = true := fun c => Decimal.isDigit_of_mem_padded
  have hlen := Decimal.length_padded (by omega : 0 < 2) hn
  unfold readPart
  cases hp : Decimal.padded 2 n with
  | nil => simp [hp] at hlen
  | cons c cs =>
    rw [hp] at hread hdigit
    rw [List.cons_append, Text.trimStart_of_isDigit (hdigit c List.mem_cons_self)]
    exact hread

theorem readYear_padded {n : Nat} (hn : n < 10 ^ 4) (rest : List Char) :
    readYear (Decimal.padded 4 n ++ rest) = some ((n : Int), rest) := by
  have hread := Decimal.read_padded (by omega : 0 < 4) hn rest
  have hdigit : ∀ c ∈ Decimal.padded 4 n, c.isDigit = true := fun c => Decimal.isDigit_of_mem_padded
  have hlen := Decimal.length_padded (by omega : 0 < 4) hn
  unfold readYear
  cases hp : Decimal.padded 4 n with
  | nil => simp [hp] at hlen
  | cons c cs =>
    rw [hp] at hread
    have hc : c.isDigit = true := hdigit c (by rw [hp]; exact List.mem_cons_self)
    rw [List.cons_append, Text.trimStart_of_isDigit hc]
    split
    · next heq =>
      rw [(List.cons.inj heq).1] at hc
      exact absurd hc (by decide)
    · next heq =>
      rw [(List.cons.inj heq).1] at hc
      exact absurd hc (by decide)
    · rw [← List.cons_append, hread]
      rfl

/-- The years that are written with four digits and no sign. -/
def HasPlainYear (d : Date) : Prop := 0 ≤ d.year ∧ d.year ≤ 9999

instance (d : Date) : Decidable d.HasPlainYear := inferInstanceAs (Decidable (_ ∧ _))

theorem yearText_of_plain {d : Date} (h : d.HasPlainYear) :
    yearText d.year = Decimal.padded 4 d.year.natAbs ∧ d.year.natAbs < 10 ^ 4 := by
  obtain ⟨h1, h2⟩ := h
  exact ⟨if_pos ⟨h1, h2⟩, by omega⟩

/-- A year is read to the hyphen that follows, with its sign if it has one. -/
theorem readYear_yearText (year : Int) (rest : List Char) :
    readYear (yearText year ++ '-' :: rest) = some (year, '-' :: rest) := by
  unfold yearText
  split
  · rw [readYear_padded (by omega), Int.natAbs_of_nonneg (by omega)]
  · have hall := Decimal.readAll_padded 4 year.natAbs (c := '-') rfl rest
    split
    · have hneg : -(year.natAbs : Int) = year := by omega
      simp only [readYear, List.cons_append, Text.trimStart_of_not_isBlank (c := '-') rfl, hall,
        Option.map_some, hneg]
    · have hpos : (year.natAbs : Int) = year := by omega
      simp only [readYear, List.cons_append, Text.trimStart_of_not_isBlank (c := '+') rfl, hall,
        Option.map_some, hpos]

theorem readSeparator_hyphen (blanks : Bool) (rest : List Char) :
    readSeparator blanks '-' ('-' :: rest) = some rest := by
  cases blanks <;> rfl

/-- **The written form of a date is read as that date**, and nothing is left of it. -/
theorem readChars_chars (blanks : Bool) (d : Date) : readChars blanks d.chars = some (d, []) := by
  obtain ⟨hmonth, hday⟩ := d.month_day_lt
  have hdayRead := readPart_padded hday []
  rw [List.append_nil] at hdayRead
  simp only [readChars, chars, List.append_assoc, List.cons_append, readYear_yearText,
    readSeparator_hyphen, readPart_padded hmonth, hdayRead, Option.bind_eq_bind, Option.bind_some,
    ofCivil?_civil]
  rfl

theorem readStrict?_text (d : Date) : readStrict? d.text = some d := by
  simp only [readStrict?, text, String.toList_ofList, readChars_chars]
  rfl

theorem readLenient?_text (d : Date) : readLenient? d.text = some d := by
  simp only [readLenient?, text, String.toList_ofList, readChars_chars]
  rfl

/-- No two dates are written alike. -/
theorem text_injective {d d' : Date} (h : d.text = d'.text) : d = d' := by
  have hread := readLenient?_text d
  rw [h, readLenient?_text] at hread
  exact (Option.some.inj hread).symm

end Date

end Timesheet
