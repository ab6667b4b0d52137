import Timesheet.Calendar.Timestamp
import Timesheet.Proofs.Calendar.DateText
/-!
# Clocks and points in time

A timestamp that is read shows a time of day (`Timestamp.onClock_of_read?`).  Among timestamps of clocks
that are set alike, all of one day come before those of the next (`Timestamp.instant_lt`).  A leap second
is no exception, since it is kept as a longer second 59.
-/

namespace Timesheet.Timestamp

/-! ## 1. Times of day -/

/-- The time of day is one that a clock shows, where a leap second counts to the second before it. -/
structure OnClock (t : Timestamp) : Prop where
  secondOfDay_lt : t.secondOfDay < 86400
  nano_lt : t.nano < 2000000000

theorem readFraction_lt {cs rest : List Char} {nano : Nat}
    (h : readFraction cs = some (nano, rest)) : nano < 1000000000 := by
  unfold readFraction at h
  split at h
  · next cs =>
    simp only [Option.bind_eq_bind, Option.bind_eq_some_iff] at h
    obtain ⟨⟨_, _⟩, -, h⟩ := h
    obtain ⟨rfl, -⟩ := Prod.mk.inj (Option.some.inj h)
    generalize hshown : (cs.takeWhile Char.isDigit).take 9 = shown
    have hlen : shown.length ≤ 9 := by
      rw [← hshown]
      exact List.length_take_le _ _
    have hvalue : Decimal.value shown < 10 ^ shown.length := by
      refine Decimal.value_lt fun c hc => ?_
      rw [← hshown] at hc
      exact List.mem_takeWhile_imp (List.mem_of_mem_take hc)
    calc Decimal.value shown * Nat.pow 10 (9 - shown.length)
        < 10 ^ shown.length * 10 ^ (9 - shown.length) :=
          Nat.mul_lt_mul_of_pos_right hvalue (Nat.pow_pos (by decide))
      _ = 10 ^ 9 := by rw [← Nat.pow_add, Nat.add_sub_cancel' hlen]
  · obtain ⟨rfl, -⟩ := Prod.mk.inj (Option.some.inj h)
    decide

theorem onClock_of_ofParts? {date : Date} {hour minute second nano : Nat} {offset : Int}
    {t : Timestamp} (hnano : nano < 1000000000)
    (h : ofParts? date hour minute second nano offset = some t) : t.OnClock := by
  simp only [ofParts?, Option.ite_none_right_eq_some, Option.some.injEq] at h
  obtain ⟨⟨hhour, hminute, hsecond, -⟩, rfl⟩ := h
  split
  · exact ⟨by simp only [secondOfDay]; omega, by simp only; omega⟩
  · exact ⟨by simp only [secondOfDay]; omega, by simp only; omega⟩

/-- **What is read as a timestamp has a time of day.** -/
theorem onClock_of_read? {s : String} {t : Timestamp} (h : read? s = some t) : t.OnClock := by
  simp only [read?, Option.bind_eq_bind, Option.bind_eq_some_iff] at h
  obtain ⟨_, -, _, -, _, -, _, -, _, -, _, -, _, -, ⟨nano, _⟩, hfraction, _, -, t', hparts, h⟩ := h
  split at h
  · obtain rfl := Option.some.inj h
    exact onClock_of_ofParts? (readFraction_lt hfraction) hparts
  · simp at h

/-! ## 2. Points in time -/

/-- **On clocks that are set alike, all of a day comes before the next one.** -/
theorem instant_lt {t t' : Timestamp} (ht : t.OnClock) (hoffset : t.offset = t'.offset)
    (hdate : t.date < t'.date) : t.instant < t'.instant := by
  have hsecond := ht.secondOfDay_lt
  have hnano := ht.nano_lt
  rw [Date.lt_def] at hdate
  have hutc : t.utcSecond + 1 ≤ t'.utcSecond := by
    simp only [utcSecond, hoffset]
    omega
  simp only [instant]
  omega

end Timesheet.Timestamp
