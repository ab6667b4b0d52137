import Timesheet.Proofs.Coverage.Insertion
/-!
# The parts of an interval that are not covered

`Coverage.missing` goes through the intervals of a coverage once and splits only the last part that
is left.  Of a coverage in order it returns exactly the longest runs of uncovered integers, each once
and in ascending order: `mem_missing_iff`.

The induction along the intervals (`parts_missingIn`) carries that the parts lie within the interval,
hold its uncovered integers and leave a gap between each and the next (`Interval.Parts`).  That no
part can be made longer, and that there is no other run, follows from that alone
(`Parts.mem_iff_isRun`).

So a coverage built by insertions, whatever they are, finds exactly the gaps that they leave
(`findsGaps_ofInsertions`), and on the way to them it computes no end that lies outside the interval
asked for (`contains_of_makes`).
-/

namespace Timesheet

/-! ## 1. Runs -/

/-- A longest run of integers of `i` all of which have the property. -/
structure Interval.IsRun (P : Int → Prop) (i r : Interval) : Prop where
  nonempty : r.start ≤ r.stop
  within : i.start ≤ r.start ∧ r.stop ≤ i.stop
  all : ∀ n, r.Contains n → P n
  longest : ∀ s : Interval, s.start ≤ r.start → r.stop ≤ s.stop → i.start ≤ s.start →
    s.stop ≤ i.stop → (∀ n, s.Contains n → P n) → s = r

/-- The parts of `i` that hold its integers with the property: not empty, in ascending order, and
with a gap between each and the next. -/
structure Interval.Parts (P : Int → Prop) (i : Interval) (parts : List Interval) : Prop where
  nonempty : ∀ p ∈ parts, p.start ≤ p.stop
  within : ∀ p ∈ parts, i.start ≤ p.start ∧ p.stop ≤ i.stop
  apart : parts.Pairwise fun p q => p.stop + 1 < q.start
  contains : ∀ n, (∃ p ∈ parts, p.Contains n) ↔ i.Contains n ∧ P n

namespace Interval

variable {P : Int → Prop} {i r : Interval} {parts : List Interval}

/-- **Longest runs that overlap are the same**: their hull is a run, too, and so is as long as either. -/
theorem IsRun.eq_of_overlaps {q : Interval} (hq : i.IsRun P q) (hr : i.IsRun P r)
    (hover : q.overlaps r = true) : q = r := by
  have hall : ∀ n, (q.hull r).Contains n → P n := by
    intro n hn
    rcases (contains_hull hover n).mp hn with hn | hn
    · exact hq.all n hn
    · exact hr.all n hn
  have hends : (q.hull r).start ≤ q.start ∧ q.stop ≤ (q.hull r).stop ∧
      (q.hull r).start ≤ r.start ∧ r.stop ≤ (q.hull r).stop ∧
      i.start ≤ (q.hull r).start ∧ (q.hull r).stop ≤ i.stop := by
    have hwithin := hq.within
    have hwithin' := hr.within
    simp only [hull]
    omega
  obtain ⟨hq1, hq2, hr1, hr2, hi1, hi2⟩ := hends
  have h1 : q.hull r = q := hq.longest _ hq1 hq2 hi1 hi2 hall
  have h2 : q.hull r = r := hr.longest _ hr1 hr2 hi1 hi2 hall
  exact h1.symm.trans h2

namespace Parts

/-- Parts are intervals in order. -/
theorem ascending (h : Parts P i parts) : Ascending parts :=
  ⟨h.nonempty, h.apart.imp fun hlt => by omega⟩

/-- Two parts between which there is no gap are the same. -/
theorem eq_of_touch (h : Parts P i parts) {p q : Interval} (hp : p ∈ parts) (hq : q ∈ parts)
    (hpq : q.start ≤ p.stop + 1) (hqp : p.start ≤ q.stop + 1) : p = q := by
  have key : ∀ p ∈ parts, ∀ q ∈ parts, q.start ≤ p.stop + 1 → p.start ≤ q.stop + 1 → p = q := by
    intro p hp q hq
    refine List.Pairwise.forall_of_forall_of_flip
      (R := fun p q => q.start ≤ p.stop + 1 → p.start ≤ q.stop + 1 → p = q) ?_ ?_ ?_ hp hq
    · intros; rfl
    · exact h.apart.imp fun hlt h1 _ => by omega
    · exact h.apart.imp fun hlt _ h2 => by omega
  exact key p hp q hq hpq hqp

/-- **A part cannot be made longer**: an integer next to it that has the property would lie in
another part that touches it. -/
theorem isRun_of_mem (h : Parts P i parts) (hr : r ∈ parts) : i.IsRun P r := by
  have hne := h.nonempty r hr
  refine ⟨hne, h.within r hr, fun n hn => ((h.contains n).mp ⟨r, hr, hn⟩).2, ?_⟩
  intro s hs1 hs2 hi1 hi2 hall
  have hpart : ∀ n, s.Contains n → ∃ p ∈ parts, p.Contains n := by
    intro n hn
    refine (h.contains n).mpr ⟨?_, hall n hn⟩
    simp only [Contains] at hn ⊢
    omega
  have hstart : s.start = r.start := by
    by_contra hlt
    obtain ⟨p, hp, hn⟩ := hpart (r.start - 1) (by simp only [Contains]; omega)
    simp only [Contains] at hn
    have := h.eq_of_touch hp hr (by omega) (by omega)
    subst this
    omega
  have hstop : s.stop = r.stop := by
    by_contra hlt
    obtain ⟨p, hp, hn⟩ := hpart (r.stop + 1) (by simp only [Contains]; omega)
    simp only [Contains] at hn
    have := h.eq_of_touch hp hr (by omega) (by omega)
    subst this
    omega
  exact Interval.ext hstart hstop

/-- **A longest run is a part**, the one that holds its start. -/
theorem mem_of_isRun (h : Parts P i parts) (hr : i.IsRun P r) : r ∈ parts := by
  have hne := hr.nonempty
  have hin := hr.within
  have hfirst : r.Contains r.start := ⟨Int.le_refl _, hne⟩
  obtain ⟨q, hq, hn⟩ : ∃ q ∈ parts, q.Contains r.start :=
    (h.contains r.start).mpr ⟨⟨by omega, by omega⟩, hr.all _ hfirst⟩
  have hover : q.overlaps r = true := by
    simp only [Contains] at hn
    simp only [overlaps, Bool.and_eq_true, decide_eq_true_eq]
    omega
  rw [← (h.isRun_of_mem hq).eq_of_overlaps hr hover]
  exact hq

/-- The parts are exactly the longest runs. -/
theorem mem_iff_isRun (h : Parts P i parts) : r ∈ parts ↔ i.IsRun P r :=
  ⟨h.isRun_of_mem, h.mem_of_isRun⟩

/-- There are no parts if no integer has the property. -/
theorem of_forall_not (h : ∀ n, i.Contains n → ¬ P n) : Parts P i [] := by
  refine ⟨by simp, by simp, List.Pairwise.nil, fun n => ?_⟩
  simp only [List.not_mem_nil, false_and, exists_false, false_iff, not_and]
  exact h n

/-- Parts of an interval within `i` are parts of `i`, if none of the rest of `i` has the property. -/
theorem widen {part j : Interval} (h : Parts P part parts) (h1 : i.start ≤ part.start)
    (h2 : part.stop ≤ i.stop) (hpart : ∀ n, part.Contains n ↔ i.Contains n ∧ ¬ j.Contains n) :
    Parts (fun n => ¬ j.Contains n ∧ P n) i parts := by
  refine ⟨h.nonempty, ?_, h.apart, fun n => ?_⟩
  · intro p hp
    have := h.within p hp
    omega
  · rw [h.contains n, hpart n, and_assoc]

/-- In front of the parts behind `j` comes all that lies before `j`, if all of it has the property. -/
theorem cons_before {j : Interval} (h : Parts P ⟨j.stop + 1, i.stop⟩ parts)
    (hj : j.start ≤ j.stop) (h1 : i.start < j.start) (h2 : j.stop < i.stop)
    (hbefore : ∀ n, n < j.start → P n) :
    Parts (fun n => ¬ j.Contains n ∧ P n) i (⟨i.start, j.start - 1⟩ :: parts) := by
  refine ⟨?_, ?_, List.pairwise_cons.mpr ⟨?_, h.apart⟩, fun n => ?_⟩
  · intro p hp
    rcases List.mem_cons.mp hp with rfl | hp
    · simp only
      omega
    · exact h.nonempty p hp
  · intro p hp
    rcases List.mem_cons.mp hp with rfl | hp
    · simp only
      omega
    · have := h.within p hp
      simp only at this
      omega
  · intro p hp
    have := h.within p hp
    simp only at this ⊢
    omega
  · simp only [List.mem_cons, exists_eq_or_imp, h.contains n]
    simp only [Contains]
    constructor
    · rintro (hn | ⟨hn, hP⟩)
      · exact ⟨by omega, by omega, hbefore n (by omega)⟩
      · exact ⟨by omega, by omega, hP⟩
    · rintro ⟨hn, hnj, hP⟩
      by_cases hlt : n < j.start
      · exact Or.inl (by omega)
      · exact Or.inr ⟨by omega, hP⟩

end Parts

/-! ## 2. One interval taken out of another -/

/-- What `minus` can leave: nothing, one part, or one part on either side. -/
theorem minus_cases {i : Interval} (j : Interval) (hi : i.start ≤ i.stop) :
    i.minus j = [] ∧ j.start ≤ i.start ∧ i.stop ≤ j.stop ∨
      (∃ part, i.minus j = [part] ∧ part.start ≤ part.stop ∧ i.start ≤ part.start ∧
        part.stop ≤ i.stop ∧ ∀ n, part.Contains n ↔ i.Contains n ∧ ¬ j.Contains n) ∨
      i.minus j = [⟨i.start, j.start - 1⟩, ⟨j.stop + 1, i.stop⟩] ∧ i.start < j.start ∧
        j.stop < i.stop := by
  unfold minus
  by_cases ho : i.overlaps j = true
  · rw [if_pos ho]
    simp only [overlaps, Bool.and_eq_true, decide_eq_true_eq] at ho
    by_cases h1 : i.start < j.start <;> by_cases h2 : j.stop < i.stop
    · exact Or.inr (Or.inr ⟨by simp [h1, h2], h1, h2⟩)
    · refine Or.inr (Or.inl ⟨⟨i.start, j.start - 1⟩, by simp [h1, h2], ?_⟩)
      simp only [Contains]
      refine ⟨by omega, by omega, by omega, fun n => by omega⟩
    · refine Or.inr (Or.inl ⟨⟨j.stop + 1, i.stop⟩, by simp [h1, h2], ?_⟩)
      simp only [Contains]
      refine ⟨by omega, by omega, by omega, fun n => by omega⟩
    · exact Or.inl ⟨by simp [h1, h2], by omega, by omega⟩
  · refine Or.inr (Or.inl ⟨i, if_neg ho, hi, Int.le_refl _, Int.le_refl _, ?_⟩)
    simp only [overlaps, Bool.and_eq_true, decide_eq_true_eq] at ho
    simp only [Contains]
    exact fun n => by omega

/-- What is left of `i` without `j` lies in `i` and is not empty. -/
theorem within_of_mem_minus {i j p : Interval} (hi : i.start ≤ i.stop) (hj : j.start ≤ j.stop)
    (hp : p ∈ i.minus j) : p.start ≤ p.stop ∧ p.Within i := by
  rcases minus_cases j hi with ⟨hm, -⟩ | ⟨part, hm, hne, h1, h2, -⟩ | ⟨hm, h1, h2⟩
  · rw [hm] at hp
    exact absurd hp List.not_mem_nil
  · rw [hm, List.mem_singleton] at hp
    exact hp ▸ ⟨hne, h1, h2⟩
  · rw [hm, List.mem_cons, List.mem_singleton] at hp
    rcases hp with rfl | rfl
    · simp only [Within]
      omega
    · simp only [Within]
      omega

theorem length_minus_le (i j : Interval) : (i.minus j).length ≤ 2 := by
  unfold minus
  split
  · split <;> split <;> simp
  · simp

end Interval

/-! ## 3. A whole coverage taken out of an interval -/

namespace Coverage

open Timesheet.Interval

/-- **One pass along intervals in order leaves the parts outside all of them.**  The induction is on
the intervals; that the part before `j` is never looked at again is right because all later intervals
lie behind `j`. -/
theorem parts_missingIn : ∀ {l : List Interval} {i : Interval}, i.start ≤ i.stop → Ascending l →
    i.Parts (fun n => ¬ ∃ j ∈ l, j.Contains n) (missingIn i l)
  | [], i, hi, _ => by
    refine ⟨?_, ?_, ?_, ?_⟩ <;> simp [missingIn, hi]
  | j :: rest, i, hi, hl => by
    have hj : j.start ≤ j.stop := hl.nonempty j List.mem_cons_self
    have hsplit : (fun n => ¬ ∃ k ∈ j :: rest, k.Contains n) =
        fun n => ¬ j.Contains n ∧ ¬ ∃ k ∈ rest, k.Contains n := by
      funext n
      simp only [List.mem_cons, exists_eq_or_imp, not_or]
    rw [hsplit]
    rcases minus_cases j hi with ⟨hm, h1, h2⟩ | ⟨part, hm, hne, h1, h2, hpart⟩ | ⟨hm, h1, h2⟩
    · -- `j` holds all of `i`
      simp only [missingIn, hm]
      refine Parts.of_forall_not fun n hn hnot => hnot.1 ?_
      simp only [Contains] at hn ⊢
      omega
    · have ih := parts_missingIn hne hl.tail
      simp only [missingIn, hm]
      exact ih.widen h1 h2 hpart
    · have ih := parts_missingIn (i := ⟨j.stop + 1, i.stop⟩) (by simp only; omega) hl.tail
      simp only [missingIn, hm]
      refine ih.cons_before hj h1 h2 ?_
      rintro n hn ⟨k, hk, hkn⟩
      have := hl.lt_of_cons hk
      simp only [Contains] at hkn
      omega

/-- The parts of an interval that a coverage misses: the integers that are not covered. -/
theorem parts_missing {c : Coverage} (hc : Ascending c.intervals) (i : Interval) :
    i.Parts (fun n => ¬ c.Covers n) (c.missing i) := by
  unfold missing
  by_cases hi : i.isEmpty = true
  · rw [if_pos hi]
    exact Parts.of_forall_not fun n hn => absurd hn (Interval.isEmpty_iff.mp hi n)
  · rw [if_neg hi]
    exact parts_missingIn (isEmpty_eq_false_iff.mp (by simpa using hi)) hc

/-- **What is missing are the longest runs of integers that are not covered.** -/
theorem mem_missing_iff {c : Coverage} (hc : Ascending c.intervals) {i r : Interval} :
    r ∈ c.missing i ↔ i.IsRun (fun n => ¬ c.Covers n) r :=
  (parts_missing hc i).mem_iff_isRun

/-- Nothing is missing exactly when all integers of the interval are covered. -/
theorem missing_eq_nil_iff {c : Coverage} (hc : Ascending c.intervals) {i : Interval} :
    c.missing i = [] ↔ ∀ n, i.Contains n → c.Covers n := by
  have h := (parts_missing hc i).contains
  constructor
  · intro hnil n hn
    have := h n
    simp only [hnil, List.not_mem_nil, false_and, exists_false, false_iff] at this
    by_contra hcov
    exact this ⟨hn, hcov⟩
  · intro hall
    rw [List.eq_nil_iff_forall_not_mem]
    intro p hp
    have hne := (parts_missing hc i).nonempty p hp
    obtain ⟨hin, hcov⟩ := (h p.start).mp ⟨p, hp, Int.le_refl _, hne⟩
    exact hcov (hall _ hin)

/-! ## 4. What is made on the way -/

/-- A part that the search makes when it is left with `last` and meets the intervals of a list: it is cut
off `last` by the first of them, or made later, when the last part that remains meets the others. -/
inductive Cuts : Interval → List Interval → Interval → Prop
  | now {last j part : Interval} {rest : List Interval} (h : part ∈ last.minus j) :
      Cuts last (j :: rest) part
  | later {last j next part : Interval} {rest : List Interval}
      (hnext : (last.minus j).getLast? = some next) (h : Cuts next rest part) :
      Cuts last (j :: rest) part

/-- The search for what is missing of an interval makes the part.  It does not begin with an empty one. -/
def Makes (c : Coverage) (i part : Interval) : Prop :=
  i.isEmpty = false ∧ Cuts i c.intervals part

/-- What is missing has been made on the way, unless it is all that was asked for. -/
theorem eq_or_cuts_of_mem_missingIn {last part : Interval} {l : List Interval}
    (h : part ∈ missingIn last l) : part = last ∨ Cuts last l part := by
  fun_induction missingIn last l with
  | case1 last => exact Or.inl (List.mem_singleton.mp h)
  | case2 last j rest hm => exact absurd h List.not_mem_nil
  | case3 last j rest next hm ih =>
    refine Or.inr ?_
    rcases ih h with rfl | hcuts
    · exact .now (hm ▸ List.mem_singleton_self _)
    · exact .later (by rw [hm]; rfl) hcuts
  | case4 last j rest first next others hm ih =>
    obtain rfl : others = [] := by
      have := Interval.length_minus_le last j
      rw [hm] at this
      simpa using this
    refine Or.inr ?_
    rcases List.mem_cons.mp h with rfl | h
    · exact .now (hm ▸ List.mem_cons_self)
    · rcases ih h with rfl | hcuts
      · exact .now (hm ▸ List.mem_cons_of_mem _ List.mem_cons_self)
      · exact .later (by rw [hm]; rfl) hcuts

theorem eq_or_makes_of_mem_missing {c : Coverage} {i part : Interval} (h : part ∈ c.missing i) :
    part = i ∨ c.Makes i part := by
  unfold missing at h
  split at h
  · exact absurd h List.not_mem_nil
  · next hi => exact (eq_or_cuts_of_mem_missingIn h).imp_right fun hcuts => ⟨by simpa using hi, hcuts⟩

/-- Parts are cut off within what is left, which is never empty. -/
theorem Cuts.within {last part : Interval} {l : List Interval} (h : Cuts last l part)
    (hl : Ascending l) (hlast : last.start ≤ last.stop) :
    part.start ≤ part.stop ∧ part.Within last := by
  induction h with
  | @now last j part rest hpart =>
    exact Interval.within_of_mem_minus hlast (hl.nonempty j List.mem_cons_self) hpart
  | @later last j next part rest hnext _ ih =>
    obtain ⟨hne, hin⟩ := Interval.within_of_mem_minus hlast (hl.nonempty j List.mem_cons_self)
      (List.mem_of_getLast? hnext)
    obtain ⟨hpart, hwithin⟩ := ih hl.tail hne
    exact ⟨hpart, hwithin.trans hin⟩

/-- **No end that is computed on the way lies outside the interval.** -/
theorem contains_of_makes {c : Coverage} (hc : Ascending c.intervals) {i part : Interval}
    (h : c.Makes i part) : i.Contains part.start ∧ i.Contains part.stop := by
  obtain ⟨hne, h1, h2⟩ := h.2.within hc (Interval.isEmpty_eq_false_iff.mp h.1)
  simp only [Interval.Contains]
  omega

/-! ## 5. After any insertions -/

/-- The coverage finds the gaps that insertions have left in an interval. -/
structure FindsGaps (c : Coverage) (inserted : List Interval) (i : Interval) : Prop where
  /-- They are the longest runs of integers that lie in nothing inserted, -/
  runs : ∀ r, r ∈ c.missing i ↔ i.IsRun (fun n => ∀ j ∈ inserted, ¬ j.Contains n) r
  /-- none of them empty and each inside the interval, -/
  within : ∀ r ∈ c.missing i, r.start ≤ r.stop ∧ r.Within i
  /-- in ascending order, with a covered integer between any two, -/
  apart : (c.missing i).Pairwise fun r r' =>
    r.stop + 1 < r'.start ∧ ∃ j ∈ inserted, j.Contains (r.stop + 1)
  /-- and together all of the interval that is not covered. -/
  contains : ∀ n, (∃ r ∈ c.missing i, r.Contains n) ↔
    i.Contains n ∧ ∀ j ∈ inserted, ¬ j.Contains n
  /-- There are none if the interval is empty or all of it is covered. -/
  none_iff : c.missing i = [] ↔
    i.isEmpty = true ∨ ∀ n, i.Contains n → ∃ j ∈ inserted, j.Contains n
  /-- Each of them is the whole interval or one of the parts that the search makes on its way, -/
  made : ∀ r ∈ c.missing i, r = i ∨ c.Makes i r
  /-- and no part that it makes on its way has an end outside the interval. -/
  bounded : ∀ part, c.Makes i part → i.Contains part.start ∧ i.Contains part.stop

/-- **What is missing after any insertions are the gaps that they have left.** -/
theorem findsGaps_ofInsertions (inserted : List Interval) (i : Interval) :
    (ofInsertions inserted).FindsGaps inserted i := by
  have hc := ascending_ofInsertions inserted
  have hcovers := covers_ofInsertions inserted
  have hparts := parts_missing hc i
  have hnot : ∀ n, ¬ (ofInsertions inserted).Covers n ↔ ∀ j ∈ inserted, ¬ j.Contains n := by
    intro n
    rw [hcovers]
    simp
  simp only [hnot] at hparts
  refine
    { runs := fun r => hparts.mem_iff_isRun
      within := fun r hr => ⟨hparts.nonempty r hr, hparts.within r hr⟩
      apart := ?_
      contains := hparts.contains
      none_iff := ?_
      made := fun r => eq_or_makes_of_mem_missing
      bounded := fun part => contains_of_makes hc }
  · -- the integer behind a part cannot lie in any part, not even in one that follows
    refine hparts.apart.imp_of_mem fun {r r'} hr hr' hlt => ⟨hlt, ?_⟩
    have hwithin := hparts.within r hr
    have hwithin' := hparts.within r' hr'
    have hne := hparts.nonempty r hr
    have hne' := hparts.nonempty r' hr'
    by_contra hcov
    obtain ⟨p, hp, hn⟩ := (hparts.contains (r.stop + 1)).mpr
      ⟨by simp only [Interval.Contains]; omega, by simpa using hcov⟩
    simp only [Interval.Contains] at hn
    obtain rfl := hparts.eq_of_touch hr hp (by omega) (by omega)
    omega
  · rw [missing_eq_nil_iff hc]
    simp only [hcovers]
    refine ⟨Or.inr, fun h n hn => ?_⟩
    rcases h with hempty | hall
    · exact absurd hn (Interval.isEmpty_iff.mp hempty n)
    · exact hall n hn

end Coverage

end Timesheet
