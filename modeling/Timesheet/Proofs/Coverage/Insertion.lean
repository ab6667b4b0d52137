import Mathlib.Data.List.Induction
import Mathlib.Data.List.TakeWhile
import Timesheet.Coverage.Basic
/-!
# What an insertion does to a coverage

The intervals of a coverage that is built by insertions are not empty and each ends before the next
one starts (`Ascending`).  An insertion keeps that, although it looks for the place of the joined
interval from the front again, and it covers what it adds and nothing else:

* `ascending_place`: the intervals stay in order and apart;
* `exists_mem_place_iff`: an integer lies in one of them if it did before or lies in the new one;
* `exists_within_of_mem`: no interval is cut, neither the new one nor those that were there.

All are inductions on the number of intervals, along the cases of the search (`place_cases`).  So a
coverage is at any time the record of what was inserted (`records_ofInsertions`).
-/

namespace Timesheet

/-- No interval is empty, and each ends before the next one starts. -/
structure Ascending (l : List Interval) : Prop where
  nonempty : ∀ i ∈ l, i.start ≤ i.stop
  apart : l.Pairwise fun i j => i.stop < j.start

namespace Interval

@[simp] theorem isEmpty_eq_false_iff {i : Interval} : i.isEmpty = false ↔ i.start ≤ i.stop := by
  simp [isEmpty]

/-- The hull of intervals that overlap holds what they hold. -/
theorem contains_hull {i j : Interval} (h : i.overlaps j = true) (n : Int) :
    (i.hull j).Contains n ↔ i.Contains n ∨ j.Contains n := by
  simp only [overlaps, Bool.and_eq_true, decide_eq_true_eq] at h
  simp only [Contains, hull]
  omega

/-- `i` lies inside `j`. -/
def Within (i j : Interval) : Prop := j.start ≤ i.start ∧ i.stop ≤ j.stop

theorem Within.refl (i : Interval) : i.Within i := ⟨Int.le_refl _, Int.le_refl _⟩

theorem Within.trans {i j k : Interval} (h : i.Within j) (h' : j.Within k) : i.Within k :=
  ⟨Int.le_trans h'.1 h.1, Int.le_trans h.2 h'.2⟩

theorem within_hull_left (i j : Interval) : i.Within (i.hull j) :=
  ⟨Int.min_le_left _ _, Int.le_max_left _ _⟩

theorem within_hull_right (i j : Interval) : j.Within (i.hull j) :=
  ⟨Int.min_le_right _ _, Int.le_max_right _ _⟩

end Interval

/-! ## 1. Lists of intervals in order -/

namespace Ascending

theorem nil : Ascending [] := ⟨by simp, List.Pairwise.nil⟩

theorem sublist {l l' : List Interval} (h : Ascending l) (hs : l'.Sublist l) : Ascending l' :=
  ⟨fun i hi => h.nonempty i (hs.subset hi), h.apart.sublist hs⟩

theorem tail {i : Interval} {l : List Interval} (h : Ascending (i :: l)) : Ascending l :=
  h.sublist (List.sublist_cons_self i l)

/-- Two lists in order make up one if each interval of the first ends before those of the second. -/
theorem append {l l' : List Interval} (h : Ascending l) (h' : Ascending l')
    (hlt : ∀ i ∈ l, ∀ j ∈ l', i.stop < j.start) : Ascending (l ++ l') := by
  refine ⟨?_, List.pairwise_append.mpr ⟨h.apart, h'.apart, hlt⟩⟩
  intro i hi
  rcases List.mem_append.mp hi with hi | hi
  · exact h.nonempty i hi
  · exact h'.nonempty i hi

theorem cons {i : Interval} {l : List Interval} (hi : i.start ≤ i.stop) (h : Ascending l)
    (hlt : ∀ j ∈ l, i.stop < j.start) : Ascending (i :: l) := by
  refine ⟨?_, List.pairwise_cons.mpr ⟨hlt, h.apart⟩⟩
  intro j hj
  rcases List.mem_cons.mp hj with rfl | hj
  · exact hi
  · exact h.nonempty j hj

theorem lt_of_cons {i j : Interval} {l : List Interval} (h : Ascending (i :: l)) (hj : j ∈ l) :
    i.stop < j.start :=
  (List.pairwise_cons.mp h.apart).1 j hj

/-- Intervals in order come in ascending order of their starts. -/
theorem starts {l : List Interval} (h : Ascending l) :
    l.Pairwise fun i j => i.start < j.start := by
  refine h.apart.imp_of_mem ?_
  intro i j hi _ hij
  have := h.nonempty i hi
  omega

/-- **Intervals in order are determined by which they are.** -/
theorem eq_of_mem_iff {l l' : List Interval} (h : Ascending l) (h' : Ascending l')
    (hmem : ∀ i, i ∈ l ↔ i ∈ l') : l = l' := by
  have hnodup : ∀ {l : List Interval}, Ascending l → l.Nodup := by
    intro l hl
    refine hl.starts.imp ?_
    rintro i _ hlt rfl
    exact Int.lt_irrefl _ hlt
  have hperm : l.Perm l' := (List.perm_ext_iff_of_nodup (hnodup h) (hnodup h')).mpr hmem
  refine hperm.eq_of_pairwise ?_ h.starts h'.starts
  intro i j _ _ hij hji
  exact absurd (Int.lt_trans hij hji) (Int.lt_irrefl _)

/-- Intervals in order that have an integer in common are the same. -/
theorem eq_of_contains {l : List Interval} (h : Ascending l) {i j : Interval} (hi : i ∈ l)
    (hj : j ∈ l) {n : Int} (hin : i.Contains n) (hjn : j.Contains n) : i = j := by
  have hlt : ∀ {i j : Interval}, i.stop < j.start → i.Contains n → ¬ j.Contains n := by
    intro i j hij hin hjn
    simp only [Interval.Contains] at hin hjn
    omega
  refine List.Pairwise.forall_of_forall_of_flip
    (R := fun i j => i.Contains n → j.Contains n → i = j) ?_ ?_ ?_ hi hj hin hjn
  · intros; rfl
  · exact h.apart.imp fun hij hin hjn => absurd hjn (hlt hij hin)
  · exact h.apart.imp fun hij hjn hin => absurd hjn (hlt hij hin)

end Ascending

/-! ## 2. The search for the place -/

namespace Coverage

/-- **What the search for a place can do.**  It passes only intervals that end before `i` starts.
Either it passes all of them, or it ends at an interval `j`, which lies behind `i` or overlaps it. -/
theorem place_cases (i : Interval) (l : List Interval) :
    ((∀ k ∈ l, k.stop < i.start) ∧ place i l = l ++ [i]) ∨
      ∃ before j rest, l = before ++ j :: rest ∧ (∀ k ∈ before, k.stop < i.start) ∧
        (i.stop < j.start ∧ place i l = before ++ i :: j :: rest ∨
          i.overlaps j = true ∧ place i l = place (i.hull j) (before ++ rest)) := by
  have hsplit := List.takeWhile_append_dropWhile (p := (!endsAt i ·)) (l := l)
  have hpassed : ∀ k ∈ l.takeWhile (!endsAt i ·), k.stop < i.start := by
    intro k hk
    have hend : endsAt i k = false := by simpa using List.mem_takeWhile_imp hk
    simp only [endsAt, Interval.overlaps, Bool.or_eq_false_iff, Bool.and_eq_false_iff,
      decide_eq_false_iff_not] at hend
    omega
  rw [place]
  split
  · next hd =>
    rw [hd, List.append_nil] at hsplit
    exact Or.inl ⟨hsplit ▸ hpassed, rfl⟩
  · next j rest hd =>
    refine Or.inr ⟨l.takeWhile (!endsAt i ·), j, rest, by rw [← hd, hsplit], hpassed, ?_⟩
    have hend : endsAt i j = true := by
      have := List.head_dropWhile_not (!endsAt i ·) (l := l) (by rw [hd]; simp)
      simpa [hd] using this
    by_cases hlt : i.stop < j.start
    · exact Or.inl ⟨hlt, if_pos hlt⟩
    · exact Or.inr ⟨by simpa [endsAt, hlt] using hend, if_neg hlt⟩

/-- Placing an interval keeps intervals in order and apart. -/
theorem ascending_place : ∀ {i : Interval} {l : List Interval}, i.start ≤ i.stop →
    Ascending l → Ascending (place i l) := by
  intro i l hi hl
  induction hn : l.length using Nat.strongRecOn generalizing i l with
  | _ n ih =>
    rcases place_cases i l with ⟨hlt, hp⟩ | ⟨before, j, rest, rfl, hlt, ⟨hj, hp⟩ | ⟨hj, hp⟩⟩
    · rw [hp]
      refine hl.append (Ascending.nil.cons hi (by simp)) ?_
      intro k hk i' hi'
      rw [List.mem_singleton.mp hi']
      exact hlt k hk
    · rw [hp]
      have hafter : Ascending (j :: rest) := hl.sublist (List.sublist_append_right _ _)
      have hbefore : Ascending before := hl.sublist (List.sublist_append_left _ _)
      have hfront : Ascending (i :: j :: rest) := by
        refine hafter.cons hi ?_
        intro k hk
        rcases List.mem_cons.mp hk with rfl | hk
        · exact hj
        · have h1 := hafter.lt_of_cons hk
          have h2 := hafter.nonempty j List.mem_cons_self
          omega
      refine hbefore.append hfront ?_
      intro k hk i' hi'
      rcases List.mem_cons.mp hi' with rfl | hi'
      · exact hlt k hk
      · exact (List.pairwise_append.mp hl.apart).2.2 k hk i' hi'
    · -- the joined interval is placed among the others, of which there is one less
      rw [hp]
      refine ih (before ++ rest).length ?_ ?_ ?_ rfl
      · simp only [← hn, List.length_append, List.length_cons]
        omega
      · simp only [Interval.hull]
        omega
      · exact hl.sublist (List.Sublist.append_left (List.sublist_cons_self j rest) before)

/-- **Placing an interval adds its integers**, and no others. -/
theorem exists_mem_place_iff {i : Interval} {l : List Interval} (n : Int) :
    (∃ j ∈ place i l, j.Contains n) ↔ i.Contains n ∨ ∃ j ∈ l, j.Contains n := by
  induction hn : l.length using Nat.strongRecOn generalizing i l with
  | _ m ih =>
    rcases place_cases i l with ⟨-, hp⟩ | ⟨before, j, rest, rfl, -, ⟨-, hp⟩ | ⟨hj, hp⟩⟩
    · rw [hp]
      simp [List.mem_append, or_and_right, exists_or, or_comm]
    · rw [hp]
      simp [List.mem_append, or_and_right, exists_or, or_left_comm]
    · rw [hp, ih (before ++ rest).length (by simp [← hn]) rfl, Interval.contains_hull hj]
      simp [List.mem_append, or_and_right, exists_or, or_left_comm, or_assoc]

/-- **Placing an interval cuts none**: it and the others lie inside single intervals afterwards. -/
theorem exists_within_of_mem {i k : Interval} {l : List Interval} (hk : k ∈ i :: l) :
    ∃ j ∈ place i l, k.Within j := by
  induction hn : l.length using Nat.strongRecOn generalizing i k l with
  | _ m ih =>
    rcases place_cases i l with ⟨-, hp⟩ | ⟨before, j, rest, rfl, -, ⟨-, hp⟩ | ⟨-, hp⟩⟩
    · rw [hp]
      exact ⟨k, by simpa [or_comm] using hk, .refl k⟩
    · rw [hp]
      exact ⟨k, by simpa [or_left_comm] using hk, .refl k⟩
    · -- the two that are joined lie inside their hull, of which the rest of the search takes care
      rw [hp]
      have hshorter : (before ++ rest).length < m := by simp [← hn]
      obtain ⟨j', hj', hhull⟩ := ih _ hshorter (List.mem_cons_self : i.hull j ∈ i.hull j :: _) rfl
      simp only [List.mem_cons, List.mem_append] at hk
      rcases hk with rfl | hk | rfl | hk
      · exact ⟨j', hj', (Interval.within_hull_left k j).trans hhull⟩
      · exact ih _ hshorter (by simp [hk]) rfl
      · exact ⟨j', hj', (Interval.within_hull_right i k).trans hhull⟩
      · exact ih _ hshorter (by simp [hk]) rfl

/-- What passes from intervals that overlap to their hull, and holds of all intervals, still does after one
more is placed. -/
theorem forall_mem_place {P : Interval → Prop}
    (hull : ∀ j k : Interval, j.overlaps k = true → P j → P k → P (j.hull k)) {i : Interval}
    {l : List Interval} (hi : P i) (hl : ∀ j ∈ l, P j) : ∀ j ∈ place i l, P j := by
  induction hn : l.length using Nat.strongRecOn generalizing i l with
  | _ m ih =>
    rcases place_cases i l with ⟨-, hp⟩ | ⟨before, j, rest, rfl, -, ⟨-, hp⟩ | ⟨hj, hp⟩⟩
    · rw [hp]
      intro k hk
      rcases List.mem_append.mp hk with hk | hk
      · exact hl k hk
      · exact List.mem_singleton.mp hk ▸ hi
    · rw [hp]
      intro k hk
      rw [List.mem_append, List.mem_cons, or_left_comm] at hk
      rcases hk with rfl | hk
      · exact hi
      · exact hl k (List.mem_append.mpr hk)
    · rw [hp]
      refine ih (before ++ rest).length (by simp [← hn]) (hull i j hj hi (hl j (by simp))) ?_ rfl
      exact fun k hk => hl k ((List.Sublist.append_left (List.sublist_cons_self j rest) _).subset hk)

/-- Placing an interval goes beyond no bound that all intervals keep. -/
theorem within_place {i : Interval} {l : List Interval} {a b : Int} (hi : a ≤ i.start ∧ i.stop ≤ b)
    (hl : ∀ j ∈ l, a ≤ j.start ∧ j.stop ≤ b) : ∀ j ∈ place i l, a ≤ j.start ∧ j.stop ≤ b := by
  refine forall_mem_place (P := fun j => a ≤ j.start ∧ j.stop ≤ b) ?_ hi hl
  intro j k _ hj hk
  simp only [Interval.hull]
  omega

/-! ## 3. Insertion -/

/-- Nothing is covered at first. -/
@[simp] theorem not_covers_empty (n : Int) : ¬ empty.Covers n := by
  simp [empty, Covers]

theorem ascending_insert {c : Coverage} {i : Interval} (hc : Ascending c.intervals) :
    Ascending (c.insert i).intervals := by
  unfold insert
  split
  · exact hc
  · next hi => exact ascending_place (Interval.isEmpty_eq_false_iff.mp (by simpa using hi)) hc

theorem within_insert {c : Coverage} {i : Interval} {a b : Int} (hi : a ≤ i.start ∧ i.stop ≤ b)
    (hc : ∀ j ∈ c.intervals, a ≤ j.start ∧ j.stop ≤ b) :
    ∀ j ∈ (c.insert i).intervals, a ≤ j.start ∧ j.stop ≤ b := by
  unfold insert
  split
  · exact hc
  · exact within_place hi hc

/-- **An insertion covers what it adds**, and no more. -/
theorem covers_insert (c : Coverage) (i : Interval) (n : Int) :
    (c.insert i).Covers n ↔ c.Covers n ∨ i.Contains n := by
  unfold insert
  split
  · next hi => simp [Interval.isEmpty_iff.mp hi n]
  · rw [or_comm]
    exact exists_mem_place_iff n

/-- After an insertion, what was covered in one piece still is. -/
theorem exists_within_insert {c : Coverage} {k : Interval} (i : Interval) (hk : k ∈ c.intervals) :
    ∃ j ∈ (c.insert i).intervals, k.Within j := by
  unfold insert
  split
  · exact ⟨k, hk, .refl k⟩
  · exact exists_within_of_mem (List.mem_cons_of_mem i hk)

/-- An interval that is inserted is covered in one piece, unless it is empty. -/
theorem exists_within_insert_self (c : Coverage) {i : Interval} (hi : i.isEmpty = false) :
    ∃ j ∈ (c.insert i).intervals, i.Within j := by
  rw [insert, hi]
  exact exists_within_of_mem List.mem_cons_self

/-! ## 4. Any number of insertions -/

/-- The coverage after these insertions, one after the other, into an empty one. -/
def ofInsertions (inserted : List Interval) : Coverage := inserted.foldl insert empty

theorem ofInsertions_concat (inserted : List Interval) (i : Interval) :
    ofInsertions (inserted ++ [i]) = (ofInsertions inserted).insert i :=
  List.foldl_append

theorem ascending_ofInsertions (inserted : List Interval) :
    Ascending (ofInsertions inserted).intervals := by
  induction inserted using List.reverseRecOn with
  | nil => exact Ascending.nil
  | append_singleton inserted i ih => exact ofInsertions_concat inserted i ▸ ascending_insert ih

theorem covers_ofInsertions (inserted : List Interval) (n : Int) :
    (ofInsertions inserted).Covers n ↔ ∃ i ∈ inserted, i.Contains n := by
  induction inserted using List.reverseRecOn with
  | nil => simp [ofInsertions]
  | append_singleton inserted i ih =>
    rw [ofInsertions_concat, covers_insert, ih]
    simp [or_and_right, exists_or]

/-- A coverage is the record of these insertions. -/
structure Records (c : Coverage) (inserted : List Interval) : Prop where
  /-- No interval is empty, and each ends before the next one starts. -/
  ascending : Ascending c.intervals
  /-- What is covered are the integers that were inserted. -/
  covers : ∀ n, c.Covers n ↔ ∃ i ∈ inserted, i.Contains n
  /-- What was inserted in one piece is covered in one piece. -/
  whole : ∀ i ∈ inserted, i.isEmpty = false → ∃ j ∈ c.intervals, i.Within j

/-- One more insertion makes one more record. -/
theorem Records.insert {c : Coverage} {inserted : List Interval} (h : c.Records inserted)
    (i : Interval) : (c.insert i).Records (inserted ++ [i]) where
  ascending := ascending_insert h.ascending
  covers n := by
    rw [covers_insert, h.covers]
    simp [or_and_right, exists_or]
  whole k hk hne := by
    rcases List.mem_append.mp hk with hk | hk
    · obtain ⟨j, hj, hkj⟩ := h.whole k hk hne
      obtain ⟨j', hj', hjj'⟩ := exists_within_insert i hj
      exact ⟨j', hj', hkj.trans hjj'⟩
    · obtain rfl := List.mem_singleton.mp hk
      exact exists_within_insert_self c hne

/-- **A coverage records what is inserted**, whatever that is: this holds of any insertions from the
empty coverage on, and so after each of them. -/
theorem records_ofInsertions (inserted : List Interval) :
    (ofInsertions inserted).Records inserted := by
  induction inserted using List.reverseRecOn with
  | nil => exact ⟨Ascending.nil, fun n => by simp [ofInsertions], by simp⟩
  | append_singleton inserted i ih =>
    rw [ofInsertions, List.foldl_append]
    exact ih.insert i

end Coverage

end Timesheet
