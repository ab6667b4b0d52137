import Mathlib.Tactic.Tauto
import Timesheet.Proofs.Coverage.Insertion
/-!
# What is covered in one piece

Intervals that only touch stay apart, so a coverage knows more than the integers that it covers: it knows
which of them are covered in one piece (`Coverage.Shares`).  That is all it knows.  Two coverages in order
that share the same integers are equal (`Coverage.eq_of_shares`).

What insertions bring together does not depend on their order or number.  Two integers come to lie in one
piece exactly if a chain of inserted intervals leads from one to the other, each of which has an integer
in common with the next (`Linked`).  One direction is an invariant of placing an interval, which passes
from intervals that overlap to their hull (`Bundles.hull`); the other goes along the chain, of which no
interval is ever cut (`shares_of_mem`).
-/

namespace Timesheet

/-! ## 1. Chains -/

/-- A chain of inserted intervals leads from one integer to another: the first interval holds the one, the
last holds the other, and each has an integer in common with the next. -/
inductive Linked (inserted : List Interval) : Int → Int → Prop
  | within {i : Interval} {m n : Int} (hi : i ∈ inserted) (hm : i.Contains m) (hn : i.Contains n) :
      Linked inserted m n
  | onward {i : Interval} {m k n : Int} (hi : i ∈ inserted) (hm : i.Contains m) (hk : i.Contains k)
      (h : Linked inserted k n) : Linked inserted m n

namespace Linked

variable {inserted inserted' : List Interval} {m k n : Int}

theorem trans (h : Linked inserted m k) (h' : Linked inserted k n) : Linked inserted m n := by
  induction h with
  | within hi hm hk => exact .onward hi hm hk h'
  | onward hi hm hj _ ih => exact .onward hi hm hj (ih h')

theorem symm (h : Linked inserted m n) : Linked inserted n m := by
  induction h with
  | within hi hm hn => exact .within hi hn hm
  | onward hi hm hk _ ih => exact ih.trans (.within hi hk hm)

/-- A chain stays one if all of its intervals that are not empty are inserted, too. -/
theorem mono (h : Linked inserted m n)
    (hsub : ∀ i, i.isEmpty = false → i ∈ inserted → i ∈ inserted') : Linked inserted' m n := by
  have hne : ∀ {i : Interval} {n : Int}, i.Contains n → i.isEmpty = false := by
    intro i n hn
    simp only [Interval.Contains] at hn
    rw [Interval.isEmpty_eq_false_iff]
    omega
  induction h with
  | within hi hm hn => exact .within (hsub _ (hne hm) hi) hm hn
  | onward hi hm hk _ ih => exact .onward (hsub _ (hne hm) hi) hm hk ih

/-- **A chain from one side of a border to the other crosses it within one of its intervals**, as
neighbours do not merely touch. -/
theorem exists_crossing (h : Linked inserted m n) {b : Int}
    (hb : m ≤ b ∧ b < n ∨ n ≤ b ∧ b < m) :
    ∃ i ∈ inserted, i.Contains b ∧ i.Contains (b + 1) := by
  induction h with
  | @within i m n hi hm hn =>
    refine ⟨i, hi, ?_⟩
    simp only [Interval.Contains] at *
    omega
  | @onward i m k n hi hm hk _ ih =>
    by_cases hside : k ≤ b ∧ b < n ∨ n ≤ b ∧ b < k
    · exact ih hside
    · -- then `k` lies on the side of `n`, and the first interval crosses the border
      refine ⟨i, hi, ?_⟩
      simp only [Interval.Contains] at *
      omega

end Linked

namespace Coverage

/-! ## 2. Pieces -/

variable {c c' : Coverage}

/-- The integers are covered in one piece. -/
def Shares (c : Coverage) (m n : Int) : Prop := ∃ j ∈ c.intervals, j.Contains m ∧ j.Contains n

/-- A piece is an interval of each coverage that shares the same integers. -/
theorem mem_of_shares (hc : Ascending c.intervals) (hc' : Ascending c'.intervals)
    (h : ∀ m n, c.Shares m n ↔ c'.Shares m n) {i : Interval} (hi : i ∈ c.intervals) :
    i ∈ c'.intervals := by
  have hne := hc.nonempty i hi
  have hstart : i.Contains i.start := ⟨Int.le_refl _, hne⟩
  have hstop : i.Contains i.stop := ⟨hne, Int.le_refl _⟩
  obtain ⟨j, hj, hj1, hj2⟩ := (h i.start i.stop).mp ⟨i, hi, hstart, hstop⟩
  -- `j` holds all of `i`; that its ends lie in `i` follows from what `c` shares
  have hends : ∀ n, j.Contains n → i.Contains n := by
    intro n hn
    obtain ⟨i', hi', h1, h2⟩ := (h i.start n).mpr ⟨j, hj, hj1, hn⟩
    rwa [hc.eq_of_contains hi hi' hstart h1]
  have hne' := hc'.nonempty j hj
  obtain ⟨h1, -⟩ := hends j.start ⟨Int.le_refl _, hne'⟩
  obtain ⟨-, h2⟩ := hends j.stop ⟨hne', Int.le_refl _⟩
  have hij : i = j := by
    simp only [Interval.Contains] at hj1 hj2
    exact Interval.ext (by omega) (by omega)
  rwa [hij]

/-- **A coverage is determined by what it covers in one piece.** -/
theorem eq_of_shares (hc : Ascending c.intervals) (hc' : Ascending c'.intervals)
    (h : ∀ m n, c.Shares m n ↔ c'.Shares m n) : c = c' := by
  have hintervals : c.intervals = c'.intervals :=
    hc.eq_of_mem_iff hc' fun i =>
      ⟨mem_of_shares hc hc' h, mem_of_shares hc' hc fun m n => (h m n).symm⟩
  cases c
  exact congrArg Coverage.mk hintervals

/-! ## 3. What insertions bring together -/

variable {inserted : List Interval} {m n : Int}

/-- All integers of an interval, of which there are some, are linked with each other. -/
structure Bundles (inserted : List Interval) (j : Interval) : Prop where
  nonempty : j.start ≤ j.stop
  linked : ∀ m n, j.Contains m → j.Contains n → Linked inserted m n

/-- Where intervals overlap, a common integer links those of both. -/
theorem Bundles.hull {j k : Interval} (hover : j.overlaps k = true) (hj : Bundles inserted j)
    (hk : Bundles inserted k) : Bundles inserted (j.hull k) := by
  have hne := hj.nonempty
  have hne' := hk.nonempty
  obtain ⟨x, hxj, hxk⟩ : ∃ x, j.Contains x ∧ k.Contains x := by
    simp only [Interval.overlaps, Bool.and_eq_true, decide_eq_true_eq] at hover
    exact ⟨max j.start k.start, by simp only [Interval.Contains]; omega,
      by simp only [Interval.Contains]; omega⟩
  have hx : ∀ m, (j.hull k).Contains m → Linked inserted m x := by
    intro m hm
    rcases (Interval.contains_hull hover m).mp hm with hm | hm
    · exact hj.linked m x hm hxj
    · exact hk.linked m x hm hxk
  refine ⟨?_, fun m n hm hn => (hx m hm).trans (hx n hn).symm⟩
  simp only [Interval.hull]
  omega

/-- **What is covered in one piece is linked**, after any insertions. -/
theorem bundles_of_mem : ∀ j ∈ (ofInsertions inserted).intervals, Bundles inserted j := by
  induction inserted using List.reverseRecOn with
  | nil => exact fun j hj => absurd hj List.not_mem_nil
  | append_singleton inserted i ih =>
    have hmore : ∀ j ∈ (ofInsertions inserted).intervals, Bundles (inserted ++ [i]) j := by
      intro j hj
      refine ⟨(ih j hj).nonempty, fun m n hm hn => ?_⟩
      exact ((ih j hj).linked m n hm hn).mono fun _ _ hi => List.mem_append_left _ hi
    rw [ofInsertions_concat, insert]
    split
    · exact hmore
    · next hi =>
      refine forall_mem_place (fun j k => Bundles.hull) ?_ hmore
      refine ⟨Interval.isEmpty_eq_false_iff.mp (by simpa using hi), fun m n hm hn => ?_⟩
      exact .within (List.mem_append_right _ (List.mem_singleton_self i)) hm hn

/-- What is inserted in one piece is covered in one piece. -/
theorem shares_of_mem {i : Interval} (hi : i ∈ inserted) (hm : i.Contains m) (hn : i.Contains n) :
    (ofInsertions inserted).Shares m n := by
  have hne : i.isEmpty = false := by
    simp only [Interval.Contains] at hm
    rw [Interval.isEmpty_eq_false_iff]
    omega
  obtain ⟨j, hj, hij⟩ : ∃ j ∈ (ofInsertions inserted).intervals, i.Within j := by
    induction inserted using List.reverseRecOn with
    | nil => exact absurd hi List.not_mem_nil
    | append_singleton inserted k ih =>
      rw [ofInsertions_concat]
      rcases List.mem_append.mp hi with hi | hi
      · obtain ⟨j, hj, hij⟩ := ih hi
        obtain ⟨j', hj', hjj'⟩ := exists_within_insert k hj
        exact ⟨j', hj', hij.trans hjj'⟩
      · obtain rfl := List.mem_singleton.mp hi
        exact exists_within_insert_self _ hne
  simp only [Interval.Contains, Interval.Within] at hm hn hij
  refine ⟨j, hj, ?_, ?_⟩
  · simp only [Interval.Contains]
    omega
  · simp only [Interval.Contains]
    omega

/-- Pieces with an integer in common are the same. -/
theorem Shares.trans {k : Int} (hc : Ascending c.intervals) (h : c.Shares m k)
    (h' : c.Shares k n) : c.Shares m n := by
  obtain ⟨i, hi, hm, hk⟩ := h
  obtain ⟨j, hj, hk', hn⟩ := h'
  obtain rfl := hc.eq_of_contains hi hj hk hk'
  exact ⟨i, hi, hm, hn⟩

/-- **Integers are covered in one piece exactly if a chain of inserted intervals links them.** -/
theorem shares_iff_linked : (ofInsertions inserted).Shares m n ↔ Linked inserted m n := by
  constructor
  · rintro ⟨j, hj, hm, hn⟩
    exact (bundles_of_mem j hj).linked m n hm hn
  · intro h
    induction h with
    | within hi hm hn => exact shares_of_mem hi hm hn
    | onward hi hm hk _ ih => exact (shares_of_mem hi hm hk).trans (ascending_ofInsertions _) ih

/-- **The same intervals give the same coverage, in whatever order and however often they are inserted.**
Covered integers come to lie in one piece if a chain of inserted intervals links them, and in no other
case; neighbouring integers if an interval that holds both is inserted, so that intervals that only touch
stay apart. -/
theorem ofInsertions_pieces (inserted : List Interval) :
    (∀ inserted', (∀ i, i.isEmpty = false → (i ∈ inserted ↔ i ∈ inserted')) →
      (ofInsertions inserted).intervals = (ofInsertions inserted').intervals) ∧
    (∀ m n, (ofInsertions inserted).Shares m n ↔ Linked inserted m n) ∧
    ∀ n, (ofInsertions inserted).Shares n (n + 1) ↔
      ∃ i ∈ inserted, i.Contains n ∧ i.Contains (n + 1) := by
  refine ⟨fun inserted' hsame => ?_, fun m n => shares_iff_linked, fun n => ?_⟩
  · refine congrArg intervals (eq_of_shares (ascending_ofInsertions _) (ascending_ofInsertions _) ?_)
    intro m n
    rw [shares_iff_linked, shares_iff_linked]
    exact ⟨fun h => h.mono fun i hi => (hsame i hi).mp, fun h => h.mono fun i hi => (hsame i hi).mpr⟩
  · rw [shares_iff_linked]
    constructor
    · exact fun h => h.exists_crossing (by omega)
    · rintro ⟨i, hi, h1, h2⟩
      exact .within hi h1 h2

/-- Intervals that touch stay apart in either order, also if one of them comes twice. -/
theorem touching_stay_apart :
    (∀ i : Interval, i.isEmpty = false → (i ∈ [⟨0, 2⟩, ⟨7, 1⟩, ⟨3, 5⟩] ↔ i ∈ [⟨3, 5⟩, ⟨0, 2⟩, ⟨3, 5⟩])) ∧
    (ofInsertions [⟨0, 2⟩, ⟨7, 1⟩, ⟨3, 5⟩]).intervals =
      (ofInsertions [⟨3, 5⟩, ⟨0, 2⟩, ⟨3, 5⟩]).intervals ∧
    ¬ (ofInsertions [⟨0, 2⟩, ⟨7, 1⟩, ⟨3, 5⟩]).Shares 2 3 := by
  have hsame : ∀ i : Interval, i.isEmpty = false →
      (i ∈ [⟨0, 2⟩, ⟨7, 1⟩, ⟨3, 5⟩] ↔ i ∈ [⟨3, 5⟩, ⟨0, 2⟩, ⟨3, 5⟩]) := by
    intro i hi
    have hne : i ≠ ⟨7, 1⟩ := by
      rintro rfl
      exact absurd hi (by decide)
    simp only [List.mem_cons, List.not_mem_nil, or_false, hne, false_or]
    tauto
  refine ⟨hsame, (ofInsertions_pieces _).1 _ hsame, fun hshares => ?_⟩
  exact absurd (((ofInsertions_pieces _).2.2 2).mp hshares) (by decide)

end Coverage

end Timesheet
