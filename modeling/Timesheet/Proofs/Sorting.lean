import Mathlib.Data.List.Basic
/-!
# Stable sorting

`List.mergeSort` keeps the order of elements that tie.  That determines its result: a sorted list is
known as soon as its ties are (`eq_of_filter_tied`).  Hence to sort by one key after another is to sort
by both at once (`mergeSort_mergeSort`), which is how rows that are kept by day come into the order of
their start.
-/

namespace Timesheet.Sorting

variable {α : Type}

/-- A comparison by which any list can be sorted. -/
structure IsOrder (le : α → α → Bool) : Prop where
  trans : ∀ a b c, le a b → le b c → le a c
  total : ∀ a b, le a b || le b a

/-- Neither element comes before the other. -/
def tied (le : α → α → Bool) (a b : α) : Bool := le a b && le b a

/-- Compares by the first key, and where that ties by the second. -/
def lexLE (le₁ le₂ : α → α → Bool) (a b : α) : Bool := le₁ a b && (!le₁ b a || le₂ a b)

variable {le le₁ le₂ : α → α → Bool}

theorem tied_iff {a b : α} : tied le a b = true ↔ le a b = true ∧ le b a = true := by
  simp [tied]

namespace IsOrder

theorem refl (h : IsOrder le) (a : α) : le a a = true := by
  have := h.total a a
  simpa using this

theorem tied_self (h : IsOrder le) (a : α) : tied le a a = true := by
  simp [tied, h.refl a]

/-- Sorting changes nothing among elements that all tie with each other. -/
theorem filter_mergeSort (h : IsOrder le) {p : α → Bool} (hp : ∀ a b, p a → p b → le a b)
    (l : List α) : (l.mergeSort le).filter p = l.filter p := by
  have hpair : (l.filter p).Pairwise fun a b => le a b :=
    List.pairwise_of_forall_mem_list fun a ha b hb =>
      hp a b (List.of_mem_filter ha) (List.of_mem_filter hb)
  have hsub : (l.filter p).Sublist (l.mergeSort le) :=
    List.sublist_mergeSort h.trans h.total hpair List.filter_sublist
  have hsub' := hsub.filter p
  rw [List.filter_filter] at hsub'
  simp only [Bool.and_self] at hsub'
  have hlen := ((List.mergeSort_perm l le).filter p).length_eq
  exact (hsub'.eq_of_length hlen.symm).symm

theorem filter_tied_mergeSort (h : IsOrder le) (c : α) (l : List α) :
    (l.mergeSort le).filter (tied le c) = l.filter (tied le c) :=
  h.filter_mergeSort (fun a b ha hb => h.trans a c b (tied_iff.mp ha).2 (tied_iff.mp hb).1) l

/-- **A sorted list is determined by its ties.**  The heads of both lists come first in either, so
they tie, and among their ties they are the heads again. -/
theorem eq_of_filter_tied (h : IsOrder le) : ∀ {l₁ l₂ : List α},
    l₁.Pairwise (fun a b => le a b) → l₂.Pairwise (fun a b => le a b) →
      (∀ c, l₁.filter (tied le c) = l₂.filter (tied le c)) → l₁ = l₂
  | [], [], _, _, _ => rfl
  | [], b :: l₂, _, _, heq => by
    have := heq b
    simp [h.tied_self b] at this
  | a :: l₁, [], _, _, heq => by
    have := heq a
    simp [h.tied_self a] at this
  | a :: l₁, b :: l₂, h₁, h₂, heq => by
    obtain ⟨ha, hs₁⟩ := List.pairwise_cons.mp h₁
    obtain ⟨hb, hs₂⟩ := List.pairwise_cons.mp h₂
    have hba : le b a = true := by
      have hmem : a ∈ (b :: l₂).filter (tied le a) := by
        rw [← heq a]
        exact List.mem_filter.mpr ⟨List.mem_cons_self, h.tied_self a⟩
      rcases List.mem_cons.mp (List.mem_of_mem_filter hmem) with rfl | hmem
      · exact h.refl a
      · exact hb a hmem
    have hab : le a b = true := by
      have hmem : b ∈ (a :: l₁).filter (tied le b) := by
        rw [heq b]
        exact List.mem_filter.mpr ⟨List.mem_cons_self, h.tied_self b⟩
      rcases List.mem_cons.mp (List.mem_of_mem_filter hmem) with rfl | hmem
      · exact h.refl b
      · exact ha b hmem
    obtain rfl : a = b := by
      have := heq a
      rw [List.filter_cons_of_pos (h.tied_self a),
        List.filter_cons_of_pos (tied_iff.mpr ⟨hab, hba⟩)] at this
      exact (List.cons.inj this).1
    have htail : l₁ = l₂ := by
      refine eq_of_filter_tied h hs₁ hs₂ fun c => ?_
      have := heq c
      by_cases hc : tied le c a = true
      · rw [List.filter_cons_of_pos hc, List.filter_cons_of_pos hc] at this
        exact (List.cons.inj this).2
      · rwa [List.filter_cons_of_neg hc, List.filter_cons_of_neg hc] at this
    rw [htail]

/-- A sorted list with the ties of another is that one sorted. -/
theorem eq_mergeSort (h : IsOrder le) {l₁ l₂ : List α} (h₁ : l₁.Pairwise fun a b => le a b)
    (heq : ∀ c, l₁.filter (tied le c) = l₂.filter (tied le c)) : l₁ = l₂.mergeSort le :=
  h.eq_of_filter_tied h₁ (List.pairwise_mergeSort h.trans h.total l₂) fun c => by
    rw [heq c, h.filter_tied_mergeSort]

/-- **A part of a list is sorted as it is in the whole.** -/
theorem mergeSort_filter (h : IsOrder le) (p : α → Bool) (l : List α) :
    (l.filter p).mergeSort le = (l.mergeSort le).filter p := by
  have hsorted := List.pairwise_mergeSort h.trans h.total l
  refine (h.eq_mergeSort (hsorted.sublist List.filter_sublist) fun c => ?_).symm
  rw [List.filter_comm, h.filter_tied_mergeSort, List.filter_comm]

/-! ## Two keys -/

theorem lex (h₁ : IsOrder le₁) (h₂ : IsOrder le₂) : IsOrder (lexLE le₁ le₂) := by
  constructor
  · intro a b c hab hbc
    simp only [lexLE, Bool.and_eq_true, Bool.or_eq_true, Bool.not_eq_true'] at hab hbc ⊢
    refine ⟨h₁.trans a b c hab.1 hbc.1, ?_⟩
    rcases Bool.eq_false_or_eq_true (le₁ c a) with hca | hca
    · -- then all three tie by the first key
      have hba : le₁ b a = true := h₁.trans b c a hbc.1 hca
      have hcb : le₁ c b = true := h₁.trans c a b hca hab.1
      rcases hab.2 with hf | hab
      · rw [hba] at hf
        exact absurd hf (by simp)
      · rcases hbc.2 with hf | hbc
        · rw [hcb] at hf
          exact absurd hf (by simp)
        · exact Or.inr (h₂.trans a b c hab hbc)
    · exact Or.inl hca
  · intro a b
    have ht₁ := h₁.total a b
    have ht₂ := h₂.total a b
    simp only [lexLE]
    cases hab : le₁ a b <;> cases hba : le₁ b a <;> simp_all

theorem tied_lexLE (c a : α) : tied (lexLE le₁ le₂) c a = (tied le₁ c a && tied le₂ c a) := by
  simp only [tied, lexLE]
  cases le₁ c a <;> cases le₁ a c <;> simp

/-- **To sort by the second key and then by the first is to sort by both.** -/
theorem mergeSort_mergeSort (h₁ : IsOrder le₁) (h₂ : IsOrder le₂) (l : List α) :
    (l.mergeSort le₂).mergeSort le₁ = l.mergeSort (lexLE le₁ le₂) := by
  have hclass : ∀ (c : α) (l : List α), l.filter (tied (lexLE le₁ le₂) c) =
      (l.filter (tied le₁ c)).filter (tied le₂ c) := by
    intro c l
    rw [List.filter_filter]
    exact List.filter_congr fun a _ => by rw [tied_lexLE, Bool.and_comm]
  refine (h₁.lex h₂).eq_mergeSort ?_ fun c => ?_
  · rw [List.pairwise_iff_forall_sublist]
    intro a b hsub
    have hle : le₁ a b = true :=
      (List.pairwise_mergeSort h₁.trans h₁.total _).forall_sublist hsub
    simp only [lexLE, Bool.and_eq_true, Bool.or_eq_true, Bool.not_eq_true']
    refine ⟨hle, ?_⟩
    rcases Bool.eq_false_or_eq_true (le₁ b a) with hba | hba
    · -- elements that tie by the first key still stand in the order of the second
      have htie := hsub.filter (tied le₁ a)
      rw [h₁.filter_tied_mergeSort, List.filter_cons_of_pos (h₁.tied_self a),
        List.filter_cons_of_pos (tied_iff.mpr ⟨hle, hba⟩)] at htie
      exact Or.inr ((List.pairwise_mergeSort h₂.trans h₂.total l).forall_sublist
        (htie.trans List.filter_sublist))
    · exact Or.inl hba
  · rw [hclass, hclass, h₁.filter_tied_mergeSort, List.filter_filter, List.filter_filter]
    rw [List.filter_congr fun a _ => Bool.and_comm _ _, ← List.filter_filter,
      h₂.filter_tied_mergeSort, List.filter_filter]
    exact List.filter_congr fun a _ => Bool.and_comm _ _

/-- **A list that is sorted by both keys is sorted by the second one exactly if the first does not
contradict it.** -/
theorem pairwise_snd_iff (h₂ : IsOrder le₂) {l : List α}
    (hl : l.Pairwise fun a b => lexLE le₁ le₂ a b) :
    (l.Pairwise fun a b => le₂ a b) ↔ ∀ a ∈ l, ∀ b ∈ l, le₂ b a = false → le₁ a b = true := by
  simp only [lexLE, Bool.and_eq_true, Bool.or_eq_true, Bool.not_eq_true'] at hl
  constructor
  · intro hsnd a ha b hb
    refine List.Pairwise.forall_of_forall_of_flip
      (R := fun a b => le₂ b a = false → le₁ a b = true) ?_ ?_ ?_ ha hb
    · intro a _ haa
      rw [h₂.refl a] at haa
      simp at haa
    · exact hl.imp fun hab _ => hab.1
    · refine hsnd.imp fun hab hba => ?_
      rw [hab] at hba
      simp at hba
  · intro hall
    refine hl.imp_of_mem fun ha hb hab => ?_
    rw [← Bool.not_eq_false]
    intro hnot
    rcases hab.2 with hba | hsnd
    · rw [hall _ hb _ ha hnot] at hba
      simp at hba
    · rw [hsnd] at hnot
      simp at hnot

end IsOrder

end Timesheet.Sorting
