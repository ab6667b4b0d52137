import Mathlib.Data.List.Basic
import Mathlib.Data.List.Forall2
/-!
# Computations that may fail

When a computation of several steps succeeds, so does each of its steps.  These equivalences take one
apart, step by step; `mapM_eq_ok_iff` does so for a list of computations.
-/

namespace Timesheet.Results

variable {ε α β : Type}

theorem bind_eq_ok_iff {x : Except ε α} {f : α → Except ε β} {b : β} :
    x >>= f = .ok b ↔ ∃ a, x = .ok a ∧ f a = .ok b := by
  cases x with
  | error err => simp [bind, Except.bind]
  | ok a => simp [bind, Except.bind]

theorem map_eq_ok_iff {x : Except ε α} {f : α → β} {b : β} :
    x.map f = .ok b ↔ ∃ a, x = .ok a ∧ f a = b := by
  cases x with
  | error err => simp [Except.map]
  | ok a => simp [Except.map]

theorem map_eq_error_iff {x : Except ε α} {f : α → β} {err : ε} :
    x.map f = .error err ↔ x = .error err := by
  cases x with
  | error err => simp [Except.map]
  | ok a => simp [Except.map]

/-- The computations on a list succeed with the results that they have one by one. -/
theorem mapM_eq_ok_iff {f : α → Except ε β} {l : List α} {results : List β} :
    l.mapM f = .ok results ↔ l.map f = results.map .ok := by
  induction l generalizing results with
  | nil => cases results <;> simp [pure, Except.pure]
  | cons a l ih =>
    rw [List.mapM_cons, bind_eq_ok_iff, List.map_cons]
    constructor
    · rintro ⟨b, hb, hrest⟩
      obtain ⟨bs, hbs, hresults⟩ := bind_eq_ok_iff.mp hrest
      obtain rfl : b :: bs = results := Except.ok.inj hresults
      rw [hb, ih.mp hbs, List.map_cons]
    · intro h
      cases results with
      | nil => simp at h
      | cons b bs =>
        obtain ⟨hb, hbs⟩ := List.cons.inj h
        exact ⟨b, hb, bind_eq_ok_iff.mpr ⟨bs, ih.mpr hbs, rfl⟩⟩

/-- They succeed with results to which the members of the list are related one by one. -/
theorem mapM_eq_ok_iff_forall₂ {f : α → Except ε β} {R : α → β → Prop}
    (h : ∀ a b, f a = .ok b ↔ R a b) {l : List α} {results : List β} :
    l.mapM f = .ok results ↔ List.Forall₂ R l results := by
  rw [mapM_eq_ok_iff, ← List.forall₂_eq_eq_eq, List.forall₂_map_left_iff, List.forall₂_map_right_iff]
  simp only [h]

/-- The results are those of the members of the list. -/
theorem mem_of_mapM_eq_ok {f : α → Except ε β} {l : List α} {results : List β}
    (h : l.mapM f = .ok results) (b : β) : b ∈ results ↔ ∃ a ∈ l, f a = .ok b := by
  have hmem := congrArg (Except.ok b ∈ ·) (mapM_eq_ok_iff.mp h)
  simpa using hmem.symm

section Partial

/-! Computations that succeed on the elements with a property, with what `g` gives there. -/

variable {f : α → Except ε β} {g : α → Option β} {p : α → Bool} {l : List α}

theorem mapM_eq_ok_iff_filterMap (hf : ∀ a b, f a = .ok b ↔ p a = true ∧ g a = some b)
    (hg : ∀ a, p a = true → (g a).isSome) {results : List β} :
    l.mapM f = .ok results ↔ (∀ a ∈ l, p a = true) ∧ results = l.filterMap g := by
  induction l generalizing results with
  | nil =>
    simp only [List.mapM_nil, pure, Except.pure, Except.ok.injEq, List.filterMap_nil]
    constructor
    · rintro rfl
      exact ⟨by simp, rfl⟩
    · exact fun h => h.2.symm
  | cons a l ih =>
    rw [List.mapM_cons, bind_eq_ok_iff, List.forall_mem_cons]
    constructor
    · rintro ⟨b, hb, hrest⟩
      obtain ⟨bs, hbs, hresults⟩ := bind_eq_ok_iff.mp hrest
      obtain rfl : b :: bs = results := Except.ok.inj hresults
      obtain ⟨hp, hgb⟩ := (hf a b).mp hb
      obtain ⟨hall, rfl⟩ := ih.mp hbs
      exact ⟨⟨hp, hall⟩, (List.filterMap_cons_some hgb).symm⟩
    · rintro ⟨⟨hp, hall⟩, rfl⟩
      obtain ⟨b, hgb⟩ := Option.isSome_iff_exists.mp (hg a hp)
      rw [List.filterMap_cons_some hgb]
      exact ⟨b, (hf a b).mpr ⟨hp, hgb⟩, bind_eq_ok_iff.mpr ⟨_, ih.mpr ⟨hall, rfl⟩, rfl⟩⟩

/-- What is made of all their results is made if each of them succeeds. -/
theorem mapM_bind_eq_ok_iff (hf : ∀ a b, f a = .ok b ↔ p a = true ∧ g a = some b)
    (hg : ∀ a, p a = true → (g a).isSome) {γ : Type} {k : List β → γ} {c : γ} :
    (l.mapM f >>= fun results => Except.ok (k results)) = .ok c ↔
      (∀ a ∈ l, p a = true) ∧ c = k (l.filterMap g) := by
  rw [bind_eq_ok_iff]
  constructor
  · rintro ⟨results, hresults, hc⟩
    obtain ⟨hall, rfl⟩ := (mapM_eq_ok_iff_filterMap hf hg).mp hresults
    exact ⟨hall, (Except.ok.inj hc).symm⟩
  · rintro ⟨hall, rfl⟩
    exact ⟨_, (mapM_eq_ok_iff_filterMap hf hg).mpr ⟨hall, rfl⟩, rfl⟩

end Partial

/-- The computations on a list succeed if each of them does. -/
theorem exists_mapM_eq_ok_iff {f : α → Except ε β} {l : List α} :
    (∃ results, l.mapM f = .ok results) ↔ ∀ a ∈ l, ∃ b, f a = .ok b := by
  constructor
  · rintro ⟨results, h⟩ a ha
    have hmem : f a ∈ results.map Except.ok := by
      rw [← mapM_eq_ok_iff.mp h]
      exact List.mem_map_of_mem ha
    obtain ⟨b, -, hb⟩ := List.mem_map.mp hmem
    exact ⟨b, hb.symm⟩
  · intro h
    induction l with
    | nil => exact ⟨[], rfl⟩
    | cons a l ih =>
      obtain ⟨b, hb⟩ := h a List.mem_cons_self
      obtain ⟨bs, hbs⟩ := ih fun a' ha' => h a' (List.mem_cons_of_mem _ ha')
      refine ⟨b :: bs, mapM_eq_ok_iff.mpr ?_⟩
      rw [List.map_cons, hb, mapM_eq_ok_iff.mp hbs, List.map_cons]

end Timesheet.Results
