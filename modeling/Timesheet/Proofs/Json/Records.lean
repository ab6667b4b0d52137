import Mathlib.Data.List.Forall2
import Mathlib.Data.List.Nodup
import Timesheet.Json.Basic
/-!
# Records written and read

A record is written as an object of the fields that it has.  The object is read as the same record if it
has other members besides, if fields that the record lacks are there with the value `null`, and in
whatever order the members come; only no field may be there twice.  `Json.Holds` says that much and no
more, and is all that reading asks for (`Holds.fields?_eq`, `Holds.optional_eq`, `Holds.required_eq`).

What a field holds is left open: it comes with a condition on the values that may stand there, so that a
record within a record may be written in as many ways as the outer one.
-/

namespace Timesheet.Json

/-- The fields of a record by their names, each with a condition on its value, if the record has it. -/
abbrev Fields : Type := List (String × Option (Json → Prop))

/-- The members of an object hold a record with these fields.  What other members there are does not
matter. -/
structure Holds (members : List (String × Json)) (fields : Fields) : Prop where
  /-- No field is there twice. -/
  once : ∀ f ∈ fields, (members.filter (·.1 == f.1)).length ≤ 1
  /-- What the record has is there, with a value that meets the condition. -/
  given : ∀ f ∈ fields, ∀ P, f.2 = some P → ∃ j, (f.1, j) ∈ members ∧ P j
  /-- What the record does not have is not there, or it is `null`. -/
  absent : ∀ f ∈ fields, f.2 = none → ∀ j, (f.1, j) ∈ members → j = .null

/-- The reader takes each value that may be written for something back to it, and `null` is not one. -/
structure Inverts {α : Type} (read : Json → Option α) (written : α → Json → Prop) : Prop where
  read_eq : ∀ a j, written a j → read j = some a
  ne_null : ∀ a j, written a j → j ≠ .null

variable {α : Type} {read : Json → Option α} {written : α → Json → Prop}
variable {members members' : List (String × Json)} {fields : Fields} {name : String} {j : Json}

/-! ## 1. Reading -/

theorem length_filter_name_append (before after : List (String × Json)) (name : String) :
    ((before ++ after).filter (·.1 == name)).length =
      (before.filter (·.1 == name)).length + (after.filter (·.1 == name)).length := by
  rw [List.filter_append, List.length_append]

/-- A member is found if there is no other one of its name. -/
theorem lookup_eq_some (honce : (members.filter (·.1 == name)).length ≤ 1)
    (h : (name, j) ∈ members) : members.lookup name = some j := by
  obtain ⟨before, after, rfl⟩ := List.append_of_mem h
  refine List.lookup_eq_some_iff.mpr ⟨before, after, rfl, fun m hm => ?_⟩
  rw [length_filter_name_append, List.filter_cons_of_pos (by simp), List.length_cons] at honce
  have hnone : before.filter (·.1 == name) = [] := List.length_eq_zero_iff.mp (by omega)
  have hne : ¬ (m.1 == name) = true := List.filter_eq_nil_iff.mp hnone m hm
  rw [bne_iff_ne]
  rintro rfl
  exact hne (beq_self_eq_true _)

theorem mem_of_lookup_eq_some (h : members.lookup name = some j) : (name, j) ∈ members := by
  obtain ⟨before, after, rfl, -⟩ := List.lookup_eq_some_iff.mp h
  exact List.mem_append_right _ List.mem_cons_self

namespace Holds

/-- **The fields of a record are taken out of any object that holds it.** -/
theorem fields?_eq (h : Holds members fields) :
    fields? (fields.map Prod.fst) (.obj members) =
      some ((fields.map Prod.fst).map (members.lookup ·)) := by
  rw [fields?, if_pos]
  rw [List.all_eq_true]
  intro name hname
  obtain ⟨f, hf, rfl⟩ := List.mem_map.mp hname
  exact decide_eq_true (h.once f hf)

theorem required_eq (h : Holds members fields) (hread : Inverts read written) (name : String) (a : α)
    (hf : (name, some (written a)) ∈ fields) : required read (members.lookup name) = some a := by
  obtain ⟨j, hj, hwritten⟩ := h.given _ hf _ rfl
  rw [lookup_eq_some (h.once _ hf) hj, required, Option.bind_some, hread.read_eq a j hwritten]

/-- **A field that a record may lack is read as the record has it.** -/
theorem optional_eq (h : Holds members fields) (hread : Inverts read written) (name : String)
    (o : Option α) (hf : (name, o.map written) ∈ fields) :
    optional read (members.lookup name) = some o := by
  cases o with
  | some a =>
    obtain ⟨j, hj, hwritten⟩ := h.given _ hf _ rfl
    rw [lookup_eq_some (h.once _ hf) hj]
    cases j with
    | null => exact absurd rfl (hread.ne_null a _ hwritten)
    | _ =>
      rw [optional, hread.read_eq a _ hwritten, Option.map_some]
      simp
  | none =>
    cases hj : members.lookup name with
    | none => rfl
    | some j =>
      rw [h.absent _ hf rfl j (mem_of_lookup_eq_some hj)]
      rfl

end Holds

/-- What is written in one way only is read back if its written form is. -/
theorem Inverts.of_eq {write : α → Json} (h : ∀ a, read (write a) = some a)
    (hnull : ∀ a, write a ≠ .null) : Inverts read fun a j => j = write a := by
  refine ⟨?_, ?_⟩
  · rintro a j rfl
    exact h a
  · rintro a j rfl
    exact hnull a

/-- A list is read back if its items are. -/
theorem list?_arr {write : α → Json} (h : ∀ a, read (write a) = some a) (as : List α) :
    list? read (.arr (as.map write)) = some as := by
  have hread : read ∘ write = fun a => pure a := funext h
  rw [list?, List.mapM_map, hread, List.mapM_pure, List.map_id']
  rfl

/-! ## 2. Writing -/

/-- A field as it is written, if at all, and as it is looked at. -/
def Matches (field : String × Option Json) (seen : String × Option (Json → Prop)) : Prop :=
  field.1 = seen.1 ∧ Option.Rel (fun j P => P j) field.2 seen.2

theorem matches_map {write : α → Json} (h : ∀ a, written a (write a)) (name : String)
    (o : Option α) : Matches (name, o.map write) (name, o.map written) := by
  cases o with
  | none => exact ⟨rfl, .none⟩
  | some a => exact ⟨rfl, .some (h a)⟩

theorem matches_map_eq (write : α → Json) (name : String) (o : Option α) :
    Matches (name, o.map write) (name, o.map fun a j => j = write a) :=
  @matches_map α (fun a j => j = write a) write (fun _ => rfl) name o

variable {given : List (String × Option Json)}

theorem map_fst_eq (h : List.Forall₂ Matches given fields) :
    given.map Prod.fst = fields.map Prod.fst := by
  induction h with
  | nil => rfl
  | cons hmatch _ ih => rw [List.map_cons, List.map_cons, hmatch.1, ih]

theorem exists_rel_of_mem (h : List.Forall₂ Matches given fields)
    {f : String × Option (Json → Prop)} (hf : f ∈ fields) :
    ∃ o, (f.1, o) ∈ given ∧ Option.Rel (fun j P => P j) o f.2 := by
  induction h with
  | nil => exact absurd hf List.not_mem_nil
  | @cons g f' _ _ hmatch _ ih =>
    rcases List.mem_cons.mp hf with rfl | hf
    · exact ⟨g.2, by rw [← hmatch.1]; exact List.mem_cons_self, hmatch.2⟩
    · obtain ⟨o, ho, hrel⟩ := ih hf
      exact ⟨o, List.mem_cons_of_mem _ ho, hrel⟩

/-- The members of those fields that have a value. -/
theorem mem_filterMap_iff :
    (name, j) ∈ given.filterMap (fun f => f.2.map (f.1, ·)) ↔ (name, some j) ∈ given := by
  simp only [List.mem_filterMap, Option.map_eq_some_iff, Prod.mk.injEq, Prod.exists]
  constructor
  · rintro ⟨k, o, hmem, v, rfl, rfl, rfl⟩
    exact hmem
  · exact fun h => ⟨name, some j, h, j, rfl, rfl, rfl⟩

theorem map_fst_filterMap_sublist (given : List (String × Option Json)) :
    ((given.filterMap fun f => f.2.map (f.1, ·)).map Prod.fst).Sublist (given.map Prod.fst) := by
  induction given with
  | nil => exact List.Sublist.slnil
  | cons f given ih =>
    obtain ⟨name, _ | j⟩ := f
    · exact ih.cons name
    · exact ih.cons_cons name

/-- **What is written of a record holds it.** -/
theorem holds_filterMap (hnames : (fields.map Prod.fst).Nodup)
    (h : List.Forall₂ Matches given fields) :
    Holds (given.filterMap fun f => f.2.map (f.1, ·)) fields := by
  have hgiven : (given.map Prod.fst).Nodup := by rwa [map_fst_eq h]
  refine ⟨fun f _ => ?_, ?_, ?_⟩
  · have hcount := List.nodup_iff_count_le_one.mp
      ((map_fst_filterMap_sublist given).nodup hgiven) f.1
    rwa [List.count, List.countP_map, List.countP_eq_length_filter] at hcount
  · intro f hf P hP
    obtain ⟨o, ho, hrel⟩ := exists_rel_of_mem h hf
    rw [hP] at hrel
    cases hrel with
    | some hj => exact ⟨_, mem_filterMap_iff.mpr ho, hj⟩
  · intro f hf hnone j hj
    obtain ⟨o, ho, hrel⟩ := exists_rel_of_mem h hf
    have heq := List.inj_on_of_nodup_map hgiven (mem_filterMap_iff.mp hj) ho rfl
    rw [hnone, ← (Prod.mk.inj heq).2] at hrel
    nomatch hrel

/-! ## 3. Additions -/

/-- The object with these members comes from another by adding members: such as have none of the names
known, and `null` where there is no member of the name yet. -/
inductive Extends (known : List String) (members : List (String × Json)) :
    List (String × Json) → Prop
  | refl : Extends known members members
  | unknown (before after : List (String × Json)) (name : String) (j : Json) :
      name ∉ known → Extends known members (before ++ after) →
      Extends known members (before ++ (name, j) :: after)
  | null (before after : List (String × Json)) (name : String) :
      (∀ m ∈ before ++ after, m.1 ≠ name) → Extends known members (before ++ after) →
      Extends known members (before ++ (name, .null) :: after)

/-- A member more is one more of its name. -/
theorem length_filter_insert (before after : List (String × Json)) (m : String × Json)
    (name : String) :
    ((before ++ m :: after).filter (·.1 == name)).length =
      ((before ++ after).filter (·.1 == name)).length + if m.1 = name then 1 else 0 := by
  simp only [length_filter_name_append, List.filter_cons, beq_iff_eq]
  split <;> simp [Nat.add_assoc]

theorem mem_insert_iff {before after : List (String × Json)} {m m' : String × Json} :
    m' ∈ before ++ m :: after ↔ m' = m ∨ m' ∈ before ++ after := by
  simp only [List.mem_append, List.mem_cons]
  tauto

/-- A member may be added if it is no field, or `null` for a field that is not there. -/
theorem Holds.insert {before after : List (String × Json)} {m : String × Json}
    (h : Holds (before ++ after) fields)
    (hm : ∀ f ∈ fields, m.1 = f.1 → m.2 = .null ∧ ∀ m' ∈ before ++ after, m'.1 ≠ m.1) :
    Holds (before ++ m :: after) fields := by
  refine ⟨fun f hf => ?_, fun f hf P hP => ?_, fun f hf hnone j hj => ?_⟩
  · rw [length_filter_insert]
    split
    · next hname =>
      rw [List.filter_eq_nil_iff.mpr]
      · simp
      · intro m' hm' heq
        exact (hm f hf hname).2 m' hm' ((beq_iff_eq.mp heq).trans hname.symm)
    · exact h.once f hf
  · obtain ⟨j, hj, hP⟩ := h.given f hf P hP
    exact ⟨j, mem_insert_iff.mpr (Or.inr hj), hP⟩
  · rcases mem_insert_iff.mp hj with rfl | hj
    · exact (hm f hf rfl).1
    · exact h.absent f hf hnone j hj

/-- **Additions do not change the record that is held.** -/
theorem Holds.of_extends (h : Holds members fields)
    (hext : Extends (fields.map Prod.fst) members members') : Holds members' fields := by
  induction hext with
  | refl => exact h
  | unknown _ _ name j hname _ ih =>
    refine ih.insert ?_
    rintro f hf rfl
    exact absurd (List.mem_map_of_mem hf) hname
  | null _ _ name hnew _ ih => exact ih.insert fun _ _ _ => ⟨rfl, hnew⟩

end Timesheet.Json
