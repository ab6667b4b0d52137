import Timesheet.Retrieval.Resolution
/-!
# Looking up names in order

A name is looked up in the things of its kind, and the first that bears it, up to letter case, is the one
meant (`Directory.number?_eq_some_iff`).  If there is none, the name is unknown.

A computation that looks up several names in order either knows them all and succeeds, or fails with the
first that is unknown: it is `Directory.LooksUp` of these names.  Computations one after the other look up
their names one after the other (`LooksUp.bind`), and so does a list of them (`looksUp_mapM`), so that it
is enough to say which names each step has.
-/

namespace Timesheet

/-! ## 1. The first with a property -/

/-- `a` is the first in the list that has the property. -/
def IsFirst {α : Type} (p : α → Prop) (l : List α) (a : α) : Prop :=
  ∃ before after, l = before ++ a :: after ∧ p a ∧ ∀ b ∈ before, ¬p b

namespace IsFirst

variable {α : Type} {p : α → Prop} {l l' : List α} {a b : α}

theorem mem (h : IsFirst p l a) : a ∈ l := by
  obtain ⟨before, after, rfl, -, -⟩ := h
  simp

theorem holds (h : IsFirst p l a) : p a := by
  obtain ⟨_, _, -, ha, -⟩ := h
  exact ha

theorem iff_find? [DecidablePred p] : IsFirst p l a ↔ l.find? (fun b => decide (p b)) = some a := by
  rw [List.find?_eq_some_iff_append]
  constructor
  · rintro ⟨before, after, rfl, ha, hbefore⟩
    exact ⟨decide_eq_true ha, before, after, rfl, by simpa using hbefore⟩
  · rintro ⟨ha, before, after, rfl, hbefore⟩
    exact ⟨before, after, rfl, of_decide_eq_true ha, by simpa using hbefore⟩

theorem unique (h : IsFirst p l a) (h' : IsFirst p l b) : a = b := by
  classical
  exact Option.some.inj ((iff_find?.mp h).symm.trans (iff_find?.mp h'))

theorem append_right (h : IsFirst p l a) (l' : List α) : IsFirst p (l ++ l') a := by
  obtain ⟨before, after, rfl, ha, hbefore⟩ := h
  exact ⟨before, after ++ l', by simp, ha, hbefore⟩

theorem append_left (h : IsFirst p l a) (hl' : ∀ b ∈ l', ¬p b) : IsFirst p (l' ++ l) a := by
  obtain ⟨before, after, rfl, ha, hbefore⟩ := h
  refine ⟨l' ++ before, after, by simp, ha, fun b hb => ?_⟩
  rcases List.mem_append.mp hb with hb | hb
  · exact hl' b hb
  · exact hbefore b hb

end IsFirst

/-! ## 2. Names in a directory -/

namespace Directory

/-- The things of a kind, by number and name. -/
def entries (d : Directory) : NameKind → List (UInt64 × String)
  | .project => d.projects.map fun p => (p.id, p.name)
  | .client => d.clients.map fun c => (c.id, c.name)
  | .tag => d.tags.map fun t => (t.id, t.name)

/-- Something of the kind bears the name, up to letter case. -/
def Knows (d : Directory) (kind : NameKind) (name : String) : Prop :=
  ∃ e ∈ d.entries kind, Text.lowercase e.2 = Text.lowercase name

/-- The number is that of the first thing of the kind that bears the name, up to letter case. -/
def IsNumberOf (d : Directory) (kind : NameKind) (name : String) (id : UInt64) : Prop :=
  ∃ bearer, IsFirst (fun e => Text.lowercase e.2 = Text.lowercase name) (d.entries kind) (id, bearer)

/-- What a name of the kind is looked up to. -/
def number? (d : Directory) : NameKind → String → Option UInt64
  | .project => d.projectId?
  | .client => d.clientId?
  | .tag => d.tagId?

variable {d : Directory} {kind : NameKind} {name : String} {id : UInt64}

/-- Projects, clients and tags are looked up in the same way. -/
theorem number?_eq_find? (d : Directory) (kind : NameKind) (name : String) :
    d.number? kind name =
      ((d.entries kind).find? fun e => decide (Text.lowercase e.2 = Text.lowercase name)).map
        Prod.fst := by
  cases kind with
  | project => rw [entries, List.find?_map, Option.map_map]; rfl
  | client => rw [entries, List.find?_map, Option.map_map]; rfl
  | tag => rw [entries, List.find?_map, Option.map_map]; rfl

/-- **The lookup of a name finds the first that bears it.** -/
theorem number?_eq_some_iff : d.number? kind name = some id ↔ d.IsNumberOf kind name id := by
  rw [number?_eq_find?, Option.map_eq_some_iff, IsNumberOf]
  constructor
  · rintro ⟨⟨_, bearer⟩, hfind, rfl⟩
    exact ⟨bearer, IsFirst.iff_find?.mpr hfind⟩
  · rintro ⟨bearer, hfirst⟩
    exact ⟨(id, bearer), IsFirst.iff_find?.mp hfirst, rfl⟩

theorem number?_eq_none_iff : d.number? kind name = none ↔ ¬d.Knows kind name := by
  rw [number?_eq_find?, Option.map_eq_none_iff, List.find?_eq_none, Knows]
  simp

/-! ## 3. Going through names -/

/-- The name is the first of them that the directory does not know. -/
def IsFirstUnknown (d : Directory) (names : List (NameKind × String)) (kind : NameKind)
    (name : String) : Prop :=
  IsFirst (fun n => ¬d.Knows n.1 n.2) names (kind, name)

/-- The results of a computation that looks up the names in order. -/
inductive LooksUp (d : Directory) {α : Type} (names : List (NameKind × String)) :
    Except ReportError α → Prop
  /-- All names are known. -/
  | known (h : ∀ n ∈ names, d.Knows n.1 n.2) (a : α) : LooksUp d names (.ok a)
  /-- One is not, and the first such name is the error. -/
  | unknown {kind : NameKind} {name : String} (h : d.IsFirstUnknown names kind name) :
      LooksUp d names (.error (.unknownName kind name))

namespace LooksUp

variable {α β : Type} {names names' : List (NameKind × String)} {x : Except ReportError α}

/-- **What goes through some names, and then through others, goes through all of them.** -/
theorem bind {f : α → Except ReportError β} (hx : d.LooksUp names x)
    (hf : ∀ a, d.LooksUp names' (f a)) : d.LooksUp (names ++ names') (x >>= f) := by
  cases hx with
  | unknown hfirst => exact .unknown (hfirst.append_right names')
  | known hall a =>
    show d.LooksUp (names ++ names') (f a)
    have hfa := hf a
    generalize f a = y at hfa ⊢
    cases hfa with
    | known hall' b => exact .known (List.forall_mem_append.mpr ⟨hall, hall'⟩) b
    | unknown hfirst => exact .unknown (hfirst.append_left fun n hn => not_not_intro (hall n hn))

theorem map (hx : d.LooksUp names x) (f : α → β) : d.LooksUp names (x.map f) := by
  cases hx with
  | known hall a => exact .known hall (f a)
  | unknown hfirst => exact .unknown hfirst

theorem nothing (a : α) : d.LooksUp [] (pure a : Except ReportError α) := .known (by simp) a

/-- Whether it fails is decided by the names alone, and so is the error. -/
theorem eq_error_iff (hx : d.LooksUp names x) {kind : NameKind} {name : String} :
    x = .error (.unknownName kind name) ↔ d.IsFirstUnknown names kind name := by
  cases hx with
  | known hall a =>
    refine iff_of_false (by simp) fun hfirst => ?_
    exact hfirst.holds (hall _ hfirst.mem)
  | unknown hfirst =>
    constructor
    · intro h
      obtain ⟨rfl, rfl⟩ := ReportError.unknownName.inj (Except.error.inj h)
      exact hfirst
    · intro hfirst'
      obtain ⟨rfl, rfl⟩ := Prod.mk.inj (hfirst.unique hfirst')
      rfl

theorem exists_eq_ok_iff (hx : d.LooksUp names x) :
    (∃ a, x = .ok a) ↔ ∀ n ∈ names, d.Knows n.1 n.2 := by
  cases hx with
  | known hall a => exact iff_of_true ⟨a, rfl⟩ hall
  | unknown hfirst => exact iff_of_false (by simp) fun hall => hfirst.holds (hall _ hfirst.mem)

theorem exists_eq_error_iff (hx : d.LooksUp names x) :
    (∃ kind name, x = .error (.unknownName kind name)) ↔ ∃ n ∈ names, ¬d.Knows n.1 n.2 := by
  constructor
  · rintro ⟨kind, name, h⟩
    have hfirst := hx.eq_error_iff.mp h
    exact ⟨_, hfirst.mem, hfirst.holds⟩
  · rintro ⟨n, hn, hunknown⟩
    cases hx with
    | known hall a => exact absurd (hall n hn) hunknown
    | unknown hfirst => exact ⟨_, _, rfl⟩

end LooksUp

/-- **A list of computations goes through their names one by one.** -/
theorem looksUp_mapM {α β : Type} {names : α → List (NameKind × String)}
    {f : α → Except ReportError β} (h : ∀ a, d.LooksUp (names a) (f a)) (items : List α) :
    d.LooksUp (items.flatMap names) (items.mapM f) := by
  induction items with
  | nil => exact .nothing []
  | cons a items ih =>
    rw [List.flatMap_cons, List.mapM_cons]
    refine (h a).bind fun b => ?_
    rw [← List.append_nil (items.flatMap names)]
    exact ih.bind fun bs => .nothing (b :: bs)

/-- A single name is looked up. -/
theorem looksUp_found (d : Directory) (kind : NameKind) (name : String) :
    d.LooksUp [(kind, name)] (found kind name (d.number? kind name)) := by
  cases hnumber : d.number? kind name with
  | none =>
    have hunknown := number?_eq_none_iff.mp hnumber
    exact .unknown ⟨[], [], rfl, hunknown, by simp⟩
  | some id =>
    have hknown : d.Knows kind name := Classical.byContradiction fun h =>
      Option.some_ne_none id (hnumber.symm.trans (number?_eq_none_iff.mpr h))
    exact .known (by simpa using hknown) id

end Directory

end Timesheet
