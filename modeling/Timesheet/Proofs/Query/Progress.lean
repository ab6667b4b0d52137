import Mathlib.Data.List.Nodup
import Timesheet.Proofs.Query.Places
import Timesheet.Proofs.Query.Reading
/-!
# Reading makes progress

A clause that is read takes tokens from the front and leaves the others as they are, fewer than there were.
A clause that may follow the window also fills one slot of the draft, which was empty, and leaves the rest of
the draft alone (`Draft.Fills`).

So the loop over clauses cannot go on for long.  A pass of it (`Passes`) fills a slot that no pass before it
has filled, and there are seven slots: after seven passes at most, the loop has come to a token that starts no
clause, or to a clause that is refused.  The bound does not depend on how many tokens there are.

`Form` is any clause, or several of them offered as one, so that what is said of all of them can be proved
once; `Form.reader` is its reader by place.  `Form.reading_progresses` puts together that no reader has a
fault, that each makes progress, and how far the loop can go.
-/

namespace Timesheet

open Grammar Places

/-! ## 1. All clauses -/

/-- A clause of the grammar, or any of them offered as one. -/
inductive Form where
  | kind
  | window
  | selection
  | sort
  | grouping
  | title
  | choice (forms : List Form)

namespace Form

variable {today : Date} {f : Form} {d d' : Draft} {ts rest : List Token}

/-- The clause of a form. -/
def clause (today : Date) : Form → Clause
  | kind => .kind
  | window => .window today
  | selection => .selection
  | sort => .sort
  | grouping => .grouping
  | title => .title
  | choice forms => .choice (forms.map fun f => f.clause today)

/-- Its reader by place. -/
def reader (today : Date) : Form → Reader
  | kind => .kind
  | window => .window today
  | selection => .selection
  | sort => .sort
  | grouping => .grouping
  | title => .title
  | choice forms => .choice (forms.map fun f => f.reader today)

/-- **No form has a fault when it is read by place.** -/
theorem follows (today : Date) (f : Form) : (f.reader today).Follows (f.clause today) := by
  fun_induction f.clause today with
  | case1 =>
    rw [reader]
    exact Reader.follows_kind
  | case2 =>
    rw [reader]
    exact Reader.follows_window today
  | case3 =>
    rw [reader]
    exact Reader.follows_selection
  | case4 =>
    rw [reader]
    exact Reader.follows_sort
  | case5 =>
    rw [reader]
    exact Reader.follows_grouping
  | case6 =>
    rw [reader]
    exact Reader.follows_title
  | case7 forms ih =>
    rw [reader]
    refine Reader.follows_choice ?_
    rw [List.forall₂_map_left_iff, List.forall₂_map_right_iff, List.forall₂_same]
    exact ih

/-- **Every form takes at least one token**, and leaves those behind what it takes. -/
theorem consumes (today : Date) (f : Form) : (f.clause today).Consumes := by
  fun_induction f.clause today with
  | case1 =>
    intro d d' ts rest h
    obtain ⟨k, rfl, -⟩ := Clause.kind_read_eq_ok_iff.mp h
    exact ⟨_, [], rfl⟩
  | case2 =>
    intro d d' ts rest h
    obtain ⟨w, p, -, -, -, rfl, -⟩ := Clause.window_read_eq_ok_iff.mp h
    rcases w with _ | _ | _ | ⟨n, unit⟩ | ⟨first, _ | last⟩ <;> exact ⟨_, _, rfl⟩
  | case3 => exact Clause.consumes_selection
  | case4 => exact Clause.consumes_sort
  | case5 => exact Clause.consumes_grouping
  | case6 => exact Clause.consumes_title
  | case7 forms ih =>
    refine Clause.consumes_choice fun c hc => ?_
    obtain ⟨f, hf, rfl⟩ := List.mem_map.mp hc
    exact ih f hf

theorem rest_shorter (h : (f.clause today).read d ts = .ok (d', rest)) :
    rest <:+ ts ∧ rest.length < ts.length := by
  refine ⟨?_, Clause.Consumes.length_lt (f.consumes today) h⟩
  obtain ⟨t, used, rfl⟩ := f.consumes today h
  exact (List.suffix_append used rest).trans (List.suffix_cons t _)

/-- The form may follow the window. -/
inductive IsFurther : Form → Prop
  | selection : IsFurther selection
  | sort : IsFurther sort
  | grouping : IsFurther grouping
  | title : IsFurther title
  | choice {forms : List Form} (h : ∀ f ∈ forms, IsFurther f) : IsFurther (choice forms)

end Form

/-! ## 2. Slots -/

/-- The draft gets an empty slot filled, and nothing else changes. -/
structure Draft.Fills (d d' : Draft) (slot : Slot) : Prop where
  lacked : d.Lacks slot
  filled : ¬ d'.Lacks slot
  others : ∀ part, part.slot ≠ slot → (d'.Has part ↔ d.Has part)
  kind : d'.kind = d.kind
  start : d'.start = d.start
  stop : d'.stop = d.stop

theorem Draft.fills_add {d : Draft} (part : Part) (h : d.Lacks part.slot) :
    d.Fills (d.add part) part.slot where
  lacked := h
  filled := by simp [lacks_add]
  others := by
    intro other hslot
    rw [has_add h]
    exact or_iff_right fun heq => hslot (heq ▸ rfl)
  kind := kind_add d part
  start := start_add d part
  stop := stop_add d part

/-- A draft lacks a slot if it has no part that belongs there. -/
theorem Draft.lacks_iff_forall_has {d : Draft} {slot : Slot} :
    d.Lacks slot ↔ ∀ part, part.slot = slot → ¬ d.Has part := by
  constructor
  · rintro h part rfl hhas
    cases part <;> simp_all [Lacks, Has, Part.slot]
  · intro h
    cases slot with
    | projects => exact Option.eq_none_iff_forall_ne_some.mpr fun s hs => h (.projects s) rfl hs
    | clients => exact Option.eq_none_iff_forall_ne_some.mpr fun s hs => h (.clients s) rfl hs
    | includedTags => exact Option.eq_none_iff_forall_ne_some.mpr fun s hs => h (.includedTags s) rfl hs
    | excludedTags => exact Option.eq_none_iff_forall_ne_some.mpr fun s hs => h (.excludedTags s) rfl hs
    | sort => exact Option.eq_none_iff_forall_ne_some.mpr fun s hs => h (.sort s) rfl hs
    | grouping => exact Option.eq_none_iff_forall_ne_some.mpr fun s hs => h (.grouping s) rfl hs
    | title => exact Option.eq_none_iff_forall_ne_some.mpr fun s hs => h (.title s) rfl hs

/-- A slot is empty after another one has been filled if it was empty before. -/
theorem Draft.Fills.lacks_iff {d d' : Draft} {slot slot' : Slot} (h : d.Fills d' slot) :
    d'.Lacks slot' ↔ slot ≠ slot' ∧ d.Lacks slot' := by
  by_cases heq : slot = slot'
  · subst heq
    simp [h.filled]
  · rw [lacks_iff_forall_has, lacks_iff_forall_has, and_iff_right heq]
    refine forall_congr' fun part => imp_congr_right fun hpart => not_congr (h.others part ?_)
    rw [hpart]
    exact Ne.symm heq

/-- **A form that may follow the window fills one slot.** -/
theorem Form.IsFurther.exists_fills {f : Form} (hf : f.IsFurther) (today : Date) {d d' : Draft}
    {ts rest : List Token} (h : (f.clause today).read d ts = .ok (d', rest)) :
    ∃ slot, d.Fills d' slot := by
  induction hf with
  | selection =>
    rw [Form.clause] at h
    obtain ⟨mode, subject, values, -, hlacks, -, -, rfl⟩ := Clause.selection_read_eq_ok_iff.mp h
    exact ⟨_, Draft.fills_add _ hlacks⟩
  | sort =>
    rw [Form.clause] at h
    obtain ⟨order, hlacks, -, rfl⟩ := Clause.sort_read_eq_ok_iff.mp h
    exact ⟨_, Draft.fills_add (.sort order) hlacks⟩
  | grouping =>
    rw [Form.clause] at h
    obtain ⟨g, hlacks, -, -, rfl⟩ := Clause.grouping_read_eq_ok_iff.mp h
    exact ⟨_, Draft.fills_add (.grouping g) hlacks⟩
  | title =>
    rw [Form.clause] at h
    obtain ⟨s, hlacks, -, rfl⟩ := Clause.title_read_eq_ok_iff.mp h
    exact ⟨_, Draft.fills_add (.title s) hlacks⟩
  | @choice forms _ ih =>
    rw [Form.clause] at h
    simp only [Clause.choice] at h
    split at h
    · next c hc =>
      obtain ⟨f, hf, rfl⟩ := List.mem_map.mp (List.mem_of_find?_eq_some hc)
      exact ih f hf h
    · simp at h

/-- The clauses that the loop offers as one are such a form. -/
theorem Clause.exists_fills_of_further {d d' : Draft} {ts rest : List Token}
    (h : further.read d ts = .ok (d', rest)) : ∃ slot, d.Fills d' slot := by
  have hf : (Form.choice [.selection, .sort, .grouping, .title]).IsFurther := by
    refine .choice fun f hf => ?_
    simp only [List.mem_cons, List.not_mem_nil, or_false] at hf
    rcases hf with rfl | rfl | rfl | rfl
    · exact .selection
    · exact .sort
    · exact .grouping
    · exact .title
  have hclause : (Form.choice [.selection, .sort, .grouping, .title]).clause .first = further := by
    simp [Form.clause, further]
  rw [← hclause] at h
  exact hf.exists_fills .first h

/-! ## 3. Passes of the loop -/

/-- From the first draft and tokens, `n` passes of the loop over clauses lead to the second ones: the next
token may start a clause, and the clause is read. -/
inductive Passes : Nat → Draft → List Token → Draft → List Token → Prop
  | none (d : Draft) (ts : List Token) : Passes 0 d ts d ts
  | more {n : Nat} {d d₁ d' : Draft} {ts ts₁ rest : List Token}
      (haccepts : Clause.further.accepts ts = true) (hread : Clause.further.read d ts = .ok (d₁, ts₁))
      (hmore : Passes n d₁ ts₁ d' rest) : Passes (n + 1) d ts d' rest

namespace Passes

variable {n : Nat} {d d' : Draft} {ts rest : List Token}

/-- **Each pass fills a slot of its own**: once filled, a slot is not empty any more, so that no later pass
can fill it. -/
theorem exists_slots (h : Passes n d ts d' rest) :
    ∃ slots : List Slot, slots.length = n ∧ slots.Nodup ∧ (∀ slot ∈ slots, d.Lacks slot) ∧
      ∀ slot, d'.Lacks slot ↔ slot ∉ slots ∧ d.Lacks slot := by
  induction h with
  | none d ts => exact ⟨[], rfl, List.nodup_nil, by simp, by simp⟩
  | more haccepts hread _ ih =>
    obtain ⟨slot, hfills⟩ := Clause.exists_fills_of_further hread
    obtain ⟨slots, hlength, hnodup, hlacked, hlacks⟩ := ih
    have hnew : slot ∉ slots := fun hmem => hfills.filled (hlacked slot hmem)
    refine ⟨slot :: slots, by simp [hlength], List.nodup_cons.mpr ⟨hnew, hnodup⟩,
      List.forall_mem_cons.mpr ⟨hfills.lacked, fun slot' hmem => ?_⟩, fun slot' => ?_⟩
    · exact (hfills.lacks_iff.mp (hlacked slot' hmem)).2
    · rw [hlacks, hfills.lacks_iff, List.mem_cons, not_or, ne_comm]
      tauto

/-- There are seven slots. -/
theorem length_slots_le {slots : List Slot} (h : slots.Nodup) : slots.length ≤ 7 := by
  have hsubset : slots ⊆ [.projects, .clients, .includedTags, .excludedTags, .sort, .grouping, .title] := by
    intro slot _
    cases slot <;> simp
  exact h.length_le_of_subset hsubset

end Passes

/-- **Behind some passes the loop stops or fails.** -/
theorem Draft.exists_passes (d : Draft) (ts : List Token) :
    ∃ n d' rest, Passes n d ts d' rest ∧
      (Clause.further.accepts rest = false ∧ d.readClauses ts = .ok (d', rest) ∨
        ∃ e, Clause.further.accepts rest = true ∧ Clause.further.read d' rest = .error e ∧
          d.readClauses ts = .error e) := by
  fun_induction readClauses d ts with
  | case1 d ts haccepts e hread => exact ⟨0, d, ts, .none d ts, .inr ⟨e, haccepts, hread, rfl⟩⟩
  | case2 d ts haccepts d₁ ts₁ hread ih =>
    obtain ⟨n, d', rest, hpasses, hend⟩ := ih
    exact ⟨n + 1, d', rest, .more haccepts hread hpasses, hend⟩
  | case3 d ts haccepts => exact ⟨0, d, ts, .none d ts, .inl ⟨by simpa using haccepts, rfl⟩⟩

/-! ## 4. The whole -/

/-- **Reading makes progress and stays within the tokens.**  Read by place, no clause and no choice of clauses
has a fault, whatever tokens there are; when it is read, what it leaves is a proper end of the tokens, and a
clause that may follow the window fills exactly one slot, which was empty.  So `n` passes of the loop fill `n`
slots, no slot twice, and there are seven at most before the loop stops or fails.  Read by place, all tokens
whatsoever make up a query or are refused, without a fault. -/
theorem Form.reading_progresses (today : Date) :
    (∀ (f : Form) (d : Draft) (ts : List Token),
      Gives ((f.reader today).read d ts) ((f.clause today).read d ts) ∧
      ∀ d' rest, (f.clause today).read d ts = .ok (d', rest) →
        rest <:+ ts ∧ rest.length < ts.length ∧ (f.IsFurther → ∃ slot, d.Fills d' slot)) ∧
    (∀ n d ts d' rest, Passes n d ts d' rest → n ≤ 7 ∧
      ∃ slots : List Slot, slots.length = n ∧ slots.Nodup ∧ (∀ slot ∈ slots, d.Lacks slot) ∧
        ∀ slot, d'.Lacks slot ↔ slot ∉ slots ∧ d.Lacks slot) ∧
    (∀ d ts, ∃ n d' rest, Passes n d ts d' rest ∧
      (Clause.further.accepts rest = false ∧ d.readClauses ts = .ok (d', rest) ∨
        ∃ e, Clause.further.accepts rest = true ∧ Clause.further.read d' rest = .error e ∧
          d.readClauses ts = .error e)) ∧
    ∀ ts, Gives (Places.ofTokens ts today) (Query.ofTokens ts today) := by
  refine ⟨fun f d ts => ⟨(f.follows today).read d ts, fun d' rest h => ?_⟩, ?_, Draft.exists_passes,
    fun ts => gives_ofTokens ts today⟩
  · obtain ⟨hsuffix, hlength⟩ := rest_shorter h
    exact ⟨hsuffix, hlength, fun hf => hf.exists_fills today h⟩
  · intro n d ts d' rest h
    obtain ⟨slots, rfl, hnodup, hslots⟩ := h.exists_slots
    exact ⟨Passes.length_slots_le hnodup, slots, rfl, hnodup, hslots⟩

/-- A title that is read among clauses fills its slot.  Seven clauses fill seven slots, behind which a second
order is left. -/
theorem Form.seven_clauses_fill_slots :
    (((choice [.sort, .title]).clause .first).read {} [.keyword .TITLE, .text "Work", .keyword .SORT] =
        .ok ({ title := some "Work" }, [.keyword .SORT]) ∧
      ∃ slot, ({} : Draft).Fills { title := some "Work" } slot) ∧
    Passes 7 { kind := some .list }
        [.keyword .INCLUDE, .keyword .PROJECTS, .number 7, .text "Trips", .keyword .EXCLUDE, .keyword .CLIENTS,
          .text "Acme", .keyword .INCLUDE, .keyword .TAGS, .tag "late", .keyword .EXCLUDE, .keyword .TAGS,
          .tag "early", .keyword .SORT, .keyword .ASC, .keyword .GROUP, .keyword .BY, .keyword .DATE,
          .keyword .TITLE, .text "Work", .keyword .SORT, .keyword .DESC]
        { kind := some .list, projects := some ⟨.keep, [.id 7, .name "Trips"]⟩,
          clients := some ⟨.drop, [.name "Acme"]⟩, includedTags := some ["late"],
          excludedTags := some ["early"], sort := some .ascending, grouping := some .date,
          title := some "Work" }
        [.keyword .SORT, .keyword .DESC] ∧
      ∃ slots : List Slot, slots.length = 7 ∧ slots.Nodup ∧
        ∀ slot ∈ slots, ({ kind := some .list } : Draft).Lacks slot := by
  obtain ⟨hforms, hloop, -, -⟩ := reading_progresses .first
  refine ⟨(and_iff_left_of_imp fun hread => ?_).mpr ?_, (and_iff_left_of_imp fun hpasses => ?_).mpr ?_⟩
  · have hfurther : (choice [.sort, .title]).IsFurther := by
      refine .choice fun f hf => ?_
      simp only [List.mem_cons, List.not_mem_nil, or_false] at hf
      rcases hf with rfl | rfl
      · exact .sort
      · exact .title
    obtain ⟨-, -, hfills⟩ := (hforms _ _ _).2 _ _ hread
    exact hfills hfurther
  · simp only [clause, List.map_cons, List.map_nil]
    rfl
  · obtain ⟨-, slots, hlength, hnodup, hlacked, -⟩ := hloop _ _ _ _ _ hpasses
    exact ⟨slots, hlength, hnodup, hlacked⟩
  · exact .more rfl rfl (.more rfl rfl (.more rfl rfl (.more rfl rfl (.more rfl rfl (.more rfl rfl
      (.more rfl rfl (.none _ _)))))))

end Timesheet
