import Timesheet.Proofs.Query.Grammar
import Timesheet.Proofs.Results
/-!
# What each clause reads

One equivalence for each clause says when it is read, what it leaves, and what it makes of the draft.
Those that may follow a window add one `Part` to a draft that lacks its slot.  They start with different
keywords, so that they can be told apart by the first token, and `Clause.further_read_eq_ok_iff` covers
all of them.

The kind and the window come in front and are never missing: `Clause.kind_read_eq_ok_iff`,
`Clause.window_read_eq_ok_iff`.
-/

namespace Timesheet

open Grammar

/-! ## 1. The parts of a draft -/

namespace Draft

/-- Nothing is known of the slot yet. -/
def Lacks (d : Draft) : Slot → Prop
  | .projects => d.projects = none
  | .clients => d.clients = none
  | .includedTags => d.includedTags = none
  | .excludedTags => d.excludedTags = none
  | .sort => d.sort = none
  | .grouping => d.grouping = none
  | .title => d.title = none

/-- The draft knows this part. -/
def Has (d : Draft) : Part → Prop
  | .projects s => d.projects = some s
  | .clients s => d.clients = some s
  | .includedTags tags => d.includedTags = some tags
  | .excludedTags tags => d.excludedTags = some tags
  | .sort order => d.sort = some order
  | .grouping g => d.grouping = some g
  | .title s => d.title = some s

/-- The draft with one more part. -/
def add (d : Draft) : Part → Draft
  | .projects s => { d with projects := some s }
  | .clients s => { d with clients := some s }
  | .includedTags tags => { d with includedTags := some tags }
  | .excludedTags tags => { d with excludedTags := some tags }
  | .sort order => { d with sort := some order }
  | .grouping g => { d with grouping := some g }
  | .title s => { d with title := some s }

@[simp] theorem kind_add (d : Draft) (part : Part) : (d.add part).kind = d.kind := by
  cases part <;> rfl

@[simp] theorem start_add (d : Draft) (part : Part) : (d.add part).start = d.start := by
  cases part <;> rfl

@[simp] theorem stop_add (d : Draft) (part : Part) : (d.add part).stop = d.stop := by
  cases part <;> rfl

/-- A part that is added fills its slot. -/
theorem lacks_add {d : Draft} {part : Part} {slot : Slot} :
    (d.add part).Lacks slot ↔ part.slot ≠ slot ∧ d.Lacks slot := by
  cases part <;> cases slot <;> simp [Lacks, add, Part.slot]

/-- A part that is added to an empty slot is known, and the others stay. -/
theorem has_add {d : Draft} {part part' : Part} (h : d.Lacks part.slot) :
    (d.add part).Has part' ↔ part' = part ∨ d.Has part' := by
  cases part <;> cases part' <;> simp_all [Has, add, Lacks, Part.slot, eq_comm]

/-- A draft is made up of its kind, its window and its parts. -/
theorem eq_of_has {d d' : Draft} (hkind : d.kind = d'.kind) (hstart : d.start = d'.start)
    (hstop : d.stop = d'.stop) (hparts : ∀ part, d.Has part ↔ d'.Has part) : d = d' := by
  have hprojects : d.projects = d'.projects := Option.ext fun s => hparts (.projects s)
  have hclients : d.clients = d'.clients := Option.ext fun s => hparts (.clients s)
  have hincluded : d.includedTags = d'.includedTags := Option.ext fun s => hparts (.includedTags s)
  have hexcluded : d.excludedTags = d'.excludedTags := Option.ext fun s => hparts (.excludedTags s)
  have hsort : d.sort = d'.sort := Option.ext fun s => hparts (.sort s)
  have hgrouping : d.grouping = d'.grouping := Option.ext fun s => hparts (.grouping s)
  have htitle : d.title = d'.title := Option.ext fun s => hparts (.title s)
  cases d
  cases d'
  simp_all

end Draft

/-! ## 2. Selections -/

theorem Item.ofProject_eq_ok_iff (t : Token) (i : Item) :
    Item.ofProject t = .ok i ↔ takes .projects t = true ∧ itemOf? t = some i := by
  cases t <;> simp [ofProject, takes, itemOf?]

theorem Item.ofClient_eq_ok_iff (t : Token) (i : Item) :
    Item.ofClient t = .ok i ↔ takes .clients t = true ∧ itemOf? t = some i := by
  cases t <;> simp [ofClient, takes, itemOf?]

theorem tagOfToken_eq_ok_iff (t : Token) (tag : String) :
    tagOfToken t = .ok tag ↔ takes .tags t = true ∧ tagOf? t = some tag := by
  cases t <;> simp [tagOfToken, takes, tagOf?]

/-- A draft takes a selection of values of the right form, and turns them into what they give. -/
theorem Draft.select_eq_ok_iff {d d' : Draft} {mode : Mode} {subject : Subject}
    {values : List Token} :
    d.select mode subject values = .ok d' ↔
      (∀ v ∈ values, takes subject v = true) ∧
        d' = d.add (ClausePhrase.select mode subject values).part := by
  cases subject with
  | projects =>
    exact Results.mapM_bind_eq_ok_iff Item.ofProject_eq_ok_iff fun _ => isSome_itemOf?_of_project
  | clients =>
    have hsome : ∀ t, takes .clients t = true → (itemOf? t).isSome := by
      intro t ht
      obtain ⟨name, hname⟩ := exists_itemOf?_of_client ht
      rw [hname]
      rfl
    exact Results.mapM_bind_eq_ok_iff Item.ofClient_eq_ok_iff hsome
  | tags =>
    cases mode <;>
      exact Results.mapM_bind_eq_ok_iff tagOfToken_eq_ok_iff fun _ => isSome_tagOf?_of_tag

/-- A draft has no such selection yet if it lacks its slot. -/
theorem Draft.selects_eq_false_iff {d : Draft} {mode : Mode} {subject : Subject}
    {values : List Token} :
    d.selects mode subject = false ↔ d.Lacks (ClausePhrase.select mode subject values).part.slot := by
  cases subject <;> cases mode <;>
    simp [selects, Lacks, ClausePhrase.part, Part.slot]

namespace Clause

variable {d d' : Draft} {ts rest : List Token}

/-- **Values are read up to where the tokens resume**, one at least. -/
theorem readValues_eq_ok_iff {mode : Mode} {subject : Subject} :
    readValues mode subject d ts = .ok (d', rest) ↔
      ∃ values, (ClausePhrase.select mode subject values).Valid ∧
        d.Lacks (ClausePhrase.select mode subject values).part.slot ∧ ts = values ++ rest ∧
        Resumes rest ∧ d' = d.add (ClausePhrase.select mode subject values).part := by
  constructor
  · intro h
    unfold readValues at h
    split at h
    · simp at h
    · next hlacks =>
      split at h
      · simp at h
      · next hne =>
        split at h
        · simp at h
        · next d₁ hselect =>
          obtain ⟨rfl, rfl⟩ := Prod.mk.inj (Except.ok.inj h)
          obtain ⟨htakes, rfl⟩ := Draft.select_eq_ok_iff.mp hselect
          refine ⟨ts.takeWhile Token.isValue, ⟨by simpa using hne, htakes⟩,
            Draft.selects_eq_false_iff.mp (by simpa using hlacks),
            List.takeWhile_append_dropWhile.symm, ?_, rfl⟩
          intro t ht
          have := List.head?_dropWhile_not Token.isValue ts
          rw [ht] at this
          simpa using this
  · rintro ⟨values, ⟨hne, htakes⟩, hlacks, rfl, hrest, rfl⟩
    obtain ⟨htake, hdrop⟩ := span_values (fun v hv => isValue_of_takes (htakes v hv)) hrest
    have hselects := Draft.selects_eq_false_iff.mpr hlacks
    have hselect := Draft.select_eq_ok_iff.mpr
      ⟨htakes, (rfl : d.add (ClausePhrase.select mode subject values).part = _)⟩
    simp [readValues, htake, hdrop, hselects, hselect, hne]

theorem readSubject_eq_ok_iff {mode : Mode} :
    readSubject mode d ts = .ok (d', rest) ↔
      ∃ subject values, (ClausePhrase.select mode subject values).Valid ∧
        d.Lacks (ClausePhrase.select mode subject values).part.slot ∧
        ts = .keyword subject.keyword :: (values ++ rest) ∧
        Resumes rest ∧ d' = d.add (ClausePhrase.select mode subject values).part := by
  constructor
  · intro h
    unfold readSubject at h
    split at h
    case h_4 => simp at h
    all_goals
      obtain ⟨values, hvalid, hlacks, rfl, hrest⟩ := readValues_eq_ok_iff.mp h
      exact ⟨_, values, hvalid, hlacks, rfl, hrest⟩
  · rintro ⟨subject, values, hvalid, hlacks, rfl, hrest⟩
    have h := readValues_eq_ok_iff.mpr ⟨values, hvalid, hlacks, rfl, hrest⟩
    cases subject <;> exact h

theorem selection_read_eq_ok_iff :
    selection.read d ts = .ok (d', rest) ↔
      ∃ mode subject values, (ClausePhrase.select mode subject values).Valid ∧
        d.Lacks (ClausePhrase.select mode subject values).part.slot ∧
        ts = (ClausePhrase.select mode subject values).tokens ++ rest ∧
        Resumes rest ∧ d' = d.add (ClausePhrase.select mode subject values).part := by
  constructor
  · intro h
    simp only [selection] at h
    split at h
    case h_3 => simp at h
    all_goals
      obtain ⟨subject, values, hvalid, hlacks, rfl, hrest⟩ := readSubject_eq_ok_iff.mp h
      exact ⟨_, subject, values, hvalid, hlacks, rfl, hrest⟩
  · rintro ⟨mode, subject, values, hvalid, hlacks, rfl, hrest⟩
    have h := readSubject_eq_ok_iff.mpr ⟨subject, values, hvalid, hlacks, rfl, hrest⟩
    cases mode <;> exact h

/-! ## 3. Order, grouping and title -/

theorem sort_read_eq_ok_iff :
    sort.read d ts = .ok (d', rest) ↔
      ∃ order, d.Lacks .sort ∧ ts = (ClausePhrase.sort order).tokens ++ rest ∧
        d' = d.add (.sort order) := by
  constructor
  · intro h
    simp only [sort] at h
    split at h
    · split at h
      · simp at h
      · next hlacks =>
        have hlacks : d.Lacks .sort := by simpa [Draft.Lacks] using hlacks
        split at h
        · obtain ⟨rfl, rfl⟩ := Prod.mk.inj (Except.ok.inj h)
          exact ⟨.ascending, hlacks, rfl, rfl⟩
        · obtain ⟨rfl, rfl⟩ := Prod.mk.inj (Except.ok.inj h)
          exact ⟨.descending, hlacks, rfl, rfl⟩
        · simp at h
    · simp at h
  · rintro ⟨order, hlacks, rfl, rfl⟩
    have hlacks : d.sort = none := hlacks
    cases order <;> simp [sort, ClausePhrase.tokens, orderKeyword, hlacks, Draft.add]

theorem grouping_read_eq_ok_iff :
    grouping.read d ts = .ok (d', rest) ↔
      ∃ g, d.Lacks .grouping ∧ d.kind = some .list ∧
        ts = (ClausePhrase.group g).tokens ++ rest ∧ d' = d.add (.grouping g) := by
  constructor
  · intro h
    simp only [grouping] at h
    split at h
    · split at h
      · split at h
        · simp at h
        · next hlacks =>
          have hlacks : d.Lacks .grouping := by simpa [Draft.Lacks] using hlacks
          split at h
          · simp at h
          · next hkind =>
            have hkind : d.kind = some .list := Classical.not_not.mp hkind
            split at h
            · obtain ⟨rfl, rfl⟩ := Prod.mk.inj (Except.ok.inj h)
              exact ⟨.date, hlacks, hkind, rfl, rfl⟩
            · obtain ⟨rfl, rfl⟩ := Prod.mk.inj (Except.ok.inj h)
              exact ⟨.project, hlacks, hkind, rfl, rfl⟩
            · obtain ⟨rfl, rfl⟩ := Prod.mk.inj (Except.ok.inj h)
              exact ⟨.client, hlacks, hkind, rfl, rfl⟩
            · simp at h
      · simp at h
    · simp at h
  · rintro ⟨g, hlacks, hkind, rfl, rfl⟩
    have hlacks : d.grouping = none := hlacks
    cases g <;> simp [grouping, ClausePhrase.tokens, groupingKeyword, hlacks, hkind, Draft.add]

theorem title_read_eq_ok_iff :
    title.read d ts = .ok (d', rest) ↔
      ∃ s, d.Lacks .title ∧ ts = (ClausePhrase.title s).tokens ++ rest ∧ d' = d.add (.title s) := by
  constructor
  · intro h
    simp only [title] at h
    split at h
    · split at h
      · simp at h
      · next hlacks =>
        split at h
        · next s _ =>
          obtain ⟨rfl, rfl⟩ := Prod.mk.inj (Except.ok.inj h)
          exact ⟨s, hlacks, rfl, rfl⟩
        · simp at h
    · simp at h
  · rintro ⟨s, hlacks, rfl, rfl⟩
    have hlacks : d.title = none := hlacks
    simp [title, ClausePhrase.tokens, hlacks, Draft.add]

/-! ## 4. The choice of a clause -/

theorem accepts_iff {c : Clause} :
    c.accepts ts = true ↔ ∃ k tail, ts = .keyword k :: tail ∧ k ∈ c.heads := by
  rcases ts with _ | ⟨_ | _, tail⟩ <;> simp [accepts, Token.keyword?]

/-- Clauses that start with different keywords do not stand in each other's way. -/
theorem find?_accepts_eq_some {cs : List Clause} (hheads : (cs.flatMap heads).Nodup) {c : Clause}
    (hc : c ∈ cs) (haccepts : c.accepts ts = true) : cs.find? (·.accepts ts) = some c := by
  induction cs with
  | nil => simp at hc
  | cons c₀ cs ih =>
    rw [List.flatMap_cons, List.nodup_append] at hheads
    obtain ⟨-, htail, hdisjoint⟩ := hheads
    rcases List.mem_cons.mp hc with rfl | hc
    · exact List.find?_cons_of_pos haccepts
    · rw [List.find?_cons_of_neg, ih htail hc]
      intro haccepts₀
      obtain ⟨k, tail, rfl, hk⟩ := accepts_iff.mp haccepts
      obtain ⟨k₀, tail₀, heq, hk₀⟩ := accepts_iff.mp haccepts₀
      obtain ⟨hkk, -⟩ := List.cons.inj heq
      obtain rfl := Token.keyword.inj hkk
      exact hdisjoint k hk₀ k (List.mem_flatMap.mpr ⟨c, hc, hk⟩) rfl

/-- A choice reads what one of its clauses reads. -/
theorem choice_read_eq_ok_iff {cs : List Clause} (hheads : (cs.flatMap heads).Nodup)
    (hstarts : ∀ c ∈ cs, ∀ r, c.read d ts = .ok r → c.accepts ts = true)
    {r : Draft × List Token} :
    (choice cs).read d ts = .ok r ↔ ∃ c ∈ cs, c.read d ts = .ok r := by
  simp only [choice]
  constructor
  · intro h
    split at h
    · next c hc => exact ⟨c, List.mem_of_find?_eq_some hc, h⟩
    · simp at h
  · rintro ⟨c, hc, h⟩
    rw [find?_accepts_eq_some hheads hc (hstarts c hc r h)]
    exact h

/-- What must hold for a draft to take a clause. -/
structure Takes (d : Draft) (c : ClausePhrase) : Prop where
  valid : c.Valid
  lacks : d.Lacks c.part.slot
  grouped : ∀ g, c = .group g → d.kind = some .list

/-- Only selections depend on what follows them. -/
def EndsBefore (rest : List Token) : ClausePhrase → Prop
  | .select .. => Resumes rest
  | _ => True

/-- **A clause is read if the grammar derives it and the draft takes it**, and the draft gets the part
that it denotes. -/
theorem further_read_eq_ok_iff :
    further.read d ts = .ok (d', rest) ↔
      ∃ c, Takes d c ∧ ts = c.tokens ++ rest ∧ EndsBefore rest c ∧ d' = d.add c.part := by
  have hstarts : ∀ c ∈ [selection, sort, grouping, title], ∀ r, c.read d ts = .ok r →
      c.accepts ts = true := by
    rintro c hc ⟨d₁, rest₁⟩ h
    rw [accepts_iff]
    simp only [List.mem_cons, List.not_mem_nil, or_false] at hc
    rcases hc with rfl | rfl | rfl | rfl
    · obtain ⟨mode, subject, values, -, -, rfl, -⟩ := selection_read_eq_ok_iff.mp h
      exact ⟨mode.keyword, _, rfl, by cases mode <;> simp [selection, Mode.keyword]⟩
    · obtain ⟨order, -, rfl, -⟩ := sort_read_eq_ok_iff.mp h
      exact ⟨_, _, rfl, by simp [sort]⟩
    · obtain ⟨g, -, -, rfl, -⟩ := grouping_read_eq_ok_iff.mp h
      exact ⟨_, _, rfl, by simp [grouping]⟩
    · obtain ⟨s, -, rfl, -⟩ := title_read_eq_ok_iff.mp h
      exact ⟨_, _, rfl, by simp [title]⟩
  rw [further, choice_read_eq_ok_iff (by decide) hstarts]
  constructor
  · rintro ⟨c, hc, h⟩
    simp only [List.mem_cons, List.not_mem_nil, or_false] at hc
    rcases hc with rfl | rfl | rfl | rfl
    · obtain ⟨mode, subject, values, hvalid, hlacks, hts, hrest, hd⟩ :=
        selection_read_eq_ok_iff.mp h
      exact ⟨.select mode subject values, ⟨hvalid, hlacks, by simp⟩, hts, hrest, hd⟩
    · obtain ⟨order, hlacks, hts, hd⟩ := sort_read_eq_ok_iff.mp h
      exact ⟨.sort order, ⟨trivial, hlacks, by simp⟩, hts, trivial, hd⟩
    · obtain ⟨g, hlacks, hkind, hts, hd⟩ := grouping_read_eq_ok_iff.mp h
      exact ⟨.group g, ⟨trivial, hlacks, fun _ _ => hkind⟩, hts, trivial, hd⟩
    · obtain ⟨s, hlacks, hts, hd⟩ := title_read_eq_ok_iff.mp h
      exact ⟨.title s, ⟨trivial, hlacks, by simp⟩, hts, trivial, hd⟩
  · rintro ⟨c, htakes, hts, hrest, hd⟩
    cases c with
    | select mode subject values =>
      exact ⟨selection, by simp, selection_read_eq_ok_iff.mpr
        ⟨mode, subject, values, htakes.valid, htakes.lacks, hts, hrest, hd⟩⟩
    | sort order => exact ⟨sort, by simp, sort_read_eq_ok_iff.mpr ⟨order, htakes.lacks, hts, hd⟩⟩
    | group g =>
      exact ⟨grouping, by simp, grouping_read_eq_ok_iff.mpr
        ⟨g, htakes.lacks, htakes.grouped g rfl, hts, hd⟩⟩
    | title s => exact ⟨title, by simp, title_read_eq_ok_iff.mpr ⟨s, htakes.lacks, hts, hd⟩⟩

end Clause

/-! ## 5. Kind and window -/

theorem Window.date_eq_ok_iff {after : Keyword} {t : Option Token} {d : Date} :
    Window.date after t = .ok d ↔ ∃ raw, t = some (.date raw) ∧ Date.readStrict? raw = some d := by
  rcases t with _ | ⟨_ | _ | raw | _ | _⟩
  case some.date =>
    simp only [Window.date]
    cases h : Date.readStrict? raw <;> simp [h]
  all_goals simp [Window.date]

theorem Window.endDate_eq_ok_iff {today : Date} {t : Option Token} {d : Date} :
    endDate today t = .ok d ↔ t = some (.keyword .TODAY) ∧ today = d ∨
      ∃ raw, t = some (.date raw) ∧ Date.readStrict? raw = some d := by
  unfold endDate
  split
  · next ht => simp [ht]
  · next ht => simp [ht, date_eq_ok_iff]

theorem Window.exists_phrase_of_readPast {today : Date} {ts rest : List Token} {p : Period}
    (h : readPast today ts = .ok (p, rest)) :
    ∃ w : WindowPhrase, w.period? today = some p ∧ .keyword .PAST :: ts = w.tokens ++ rest := by
  unfold readPast at h
  repeat' split at h
  · obtain ⟨rfl, rfl⟩ := Prod.mk.inj (Except.ok.inj h)
    exact ⟨.past _ .days, rfl, rfl⟩
  · obtain ⟨rfl, rfl⟩ := Prod.mk.inj (Except.ok.inj h)
    exact ⟨.past _ .weeks, rfl, rfl⟩
  · obtain ⟨rfl, rfl⟩ := Prod.mk.inj (Except.ok.inj h)
    exact ⟨.past _ .months, rfl, rfl⟩
  · simp at h
  · simp at h

theorem Window.exists_phrase_of_readFromTo {today : Date} {ts rest : List Token} {p : Period}
    (h : readFromTo today ts = .ok (p, rest)) :
    ∃ w : WindowPhrase, w.period? today = some p ∧ .keyword .FROM :: ts = w.tokens ++ rest := by
  unfold readFromTo at h
  split at h
  · simp at h
  · next first hfirst =>
    obtain ⟨raw, hraw, hstart⟩ := date_eq_ok_iff.mp hfirst
    obtain ⟨ts, rfl⟩ := List.head?_eq_some_iff.mp hraw
    simp only [List.tail_cons] at h
    split at h
    · split at h
      · simp at h
      · next last hlast =>
        obtain ⟨rfl, rfl⟩ := Prod.mk.inj (Except.ok.inj h)
        rcases endDate_eq_ok_iff.mp hlast with ⟨htoday, rfl⟩ | ⟨raw', hraw', hstop⟩
        · obtain ⟨ts, rfl⟩ := List.head?_eq_some_iff.mp htoday
          exact ⟨.fromTo raw none, by simp [WindowPhrase.period?, hstart], rfl⟩
        · obtain ⟨ts, rfl⟩ := List.head?_eq_some_iff.mp hraw'
          exact ⟨.fromTo raw (some raw'), by simp [WindowPhrase.period?, hstart, hstop], rfl⟩
    · simp at h

/-- **A window is read if the grammar derives it**, as the period that it denotes. -/
theorem Window.read_eq_ok_iff {today : Date} {ts rest : List Token} {p : Period} :
    Window.read today ts = .ok (p, rest) ↔
      ∃ w : WindowPhrase, w.period? today = some p ∧ ts = w.tokens ++ rest := by
  constructor
  · intro h
    unfold read at h
    split at h
    · obtain ⟨rfl, rfl⟩ := Prod.mk.inj (Except.ok.inj h)
      exact ⟨.today, rfl, rfl⟩
    · obtain ⟨rfl, rfl⟩ := Prod.mk.inj (Except.ok.inj h)
      exact ⟨.week, rfl, rfl⟩
    · obtain ⟨rfl, rfl⟩ := Prod.mk.inj (Except.ok.inj h)
      exact ⟨.month, rfl, rfl⟩
    · exact exists_phrase_of_readPast h
    · exact exists_phrase_of_readFromTo h
    · simp at h
  · rintro ⟨w, hp, rfl⟩
    rcases w with _ | _ | _ | ⟨n, _ | _ | _⟩ | ⟨first, _ | last⟩
    case fromTo.none =>
      simp only [WindowPhrase.period?, Option.bind_eq_bind, Option.bind_eq_some_iff] at hp
      obtain ⟨start, hstart, stop, hstop, hp⟩ := hp
      obtain rfl := Option.some.inj hp
      obtain rfl : today = stop := Option.some.inj hstop
      simp [read, readFromTo, WindowPhrase.tokens, Window.date, endDate, hstart]
    case fromTo.some =>
      simp only [WindowPhrase.period?, Option.bind_eq_bind, Option.bind_eq_some_iff] at hp
      obtain ⟨start, hstart, stop, hstop, hp⟩ := hp
      obtain rfl := Option.some.inj hp
      have hstop : Date.readStrict? last = some stop := hstop
      simp [read, readFromTo, WindowPhrase.tokens, Window.date, endDate, hstart, hstop]
    all_goals
      obtain rfl := Option.some.inj hp
      rfl

namespace Clause

theorem window_read_eq_ok_iff {today : Date} {d d' : Draft} {ts rest : List Token} :
    (Clause.window today).read d ts = .ok (d', rest) ↔
      ∃ (w : WindowPhrase) (p : Period), w.period? today = some p ∧ p.first ≤ p.last ∧
        p.first.span p.last ≤ longestWindow ∧ ts = w.tokens ++ rest ∧
        d' = { d with start := some p.first, stop := some p.last } := by
  simp only [window, Results.bind_eq_ok_iff]
  constructor
  · rintro ⟨⟨p, rest'⟩, hread, ⟨⟩, hcheck, h⟩
    obtain ⟨rfl, rfl⟩ := Prod.mk.inj (Except.ok.inj h)
    obtain ⟨w, hp, rfl⟩ := Window.read_eq_ok_iff.mp hread
    obtain ⟨hforward, hshort⟩ := checkWindow_eq_ok_iff.mp hcheck
    exact ⟨w, p, hp, hforward, hshort, rfl, rfl⟩
  · rintro ⟨w, p, hp, hforward, hshort, rfl, rfl⟩
    exact ⟨(p, rest), Window.read_eq_ok_iff.mpr ⟨w, hp, rfl⟩, (),
      checkWindow_eq_ok_iff.mpr ⟨hforward, hshort⟩, rfl⟩

theorem kind_read_eq_ok_iff {d d' : Draft} {ts rest : List Token} :
    kind.read d ts = .ok (d', rest) ↔
      ∃ k, ts = .keyword (kindKeyword k) :: rest ∧ d' = { d with kind := some k } := by
  constructor
  · intro h
    simp only [kind] at h
    split at h
    · obtain ⟨rfl, rfl⟩ := Prod.mk.inj (Except.ok.inj h)
      exact ⟨.summary, rfl, rfl⟩
    · obtain ⟨rfl, rfl⟩ := Prod.mk.inj (Except.ok.inj h)
      exact ⟨.list, rfl, rfl⟩
    · simp at h
  · rintro ⟨k, rfl, rfl⟩
    cases k <;> rfl

end Clause

end Timesheet
