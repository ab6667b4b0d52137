import Timesheet.Proofs.Query.Clauses
/-!
# Reading follows the grammar

`Query.ofTokens` accepts the tokens of valid derivations and no others, and what it returns is the query
denoted (`Query.ofTokens_follows_grammar`).

The loop over clauses fills a draft part by part, as long as the draft lacks the slot of the part
(`Draft.readClauses_eq_ok_iff`); what is read in the end is a query with exactly the parts that the clauses
denote.
-/

namespace Timesheet

open Grammar

/-! ## 1. The loop over clauses -/

namespace Draft

variable {d d' : Draft} {cs : List ClausePhrase} {ts : List Token}

/-- The draft takes the clauses one after the other. -/
structure Admits (d : Draft) (cs : List ClausePhrase) : Prop where
  valid : ∀ c ∈ cs, c.Valid
  lacks : ∀ c ∈ cs, d.Lacks c.part.slot
  once : (cs.map fun c => c.part.slot).Nodup
  grouped : ∀ g, .group g ∈ cs → d.kind = some .list

/-- The draft with the parts that clauses denote. -/
def fill (d : Draft) (cs : List ClausePhrase) : Draft := cs.foldl (fun d c => d.add c.part) d

/-- **A draft takes the first clause, and with its part the others.** -/
theorem admits_cons {c : ClausePhrase} :
    d.Admits (c :: cs) ↔ Clause.Takes d c ∧ (d.add c.part).Admits cs := by
  constructor
  · rintro ⟨hvalid, hlacks, honce, hgrouped⟩
    rw [List.map_cons, List.nodup_cons, List.mem_map] at honce
    refine ⟨⟨hvalid c List.mem_cons_self, hlacks c List.mem_cons_self, ?_⟩, ?_, ?_, honce.2, ?_⟩
    · rintro g rfl
      exact hgrouped g List.mem_cons_self
    · exact fun c' hc' => hvalid c' (List.mem_cons_of_mem _ hc')
    · intro c' hc'
      refine lacks_add.mpr ⟨fun hslot => honce.1 ⟨c', hc', hslot.symm⟩, ?_⟩
      exact hlacks c' (List.mem_cons_of_mem _ hc')
    · intro g hg
      rw [kind_add]
      exact hgrouped g (List.mem_cons_of_mem _ hg)
  · rintro ⟨htakes, hvalid, hlacks, honce, hgrouped⟩
    refine ⟨List.forall_mem_cons.mpr ⟨htakes.valid, hvalid⟩,
      List.forall_mem_cons.mpr ⟨htakes.lacks, fun c' hc' => (lacks_add.mp (hlacks c' hc')).2⟩, ?_, ?_⟩
    · rw [List.map_cons, List.nodup_cons, List.mem_map]
      refine ⟨?_, honce⟩
      rintro ⟨c', hc', hslot⟩
      exact (lacks_add.mp (hlacks c' hc')).1 hslot.symm
    · intro g hg
      rcases List.mem_cons.mp hg with rfl | hg
      · exact htakes.grouped g rfl
      · rw [← kind_add d c.part]
        exact hgrouped g hg

theorem endsBefore_flatMap (cs : List ClausePhrase) (c : ClausePhrase) :
    Clause.EndsBefore (cs.flatMap ClausePhrase.tokens) c := by
  cases c with
  | select => exact resumes_flatMap cs
  | _ => trivial

/-- Clauses that the draft takes are read to the end. -/
theorem readClauses_flatMap (h : d.Admits cs) :
    d.readClauses (cs.flatMap ClausePhrase.tokens) = .ok (d.fill cs, []) := by
  induction cs generalizing d with
  | nil =>
    rw [List.flatMap_nil, readClauses, if_neg (by simp [Clause.accepts])]
    rfl
  | cons c cs ih =>
    obtain ⟨htakes, htail⟩ := admits_cons.mp h
    have hread : Clause.further.read d (c.tokens ++ cs.flatMap ClausePhrase.tokens) =
        .ok (d.add c.part, cs.flatMap ClausePhrase.tokens) :=
      Clause.further_read_eq_ok_iff.mpr ⟨c, htakes, rfl, endsBefore_flatMap cs c, rfl⟩
    have haccepts : Clause.further.accepts (c.tokens ++ cs.flatMap ClausePhrase.tokens) = true := by
      rw [Clause.accepts_iff]
      rcases c with ⟨_ | _, subject, values⟩ | order | g | s <;>
        exact ⟨_, _, rfl, by decide⟩
    rw [List.flatMap_cons, readClauses, if_pos haccepts]
    split
    · next err he =>
      rw [hread] at he
      simp at he
    · next d₁ rest he =>
      rw [hread] at he
      obtain ⟨rfl, rfl⟩ := Prod.mk.inj (Except.ok.inj he)
      exact ih htail

/-- Tokens that are read to the end are those of clauses that the draft takes.  The induction follows
the loop. -/
theorem exists_clauses_of_readClauses (h : d.readClauses ts = .ok (d', [])) :
    ∃ cs, cs.flatMap ClausePhrase.tokens = ts ∧ d.Admits cs ∧ d.fill cs = d' := by
  fun_induction readClauses d ts with
  | case1 d ts haccepts err hread => simp at h
  | case2 d ts haccepts d₁ rest hread ih =>
    obtain ⟨cs, rfl, hcs, hd'⟩ := ih h
    obtain ⟨c, htakes, rfl, -, rfl⟩ := Clause.further_read_eq_ok_iff.mp hread
    exact ⟨c :: cs, List.flatMap_cons, admits_cons.mpr ⟨htakes, hcs⟩, hd'⟩
  | case3 d ts haccepts =>
    obtain ⟨rfl, rfl⟩ := Prod.mk.inj (Except.ok.inj h)
    exact ⟨[], rfl, ⟨by simp, by simp, by simp, by simp⟩, rfl⟩

/-- **Clauses are read to the end exactly if the draft takes them**, and then it has their parts. -/
theorem readClauses_eq_ok_iff :
    d.readClauses ts = .ok (d', []) ↔
      ∃ cs, cs.flatMap ClausePhrase.tokens = ts ∧ d.Admits cs ∧ d.fill cs = d' := by
  refine ⟨exists_clauses_of_readClauses, ?_⟩
  rintro ⟨cs, rfl, hcs, rfl⟩
  exact readClauses_flatMap hcs

/-! ## 2. A filled draft -/

theorem has_fill (h : d.Admits cs) (part : Part) :
    (d.fill cs).Has part ↔ part ∈ cs.map ClausePhrase.part ∨ d.Has part := by
  induction cs generalizing d with
  | nil => simp [fill]
  | cons c cs ih =>
    obtain ⟨htakes, htail⟩ := admits_cons.mp h
    have hfill : d.fill (c :: cs) = (d.add c.part).fill cs := rfl
    rw [hfill, ih htail, has_add htakes.lacks, List.map_cons, List.mem_cons, ← or_assoc,
      or_comm (a := part ∈ _)]

theorem frame_fill (d : Draft) (cs : List ClausePhrase) :
    (d.fill cs).kind = d.kind ∧ (d.fill cs).start = d.start ∧ (d.fill cs).stop = d.stop := by
  induction cs generalizing d with
  | nil => exact ⟨rfl, rfl, rfl⟩
  | cons c cs ih =>
    obtain ⟨hkind, hstart, hstop⟩ := ih (d.add c.part)
    exact ⟨hkind.trans (by simp), hstart.trans (by simp), hstop.trans (by simp)⟩

/-- **The drafts that can be finished are those that know all of a well-formed query.** -/
theorem finish_eq_ok_iff {d : Draft} {q : Query} :
    d.finish = .ok q ↔ d = q.toDraft ∧ q.WellFormed := by
  constructor
  · intro h
    rcases d with ⟨_ | kind, _ | start, _ | stop, projects, clients, included, excluded, sort,
      grouping, title⟩
    case some.some.some =>
      simp only [finish, Results.bind_eq_ok_iff] at h
      obtain ⟨⟨⟩, hwindow, h⟩ := h
      obtain ⟨hforward, hshort⟩ := checkWindow_eq_ok_iff.mp hwindow
      split at h
      · simp [throw, throwThe, MonadExceptOf.throw] at h
      · next hgrouped =>
        obtain rfl := Except.ok.inj h
        refine ⟨rfl, hforward, hshort, fun hsome => ?_⟩
        by_contra hkind
        exact hgrouped ⟨hsome, hkind⟩
    all_goals simp [finish, throw, throwThe, MonadExceptOf.throw] at h
  · rintro ⟨rfl, hq⟩
    have hgrouped : ¬ (q.grouping.isSome ∧ q.kind ≠ .list) := fun h => h.2 (hq.grouped h.1)
    simp only [finish, Query.toDraft, checkWindow_eq_ok_iff.mpr ⟨hq.forward, hq.short⟩]
    exact if_neg hgrouped
end Draft

/-- Of parts no two of which share a slot, the first of a slot is the only one. -/
theorem findSome?_eq_some_iff {β : Type} {parts : List Part} {f : Part → Option β}
    (mk : β → Part) (hf : ∀ part b, f part = some b ↔ part = mk b)
    (hslot : ∀ b b', (mk b).slot = (mk b').slot) (honce : (parts.map Part.slot).Nodup) (b : β) :
    parts.findSome? f = some b ↔ mk b ∈ parts := by
  induction parts with
  | nil => simp
  | cons part parts ih =>
    obtain ⟨hnew, honce⟩ := List.nodup_cons.mp honce
    rw [List.findSome?_cons, List.mem_cons]
    cases hb : f part with
    | some b' =>
      obtain rfl := (hf part b').mp hb
      constructor
      · rintro h
        exact Or.inl (congrArg mk (Option.some.inj h).symm)
      · rintro (h | h)
        · have hsome := (hf (mk b') b).mpr h.symm
          simp only [hb] at hsome ⊢
          exact hsome
        · exact absurd (List.mem_map.mpr ⟨_, h, hslot b b'⟩) hnew
    | none =>
      simp only
      rw [ih honce]
      refine ⟨Or.inr, fun h => h.resolve_left fun heq => ?_⟩
      rw [(hf part b).mpr heq.symm] at hb
      simp at hb

/-- **The query of some parts has exactly these parts**, if no two of them share a slot. -/
theorem has_queryOf {parts : List Part} (honce : (parts.map Part.slot).Nodup) (kind : Kind)
    (p : Period) (part : Part) : (queryOf kind p parts).toDraft.Has part ↔ part ∈ parts := by
  cases part with
  | projects s =>
    exact findSome?_eq_some_iff .projects (by rintro ⟨⟩ <;> simp) (fun _ _ => rfl) honce s
  | clients s =>
    exact findSome?_eq_some_iff .clients (by rintro ⟨⟩ <;> simp) (fun _ _ => rfl) honce s
  | includedTags tags =>
    exact findSome?_eq_some_iff .includedTags (by rintro ⟨⟩ <;> simp) (fun _ _ => rfl) honce
      tags
  | excludedTags tags =>
    exact findSome?_eq_some_iff .excludedTags (by rintro ⟨⟩ <;> simp) (fun _ _ => rfl) honce
      tags
  | sort order =>
    exact findSome?_eq_some_iff .sort (by rintro ⟨⟩ <;> simp) (fun _ _ => rfl) honce order
  | grouping g =>
    exact findSome?_eq_some_iff .grouping (by rintro ⟨⟩ <;> simp) (fun _ _ => rfl) honce g
  | title s =>
    exact findSome?_eq_some_iff .title (by rintro ⟨⟩ <;> simp) (fun _ _ => rfl) honce s

/-! ## 3. The whole query -/

namespace Query

variable {ts : List Token} {today : Date} {q : Query}

theorem toDraft_injective {q q' : Query} (h : q.toDraft = q'.toDraft) : q = q' := by
  cases q
  cases q'
  simp_all [toDraft]

/-- The draft after the window. -/
def opening (kind : Kind) (p : Period) : Draft where
  kind := some kind
  start := some p.first
  stop := some p.last

/-- What the opening of a query admits are the clauses of a valid phrase. -/
theorem admits_opening_iff {kind : Kind} {p : Period} {cs : List ClausePhrase} :
    (opening kind p).Admits cs ↔ (∀ c ∈ cs, c.Valid) ∧ (∀ g, .group g ∈ cs → kind = .list) ∧
      (cs.map fun c => c.part.slot).Nodup := by
  constructor
  · rintro ⟨hvalid, -, honce, hgrouped⟩
    exact ⟨hvalid, fun g hg => Option.some.inj (hgrouped g hg), honce⟩
  · rintro ⟨hvalid, hgrouped, honce⟩
    refine ⟨hvalid, fun c _ => ?_, honce, fun g hg => congrArg some (hgrouped g hg)⟩
    cases c.part.slot <;> rfl

/-- The opening with all clauses is the query that they denote. -/
theorem fill_opening {kind : Kind} {p : Period} {cs : List ClausePhrase}
    (h : (opening kind p).Admits cs) :
    (opening kind p).fill cs = (queryOf kind p (cs.map ClausePhrase.part)).toDraft := by
  have honce : ((cs.map ClausePhrase.part).map Part.slot).Nodup := by
    rw [List.map_map]
    exact h.once
  obtain ⟨hkind, hstart, hstop⟩ := Draft.frame_fill (opening kind p) cs
  refine Draft.eq_of_has hkind hstart hstop fun part => ?_
  rw [Draft.has_fill h, has_queryOf honce]
  refine or_iff_left fun hhas => ?_
  cases part <;> simp [Draft.Has, opening] at hhas

/-- Only lists are grouped among the queries that valid phrases denote. -/
theorem wellFormed_queryOf {kind : Kind} {p : Period} {cs : List ClausePhrase}
    (hforward : p.first ≤ p.last) (hshort : p.first.span p.last ≤ longestWindow)
    (h : (opening kind p).Admits cs) : (queryOf kind p (cs.map ClausePhrase.part)).WellFormed := by
  refine ⟨hforward, hshort, fun hgrouping => ?_⟩
  obtain ⟨g, hg⟩ := Option.isSome_iff_exists.mp hgrouping
  have honce : ((cs.map ClausePhrase.part).map Part.slot).Nodup := by
    rw [List.map_map]
    exact h.once
  obtain ⟨c, hc, hpart⟩ := List.mem_map.mp ((has_queryOf honce kind p (.grouping g)).mp hg)
  obtain rfl : c = .group g := by
    rcases c with ⟨_ | _, _ | _ | _, values⟩ | order | g' | s <;> simp_all [ClausePhrase.part]
  exact (admits_opening_iff.mp h).2.1 g hc

/-- **Tokens make up a query exactly if they have a valid derivation that denotes it.** -/
theorem ofTokens_eq_ok_iff_phrase :
    ofTokens ts today = .ok q ↔ ∃ t : Phrase, t.tokens = ts ∧ t.Valid today ∧ t.query? today = some q := by
  simp only [ofTokens, Results.bind_eq_ok_iff]
  constructor
  · rintro ⟨⟨d₁, ts₁⟩, hkind, ⟨d₂, ts₂⟩, hwindow, ⟨d₃, ts₃⟩, hclauses, h⟩
    obtain ⟨kind, rfl, rfl⟩ := Clause.kind_read_eq_ok_iff.mp hkind
    obtain ⟨w, p, hp, hforward, hshort, rfl, rfl⟩ := Clause.window_read_eq_ok_iff.mp hwindow
    simp only at h hclauses
    split at h
    · obtain ⟨cs, rfl, hcs, rfl⟩ := Draft.readClauses_eq_ok_iff.mp hclauses
      have hadmits : (opening kind p).Admits cs := hcs
      have hfill := fill_opening hadmits
      rw [opening] at hfill
      rw [hfill] at h
      obtain ⟨hq, -⟩ := Draft.finish_eq_ok_iff.mp h
      obtain ⟨hvalid, hgrouped, honce⟩ := admits_opening_iff.mp hadmits
      refine ⟨⟨kind, w, cs⟩, rfl, ⟨⟨p, hp, hforward, hshort⟩, hvalid, hgrouped, honce⟩, ?_⟩
      rw [Phrase.query?, hp, Option.map_some, Option.some.injEq]
      exact toDraft_injective hq
    · simp at h
  · rintro ⟨⟨kind, w, cs⟩, rfl, ⟨⟨p, hp, hforward, hshort⟩, hvalid, hgrouped, honce⟩, hq⟩
    rw [Phrase.query?, hp, Option.map_some, Option.some.injEq] at hq
    have hadmits : (opening kind p).Admits cs := admits_opening_iff.mpr ⟨hvalid, hgrouped, honce⟩
    refine ⟨_, Clause.kind_read_eq_ok_iff.mpr ⟨kind, rfl, rfl⟩, _,
      Clause.window_read_eq_ok_iff.mpr ⟨w, p, hp, hforward, hshort, rfl, rfl⟩, _,
      Draft.readClauses_flatMap hadmits, ?_⟩
    have hfill := fill_opening hadmits
    rw [opening] at hfill
    simp only
    rw [hfill, hq]
    exact Draft.finish_eq_ok_iff.mpr
      ⟨rfl, hq ▸ wellFormed_queryOf hforward hshort hadmits⟩

/-- A valid phrase denotes a query. -/
theorem exists_query_of_valid {t : Phrase} (ht : t.Valid today) : ∃ q, t.query? today = some q := by
  obtain ⟨p, hp, -⟩ := ht.window
  exact ⟨_, by rw [Phrase.query?, hp, Option.map_some]⟩

/-- **Exactly the grammar is accepted.**  Tokens are accepted if and only if they have a valid
derivation; there is only one, and what is returned is the query that it denotes. -/
theorem ofTokens_follows_grammar (ts : List Token) (today : Date) :
    ((∃ q, ofTokens ts today = .ok q) ↔ ∃ t : Phrase, t.tokens = ts ∧ t.Valid today) ∧
    ∀ t : Phrase, t.tokens = ts → t.Valid today →
      (∀ t' : Phrase, t'.tokens = ts → t'.Valid today → t' = t) ∧
        ∀ q, ofTokens ts today = .ok q ↔ t.query? today = some q := by
  have hunique : ∀ t t' : Phrase, t.tokens = ts → t.Valid today → t'.tokens = ts →
      t'.Valid today → t' = t := by
    intro t t' htokens ht htokens' ht'
    exact Phrase.eq_of_tokens_eq ht' ht (htokens'.trans htokens.symm)
  refine ⟨⟨?_, ?_⟩, fun t htokens ht => ⟨fun t' => hunique t t' htokens ht, fun q => ?_⟩⟩
  · rintro ⟨q, h⟩
    obtain ⟨t, htokens, ht, -⟩ := ofTokens_eq_ok_iff_phrase.mp h
    exact ⟨t, htokens, ht⟩
  · rintro ⟨t, htokens, ht⟩
    obtain ⟨q, hq⟩ := exists_query_of_valid ht
    exact ⟨q, ofTokens_eq_ok_iff_phrase.mpr ⟨t, htokens, ht, hq⟩⟩
  · constructor
    · intro h
      obtain ⟨t', htokens', ht', hq⟩ := ofTokens_eq_ok_iff_phrase.mp h
      rwa [hunique t t' htokens ht htokens' ht'] at hq
    · exact fun hq => ofTokens_eq_ok_iff_phrase.mpr ⟨t, htokens, ht, hq⟩

/-- The longest window that may be listed, grouped by day. -/
theorem ofTokens_longest_list :
    ofTokens [.keyword .LIST, .keyword .PAST, .number 366, .keyword .DAYS, .keyword .EXCLUDE,
        .keyword .TAGS, .tag "late", .tag "trip", .keyword .GROUP, .keyword .BY, .keyword .DATE]
      (.clamp 1000) = .ok
        { kind := .list, start := .clamp 635, stop := .clamp 1000,
          excludedTags := some ["late", "trip"], grouping := some .date } := by
  refine (((ofTokens_follows_grammar _ _).2
    ⟨.list, .past 366 .days, [.select .drop .tags [.tag "late", .tag "trip"], .group .date]⟩
    rfl ?_).2 _).mpr ?_
  · refine ⟨⟨⟨.clamp 635, .clamp 1000⟩, ?_, ?_, ?_⟩, ?_, ?_, ?_⟩
    · rfl
    · decide
    · decide
    · simp [ClausePhrase.Valid, takes]
    · simp
    · decide
  · rfl

end Query

end Timesheet
