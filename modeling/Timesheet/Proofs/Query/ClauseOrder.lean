import Timesheet.Proofs.Query.Reading
/-!
# The order of clauses

Clauses may come in any order.  What the grammar asks for beyond the tokens is asked of each clause by itself
and of their slots without regard to order (`Phrase.Valid.of_perm`), and the query denoted has the same parts
(`queryOf_perm`).  Since clauses end where they should wherever they stand, tokens are accepted in one order if
and only if they are in the other (`Query.ofTokens_perm`), and so they are refused in both or in neither.
-/

namespace Timesheet

open Grammar

namespace Grammar

variable {kind : Kind} {w : WindowPhrase} {cs cs' : List ClausePhrase} {today : Date}

/-! ## 1. Phrases -/

theorem Phrase.Valid.of_perm (h : cs.Perm cs') (hvalid : (⟨kind, w, cs⟩ : Phrase).Valid today) :
    (⟨kind, w, cs'⟩ : Phrase).Valid today where
  window := hvalid.window
  clauses := fun c hc => hvalid.clauses c (h.mem_iff.mpr hc)
  grouped := fun g hg => hvalid.grouped g (h.mem_iff.mpr hg)
  once := ((h.map fun c => c.part.slot).nodup_iff).mp hvalid.once

/-- The query of some parts does not depend on their order, if no two of them share a slot. -/
theorem queryOf_perm {parts parts' : List Part} (h : parts.Perm parts')
    (honce : (parts.map Part.slot).Nodup) (kind : Kind) (p : Period) :
    queryOf kind p parts = queryOf kind p parts' := by
  have honce' : (parts'.map Part.slot).Nodup := ((h.map Part.slot).nodup_iff).mp honce
  refine Query.toDraft_injective (Draft.eq_of_has rfl rfl rfl fun part => ?_)
  rw [has_queryOf honce, has_queryOf honce', h.mem_iff]

theorem Phrase.query?_perm (h : cs.Perm cs') (hvalid : (⟨kind, w, cs⟩ : Phrase).Valid today) :
    (⟨kind, w, cs⟩ : Phrase).query? today = (⟨kind, w, cs'⟩ : Phrase).query? today := by
  have honce : ((cs.map ClausePhrase.part).map Part.slot).Nodup := by
    rw [List.map_map]
    exact hvalid.once
  simp only [Phrase.query?, queryOf_perm (h.map ClausePhrase.part) honce]

end Grammar

/-! ## 2. Tokens -/

namespace Query

/-- **The tokens of clauses that are each valid make up a query exactly if the whole phrase is valid.**
There is no other way to read them. -/
theorem ofTokens_tokens_eq_ok_iff {t : Phrase} (ht : ∀ c ∈ t.clauses, c.Valid) {today : Date}
    {q : Query} : ofTokens t.tokens today = .ok q ↔ t.Valid today ∧ t.query? today = some q := by
  rw [ofTokens_eq_ok_iff_phrase]
  constructor
  · rintro ⟨t', htokens, hvalid, hq⟩
    obtain rfl := Phrase.eq_of_clauses_valid hvalid.clauses ht htokens
    exact ⟨hvalid, hq⟩
  · rintro ⟨hvalid, hq⟩
    exact ⟨t, rfl, hvalid, hq⟩

/-- **The order of clauses does not matter.**  Behind the same kind and the same window, clauses and a
permutation of them make up the same query, or neither of them makes up a query. -/
theorem ofTokens_perm (kind : Kind) (w : WindowPhrase) {cs cs' : List ClausePhrase}
    (hcs : ∀ c ∈ cs, c.Valid) (hperm : cs.Perm cs') (today : Date) :
    ((∃ q, ofTokens (Phrase.tokens ⟨kind, w, cs⟩) today = .ok q) ↔
      ∃ q, ofTokens (Phrase.tokens ⟨kind, w, cs'⟩) today = .ok q) ∧
    ∀ q, ofTokens (Phrase.tokens ⟨kind, w, cs⟩) today = .ok q ↔
      ofTokens (Phrase.tokens ⟨kind, w, cs'⟩) today = .ok q := by
  have hcs' : ∀ c ∈ cs', c.Valid := fun c hc => hcs c (hperm.mem_iff.mpr hc)
  have hsame : ∀ q, ofTokens (Phrase.tokens ⟨kind, w, cs⟩) today = .ok q ↔
      ofTokens (Phrase.tokens ⟨kind, w, cs'⟩) today = .ok q := by
    intro q
    rw [ofTokens_tokens_eq_ok_iff hcs, ofTokens_tokens_eq_ok_iff hcs']
    constructor
    · rintro ⟨hvalid, hq⟩
      exact ⟨hvalid.of_perm hperm, (Phrase.query?_perm hperm hvalid) ▸ hq⟩
    · rintro ⟨hvalid, hq⟩
      exact ⟨hvalid.of_perm hperm.symm, (Phrase.query?_perm hperm.symm hvalid) ▸ hq⟩
  exact ⟨exists_congr hsame, hsame⟩

/-- A title that comes before the values of a selection, and after them. -/
theorem ofTokens_title_moved :
    ∃ q : Query, q.title = some "Trips" ∧ q.projects = some ⟨.keep, [.id 7, .name "Trips"]⟩ ∧
      ofTokens [.keyword .LIST, .keyword .TODAY, .keyword .TITLE, .text "Trips", .keyword .INCLUDE,
        .keyword .PROJECTS, .number 7, .text "Trips"] (.clamp 737455) = .ok q ∧
      ofTokens [.keyword .LIST, .keyword .TODAY, .keyword .INCLUDE, .keyword .PROJECTS, .number 7,
        .text "Trips", .keyword .TITLE, .text "Trips"] (.clamp 737455) = .ok q := by
  have hcs : ∀ c ∈ [.title "Trips", .select .keep .projects [.number 7, .text "Trips"]],
      ClausePhrase.Valid c := by
    simp [ClausePhrase.Valid, takes]
  have hvalid : (⟨.list, .today, [.title "Trips",
      .select .keep .projects [.number 7, .text "Trips"]]⟩ : Phrase).Valid (.clamp 737455) :=
    ⟨⟨_, rfl, by decide, by decide⟩, hcs, by simp, by decide⟩
  have hfirst := (ofTokens_tokens_eq_ok_iff hcs).mpr ⟨hvalid, rfl⟩
  have hmoved := ((ofTokens_perm .list .today hcs (List.Perm.swap _ _ []) (.clamp 737455)).2 _).mp hfirst
  exact ⟨_, rfl, rfl, hfirst, hmoved⟩

end Query

end Timesheet
