import Timesheet.Proofs.Query.RoundTrip
/-!
# Queries that are read are in normal form

A query can be built that no text is read as: with an empty list, a client by number, a tag in capitals.
A query that is read from a text is in normal form (`Query.IsNormal`), on whatever way it was read: tags
with `#` and tags in quotes, windows of every kind, on any day.  So its canonical text is a fixed point,
which reads back on any other day as the same query and as no other one
(`Query.isNormal_and_reads_back`).  All that can go wrong there are the years, since `today` may lie in a
year that is not written with four digits.

The proof goes by the parts of the query.  Tokens that were cut from a text make readable parts
(`Query.readable_of_tokens`), and what is written for readable parts are tokens that read back.
-/

namespace Timesheet

open Grammar

/-- Tags in normal form: there are some, in lowercase, and none holds both kinds of quotes. -/
def NormalTags (tags : List String) : Prop :=
  tags ≠ [] ∧ ∀ tag ∈ tags, Text.lowercase tag = tag ∧ Quotable tag

namespace Query

variable {q q' : Query} {text : String} {today : Date}

/-- A query in normal form is well-formed, and so is each of its parts. -/
structure IsNormal (q : Query) : Prop extends q.WellFormed where
  /-- Projects are some numbers and names. -/
  projects : ∀ s, q.projects = some s → s.items ≠ [] ∧ ∀ name, .name name ∈ s.items → Quotable name
  /-- Clients are some names. -/
  clients : ∀ s, q.clients = some s →
    s.items ≠ [] ∧ ∀ i ∈ s.items, ∃ name, i = .name name ∧ Quotable name
  includedTags : ∀ tags, q.includedTags = some tags → NormalTags tags
  excludedTags : ∀ tags, q.excludedTags = some tags → NormalTags tags
  title : ∀ s, q.title = some s → Quotable s

/-- The parts of a query in normal form are those that read back. -/
theorem isNormal_iff : q.IsNormal ↔ q.WellFormed ∧ ∀ part ∈ q.parts, part.Readable := by
  constructor
  · intro h
    refine ⟨h.toWellFormed, fun part hpart => ?_⟩
    have hhas := (mem_parts q part).mp hpart
    cases part with
    | projects s => exact h.projects s hhas
    | clients s => exact h.clients s hhas
    | includedTags tags => exact h.includedTags tags hhas
    | excludedTags tags => exact h.excludedTags tags hhas
    | title s => exact h.title s hhas
    | sort order => trivial
    | grouping g => trivial
  · rintro ⟨hq, hparts⟩
    have hreadable : ∀ part : Part, q.toDraft.Has part → part.Readable := fun part hhas =>
      hparts part ((mem_parts q part).mpr hhas)
    exact
      { toWellFormed := hq
        projects := fun s hs => hreadable (.projects s) hs
        clients := fun s hs => hreadable (.clients s) hs
        includedTags := fun tags htags => hreadable (.includedTags tags) htags
        excludedTags := fun tags htags => hreadable (.excludedTags tags) htags
        title := fun s hs => hreadable (.title s) hs }

/-- **Whatever is read is in normal form.** -/
theorem isNormal_of_parse (h : parse text today = .ok q) : q.IsNormal := by
  rw [parse, Results.bind_eq_ok_iff] at h
  obtain ⟨ts, hts, h⟩ := h
  exact isNormal_iff.mpr (readable_of_tokens hts h)

/-- Canonical text is read only if it writes the years with four digits. -/
theorem hasPlainYear_of_parse (h : parse q.text today = .ok q') :
    q.start.HasPlainYear ∧ q.stop.HasPlainYear := by
  rw [parse, Results.bind_eq_ok_iff] at h
  obtain ⟨ts, hts, -⟩ := h
  exact hasPlainYear_of_tokens hts

/-- Then the canonical text of a query in normal form reads back. -/
theorem IsNormal.parse_text (h : q.IsNormal)
    (hyears : q.start.HasPlainYear ∧ q.stop.HasPlainYear) : parse q.text today = .ok q := by
  obtain ⟨hq, hparts⟩ := isNormal_iff.mp h
  have hreadable : q.Readable := ⟨hyears.1, hyears.2, hparts⟩
  rw [parse, tokens_text (isSpelled_phrase hreadable)]
  exact ofTokens_eq_ok_iff_phrase.mpr
    ⟨q.phrase, rfl, valid_phrase hq hreadable, query?_phrase hreadable⟩

/-- **A query that is read is in normal form, and its canonical text is a fixed point**: on any day the
text is read as that query and as no other, unless a year is not written with four digits. -/
theorem isNormal_and_reads_back (h : parse text today = .ok q) (t : Date) :
    q.IsNormal ∧
      (parse q.text t = .ok q ↔ q.start.HasPlainYear ∧ q.stop.HasPlainYear) ∧
      ∀ q', parse q.text t = .ok q' → q' = q ∧ q'.text = q.text := by
  have hnormal := isNormal_of_parse h
  refine ⟨hnormal, ⟨hasPlainYear_of_parse, hnormal.parse_text⟩, fun q' hq' => ?_⟩
  have hback : parse q.text t = .ok q := hnormal.parse_text (hasPlainYear_of_parse hq')
  obtain rfl : q' = q := Except.ok.inj (hq'.symm.trans hback)
  exact ⟨rfl, rfl⟩

/-- Tags with `#` and tags in quotes come to the same, and quotes of one kind hold those of the other.  The
canonical text reads back a hundred days later. -/
theorem tags_and_quotes_read_back :
    ∃ q, parse "list past 7 days include tags \"Late\" #TRIP title 'a \"b\" c'" (.clamp 737500) = .ok q ∧
      q.text = "LIST FROM 2020-03-10 TO 2020-03-16 INCLUDE TAGS #late, #trip TITLE 'a \"b\" c'" ∧
      parse q.text (.clamp 737600) = .ok q := by
  have h : parse "list past 7 days include tags \"Late\" #TRIP title 'a \"b\" c'" (.clamp 737500) =
      .ok { kind := .list, start := .clamp 737494, stop := .clamp 737500,
            includedTags := some ["late", "trip"], title := some "a \"b\" c" } := by
    decide +kernel
  have hback := (isNormal_and_reads_back h (.clamp 737600)).2.1.mpr (by decide)
  exact ⟨_, h, by decide +kernel, hback⟩

end Query

end Timesheet
