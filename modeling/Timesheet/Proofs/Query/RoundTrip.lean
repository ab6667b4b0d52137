import Timesheet.Proofs.Query.Lexing
import Timesheet.Proofs.Query.Reading
/-!
# Canonical text reads back

The canonical text of a query reads back as that query in exactly the cases of `Query.Readable`: both
dates have a plain year, no list is empty, clients are given by name, tags are in lowercase, and no name
holds both kinds of quotes (`Query.parse_text_eq_ok_iff`).

The text is that of a phrase (`Query.phrase`), word by word (`Query.toList_text`).  If the query is
readable, the words read back one by one, and by the grammar the phrase denotes the query.  If the text
reads back, its words show that the years are plain; all else holds of every query that is read from any
text (`Query.readable_of_tokens`).
-/

namespace Timesheet

open Grammar

/-! ## 1. The phrase of a query -/

/-- The value that is written for an item. -/
def Item.token : Item → Token
  | .id n => .number n
  | .name s => .text s

/-- The value that is written for a tag. -/
def tagToken (tag : String) : Token := if isBareTag tag then .tag tag else .text tag

/-- The clause that is written for a part. -/
def Grammar.Part.clause : Part → ClausePhrase
  | .projects s => .select s.mode .projects (s.items.map Item.token)
  | .clients s => .select s.mode .clients (s.items.map Item.token)
  | .includedTags tags => .select .keep .tags (tags.map tagToken)
  | .excludedTags tags => .select .drop .tags (tags.map tagToken)
  | .sort order => .sort order
  | .grouping g => .group g
  | .title s => .title s

namespace Query

/-- The parts of a query, in the order in which they are written. -/
def parts (q : Query) : List Part :=
  (q.projects.map Part.projects).toList ++ ((q.clients.map Part.clients).toList ++
    ((q.includedTags.map Part.includedTags).toList ++
      ((q.excludedTags.map Part.excludedTags).toList ++ ((q.sort.map Part.sort).toList ++
        ((q.grouping.map Part.grouping).toList ++ (q.title.map Part.title).toList)))))

/-- The derivation of what is written for a query. -/
def phrase (q : Query) : Phrase where
  kind := q.kind
  window := .fromTo q.start.text (some q.stop.text)
  clauses := q.parts.map Part.clause

theorem mem_parts (q : Query) (part : Part) : part ∈ q.parts ↔ q.toDraft.Has part := by
  cases part <;> simp [parts, Draft.Has, toDraft]

/-- No two parts of a query share a slot. -/
theorem once_parts (q : Query) : (q.parts.map Part.slot).Nodup := by
  have hone : ∀ {α : Type} (o : Option α) (mk : α → Part) (slot : Slot),
      (∀ a, (mk a).slot = slot) → ((o.map mk).toList.map Part.slot).Sublist [slot] := by
    intro α o mk slot hslot
    cases o with
    | none => simp
    | some a => simp [hslot a]
  have hprojects := hone q.projects Part.projects .projects fun _ => rfl
  have hclients := hone q.clients Part.clients .clients fun _ => rfl
  have hincluded := hone q.includedTags Part.includedTags .includedTags fun _ => rfl
  have hexcluded := hone q.excludedTags Part.excludedTags .excludedTags fun _ => rfl
  have hsort := hone q.sort Part.sort .sort fun _ => rfl
  have hgrouping := hone q.grouping Part.grouping .grouping fun _ => rfl
  have htitle := hone q.title Part.title .title fun _ => rfl
  have hsub := hprojects.append (hclients.append (hincluded.append (hexcluded.append
    (hsort.append (hgrouping.append htitle)))))
  simp only [← List.map_append] at hsub
  exact List.Sublist.nodup hsub (by decide)

/-- A query is made up of its kind, its window and its parts. -/
theorem queryOf_parts (q : Query) : queryOf q.kind ⟨q.start, q.stop⟩ q.parts = q := by
  refine toDraft_injective (Draft.eq_of_has rfl rfl rfl fun part => ?_)
  rw [has_queryOf q.once_parts, mem_parts]

end Query

/-! ## 2. The words of a phrase -/

/-- Words with a blank before each. -/
def spaced (ts : List Token) : List Word := ts.map fun t => ⟨[' '], t⟩

/-- The words of a list of values, with commas between them. -/
def listed : List Token → List Word
  | [] => []
  | t :: ts => ⟨[' '], t⟩ :: ts.map fun t => ⟨[',', ' '], t⟩

/-- The words of a clause. -/
def Grammar.ClausePhrase.words : ClausePhrase → List Word
  | .select mode subject values =>
    spaced [.keyword mode.keyword, .keyword subject.keyword] ++ listed values
  | c => spaced c.tokens

/-- The words of a query, but for the first. -/
def Grammar.Phrase.laterWords (t : Phrase) : List Word :=
  spaced t.window.tokens ++ t.clauses.flatMap ClausePhrase.words

theorem map_token_listed (ts : List Token) : (listed ts).map Word.token = ts := by
  cases ts with
  | nil => rfl
  | cons t ts => simp [listed, List.map_map, Function.comp_def]

theorem map_token_spaced (ts : List Token) : (spaced ts).map Word.token = ts := by
  simp [spaced, List.map_map, Function.comp_def]

theorem map_token_words (c : ClausePhrase) : c.words.map Word.token = c.tokens := by
  cases c with
  | select mode subject values =>
    rw [ClausePhrase.words, List.map_append, map_token_spaced, map_token_listed]
    rfl
  | _ => exact map_token_spaced _

/-- The words of a phrase are its tokens. -/
theorem map_token_laterWords (t : Phrase) :
    .keyword (kindKeyword t.kind) :: t.laterWords.map Word.token = t.tokens := by
  rw [Phrase.laterWords, List.map_append, map_token_spaced, List.map_flatMap, Phrase.tokens]
  simp only [map_token_words]

/-! ## 3. The text of a query, word by word -/

theorem flatMap_chars_listed {t : Token} {ts : List Token} :
    (listed (t :: ts)).flatMap Word.chars =
      ' ' :: [',', ' '].intercalate ((t :: ts).map Token.spelling) := by
  have htail : ∀ ts : List Token, ∀ t : Token,
      [',', ' '].intercalate ((t :: ts).map Token.spelling) =
        t.spelling ++ (ts.map fun t => (⟨[',', ' '], t⟩ : Word)).flatMap Word.chars := by
    intro ts
    induction ts with
    | nil => intro t; simp
    | cons t' ts ih =>
      intro t
      have hrest := ih t'
      simp only [List.map_cons] at hrest ⊢
      rw [List.intercalate_cons_cons, hrest]
      simp [Word.chars]
  rw [htail ts t]
  simp [listed, Word.chars]

/-- Values are written as the words of their tokens. -/
theorem toList_valuesText {α : Type} (keywords : String) {values : List α} (text : α → String)
    (token : α → Token) (htext : ∀ a, (text a).toList = (token a).spelling) :
    (Query.valuesText keywords (values.map text)).toList =
      ' ' :: keywords.toList ++ (listed (values.map token)).flatMap Word.chars := by
  cases values with
  | nil => simp [Query.valuesText, listed]
  | cons a values =>
    rw [List.map_cons, List.map_cons, flatMap_chars_listed]
    simp only [Query.valuesText, String.toList_append, String.toList_intercalate, List.map_cons,
      List.map_map, Function.comp_def, htext]
    simp

theorem spelling_token (i : Item) : i.text.toList = i.token.spelling := by
  cases i with
  | id n => simp [Item.text, Item.token, Token.spelling, Decimal.text]
  | name s => rfl

theorem spelling_tagToken (tag : String) : (tagText tag).toList = (tagToken tag).spelling := by
  unfold tagText tagToken
  split
  · simp [Token.spelling]
  · rfl

/-- The text of a part that may be missing. -/
theorem toList_optional {α : Type} (mk : α → Part) {text : Option α → String}
    (hnone : text none = "")
    (hsome : ∀ a, (text (some a)).toList = (mk a).clause.words.flatMap Word.chars) (o : Option α) :
    (text o).toList =
      (((o.map mk).toList.map Part.clause).flatMap ClausePhrase.words).flatMap Word.chars := by
  cases o with
  | none => simp [hnone]
  | some a => simp [hsome a]

theorem toList_selectionText (subject : Subject) (s : Selection) :
    (Query.selectionText subject (some s)).toList =
      (ClausePhrase.select s.mode subject (s.items.map Item.token)).words.flatMap Word.chars := by
  rw [Query.selectionText, toList_valuesText _ Item.text Item.token spelling_token]
  simp [ClausePhrase.words, spaced, Word.chars, Token.spelling]

theorem toList_tagsText (mode : Mode) (tags : List String) :
    (Query.tagsText mode (some tags)).toList =
      (ClausePhrase.select mode .tags (tags.map tagToken)).words.flatMap Word.chars := by
  have hkeyword : Subject.tags.keyword.text = "TAGS" := rfl
  rw [Query.tagsText, toList_valuesText _ tagText tagToken spelling_tagToken]
  simp [ClausePhrase.words, spaced, Word.chars, Token.spelling, hkeyword]

theorem toList_kindText (kind : Kind) :
    (Query.kindText kind).toList = (Token.keyword (kindKeyword kind)).spelling := by
  cases kind <;> rfl

theorem toList_sortText (order : SortOrder) :
    (Query.sortText (some order)).toList =
      (ClausePhrase.sort order).words.flatMap Word.chars := by
  cases order <;> rfl

theorem toList_groupingText (g : Grouping) :
    (Query.groupingText (some g)).toList = (ClausePhrase.group g).words.flatMap Word.chars := by
  cases g <;> rfl

theorem toList_titleText (s : String) :
    (Query.titleText (some s)).toList = (ClausePhrase.title s).words.flatMap Word.chars := by
  simp [Query.titleText, ClausePhrase.words, ClausePhrase.tokens, spaced, Word.chars,
    Token.spelling, Keyword.text]

/-- **The text of a query is that of its phrase, word by word.** -/
theorem Query.toList_text (q : Query) :
    q.text.toList = (Token.keyword (kindKeyword q.kind)).spelling ++
      q.phrase.laterWords.flatMap Word.chars := by
  have hprojects := toList_optional .projects rfl (toList_selectionText .projects) q.projects
  have hclients := toList_optional .clients rfl (toList_selectionText .clients) q.clients
  have hincluded := toList_optional .includedTags rfl (toList_tagsText .keep) q.includedTags
  have hexcluded := toList_optional .excludedTags rfl (toList_tagsText .drop) q.excludedTags
  have hsort := toList_optional .sort rfl toList_sortText q.sort
  have hgrouping := toList_optional .grouping rfl toList_groupingText q.grouping
  have htitle := toList_optional .title rfl toList_titleText q.title
  have hwindow : (spaced q.phrase.window.tokens).flatMap Word.chars =
      " FROM ".toList ++ (q.start.text.toList ++ (" TO ".toList ++ q.stop.text.toList)) := by
    simp [phrase, WindowPhrase.tokens, spaced, Word.chars, Token.spelling, Keyword.text]
  simp only [Phrase.laterWords, List.flatMap_append, hwindow]
  simp only [text, phrase, parts, List.map_append, List.flatMap_append, String.toList_append,
    List.append_assoc, toList_kindText, hprojects, hclients, hincluded, hexcluded, hsort, hgrouping,
    htitle]

/-! ## 4. Cutting the text -/

theorem isParted_blank (t : Token) : Word.IsParted ⟨[' '], t⟩ := by
  refine ⟨by simp, ?_⟩
  intro c hc
  rw [List.mem_singleton.mp hc]
  decide

theorem isParted_comma (t : Token) : Word.IsParted ⟨[',', ' '], t⟩ := by
  refine ⟨by simp, ?_⟩
  intro c hc
  rcases List.mem_cons.mp hc with rfl | hc
  · decide
  · exact (isParted_blank t).sep c hc

theorem isParted_of_mem_spaced {ts : List Token} {w : Word} (h : w ∈ spaced ts) : w.IsParted := by
  obtain ⟨t, -, rfl⟩ := List.mem_map.mp h
  exact isParted_blank t

theorem isParted_of_mem_listed {ts : List Token} {w : Word} (h : w ∈ listed ts) : w.IsParted := by
  cases ts with
  | nil => simp [listed] at h
  | cons t ts =>
    rcases List.mem_cons.mp h with rfl | h
    · exact isParted_blank t
    · obtain ⟨t', -, rfl⟩ := List.mem_map.mp h
      exact isParted_comma t'

/-- All words but the first stand behind separators. -/
theorem isParted_of_mem_words {c : ClausePhrase} {w : Word} (h : w ∈ c.words) : w.IsParted := by
  cases c with
  | select mode subject values =>
    rcases List.mem_append.mp h with h | h
    · exact isParted_of_mem_spaced h
    · exact isParted_of_mem_listed h
  | _ => exact isParted_of_mem_spaced h

namespace Query

variable {q : Query} {today : Date}

theorem isParted_of_mem_laterWords {t : Phrase} {w : Word} (h : w ∈ t.laterWords) :
    w.IsParted := by
  rcases List.mem_append.mp h with h | h
  · exact isParted_of_mem_spaced h
  · obtain ⟨c, -, h⟩ := List.mem_flatMap.mp h
    exact isParted_of_mem_words h

/-- The pieces of a text that starts with these words. -/
theorem pieces_text {words words' : List Word} (h : q.phrase.laterWords = words ++ words')
    (hwords : ∀ w ∈ words, w.token.spelling ≠ [] ∧ Lexer.isClosed none w.token.spelling = true) :
    Lexer.pieces q.text.toList = (Token.keyword (kindKeyword q.kind)).spelling ::
      (words.map (fun w => w.token.spelling) ++ Lexer.pieces (words'.flatMap Word.chars)) := by
  have hparted : ∀ w ∈ words ++ words', w.IsParted := fun w hw =>
    isParted_of_mem_laterWords (h ▸ hw)
  have hkind := isSpelled_keyword (kindKeyword q.kind)
  have hends : ∀ l : List Word, (∀ w ∈ l, w.IsParted) → Lexer.EndsPiece (l.flatMap Word.chars) := by
    intro l hl
    have hl := Lexer.endsPiece_words hl Lexer.endsPiece_nil
    rwa [List.append_nil] at hl
  have hfirst := Lexer.pieces_cons (List.forall_mem_nil _) hkind.ne_nil hkind.closed
    (hends _ hparted)
  rw [toList_text, h, ← List.nil_append (_ ++ _), hfirst, List.flatMap_append, Lexer.pieces_words]
  · intro w hw
    exact ⟨hparted w (List.mem_append_left _ hw), (hwords w hw).1, (hwords w hw).2⟩
  · exact hends words' fun w hw => hparted w (List.mem_append_right _ hw)

/-- **A text falls apart into the tokens of its phrase**, if each of them reads back. -/
theorem tokens_text (h : ∀ t ∈ q.phrase.tokens, t.IsSpelled) :
    Lexer.tokens q.text = .ok q.phrase.tokens := by
  have hwords : ∀ w ∈ q.phrase.laterWords, w.token.IsSpelled := by
    intro w hw
    refine h w.token ?_
    rw [← map_token_laterWords]
    exact List.mem_cons_of_mem _ (List.mem_map_of_mem hw)
  have hpieces : Lexer.pieces q.text.toList = q.phrase.tokens.map Token.spelling := by
    rw [pieces_text (List.append_nil _).symm fun w hw => ⟨(hwords w hw).ne_nil, (hwords w hw).closed⟩,
      ← map_token_laterWords, List.map_cons, List.map_map]
    simp [phrase, Lexer.pieces_nil, Function.comp_def]
  rw [Lexer.tokens, hpieces, Results.mapM_eq_ok_iff, List.map_map]
  exact List.map_congr_left fun t ht => (h t ht).classify

/-- **A text whose words are all read has plain years.** -/
theorem hasPlainYear_of_tokens {ts : List Token} (h : Lexer.tokens q.text = .ok ts) :
    q.start.HasPlainYear ∧ q.stop.HasPlainYear := by
  have hspelling : ∀ d : Date, (Token.date d.text).spelling = d.chars := by
    intro d
    rw [Token.spelling, Date.text, String.toList_ofList]
  have hdate : ∀ d : Date, (Token.date d.text).spelling ≠ [] ∧
      Lexer.isClosed none (Token.date d.text).spelling = true := by
    intro d
    rw [hspelling]
    exact ⟨by simp [Date.chars], isClosed_date d⟩
  have hfrom := isSpelled_keyword .FROM
  have hto := isSpelled_keyword .TO
  have hpieces := pieces_text (q := q) rfl (by
    intro w hw
    simp only [spaced, phrase, WindowPhrase.tokens, List.map_cons, List.map_nil, List.mem_cons,
      List.not_mem_nil, or_false] at hw
    rcases hw with rfl | rfl | rfl | rfl
    · exact ⟨hfrom.ne_nil, hfrom.closed⟩
    · exact hdate _
    · exact ⟨hto.ne_nil, hto.closed⟩
    · exact hdate _)
  have hread : ∀ d : Date, d.chars ∈ Lexer.pieces q.text.toList → d.HasPlainYear := by
    intro d hd
    by_contra hplain
    obtain ⟨err, herr⟩ := exists_classify_eq_error hplain
    obtain ⟨t, ht⟩ := Results.exists_mapM_eq_ok_iff.mp ⟨ts, h⟩ d.chars hd
    rw [herr] at ht
    simp at ht
  constructor
  · refine hread _ ?_
    rw [hpieces]
    simp [spaced, phrase, WindowPhrase.tokens, hspelling]
  · refine hread _ ?_
    rw [hpieces]
    simp [spaced, phrase, WindowPhrase.tokens, hspelling]

end Query

/-! ## 5. Readable queries -/

/-- A part that reads back: no list is empty, clients are given by name, tags are in lowercase, and
no name holds both kinds of quotes. -/
def Grammar.Part.Readable : Part → Prop
  | .projects s => s.items ≠ [] ∧ ∀ name, .name name ∈ s.items → Quotable name
  | .clients s => s.items ≠ [] ∧ ∀ i ∈ s.items, ∃ name, i = .name name ∧ Quotable name
  | .includedTags tags | .excludedTags tags =>
    tags ≠ [] ∧ ∀ tag ∈ tags, Text.lowercase tag = tag ∧ Quotable tag
  | .title s => Quotable s
  | .sort _ | .grouping _ => True

/-- A query whose canonical text reads back: its dates have plain years, and each part reads back. -/
structure Query.Readable (q : Query) : Prop where
  start : q.start.HasPlainYear
  stop : q.stop.HasPlainYear
  parts : ∀ part ∈ q.parts, part.Readable

theorem itemOf?_token (i : Item) : itemOf? i.token = some i := by cases i <;> rfl

theorem filterMap_itemOf? (items : List Item) : (items.map Item.token).filterMap itemOf? = items := by
  simp [List.filterMap_map, itemOf?_token]

theorem tagOf?_tagToken {tag : String} (h : Text.lowercase tag = tag) :
    tagOf? (tagToken tag) = some tag := by
  unfold tagToken
  split
  · rfl
  · exact congrArg some h

theorem filterMap_tagOf? {tags : List String} (h : ∀ tag ∈ tags, Text.lowercase tag = tag) :
    (tags.map tagToken).filterMap tagOf? = tags := by
  induction tags with
  | nil => rfl
  | cons tag tags ih =>
    obtain ⟨htag, htags⟩ := List.forall_mem_cons.mp h
    rw [List.map_cons, List.filterMap_cons_some (tagOf?_tagToken htag), ih htags]

theorem isSpelled_tagToken {tag : String} (hlower : Text.lowercase tag = tag)
    (hquotable : Quotable tag) : (tagToken tag).IsSpelled := by
  unfold tagToken
  split
  · next hbare => exact isSpelled_tag hbare hlower
  · exact isSpelled_text hquotable

theorem takes_tagToken (tag : String) : takes .tags (tagToken tag) = true := by
  unfold tagToken
  split <;> rfl

/-- The tokens of a selection read back if its values do. -/
theorem isSpelled_select {mode : Mode} {subject : Subject} {values : List Token}
    (h : ∀ v ∈ values, v.IsSpelled) :
    ∀ t ∈ (ClausePhrase.select mode subject values).tokens, t.IsSpelled := by
  intro t ht
  simp only [ClausePhrase.tokens, List.mem_cons] at ht
  rcases ht with rfl | rfl | ht
  · exact isSpelled_keyword _
  · exact isSpelled_keyword _
  · exact h t ht

namespace Grammar.Part

variable {part : Part}

/-- **What is written for a readable part denotes that part.** -/
theorem part_clause (h : part.Readable) : part.clause.part = part := by
  cases part with
  | projects s => rw [clause, ClausePhrase.part, filterMap_itemOf?]
  | clients s => rw [clause, ClausePhrase.part, filterMap_itemOf?]
  | includedTags tags =>
    simp [clause, ClausePhrase.part, filterMap_tagOf? fun tag htag => (h.2 tag htag).1]
  | excludedTags tags =>
    simp [clause, ClausePhrase.part, filterMap_tagOf? fun tag htag => (h.2 tag htag).1]
  | _ => rfl

theorem valid_clause (h : part.Readable) : part.clause.Valid := by
  cases part with
  | projects s =>
    refine ⟨by simpa using h.1, fun v hv => ?_⟩
    obtain ⟨i, -, rfl⟩ := List.mem_map.mp hv
    cases i <;> rfl
  | clients s =>
    refine ⟨by simpa using h.1, fun v hv => ?_⟩
    obtain ⟨i, hi, rfl⟩ := List.mem_map.mp hv
    obtain ⟨name, rfl, -⟩ := h.2 i hi
    rfl
  | includedTags tags | excludedTags tags =>
    refine ⟨by simpa using h.1, fun v hv => ?_⟩
    obtain ⟨tag, -, rfl⟩ := List.mem_map.mp hv
    exact takes_tagToken tag
  | _ => trivial

/-- **All tokens that are written for a readable part read back.** -/
theorem isSpelled_clause (h : part.Readable) : ∀ t ∈ part.clause.tokens, t.IsSpelled := by
  cases part with
  | projects s =>
    refine isSpelled_select fun v hv => ?_
    obtain ⟨i, hi, rfl⟩ := List.mem_map.mp hv
    cases i with
    | id n => exact isSpelled_number n
    | name name => exact isSpelled_text (h.2 name hi)
  | clients s =>
    refine isSpelled_select fun v hv => ?_
    obtain ⟨i, hi, rfl⟩ := List.mem_map.mp hv
    obtain ⟨name, rfl, hname⟩ := h.2 i hi
    exact isSpelled_text hname
  | includedTags tags | excludedTags tags =>
    refine isSpelled_select fun v hv => ?_
    obtain ⟨tag, htag, rfl⟩ := List.mem_map.mp hv
    exact isSpelled_tagToken (h.2 tag htag).1 (h.2 tag htag).2
  | title s =>
    intro t ht
    simp only [clause, ClausePhrase.tokens, List.mem_cons, List.not_mem_nil, or_false] at ht
    rcases ht with rfl | rfl
    · exact isSpelled_keyword _
    · exact isSpelled_text h
  | sort order =>
    intro t ht
    simp only [clause, ClausePhrase.tokens, List.mem_cons, List.not_mem_nil, or_false] at ht
    rcases ht with rfl | rfl <;> exact isSpelled_keyword _
  | grouping g =>
    intro t ht
    simp only [clause, ClausePhrase.tokens, List.mem_cons, List.not_mem_nil, or_false] at ht
    rcases ht with rfl | rfl | rfl <;> exact isSpelled_keyword _

end Grammar.Part

theorem quotable_of_itemOf? {v : Token} (hread : v.WasRead) {name : String}
    (h : itemOf? v = some (.name name)) : Quotable name := by
  cases v with
  | text s | date raw =>
    obtain rfl := Item.name.inj (Option.some.inj h)
    exact hread
  | _ => simp [itemOf?] at h

theorem readable_of_tagOf? {v : Token} (hread : v.WasRead) {tag : String}
    (h : tagOf? v = some tag) : Text.lowercase tag = tag ∧ Quotable tag := by
  cases v with
  | tag name =>
    obtain rfl : name = tag := Option.some.inj h
    exact hread
  | text s =>
    obtain rfl : Text.lowercase s = tag := Option.some.inj h
    exact ⟨Text.lowercase_lowercase s, quotable_lowercase hread⟩
  | _ => simp [tagOf?] at h

/-- Values give something, all of them and so at least one. -/
theorem filterMap_ne_nil {β : Type} {f : Token → Option β} {values : List Token} (hne : values ≠ [])
    (h : ∀ v ∈ values, (f v).isSome) : values.filterMap f ≠ [] := by
  obtain ⟨v, hv⟩ := List.exists_mem_of_ne_nil values hne
  obtain ⟨b, hb⟩ := Option.isSome_iff_exists.mp (h v hv)
  exact List.ne_nil_of_mem (List.mem_filterMap.mpr ⟨v, hv, hb⟩)

/-- **What a clause denotes is readable**, if its tokens were read from a text. -/
theorem readable_part {c : ClausePhrase} (hc : c.Valid) (hread : ∀ t ∈ c.tokens, t.WasRead) :
    c.part.Readable := by
  cases c with
  | sort order => trivial
  | group g => trivial
  | title s => exact hread (.text s) (by simp [ClausePhrase.tokens])
  | select mode subject values =>
    obtain ⟨hne, htakes⟩ := hc
    have hvalues : ∀ v ∈ values, v.WasRead := fun v hv =>
      hread v (List.mem_cons_of_mem _ (List.mem_cons_of_mem _ hv))
    cases subject with
    | projects =>
      refine ⟨filterMap_ne_nil hne fun v hv => isSome_itemOf?_of_project (htakes v hv), ?_⟩
      intro name hmem
      obtain ⟨v, hv, hitem⟩ := List.mem_filterMap.mp hmem
      exact quotable_of_itemOf? (hvalues v hv) hitem
    | clients =>
      refine ⟨filterMap_ne_nil hne fun v hv => ?_, fun i hmem => ?_⟩
      · obtain ⟨name, hname⟩ := exists_itemOf?_of_client (htakes v hv)
        rw [hname]
        rfl
      · obtain ⟨v, hv, hitem⟩ := List.mem_filterMap.mp hmem
        obtain ⟨name, hname⟩ := exists_itemOf?_of_client (htakes v hv)
        exact ⟨name, Option.some.inj (hitem.symm.trans hname),
          quotable_of_itemOf? (hvalues v hv) hname⟩
    | tags =>
      have htags : values.filterMap tagOf? ≠ [] ∧
          ∀ tag ∈ values.filterMap tagOf?, Text.lowercase tag = tag ∧ Quotable tag := by
        refine ⟨filterMap_ne_nil hne fun v hv => isSome_tagOf?_of_tag (htakes v hv), ?_⟩
        intro tag hmem
        obtain ⟨v, hv, htag⟩ := List.mem_filterMap.mp hmem
        exact readable_of_tagOf? (hvalues v hv) htag
      cases mode <;> exact htags

/-! ## 6. The round trip -/

namespace Query

variable {q : Query} {today : Date}

/-- The phrase of a readable query is valid. -/
theorem valid_phrase (hq : q.WellFormed) (h : q.Readable) : q.phrase.Valid today := by
  have hperiod : q.phrase.window.period? today = some ⟨q.start, q.stop⟩ := by
    simp [phrase, WindowPhrase.period?, Date.readStrict?_text]
  refine ⟨⟨_, hperiod, hq.forward, hq.short⟩, ?_, ?_, ?_⟩
  · intro c hc
    obtain ⟨part, hpart, rfl⟩ := List.mem_map.mp hc
    exact Part.valid_clause (h.parts part hpart)
  · intro g hg
    obtain ⟨part, hpart, hclause⟩ := List.mem_map.mp hg
    obtain rfl : part = .grouping g := by
      cases part <;> simp_all [Part.clause]
    have hgrouping : q.grouping = some g := (mem_parts q _).mp hpart
    exact hq.grouped (by rw [hgrouping]; rfl)
  · have hslots : (q.phrase.clauses.map fun c => c.part.slot) = q.parts.map Part.slot := by
      rw [phrase, List.map_map]
      exact List.map_congr_left fun part hpart =>
        congrArg Part.slot (Part.part_clause (h.parts part hpart))
    rw [hslots]
    exact q.once_parts

/-- The phrase of a readable query denotes that query. -/
theorem query?_phrase (h : q.Readable) : q.phrase.query? today = some q := by
  have hperiod : q.phrase.window.period? today = some ⟨q.start, q.stop⟩ := by
    simp [phrase, WindowPhrase.period?, Date.readStrict?_text]
  have hparts : q.phrase.clauses.map ClausePhrase.part = q.parts := by
    rw [phrase, List.map_map]
    exact (List.map_congr_left fun part hpart => Part.part_clause (h.parts part hpart)).trans
      (List.map_id _)
  rw [Phrase.query?, hperiod, Option.map_some, hparts]
  exact congrArg some q.queryOf_parts

theorem isSpelled_phrase (h : q.Readable) : ∀ t ∈ q.phrase.tokens, t.IsSpelled := by
  intro t ht
  rw [Phrase.tokens, List.mem_cons, List.mem_append, List.mem_flatMap] at ht
  rcases ht with rfl | ht | ⟨c, hc, ht⟩
  · exact isSpelled_keyword _
  · simp only [phrase, WindowPhrase.tokens, List.mem_cons, List.not_mem_nil, or_false] at ht
    rcases ht with rfl | rfl | rfl | rfl
    · exact isSpelled_keyword _
    · exact isSpelled_date h.start
    · exact isSpelled_keyword _
    · exact isSpelled_date h.stop
  · obtain ⟨part, hpart, rfl⟩ := List.mem_map.mp hc
    exact Part.isSpelled_clause (h.parts part hpart) t ht

/-- **Every part of a query that is read from a text is readable**, and the query is well-formed. -/
theorem readable_of_tokens {text : String} {ts : List Token} (hts : Lexer.tokens text = .ok ts)
    (h : ofTokens ts today = .ok q) : q.WellFormed ∧ ∀ part ∈ q.parts, part.Readable := by
  obtain ⟨⟨kind, window, clauses⟩, rfl, ⟨⟨p, hp, hforward, hshort⟩, hvalid, hgrouped, honce⟩, hq⟩ :=
    ofTokens_eq_ok_iff_phrase.mp h
  rw [Phrase.query?, hp, Option.map_some, Option.some.injEq] at hq
  subst hq
  have hadmits : (opening kind p).Admits clauses := admits_opening_iff.mpr ⟨hvalid, hgrouped, honce⟩
  refine ⟨wellFormed_queryOf hforward hshort hadmits, fun part hpart => ?_⟩
  have hslots : ((clauses.map ClausePhrase.part).map Part.slot).Nodup := by
    rw [List.map_map]
    exact honce
  rw [mem_parts, has_queryOf hslots] at hpart
  obtain ⟨c, hc, rfl⟩ := List.mem_map.mp hpart
  refine readable_part (hvalid c hc) fun t ht => ?_
  have hmem : t ∈ (⟨kind, window, clauses⟩ : Phrase).tokens :=
    List.mem_cons_of_mem _ (List.mem_append_right _ (List.mem_flatMap.mpr ⟨c, hc, ht⟩))
  obtain ⟨piece, -, hpiece⟩ := (Results.mem_of_mapM_eq_ok hts t).mp hmem
  exact Lexer.wasRead_of_classify hpiece

/-- **Canonical text reads back in exactly these cases**: the query is well-formed, and readable. -/
theorem parse_text_eq_ok_iff (q : Query) (today : Date) :
    parse q.text today = .ok q ↔ q.WellFormed ∧ q.Readable := by
  rw [parse, Results.bind_eq_ok_iff]
  constructor
  · rintro ⟨ts, hts, h⟩
    obtain ⟨hstart, hstop⟩ := hasPlainYear_of_tokens hts
    obtain ⟨hq, hparts⟩ := readable_of_tokens hts h
    exact ⟨hq, hstart, hstop, hparts⟩
  · rintro ⟨hq, h⟩
    refine ⟨_, tokens_text (isSpelled_phrase h), ?_⟩
    exact ofTokens_eq_ok_iff_phrase.mpr ⟨_, rfl, valid_phrase hq h, query?_phrase h⟩

end Query

end Timesheet
