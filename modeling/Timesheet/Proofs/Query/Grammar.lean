import Timesheet.Query.Parser
/-!
# The grammar of queries

    query     := (SUMMARY | LIST) window clause*
    window    := TODAY | WEEK | MONTH | PAST number (DAYS | WEEKS | MONTHS)
               | FROM date TO (date | TODAY)
    clause    := (INCLUDE | EXCLUDE) PROJECTS (number | text | date)+
               | (INCLUDE | EXCLUDE) CLIENTS (text | date)+
               | (INCLUDE | EXCLUDE) TAGS (tag | text)+
               | SORT (ASC | DESC) | GROUP BY (DATE | PROJECT | CLIENT) | TITLE text

A `Phrase` is a derivation by these rules: `Phrase.tokens` is what it derives, and `Phrase.query?` the
query that it denotes.  `Phrase.Valid` is what the rules ask for beyond that: dates that there are, a
window that runs forward and is not too long, values of the right form, a list to be grouped, and no slot
of the query filled twice.

Tokens have no more than one valid derivation (`Phrase.eq_of_clauses_valid`).  What carries the proof is
that a selection goes on as long as there are values, and that whatever follows it starts with a keyword.
-/

namespace Timesheet.Grammar

/-! ## 1. Derivations -/

/-- The unit of a window in the past. -/
inductive TimeUnit where
  | days
  | weeks
  | months
deriving DecidableEq

/-- A derivation of a window. -/
inductive WindowPhrase where
  | today
  | week
  | month
  | past (n : UInt64) (unit : TimeUnit)
  /-- From one date to another, or to today. -/
  | fromTo (first : String) (last : Option String)
deriving DecidableEq

/-- A derivation of a clause. -/
inductive ClausePhrase where
  | select (mode : Mode) (subject : Subject) (values : List Token)
  | sort (order : SortOrder)
  | group (grouping : Grouping)
  | title (text : String)
deriving DecidableEq

/-- A derivation of a query. -/
structure Phrase where
  kind : Kind
  window : WindowPhrase
  clauses : List ClausePhrase
deriving DecidableEq

/-! ## 2. What is derived -/

/-- The keyword of a kind. -/
def kindKeyword : Kind → Keyword
  | .summary => .SUMMARY
  | .list => .LIST

/-- The keyword of a unit. -/
def TimeUnit.keyword : TimeUnit → Keyword
  | days => .DAYS
  | weeks => .WEEKS
  | months => .MONTHS

/-- The keyword of an order. -/
def orderKeyword : SortOrder → Keyword
  | .ascending => .ASC
  | .descending => .DESC

/-- The keyword of a grouping. -/
def groupingKeyword : Grouping → Keyword
  | .project => .PROJECT
  | .client => .CLIENT
  | .date => .DATE

/-- The tokens of a window. -/
def WindowPhrase.tokens : WindowPhrase → List Token
  | today => [.keyword .TODAY]
  | week => [.keyword .WEEK]
  | month => [.keyword .MONTH]
  | past n unit => [.keyword .PAST, .number n, .keyword unit.keyword]
  | fromTo first (some last) => [.keyword .FROM, .date first, .keyword .TO, .date last]
  | fromTo first none => [.keyword .FROM, .date first, .keyword .TO, .keyword .TODAY]

/-- The tokens of a clause. -/
def ClausePhrase.tokens : ClausePhrase → List Token
  | select mode subject values => .keyword mode.keyword :: .keyword subject.keyword :: values
  | sort order => [.keyword .SORT, .keyword (orderKeyword order)]
  | group grouping => [.keyword .GROUP, .keyword .BY, .keyword (groupingKeyword grouping)]
  | title text => [.keyword .TITLE, .text text]

/-- The tokens of a query. -/
def Phrase.tokens (t : Phrase) : List Token :=
  .keyword (kindKeyword t.kind) :: (t.window.tokens ++ t.clauses.flatMap ClausePhrase.tokens)

/-! ## 3. What is denoted -/

/-- The days of a window, if its dates are those of days. -/
def WindowPhrase.period? (today : Date) : WindowPhrase → Option Period
  | .today => some ⟨today, today⟩
  | week => some today.week
  | month => some today.monthPeriod
  | past n .days => some (Window.pastDays today n.toNat)
  | past n .weeks => some (Window.pastWeeks today n.toNat)
  | past n .months => some (Window.pastMonths today n.toNat)
  | fromTo first last => do
    let start ← Date.readStrict? first
    let stop ← (last.map Date.readStrict?).getD (some today)
    return ⟨start, stop⟩

/-- The project or client that a value gives. -/
def itemOf? : Token → Option Item
  | .number n => some (.id n)
  | .text s | .date s => some (.name s)
  | .tag _ | .keyword _ => none

/-- The tag that a value gives, in lowercase. -/
def tagOf? : Token → Option String
  | .tag name => some name
  | .text s => some (Text.lowercase s)
  | .number _ | .date _ | .keyword _ => none

/-- The part of a query that one clause fills. -/
inductive Slot where
  | projects
  | clients
  | includedTags
  | excludedTags
  | sort
  | grouping
  | title
deriving DecidableEq

/-- A slot with its contents. -/
inductive Part where
  | projects (s : Selection)
  | clients (s : Selection)
  | includedTags (tags : List String)
  | excludedTags (tags : List String)
  | sort (order : SortOrder)
  | grouping (grouping : Grouping)
  | title (text : String)
deriving DecidableEq

/-- The slot of a part. -/
def Part.slot : Part → Slot
  | projects _ => .projects
  | clients _ => .clients
  | includedTags _ => .includedTags
  | excludedTags _ => .excludedTags
  | sort _ => .sort
  | grouping _ => .grouping
  | title _ => .title

/-- What a clause denotes. -/
def ClausePhrase.part : ClausePhrase → Part
  | select mode .projects values => .projects ⟨mode, values.filterMap itemOf?⟩
  | select mode .clients values => .clients ⟨mode, values.filterMap itemOf?⟩
  | select .keep .tags values => .includedTags (values.filterMap tagOf?)
  | select .drop .tags values => .excludedTags (values.filterMap tagOf?)
  | sort order => .sort order
  | group grouping => .grouping grouping
  | title text => .title text

/-- The query of a kind for a period with these parts. -/
def queryOf (kind : Kind) (p : Period) (parts : List Part) : Query where
  kind
  start := p.first
  stop := p.last
  projects := parts.findSome? fun | .projects s => some s | _ => none
  clients := parts.findSome? fun | .clients s => some s | _ => none
  includedTags := parts.findSome? fun | .includedTags tags => some tags | _ => none
  excludedTags := parts.findSome? fun | .excludedTags tags => some tags | _ => none
  sort := parts.findSome? fun | .sort order => some order | _ => none
  grouping := parts.findSome? fun | .grouping g => some g | _ => none
  title := parts.findSome? fun | .title text => some text | _ => none

/-- What a query phrase denotes, if its window denotes a period. -/
def Phrase.query? (t : Phrase) (today : Date) : Option Query :=
  (t.window.period? today).map fun p => queryOf t.kind p (t.clauses.map ClausePhrase.part)

/-! ## 4. Validity -/

/-- The values that a selection may list. -/
def takes : Subject → Token → Bool
  | .projects, .number _ | .projects, .text _ | .projects, .date _ => true
  | .clients, .text _ | .clients, .date _ => true
  | .tags, .tag _ | .tags, .text _ => true
  | _, _ => false

/-- A selection lists at least one value, and only such as it may. -/
def ClausePhrase.Valid : ClausePhrase → Prop
  | select _ subject values => values ≠ [] ∧ ∀ v ∈ values, takes subject v = true
  | _ => True

/-- What the rules ask for beyond the tokens. -/
structure Phrase.Valid (t : Phrase) (today : Date) : Prop where
  window : ∃ p, t.window.period? today = some p ∧ p.first ≤ p.last ∧
    p.first.span p.last ≤ longestWindow
  clauses : ∀ c ∈ t.clauses, c.Valid
  grouped : ∀ g, .group g ∈ t.clauses → t.kind = .list
  once : (t.clauses.map fun c => c.part.slot).Nodup

/-! ## 5. At most one derivation -/

/-- The tokens do not start with a value. -/
def Resumes (ts : List Token) : Prop := ∀ t, ts.head? = some t → t.isValue = false

theorem resumes_flatMap (cs : List ClausePhrase) : Resumes (cs.flatMap ClausePhrase.tokens) := by
  intro t ht
  cases cs with
  | nil => simp at ht
  | cons c cs =>
    cases c <;>
      · obtain rfl := Option.some.inj ht
        rfl

theorem isValue_of_takes {subject : Subject} {t : Token} (h : takes subject t = true) :
    t.isValue = true := by
  cases t with
  | keyword k => cases subject <;> simp [takes] at h
  | _ => rfl

theorem isSome_itemOf?_of_project {t : Token} (h : takes .projects t = true) :
    (itemOf? t).isSome := by
  cases t <;> first | rfl | simp [takes] at h

theorem exists_itemOf?_of_client {t : Token} (h : takes .clients t = true) :
    ∃ name, itemOf? t = some (.name name) := by
  cases t <;> first | exact ⟨_, rfl⟩ | simp [takes] at h

theorem isSome_tagOf?_of_tag {t : Token} (h : takes .tags t = true) : (tagOf? t).isSome := by
  cases t <;> first | rfl | simp [takes] at h

/-- Values end where the tokens resume. -/
theorem span_values {values rest : List Token} (hvalues : ∀ v ∈ values, v.isValue = true)
    (hrest : Resumes rest) :
    (values ++ rest).takeWhile Token.isValue = values ∧
      (values ++ rest).dropWhile Token.isValue = rest := by
  rw [List.takeWhile_append_of_pos hvalues, List.dropWhile_append_of_pos hvalues]
  cases rest with
  | nil => simp
  | cons t rest =>
    have ht : t.isValue = false := hrest t rfl
    simp [ht]

/-- **A clause ends at one place only**, if it is valid and what follows it does not start with a
value. -/
theorem ClausePhrase.tokens_append_inj {c c' : ClausePhrase} {rest rest' : List Token}
    (hc : c.Valid) (hc' : c'.Valid) (hrest : Resumes rest) (hrest' : Resumes rest')
    (h : c.tokens ++ rest = c'.tokens ++ rest') : c = c' ∧ rest = rest' := by
  cases c with
  | select mode subject values =>
    cases c' with
    | select mode' subject' values' =>
      simp only [tokens, List.cons_append, List.cons.injEq, Token.keyword.injEq] at h
      obtain ⟨hmode, hsubject, htail⟩ := h
      obtain rfl : mode = mode' := by cases mode <;> cases mode' <;> simp_all [Mode.keyword]
      obtain rfl : subject = subject' := by
        cases subject <;> cases subject' <;> simp_all [Subject.keyword]
      have hspan := span_values (fun v hv => isValue_of_takes (hc.2 v hv)) hrest
      have hspan' := span_values (fun v hv => isValue_of_takes (hc'.2 v hv)) hrest'
      rw [htail] at hspan
      obtain rfl : values = values' := hspan.1.symm.trans hspan'.1
      exact ⟨rfl, hspan.2.symm.trans hspan'.2⟩
    | _ => cases mode <;> simp [tokens, Mode.keyword] at h
  | sort order =>
    cases c' with
    | select mode _ _ => cases mode <;> simp [tokens, Mode.keyword] at h
    | sort order' => cases order <;> cases order' <;> simp_all [tokens, orderKeyword]
    | _ => simp [tokens] at h
  | group g =>
    cases c' with
    | select mode _ _ => cases mode <;> simp [tokens, Mode.keyword] at h
    | group g' => cases g <;> cases g' <;> simp_all [tokens, groupingKeyword]
    | _ => simp [tokens] at h
  | title s =>
    cases c' with
    | select mode _ _ => cases mode <;> simp [tokens, Mode.keyword] at h
    | title s' => simpa [tokens] using h
    | _ => simp [tokens] at h

theorem ClausePhrase.tokens_ne_nil (c : ClausePhrase) : c.tokens ≠ [] := by
  cases c <;> simp [tokens]

/-- Clauses that derive the same tokens are the same.  The induction takes off one clause at a time. -/
theorem clauses_eq_of_tokens_eq : ∀ {cs cs' : List ClausePhrase}, (∀ c ∈ cs, c.Valid) →
    (∀ c ∈ cs', c.Valid) →
      cs.flatMap ClausePhrase.tokens = cs'.flatMap ClausePhrase.tokens → cs = cs'
  | [], [], _, _, _ => rfl
  | [], c :: cs, _, _, h => by
    rw [List.flatMap_cons, List.flatMap_nil, eq_comm, List.append_eq_nil_iff] at h
    exact absurd h.1 c.tokens_ne_nil
  | c :: cs, [], _, _, h => by
    rw [List.flatMap_cons, List.flatMap_nil, List.append_eq_nil_iff] at h
    exact absurd h.1 c.tokens_ne_nil
  | c :: cs, c' :: cs', hcs, hcs', h => by
    rw [List.flatMap_cons, List.flatMap_cons] at h
    obtain ⟨hc, hrest⟩ := List.forall_mem_cons.mp hcs
    obtain ⟨hc', hrest'⟩ := List.forall_mem_cons.mp hcs'
    obtain ⟨rfl, htail⟩ := ClausePhrase.tokens_append_inj hc hc' (resumes_flatMap cs)
      (resumes_flatMap cs') h
    rw [clauses_eq_of_tokens_eq hrest hrest' htail]

/-- A window ends at one place only. -/
theorem WindowPhrase.tokens_append_inj {w w' : WindowPhrase} {rest rest' : List Token}
    (h : w.tokens ++ rest = w'.tokens ++ rest') : w = w' ∧ rest = rest' := by
  rcases w with _ | _ | _ | ⟨n, unit⟩ | ⟨first, _ | last⟩ <;>
    rcases w' with _ | _ | _ | ⟨n', unit'⟩ | ⟨first', _ | last'⟩ <;>
      simp_all [tokens]
  rcases unit <;> rcases unit' <;> simp_all [TimeUnit.keyword]

/-- **Tokens have at most one derivation with valid clauses.** -/
theorem Phrase.eq_of_clauses_valid {t t' : Phrase} (ht : ∀ c ∈ t.clauses, c.Valid)
    (ht' : ∀ c ∈ t'.clauses, c.Valid) (h : t.tokens = t'.tokens) : t = t' := by
  obtain ⟨kind, window, clauses⟩ := t
  obtain ⟨kind', window', clauses'⟩ := t'
  simp only [tokens, List.cons.injEq, Token.keyword.injEq] at h
  obtain ⟨hkind, htail⟩ := h
  obtain rfl : kind = kind' := by cases kind <;> cases kind' <;> simp_all [kindKeyword]
  obtain ⟨rfl, hclauses⟩ := WindowPhrase.tokens_append_inj htail
  obtain rfl := clauses_eq_of_tokens_eq ht ht' hclauses
  rfl

theorem Phrase.eq_of_tokens_eq {t t' : Phrase} {today : Date} (ht : t.Valid today)
    (ht' : t'.Valid today) (h : t.tokens = t'.tokens) : t = t' :=
  Phrase.eq_of_clauses_valid ht.clauses ht'.clauses h

end Timesheet.Grammar
