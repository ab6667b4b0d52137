import Timesheet.Proofs.Calendar.Months
import Timesheet.Proofs.Query.Clauses
/-!
# Clauses read by place

A clause can as well be read by looking at the first, second, third token and so on and cutting off, at the
end, as many as were looked at.  Then there is something that can go wrong beside a refusal: a place may be
asked for that the tokens do not have (`Fault.noPlace`) or, for the first day of a month, a day that is not
in the calendar (`Fault.offCalendar`).

Neither ever does.  `Reader.Follows` says that a reader by place has no fault and comes to what the clause
comes to, whatever tokens it is given: too few of them, or of a wrong kind.  It holds of each clause and of
clauses offered as one, hence of the loop over clauses, which ends since the clauses that it follows take
tokens away (`Places.gives_readClauses`), and of the whole query (`Places.gives_ofTokens`).

The proofs go by the first few tokens: once these are known, both ways of reading are computed.
-/

namespace Timesheet.Places

/-! ## 1. Attempts -/

/-- What would keep a reader from coming to any answer. -/
inductive Fault where
  | noPlace (place length : Nat)
  | offCalendar (dayNumber : Int)

/-- A reading that may be refused, unless there is a fault. -/
abbrev Attempt : Type → Type := ExceptT QueryError (Except Fault)

/-- A reading that is given up. -/
def fault {α : Type} (f : Fault) : Attempt α := ExceptT.mk (.error f)

/-- The attempt has no fault, and comes to this. -/
def Gives {α : Type} (x : Attempt α) (y : Except QueryError α) : Prop := x.run = .ok y

/-- The token at a place that must be there. -/
def tokenAt (ts : List Token) (i : Nat) : Attempt Token :=
  match ts[i]? with
  | some t => pure t
  | none => fault (.noPlace i ts.length)

/-- The first `n` tokens, which must be there, and the others. -/
def splitAt (ts : List Token) (n : Nat) : Attempt (List Token × List Token) :=
  if n ≤ ts.length then pure (ts.take n, ts.drop n) else fault (.noPlace n ts.length)

/-- Two tokens are asked for where there is one. -/
example : (splitAt [.keyword .SORT] 2).run = .error (.noPlace 2 1) := rfl

/-- The tokens behind the first `n`, which must be there. -/
def behind (ts : List Token) (n : Nat) : Attempt (List Token) := Prod.snd <$> splitAt ts n

/-- The keyword at a place, if there is one. -/
def keywordAt (ts : List Token) (i : Nat) : Option Keyword := ts[i]?.bind Token.keyword?

/-- One of the keywords stands in front. -/
def startsWith (heads : List Keyword) (ts : List Token) : Bool :=
  match keywordAt ts 0 with
  | some k => heads.contains k
  | none => false

/-- The values in front, at most as many as the limit says, and what follows them. -/
def splitValues (ts : List Token) (limit : Option Nat) : Attempt (List Token × List Token) :=
  splitAt ts (limit.elim (ts.takeWhile Token.isValue).length
    (min (ts.takeWhile Token.isValue).length))

/-- The month of a date, from its first day, which must be in the calendar. -/
def monthPeriod (d : Date) : Attempt Period :=
  match Date.ofDayNumber? (d.dayNumber - (d.day - 1)) with
  | some first => pure { d.monthPeriod with first }
  | none => fault (.offCalendar (d.dayNumber - (d.day - 1)))

section Gives

variable {α β : Type} {x : Attempt α} {y : Except QueryError α} {ts used rest : List Token} {n : Nat}

theorem Gives.of_eq {z : Except QueryError α} (h : Gives x y) (hy : y = z) : Gives x z := hy ▸ h

/-- What is done after an attempt that succeeds. -/
theorem gives_bind_iff {f : α → Attempt β} {a : α} {z : Except QueryError β} (h : Gives x (.ok a)) :
    Gives (x >>= f) z ↔ Gives (f a) z := by
  obtain rfl : x = ExceptT.mk (.ok (.ok a)) := h
  exact Iff.rfl

/-- What is not done after an attempt that is refused. -/
theorem gives_bind_error {f : α → Attempt β} {e : QueryError} (h : Gives x (.error e)) :
    Gives (x >>= f) (.error e) := by
  obtain rfl : x = ExceptT.mk (.ok (.error e)) := h
  rfl

theorem Gives.bind {f : α → Attempt β} {g : α → Except QueryError β} (h : Gives x y)
    (hfg : ∀ a, y = .ok a → Gives (f a) (g a)) : Gives (x >>= f) (y >>= g) := by
  obtain rfl : x = ExceptT.mk (.ok y) := h
  cases y with
  | error e => rfl
  | ok a => exact hfg a rfl

theorem gives_liftExcept (y : Except QueryError α) : Gives (liftExcept y) y := by
  cases y <;> rfl

theorem gives_splitAt (hts : ts = used ++ rest) (hn : n = used.length) :
    Gives (splitAt ts n) (.ok (used, rest)) := by
  subst hts hn
  have hle : used.length ≤ (used ++ rest).length := by simp
  simp only [Gives, splitAt, if_pos hle, List.take_left, List.drop_left]
  rfl

theorem gives_behind (used : List Token) (hts : ts = used ++ rest) (hn : n = used.length) :
    Gives (behind ts n) (.ok rest) := by
  obtain h : splitAt ts n = ExceptT.mk (.ok (.ok (used, rest))) := gives_splitAt hts hn
  rw [behind, h]
  rfl

/-- Without a limit, the values end where they do when they are taken one by one. -/
theorem gives_splitValues (ts : List Token) :
    Gives (splitValues ts none) (.ok (ts.takeWhile Token.isValue, ts.dropWhile Token.isValue)) :=
  gives_splitAt List.takeWhile_append_dropWhile.symm rfl

/-- With one value at most, it is the first token if that is a value. -/
theorem gives_splitValues_one {t : Token} (ht : t.isValue = true) :
    Gives (splitValues (t :: rest) (some 1)) (.ok ([t], rest)) := by
  refine gives_splitAt rfl ?_
  simp [ht]

end Gives

/-- **The first day of a month is in the calendar**, since the calendar begins with a month. -/
theorem gives_monthPeriod (d : Date) : Gives (monthPeriod d) (.ok d.monthPeriod) := by
  obtain ⟨hnumber, hday, -⟩ := d.daysBefore_monthIndex
  obtain ⟨hlow, -⟩ := d.month_in_calendar
  have hhigh := d.le_last
  have hfirst : Date.ofDayNumber? (d.dayNumber - (d.day - 1)) =
      some (Date.clamp (d.dayNumber - (d.day - 1))) :=
    Date.ofDayNumber?_eq_some (by omega) (by omega)
  simp only [Gives, monthPeriod, hfirst]
  rfl

/-! ## 2. Readers -/

/-- A clause that is read by place. -/
structure Reader where
  heads : List Keyword
  read : Draft → List Token → Attempt (Draft × List Token)

namespace Reader

/-- The next token is a keyword that may start the clause. -/
def accepts (r : Reader) (ts : List Token) : Bool := startsWith r.heads ts

/-- A clause that is refused unless it starts with one of the keywords. -/
def headed (heads : List Keyword) (body : Draft → List Token → Attempt (Draft × List Token)) :
    Reader where
  heads
  read d ts := do
    unless startsWith heads ts do throw (.expected ts[0]? heads)
    body d ts

def kind : Reader := headed [.SUMMARY, .LIST] fun d ts => do
  let first ← tokenAt ts 0
  let kind := if first.keyword? = some .LIST then Kind.list else .summary
  return ({ d with kind := some kind }, ← behind ts 1)

def sort : Reader := headed [.SORT] fun d ts => do
  if d.sort.isSome then throw .duplicateSort
  let order ← match keywordAt ts 1 with
    | some .ASC => pure SortOrder.ascending
    | some .DESC => pure .descending
    | _ => throw (.expected ts[1]? [.ASC, .DESC])
  return ({ d with sort := some order }, ← behind ts 2)

def grouping : Reader := headed [.GROUP] fun d ts => do
  if ts[1]? ≠ some (.keyword .BY) then throw (.expected ts[1]? [.BY])
  if d.grouping.isSome then throw .duplicateGrouping
  if d.kind ≠ some .list then throw .groupingNeedsList
  let grouping ← match keywordAt ts 2 with
    | some .DATE => pure Grouping.date
    | some .PROJECT => pure .project
    | some .CLIENT => pure .client
    | _ => throw (.expected ts[2]? [.DATE, .PROJECT, .CLIENT])
  return ({ d with grouping := some grouping }, ← behind ts 3)

def title : Reader := headed [.TITLE] fun d ts => do
  if let some earlier := d.title then throw (.duplicateTitle earlier)
  let (values, rest) ← splitValues (← behind ts 1) (some 1)
  match values[0]? with
  | some (Token.text s) => return ({ d with title := some s }, rest)
  | _ => throw .missingTitle

/-- The subject of a selection is its second token. -/
def subject (ts : List Token) : Attempt Subject :=
  match keywordAt ts 1 with
  | some .PROJECTS => pure .projects
  | some .CLIENTS => pure .clients
  | some .TAGS => pure .tags
  | _ => throw (.expected ts[1]? [.PROJECTS, .CLIENTS, .TAGS])

/-- The values of a selection start at its third token. -/
def values (mode : Mode) (subject : Subject) (d : Draft) (ts : List Token) :
    Attempt (Draft × List Token) := do
  if d.selects mode subject then throw (.duplicateSelection subject)
  let (values, rest) ← splitValues (← behind ts 2) none
  if values.isEmpty then throw (.emptySelection mode subject)
  return (← liftExcept (d.select mode subject values), rest)

def selection : Reader := headed [.INCLUDE, .EXCLUDE] fun d ts => do
  let first ← tokenAt ts 0
  let mode := if first.keyword? = some .EXCLUDE then Mode.drop else .keep
  values mode (← subject ts) d ts

/-- The window that a count and a unit give. -/
def past (today : Date) (ts : List Token) : Attempt Period := do
  let n ← match ts[1]? with
    | some (Token.number n) => pure n.toNat
    | other => throw (.unexpectedToken (describeToken other) ["decimal number"])
  match keywordAt ts 2 with
  | some .DAYS => return Window.pastDays today n
  | some .WEEKS => return Window.pastWeeks today n
  | some .MONTHS => return { Window.pastMonths today n with last := (← monthPeriod today).last }
  | _ => throw (.expected ts[2]? [.DAYS, .WEEKS, .MONTHS])

/-- The window between two dates. -/
def fromTo (today : Date) (ts : List Token) : Attempt Period := do
  let first ← liftExcept (Window.date .FROM ts[1]?)
  if ts[2]? ≠ some (.keyword .TO) then throw (.expected ts[2]? [.TO])
  let last ← liftExcept (Window.endDate today ts[3]?)
  return ⟨first, last⟩

/-- A window, and the number of its tokens. -/
def period (today : Date) (ts : List Token) : Attempt (Period × Nat) :=
  match keywordAt ts 0 with
  | some .TODAY => return (⟨today, today⟩, 1)
  | some .WEEK => return (today.week, 1)
  | some .MONTH => return (← monthPeriod today, 1)
  | some .PAST => return (← past today ts, 3)
  | some .FROM => return (← fromTo today ts, 4)
  | _ => throw .missingWindow

def window (today : Date) : Reader where
  heads := [.TODAY, .WEEK, .MONTH, .FROM, .PAST]
  read d ts := do
    let (period, used) ← period today ts
    liftExcept (checkWindow period.first period.last)
    return ({ d with start := some period.first, stop := some period.last }, ← behind ts used)

/-- Several clauses offered as one. -/
def choice (rs : List Reader) : Reader where
  heads := rs.flatMap heads
  read d ts :=
    match rs.find? (·.accepts ts) with
    | some r => r.read d ts
    | none => throw (.expected ts[0]? (rs.flatMap heads))

/-! ## 3. They follow the clauses -/

/-- The reader has no fault, and comes to what the clause does. -/
structure Follows (r : Reader) (c : Clause) : Prop where
  heads : r.heads = c.heads
  read : ∀ d ts, Gives (r.read d ts) (c.read d ts)

variable {r : Reader} {c : Clause} {d : Draft} {ts rest : List Token}

theorem startsWith_heads (c : Clause) (ts : List Token) : startsWith c.heads ts = c.accepts ts := by
  cases ts <;> rfl

theorem accepts_eq (h : r.heads = c.heads) (ts : List Token) : r.accepts ts = c.accepts ts := by
  rw [accepts, h, startsWith_heads]

/-- Clauses other than the window refuse a token that starts none of them by what they accept there. -/
theorem read_of_not_accepts
    (hc : c ∈ [Clause.kind, Clause.selection, Clause.sort, Clause.grouping, Clause.title])
    (h : c.accepts ts = false) : c.read d ts = .error (.expected ts.head? c.heads) := by
  simp only [List.mem_cons, List.not_mem_nil, or_false] at hc
  rcases hc with rfl | rfl | rfl | rfl | rfl
  all_goals
    simp only [Clause.kind, Clause.selection, Clause.sort, Clause.grouping, Clause.title,
      Clause.accepts] at h ⊢
    split
  all_goals first | rfl | simp [Token.keyword?] at h

/-- A reader that is refused without one of its keywords need only be compared behind one of them. -/
theorem follows_headed
    (hc : c ∈ [Clause.kind, Clause.selection, Clause.sort, Clause.grouping, Clause.title])
    {heads : List Keyword} {body : Draft → List Token → Attempt (Draft × List Token)}
    (hheads : heads = c.heads)
    (hbody : ∀ d, ∀ k ∈ c.heads, ∀ rest,
      Gives (body d (.keyword k :: rest)) (c.read d (.keyword k :: rest))) :
    (headed heads body).Follows c where
  heads := hheads
  read d ts := by
    have haccepts : startsWith heads ts = c.accepts ts := by rw [hheads, startsWith_heads]
    cases h : c.accepts ts with
    | true =>
      obtain ⟨k, rest, rfl, hk⟩ := Clause.accepts_iff.mp h
      simp only [headed, haccepts, h]
      exact hbody d k hk rest
    | false =>
      rw [read_of_not_accepts hc h, ← hheads]
      simp only [headed, haccepts, h]
      cases ts <;> rfl

theorem follows_kind : kind.Follows Clause.kind := by
  refine follows_headed (by simp) rfl fun d => ?_
  simp only [Clause.kind, List.forall_mem_cons]
  exact ⟨fun rest => rfl, fun rest => rfl, by simp⟩

theorem follows_sort : sort.Follows Clause.sort := by
  refine follows_headed (by simp) rfl fun d => ?_
  simp only [Clause.sort, List.forall_mem_singleton]
  intro rest
  obtain ⟨kind, start, stop, projects, clients, included, excluded, _ | order, grouping, title⟩ := d
  · rcases rest with _ | ⟨k | _ | _ | _ | _, rest⟩
    case cons.keyword => cases k <;> rfl
    all_goals rfl
  · rfl

theorem follows_grouping : grouping.Follows Clause.grouping := by
  refine follows_headed (by simp) rfl fun d => ?_
  simp only [Clause.grouping, List.forall_mem_singleton]
  intro rest
  rcases rest with _ | ⟨k | _ | _ | _ | _, rest⟩
  case cons.keyword =>
    cases k with
    | BY =>
      obtain ⟨_ | _ | _, start, stop, projects, clients, included, excluded, sort, _ | g, title⟩ := d
      case some.list.none =>
        rcases rest with _ | ⟨k | _ | _ | _ | _, rest⟩
        case cons.keyword => cases k <;> rfl
        all_goals rfl
      all_goals rfl
    | _ => rfl
  all_goals rfl

theorem follows_title : title.Follows Clause.title := by
  refine follows_headed (by simp) rfl fun d => ?_
  simp only [Clause.title, List.forall_mem_singleton]
  intro rest
  obtain ⟨kind, start, stop, projects, clients, included, excluded, sort, grouping, _ | earlier⟩ := d
  · refine (gives_bind_iff (gives_behind [_] rfl rfl)).mpr ?_
    rcases rest with _ | ⟨k | _ | _ | _ | _, rest⟩
    case nil => rfl
    case cons.keyword => rfl
    all_goals exact (gives_bind_iff (gives_splitValues_one rfl)).mpr rfl
  · rfl

theorem gives_values (mode : Mode) (subject : Subject) (d : Draft) (t t' : Token) (rest : List Token) :
    Gives (values mode subject d (t :: t' :: rest)) (Clause.readValues mode subject d rest) := by
  unfold values Clause.readValues
  cases d.selects mode subject with
  | true => rfl
  | false =>
    refine (gives_bind_iff (gives_behind [t, t'] rfl rfl)).mpr ?_
    refine (gives_bind_iff (gives_splitValues rest)).mpr ?_
    generalize rest.takeWhile Token.isValue = items
    cases items with
    | nil => rfl
    | cons item items =>
      dsimp only [List.isEmpty_cons]
      cases d.select mode subject (item :: items) <;> rfl

theorem gives_subject_values (mode : Mode) (d : Draft) (t : Token) (rest : List Token) :
    Gives (subject (t :: rest) >>= fun s => values mode s d (t :: rest))
      (Clause.readSubject mode d rest) := by
  rcases rest with _ | ⟨k | _ | _ | _ | _, rest⟩
  case cons.keyword =>
    cases k with
    | PROJECTS => exact gives_values mode .projects d t (.keyword .PROJECTS) rest
    | CLIENTS => exact gives_values mode .clients d t (.keyword .CLIENTS) rest
    | TAGS => exact gives_values mode .tags d t (.keyword .TAGS) rest
    | _ => rfl
  all_goals rfl

theorem follows_selection : selection.Follows Clause.selection := by
  refine follows_headed (by simp) rfl fun d => ?_
  simp only [Clause.selection, List.forall_mem_cons]
  exact ⟨gives_subject_values .keep d _, gives_subject_values .drop d _, by simp⟩

/-- A count and a unit are read by place as they are one after the other. -/
theorem gives_past (today : Date) (t : Token) (rest : List Token) :
    (∃ e, Window.readPast today rest = .error e ∧ Gives (past today (t :: rest)) (.error e)) ∨
      ∃ p t₁ t₂ tail, rest = t₁ :: t₂ :: tail ∧ Window.readPast today rest = .ok (p, tail) ∧
        Gives (past today (t :: rest)) (.ok p) := by
  rcases rest with _ | ⟨_ | n | _ | _ | _, rest⟩
  case cons.number =>
    rcases rest with _ | ⟨k | _ | _ | _ | _, rest⟩
    case cons.keyword =>
      cases k with
      | DAYS => exact .inr ⟨_, _, _, rest, rfl, rfl, rfl⟩
      | WEEKS => exact .inr ⟨_, _, _, rest, rfl, rfl, rfl⟩
      | MONTHS =>
        exact .inr ⟨_, _, _, rest, rfl, rfl, (gives_bind_iff (gives_monthPeriod today)).mpr rfl⟩
      | _ => exact .inl ⟨_, rfl, rfl⟩
    all_goals exact .inl ⟨_, rfl, rfl⟩
  all_goals exact .inl ⟨_, rfl, rfl⟩

theorem gives_fromTo (today : Date) (t : Token) (rest : List Token) :
    (∃ e, Window.readFromTo today rest = .error e ∧ Gives (fromTo today (t :: rest)) (.error e)) ∨
      ∃ p t₁ t₂ t₃ tail, rest = t₁ :: t₂ :: t₃ :: tail ∧
        Window.readFromTo today rest = .ok (p, tail) ∧ Gives (fromTo today (t :: rest)) (.ok p) := by
  have hfirst : (t :: rest)[1]? = rest.head? := by cases rest <;> rfl
  unfold fromTo Window.readFromTo
  rw [hfirst]
  cases hdate : Window.date .FROM rest.head? with
  | error e => exact .inl ⟨e, rfl, rfl⟩
  | ok first =>
    rcases rest with _ | ⟨t₁, _ | ⟨k | _ | _ | _ | _, rest⟩⟩
    case cons.cons.keyword =>
      cases k with
      | TO =>
        rcases rest with _ | ⟨t₃, rest⟩
        · exact .inl ⟨_, rfl, rfl⟩
        · have hfrom := gives_liftExcept (Except.ok (ε := QueryError) first)
          have hgives := gives_liftExcept (Window.endDate today (some t₃))
          simp only [List.tail_cons, List.head?_cons]
          cases hlast : Window.endDate today (some t₃) with
          | error e =>
            have hto := gives_bind_error (f := fun last => pure (⟨first, last⟩ : Period))
              (hgives.of_eq hlast)
            exact .inl ⟨e, rfl, (gives_bind_iff hfrom).mpr hto⟩
          | ok last =>
            refine .inr ⟨⟨first, last⟩, _, _, _, rest, rfl, rfl, (gives_bind_iff hfrom).mpr ?_⟩
            exact (gives_bind_iff (hgives.of_eq hlast)).mpr rfl
      | _ => exact .inl ⟨_, rfl, rfl⟩
    all_goals exact .inl ⟨_, rfl, rfl⟩

/-- **A window is read by place as it is token by token**, and as many tokens are used. -/
theorem gives_period (today : Date) (ts : List Token) :
    (∃ e, Window.read today ts = .error e ∧ Gives (period today ts) (.error e)) ∨
      ∃ p used rest, ts = used ++ rest ∧ Window.read today ts = .ok (p, rest) ∧
        Gives (period today ts) (.ok (p, used.length)) := by
  rcases ts with _ | ⟨k | _ | _ | _ | _, rest⟩
  case cons.keyword =>
    cases k with
    | TODAY => exact .inr ⟨_, [_], rest, rfl, rfl, rfl⟩
    | WEEK => exact .inr ⟨_, [_], rest, rfl, rfl, rfl⟩
    | MONTH =>
      exact .inr ⟨_, [_], rest, rfl, rfl, (gives_bind_iff (gives_monthPeriod today)).mpr rfl⟩
    | PAST =>
      rcases gives_past today (.keyword .PAST) rest with ⟨e, hread, hgives⟩ |
        ⟨p, t₁, t₂, tail, rfl, hread, hgives⟩
      · exact .inl ⟨e, hread, gives_bind_error hgives⟩
      · exact .inr ⟨p, [_, t₁, t₂], tail, rfl, hread, (gives_bind_iff hgives).mpr rfl⟩
    | FROM =>
      rcases gives_fromTo today (.keyword .FROM) rest with ⟨e, hread, hgives⟩ |
        ⟨p, t₁, t₂, t₃, tail, rfl, hread, hgives⟩
      · exact .inl ⟨e, hread, gives_bind_error hgives⟩
      · exact .inr ⟨p, [_, t₁, t₂, t₃], tail, rfl, hread, (gives_bind_iff hgives).mpr rfl⟩
    | _ => exact .inl ⟨_, rfl, rfl⟩
  all_goals exact .inl ⟨_, rfl, rfl⟩

theorem follows_window (today : Date) : (window today).Follows (Clause.window today) where
  heads := rfl
  read d ts := by
    rcases gives_period today ts with ⟨e, hread, hgives⟩ | ⟨p, used, rest, hts, hread, hgives⟩
    · simp only [Clause.window, hread]
      exact gives_bind_error hgives
    · simp only [Clause.window, hread]
      refine (gives_bind_iff hgives).mpr ((gives_liftExcept (checkWindow p.first p.last)).bind ?_)
      exact fun _ _ => (gives_bind_iff (gives_behind used hts rfl)).mpr rfl

theorem find?_follows {rs : List Reader} {cs : List Clause} (h : List.Forall₂ Follows rs cs)
    (ts : List Token) :
    (rs.find? (·.accepts ts) = none ∧ cs.find? (·.accepts ts) = none) ∨
      ∃ r c, rs.find? (·.accepts ts) = some r ∧ cs.find? (·.accepts ts) = some c ∧ r.Follows c := by
  induction h with
  | nil => exact .inl ⟨rfl, rfl⟩
  | @cons r c rs cs hrc _ ih =>
    have haccepts := accepts_eq hrc.heads ts
    cases hc : c.accepts ts with
    | true => exact .inr ⟨r, c, by simp [haccepts, hc], by simp [hc], hrc⟩
    | false => simpa [haccepts, hc] using ih

/-- **Readers offered as one follow the clauses offered as one.** -/
theorem follows_choice {rs : List Reader} {cs : List Clause} (h : List.Forall₂ Follows rs cs) :
    (choice rs).Follows (Clause.choice cs) := by
  have hheads : rs.flatMap heads = cs.flatMap Clause.heads := by
    induction h with
    | nil => rfl
    | cons hrc _ ih => rw [List.flatMap_cons, List.flatMap_cons, hrc.heads, ih]
  refine ⟨hheads, fun d ts => ?_⟩
  simp only [choice, Clause.choice]
  rcases find?_follows h ts with ⟨hr, hc⟩ | ⟨r, c, hr, hc, hrc⟩
  · rw [hr, hc, hheads]
    cases ts <;> rfl
  · rw [hr, hc]
    exact hrc.read d ts

/-- The clauses that may follow the window. -/
def further : Reader := choice [selection, sort, grouping, title]

theorem follows_further : further.Follows Clause.further :=
  follows_choice (.cons follows_selection (.cons follows_sort (.cons follows_grouping
    (.cons follows_title .nil))))

end Reader

open Reader

/-! ## 4. The whole query -/

theorem length_lt_of_further {d d' : Draft} {ts rest : List Token}
    (h : Gives (further.read d ts) (.ok (d', rest))) : rest.length < ts.length :=
  Clause.consumes_further.length_lt (Except.ok.inj ((follows_further.read d ts).symm.trans h))

/-- Reads clauses as long as the next token may start one. -/
def readClauses (d : Draft) (ts : List Token) : Attempt (Draft × List Token) :=
  if further.accepts ts then
    match _h : (further.read d ts).run with
    | .error f => fault f
    | .ok (.error e) => throw e
    | .ok (.ok (d', rest)) => readClauses d' rest
  else pure (d, ts)
termination_by ts.length
decreasing_by exact length_lt_of_further _h

theorem gives_readClauses (d : Draft) (ts : List Token) : Gives (readClauses d ts) (d.readClauses ts) := by
  fun_induction Draft.readClauses d ts with
  | case1 d ts haccepts e hread =>
    have hgives := (follows_further.read d ts).of_eq hread
    rw [readClauses, if_pos ((accepts_eq follows_further.heads ts).trans haccepts)]
    split
    · next f h => exact absurd (hgives.symm.trans h) (by simp)
    · next e' h =>
      obtain rfl : e = e' := by simpa using hgives.symm.trans h
      rfl
    · next d' rest h => exact absurd (hgives.symm.trans h) (by simp)
  | case2 d ts haccepts d' rest hread ih =>
    have hgives := (follows_further.read d ts).of_eq hread
    rw [readClauses, if_pos ((accepts_eq follows_further.heads ts).trans haccepts)]
    split
    · next f h => exact absurd (hgives.symm.trans h) (by simp)
    · next e h => exact absurd (hgives.symm.trans h) (by simp)
    · next d₁ rest₁ h =>
      obtain ⟨rfl, rfl⟩ : d' = d₁ ∧ rest = rest₁ := by simpa using hgives.symm.trans h
      exact ih
  | case3 d ts haccepts =>
    rw [readClauses, if_neg (by rw [accepts_eq follows_further.heads]; exact haccepts)]
    rfl

/-- The query that the tokens make up. -/
def ofTokens (ts : List Token) (today : Date) : Attempt Query := do
  let (d, ts) ← kind.read {} ts
  let (d, ts) ← (window today).read d ts
  let (d, ts) ← readClauses d ts
  match ts[0]? with
  | some t => throw (.leftoverToken (describeToken (some t)))
  | none => liftExcept d.finish

theorem gives_ofTokens (ts : List Token) (today : Date) :
    Gives (ofTokens ts today) (Query.ofTokens ts today) := by
  refine (follows_kind.read _ ts).bind fun (d, ts) _ => ?_
  refine ((follows_window today).read d ts).bind fun (d, ts) _ => ?_
  refine (gives_readClauses d ts).bind fun (d, ts) _ => ?_
  cases ts with
  | nil => exact gives_liftExcept d.finish
  | cons t ts => rfl

end Timesheet.Places
