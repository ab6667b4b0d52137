import Timesheet.Query.Basic
import Timesheet.Query.Token
/-!
# Clauses

A `Clause` reads one part of a query off the front of its tokens into a draft.  The keywords that
may start it are known beforehand, so that several clauses can be offered as one
(`Clause.choice`), of which the first that accepts the next token reads it.

`Clause.Consumes` says that a clause which succeeds has taken at least one token and leaves the
rest as it was.
-/

namespace Timesheet

/-- One part of a query: the keywords that may start it, and how it is read.  Reading returns the
draft with the new part and the tokens that follow. -/
structure Clause where
  heads : List Keyword
  read : Draft → List Token → Except QueryError (Draft × List Token)

namespace Clause

/-- The next token is a keyword that may start the clause. -/
def accepts (c : Clause) (ts : List Token) : Bool :=
  match ts.head?.bind Token.keyword? with
  | some k => c.heads.contains k
  | none => false

/-- Refuses a next token that may not start the clause. -/
def expect (c : Clause) (ts : List Token) : Except QueryError Unit :=
  if c.accepts ts then .ok () else .error (.expected ts.head? c.heads)

/-- Several clauses offered as one: the first that accepts the next token reads it. -/
def choice (cs : List Clause) : Clause where
  heads := cs.flatMap heads
  read d ts :=
    match cs.find? (·.accepts ts) with
    | some c => c.read d ts
    | none => .error (.expected ts.head? (cs.flatMap heads))

/-- A clause that is read takes at least one token and leaves those after it. -/
def Consumes (c : Clause) : Prop :=
  ∀ {d d' : Draft} {ts rest : List Token}, c.read d ts = .ok (d', rest) →
    ∃ t used, ts = t :: (used ++ rest)

theorem consumes_choice {cs : List Clause} (h : ∀ c ∈ cs, c.Consumes) : (choice cs).Consumes := by
  intro d d' ts rest hr
  simp only [choice] at hr
  split at hr
  · next c hc => exact h c (List.mem_of_find?_eq_some hc) hr
  · simp at hr

theorem Consumes.length_lt {c : Clause} (h : c.Consumes) {d d' : Draft} {ts rest : List Token}
    (hr : c.read d ts = .ok (d', rest)) : rest.length < ts.length := by
  obtain ⟨t, used, rfl⟩ := h hr
  simp only [List.length_cons, List.length_append]
  omega

end Clause

end Timesheet
