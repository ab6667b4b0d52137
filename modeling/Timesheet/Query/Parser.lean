import Timesheet.Query.Lexer
import Timesheet.Query.Clause.Window
import Timesheet.Query.Clause.Selection
import Timesheet.Query.Clause.Layout
/-!
# Reading queries

A query is its kind, its window and any number of further clauses in any order:

    query     := kind window clause*
    kind      := SUMMARY | LIST
    window    := TODAY | WEEK | MONTH | PAST n (DAYS | WEEKS | MONTHS)
               | FROM date TO (date | TODAY)
    clause    := selection | SORT (ASC | DESC) | GROUP BY (DATE | PROJECT | CLIENT) | TITLE text
    selection := (INCLUDE | EXCLUDE) (PROJECTS | CLIENTS | TAGS) value+

`Query.ofTokens` reads it from tokens and `Query.parse` from a text.
-/

namespace Timesheet

/-- The clauses that may follow the window. -/
def Clause.further : Clause :=
  .choice [.selection, .sort, .grouping, .title]

theorem Clause.consumes_further : further.Consumes :=
  consumes_choice fun c hc => by
    simp only [List.mem_cons, List.not_mem_nil, or_false] at hc
    rcases hc with rfl | rfl | rfl | rfl
    · exact consumes_selection
    · exact consumes_sort
    · exact consumes_grouping
    · exact consumes_title

/-- Reads clauses as long as the next token may start one. -/
def Draft.readClauses (d : Draft) (ts : List Token) : Except QueryError (Draft × List Token) :=
  if Clause.further.accepts ts then
    match _h : Clause.further.read d ts with
    | .error e => .error e
    | .ok (d', rest) => readClauses d' rest
  else .ok (d, ts)
termination_by ts.length
decreasing_by exact Clause.consumes_further.length_lt _h

/-- The query that the tokens make up; `today` is the date that windows refer to. -/
def Query.ofTokens (ts : List Token) (today : Date) : Except QueryError Query := do
  let (d, ts) ← Clause.kind.read {} ts
  let (d, ts) ← (Clause.window today).read d ts
  let (d, ts) ← d.readClauses ts
  match ts with
  | [] => d.finish
  | t :: _ => .error (.leftoverToken (describeToken (some t)))

/-- The query that a text is. -/
def Query.parse (text : String) (today : Date) : Except QueryError Query := do
  let ts ← Lexer.tokens text
  ofTokens ts today

end Timesheet
