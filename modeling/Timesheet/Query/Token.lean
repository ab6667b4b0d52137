import Timesheet.Text.Decimal
import Timesheet.Query.Error
/-!
# Tokens

The units of a query: a keyword, or a value in one of four written forms.
-/

namespace Timesheet

/-- A unit of a query. -/
inductive Token where
  | keyword (k : Keyword)
  /-- A decimal number of at most 64 bits. -/
  | number (n : UInt64)
  /-- Ten characters in the shape of a date, which need not be one. -/
  | date (raw : String)
  /-- A quoted text, without its quotes. -/
  | text (s : String)
  /-- A tag in lowercase, without its mark. -/
  | tag (name : String)
deriving DecidableEq

namespace Token

/-- The keyword that the token is. -/
def keyword? : Token → Option Keyword
  | keyword k => some k
  | _ => none

/-- Everything but a keyword is a value. -/
def isValue : Token → Bool
  | keyword _ => false
  | _ => true

/-- The token in the form in which it is written in a query.  Quotes within a text are not
guarded. -/
def display : Token → String
  | keyword k => k.text
  | number n => Decimal.text n.toNat
  | date raw => raw
  | text s => "\"" ++ s ++ "\""
  | tag name => "#" ++ name

end Token

/-- How an error message names the token that it found.  The message adds quotes of its own, so a
text stands without. -/
def describeToken : Option Token → String
  | none => endOfQuery
  | some (.text s) => s
  | some t => t.display

/-- The error for a token that is none of the keywords accepted at its place. -/
def QueryError.expected (found : Option Token) (accepted : List Keyword) : QueryError :=
  .unexpectedToken (describeToken found) (accepted.map Keyword.text)

end Timesheet
