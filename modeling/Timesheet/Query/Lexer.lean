import Timesheet.Text.Blank
import Timesheet.Text.Lowercase
import Timesheet.Query.Token
import Timesheet.Query.Error
/-!
# From text to tokens

A query is cut at blanks and commas into pieces, and each piece is one token.  A quote, double or
single, may open anywhere in a piece; until the same quote closes it, or the text ends, blanks and
commas belong to the piece.

* `Lexer.takePiece` reads one piece, `Lexer.pieces` all of them.
* `Lexer.classify` says which token a piece is.
* `Lexer.tokens` is the whole way from a text to its tokens.
-/

namespace Timesheet.Lexer

/-! ## 1. Pieces -/

/-- Blanks and commas separate tokens. -/
def isSeparator (c : Char) : Bool := Text.isBlank c || c == ','

/-- Both kinds of quotation marks open a quoted run, and the same mark closes it. -/
def isQuote (c : Char) : Bool := c == '"' || c == '\''

/-- The quoted run that is open after `c`, given the one open before it. -/
def quoteAfter (inside : Option Char) (c : Char) : Option Char :=
  match inside with
  | none => if isQuote c then some c else none
  | some q => if c = q then none else some q

/-- Reads up to the next separator outside quotes.  `inside` is the mark of an open quoted run. -/
def takePiece (inside : Option Char) : List Char → List Char × List Char
  | [] => ([], [])
  | c :: cs =>
    if inside.isNone && isSeparator c then ([], c :: cs)
    else
      let (piece, rest) := takePiece (quoteAfter inside c) cs
      (c :: piece, rest)

/-- A piece and what follows it make up the text. -/
theorem takePiece_append (inside : Option Char) (cs : List Char) :
    (takePiece inside cs).1 ++ (takePiece inside cs).2 = cs := by
  induction cs generalizing inside with
  | nil => rfl
  | cons c cs ih =>
    unfold takePiece
    split
    · rfl
    · simp [ih]

theorem length_takePiece_le (inside : Option Char) (cs : List Char) :
    (takePiece inside cs).2.length ≤ cs.length := by
  have h := congrArg List.length (takePiece_append inside cs)
  simp only [List.length_append] at h
  omega

/-- The pieces of a text. -/
def pieces (cs : List Char) : List (List Char) :=
  match _h : cs.dropWhile isSeparator with
  | [] => []
  | c :: rest =>
    let piece := takePiece (quoteAfter none c) rest
    (c :: piece.1) :: pieces piece.2
termination_by cs.length
decreasing_by
  have h1 := length_takePiece_le (quoteAfter none c) rest
  have h2 : (cs.dropWhile isSeparator).length ≤ cs.length := (List.dropWhile_sublist _).length_le
  rw [_h, List.length_cons] at h2
  omega

/-! ## 2. What a piece is -/

/-- The inside of a piece that is one quoted run from its first to its last character. -/
def quoted? : List Char → Option (List Char)
  | [] => none
  | q :: cs =>
    if isQuote q then
      match cs.span (· != q) with
      | (inner, [_]) => some inner
      | _ => none
    else none

/-- The piece has the shape of a date: digits, and hyphens in the fifth and eighth place. -/
def hasDateShape : List Char → Bool
  | [y1, y2, y3, y4, h1, m1, m2, h2, d1, d2] =>
    [y1, y2, y3, y4, m1, m2, d1, d2].all Char.isDigit && h1 == '-' && h2 == '-'
  | _ => false

/-- The name of a tag: the rest of a piece after its mark, with neither quotes nor marks in it. -/
def tagName? : List Char → Option (List Char)
  | '#' :: name => if name.isEmpty || name.any (fun c => isQuote c || c == '#') then none else some name
  | _ => none

/-- The number that the digits make up, if it has at most 64 bits. -/
def number? (cs : List Char) : Option UInt64 :=
  if !cs.isEmpty && cs.all Char.isDigit && Decimal.value cs < UInt64.size then
    some (UInt64.ofNat (Decimal.value cs))
  else none

/-- The token that a piece is: a quoted text, a keyword, the shape of a date, a tag or a number, in
this order. -/
def classify (piece : List Char) : Except QueryError Token :=
  match quoted? piece with
  | some inner => .ok (.text (String.ofList inner))
  | none =>
    match Keyword.ofChars? piece with
    | some k => .ok (.keyword k)
    | none =>
      if hasDateShape piece then .ok (.date (String.ofList piece))
      else
        match tagName? piece with
        | some name => .ok (.tag (Text.lowercase (String.ofList name)))
        | none =>
          match number? piece with
          | some n => .ok (.number n)
          | none => .error (.unknownWord (String.ofList piece))

/-- The tokens of a text, or the error of the first piece that is no token. -/
def tokens (text : String) : Except QueryError (List Token) :=
  (pieces text.toList).mapM classify

end Timesheet.Lexer
