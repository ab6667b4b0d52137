import Timesheet.Json.Basic
import Timesheet.Text.Hexadecimal
/-!
# Reading JSON texts

`Json.read?` reads a whole text.  It goes in two steps.  `Json.lexemes` cuts the text into
brackets, commas, colons and scalars.  `Json.Reading.step` then takes them one by one; between two
of them it keeps the arrays and objects that are still open, so that nesting has no limit.
-/

namespace Timesheet.Json

/-! ## 1. Lexemes -/

/-- A part of a text. -/
inductive Lexeme where
  | openArray | closeArray | openObject | closeObject | comma | colon
  /-- A value without parts of its own. -/
  | scalar (j : Json)

/-- A character of a string, or a unit of 16 bits given by an escape. -/
inductive Unit16 where
  | char (c : Char)
  | escaped (n : Nat)

/-- The character that a letter after a backslash stands for. -/
def unescape? : Char → Option Char
  | '"' => some '"'
  | '\\' => some '\\'
  | '/' => some '/'
  | 'b' => some '\x08'
  | 'f' => some '\x0c'
  | 'n' => some '\n'
  | 'r' => some '\r'
  | 't' => some '\t'
  | _ => none

/-- Reads a string after its opening quote. -/
def readString : List Char → Option (List Unit16 × List Char)
  | [] => none
  | '"' :: rest => some ([], rest)
  | '\\' :: 'u' :: a :: b :: c :: d :: rest => do
    let n := (← [a, b, c, d].mapM Text.hexValue?).foldl (16 * · + ·) 0
    let (units, rest) ← readString rest
    return (.escaped n :: units, rest)
  | '\\' :: e :: rest => do
    let c ← unescape? e
    let (units, rest) ← readString rest
    return (.char c :: units, rest)
  | c :: rest =>
    if c.toNat < 32 then none
    else do
      let (units, rest) ← readString rest
      return (.char c :: units, rest)

/-- The text of units, in which the halves of surrogate pairs must stand together. -/
def textOfUnits : List Unit16 → Option (List Char)
  | [] => some []
  | .char c :: rest => (textOfUnits rest).map (c :: ·)
  | .escaped n :: rest =>
    if 0xD800 ≤ n ∧ n < 0xDC00 then
      match rest with
      | .escaped m :: rest =>
        if 0xDC00 ≤ m ∧ m < 0xE000 then
          (textOfUnits rest).map (Char.ofNat (0x10000 + (n - 0xD800) * 1024 + (m - 0xDC00)) :: ·)
        else none
      | _ => none
    else if 0xDC00 ≤ n ∧ n < 0xE000 then none
    else (textOfUnits rest).map (Char.ofNat n :: ·)

/-- The string of units. -/
def ofUnits (units : List Unit16) : Json :=
  match textOfUnits units with
  | some cs => str (String.ofList cs)
  | none => illFormed

/-- Splits off the digits before and after a point or an exponent: at least one. -/
def readDigits (cs : List Char) : Option (List Char × List Char) :=
  if (cs.takeWhile Char.isDigit).isEmpty then none
  else some (cs.takeWhile Char.isDigit, cs.dropWhile Char.isDigit)

/-- Reads the whole part of a number: no zero before other digits. -/
def readWhole : List Char → Option (List Char × List Char)
  | '0' :: rest => some (['0'], rest)
  | cs => readDigits cs

/-- Reads a fraction, if there is one. -/
def readFraction : List Char → Option (List Char × List Char)
  | '.' :: rest => (readDigits rest).map fun (ds, rest) => ('.' :: ds, rest)
  | cs => some ([], cs)

/-- Reads an exponent, if there is one. -/
def readExponent : List Char → Option (List Char × List Char)
  | e :: rest =>
    if e = 'e' ∨ e = 'E' then
      match rest with
      | '+' :: rest => (readDigits rest).map fun (ds, rest) => (e :: '+' :: ds, rest)
      | '-' :: rest => (readDigits rest).map fun (ds, rest) => (e :: '-' :: ds, rest)
      | rest => (readDigits rest).map fun (ds, rest) => (e :: ds, rest)
    else some ([], e :: rest)
  | [] => some ([], [])

/-- Reads a number after its sign. -/
def readNumber (negative : Bool) (cs : List Char) : Option (Json × List Char) := do
  let (whole, cs) ← readWhole cs
  let (fraction, cs) ← readFraction cs
  let (exponent, cs) ← readExponent cs
  let n : Int := Decimal.value whole
  if fraction.isEmpty && exponent.isEmpty && !(negative && n == 0) then
    return (int (if negative then -n else n), cs)
  else
    let sign := if negative then ['-'] else []
    return (decimal (String.ofList (sign ++ whole ++ fraction ++ exponent)), cs)

/-- Reads one lexeme, which starts with `c`. -/
def readLexeme (c : Char) (cs : List Char) : Option (Lexeme × List Char) :=
  match c, cs with
  | '[', _ => some (.openArray, cs)
  | ']', _ => some (.closeArray, cs)
  | '\x7b', _ => some (.openObject, cs)
  | '\x7d', _ => some (.closeObject, cs)
  | ',', _ => some (.comma, cs)
  | ':', _ => some (.colon, cs)
  | '"', _ => (readString cs).map fun (units, rest) => (.scalar (ofUnits units), rest)
  | 't', 'r' :: 'u' :: 'e' :: rest => some (.scalar (bool true), rest)
  | 'f', 'a' :: 'l' :: 's' :: 'e' :: rest => some (.scalar (bool false), rest)
  | 'n', 'u' :: 'l' :: 'l' :: rest => some (.scalar null, rest)
  | '-', _ => (readNumber true cs).map fun (j, rest) => (.scalar j, rest)
  | _, _ =>
    if c.isDigit then (readNumber false (c :: cs)).map fun (j, rest) => (.scalar j, rest) else none

/-- Blanks between lexemes. -/
def isSpace (c : Char) : Bool := c == ' ' || c == '\n' || c == '\t' || c == '\r'

/-- The lexemes of a text.  A lexeme takes at least the character that it starts with, so that
`limit`, the length of the text, is never reached. -/
def lexemesUpTo : (limit : Nat) → List Char → Option (List Lexeme)
  | _, [] => some []
  | 0, _ => none
  | limit + 1, c :: cs =>
    if isSpace c then lexemesUpTo limit cs
    else do
      let (lexeme, rest) ← readLexeme c cs
      let lexemes ← lexemesUpTo limit rest
      return lexeme :: lexemes

/-- The lexemes of a text. -/
def lexemes (cs : List Char) : Option (List Lexeme) := lexemesUpTo cs.length cs

/-! ## 2. Values -/

/-- An array or object that is still open, with what it holds so far, last first. -/
inductive Frame where
  | array (items : List Json)
  /-- The value of `key` is to follow. -/
  | object (members : List (Option String × Json)) (key : Option String)

/-- Where the reading of a value stands, with the open arrays and objects, innermost first. -/
inductive Reading where
  /-- A value must follow. -/
  | value (outer : List Frame)
  /-- The first item of an array or its end must follow. -/
  | item (outer : List Frame)
  /-- A key must follow, or the end of an object that has no members yet. -/
  | key (outer : List Frame) (members : List (Option String × Json))
  /-- The colon after a key must follow. -/
  | colon (outer : List Frame) (members : List (Option String × Json)) (key : Option String)
  /-- A value has been read. -/
  | done (outer : List Frame) (value : Json)

/-- The object of members, last first. -/
def ofMembers (members : List (Option String × Json)) : Json :=
  match members.reverse.mapM fun (k, j) => k.map (·, j) with
  | some members => obj members
  | none => illFormed

/-- Starts a value with a lexeme. -/
def Reading.start (outer : List Frame) : Lexeme → Option Reading
  | .scalar j => some (.done outer j)
  | .openArray => some (.item outer)
  | .openObject => some (.key outer [])
  | _ => none

/-- Takes the next lexeme. -/
def Reading.step : Reading → Lexeme → Option Reading
  | .value outer, l => start outer l
  | .item outer, .closeArray => some (.done outer (arr []))
  | .item outer, l => start (.array [] :: outer) l
  | .key outer ms, .scalar (str k) => some (.colon outer ms (some k))
  | .key outer ms, .scalar illFormed => some (.colon outer ms none)
  | .key outer [], .closeObject => some (.done outer (obj []))
  | .colon outer ms k, .colon => some (.value (.object ms k :: outer))
  | .done (.array items :: outer) j, .comma => some (.value (.array (j :: items) :: outer))
  | .done (.array items :: outer) j, .closeArray => some (.done outer (arr (j :: items).reverse))
  | .done (.object ms k :: outer) j, .comma => some (.key outer ((k, j) :: ms))
  | .done (.object ms k :: outer) j, .closeObject => some (.done outer (ofMembers ((k, j) :: ms)))
  | _, _ => none

/-- The value that a text is. -/
def read? (text : String) : Option Json := do
  let ls ← lexemes text.toList
  match ← ls.foldlM Reading.step (.value []) with
  | .done [] j => some j
  | _ => none

end Timesheet.Json
