import Timesheet.Pattern.Check
import Timesheet.Text.Decimal
/-!
# Log filters

The log level of the settings is a filter: directives with commas between them.  A directive is a
level on its own, or says to what it applies, by a name, a span in square brackets or both, and may
then give a level after `=`.  A span may name a field in braces, and after `=` the number or the
pattern that its value has to match.

`LogFilter.check` says what is wrong with a directive.  Such directives have no effect, and
`LogFilter.warnings` reports them.
-/

namespace Timesheet

/-- What may be wrong with a directive. -/
inductive DirectiveError where
  /-- It is not made as directives are. -/
  | malformed
  /-- What stands for the level is none. -/
  | noLevel
  /-- The pattern of its field cannot be used. -/
  | field (e : PatternError)
deriving DecidableEq

/-- The wording of an error. -/
def DirectiveError.message : DirectiveError → String
  | malformed => "invalid filter directive"
  | noLevel => "error parsing level filter: expected one of \"off\", \"error\", \"warn\", "
      ++ "\"info\", \"debug\", \"trace\", or a number 0-5"
  | field e => "invalid field filter: " ++ e.message

namespace LogFilter

/-! ## 1. Levels and fields -/

/-- The text without a sign at its start. -/
def dropSign : List Char → List Char
  | '+' :: cs => cs
  | '-' :: cs => cs
  | cs => cs

/-- The text has one of these words, in any letter case. -/
def isWord (words : List String) (cs : List Char) : Bool :=
  (words.map String.toList).contains (cs.map Char.toLower)

/-- There is at least one digit, and nothing else. -/
def isDigits (cs : List Char) : Bool := !cs.isEmpty && cs.all Char.isDigit

/-- The text is the name of a level or its number. -/
def isLevel (cs : List Char) : Bool :=
  let digits := match cs with
    | '+' :: rest => rest
    | _ => cs
  isWord ["off", "error", "warn", "info", "debug", "trace"] cs
    || (isDigits digits && decide (Decimal.value digits ≤ 5))

/-- The text is a number, with a fraction and an exponent or without. -/
def isNumber (cs : List Char) : Bool :=
  let body := dropSign cs
  let whole := body.takeWhile Char.isDigit
  let (fraction, rest) := match body.dropWhile Char.isDigit with
    | '.' :: rest => (rest.takeWhile Char.isDigit, rest.dropWhile Char.isDigit)
    | rest => ([], rest)
  isWord ["inf", "infinity", "nan"] body
    || (!(whole ++ fraction).isEmpty && match rest with
      | [] => true
      | e :: exponent => (e == 'e' || e == 'E') && isDigits (dropSign exponent))

/-- What is wrong with a field.  Its value ends before a second `=`. -/
def checkField (cs : List Char) : Except DirectiveError Unit :=
  match cs.dropWhile (· ≠ '=') with
  | [] => .ok ()
  | _ :: rest =>
    let value := rest.takeWhile (· ≠ '=')
    if isNumber value then .ok () else (Pattern.check value).mapError .field

/-! ## 2. Places in a directive

Places are counted in bytes, in the directive without the blanks around it.  What stands at a place
is then taken from the directive with its blanks, so that blanks before it move what is read as a
field or a level.
-/

/-- The number of bytes of a text. -/
def byteLength (cs : List Char) : Nat := cs.foldr (·.utf8Size + ·) 0

/-- The characters that begin within the first `n` bytes of a text. -/
def takeBytes (n : Nat) : List Char → List Char
  | [] => []
  | c :: cs => if n = 0 then [] else c :: takeBytes (n - c.utf8Size) cs

/-- The text without the characters that begin within its first `n` bytes. -/
def dropBytes (n : Nat) : List Char → List Char
  | [] => []
  | c :: cs => if n = 0 then c :: cs else dropBytes (n - c.utf8Size) cs

/-- What stands in a directive at the place where `rest` does in the directive without blanks. -/
def textAt (directive rest : List Char) : List Char :=
  dropBytes (byteLength (Text.trim directive) - byteLength rest) directive

/-! ## 3. Directives -/

/-- The character may start a name. -/
def startsName (c : Char) : Bool := c == '-' || c == ':' || c == '_' || Text.isAlphanumeric c

/-- What is wrong with a level.  It may be left away. -/
def checkLevel (level : List Char) : Except DirectiveError Unit :=
  if level.isEmpty || isLevel level then .ok () else .error .noLevel

/-- What is wrong behind a span. -/
def checkAfterSpan (directive : List Char) : List Char → Except DirectiveError Unit
  | [] => .ok ()
  | '=' :: rest => checkLevel (textAt directive rest)
  | _ :: _ => .error .malformed

/-- What is wrong from the bracket on that opens a span. -/
def checkSpan (directive cs : List Char) : Except DirectiveError Unit :=
  match cs.dropWhile fun c => c ≠ ']' && c ≠ '\x7b' with
  | ']' :: rest => checkAfterSpan directive rest
  | '\x7b' :: fields =>
    let field := fields.takeWhile (· ≠ '\x7d')
    match fields.dropWhile (· ≠ '\x7d') with
    | '\x7d' :: rest =>
      if field.isEmpty then .error .malformed
      else do
        checkField (takeBytes (byteLength field) (textAt directive fields))
        match rest with
        | ']' :: rest => checkAfterSpan directive rest
        | _ => .error .malformed
    | _ => .error .malformed
  | _ => .error .malformed

/-- What is wrong with a directive. -/
def check (directive : List Char) : Except DirectiveError Unit :=
  match Text.trim directive with
  | [] => .error .malformed
  | '[' :: rest => checkSpan directive rest
  | c :: rest =>
    if startsName c then
      match rest.dropWhile fun c => c ≠ '=' && c ≠ '[' with
      | '=' :: rest => checkLevel (textAt directive rest)
      | '[' :: rest => checkSpan directive rest
      | _ => .ok ()
    else .error .malformed

/-- The directives of a filter. -/
def directives (filter : String) : List (List Char) :=
  (filter.toList.splitOn ',').filter (!·.isEmpty)

/-- A line for each directive of the filter with which something is wrong. -/
def warnings (filter : String) : String :=
  String.join <| (directives filter).filterMap fun d =>
    match check d with
    | .ok () => none
    | .error e => some ("ignoring `" ++ String.ofList d ++ "`: " ++ e.message ++ "\n")

example : warnings "warn,my_program[loading]=DEBUG,[a\x7bb=c+\x7d]" = "" := by decide +kernel

example : warnings "!,info" = "ignoring `!`: invalid filter directive\n" := by decide +kernel

end LogFilter

end Timesheet
