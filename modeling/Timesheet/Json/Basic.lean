import Timesheet.Text.Decimal
/-!
# JSON values

A `Json` value, its compact and its indented text, and the readers that take records of known
fields out of it.

Records are lenient: fields that are not asked for are ignored, and an array stands for the fields
in their order.  A field that occurs twice is refused.
-/

namespace Timesheet

/-- A JSON value.  Integers are told apart from all other numbers, of which the text is kept. -/
inductive Json where
  | null
  | bool (b : Bool)
  | int (n : Int)
  /-- A number with a fraction, an exponent or a negative zero. -/
  | decimal (text : String)
  | str (s : String)
  /-- A string or an object with half of a surrogate pair in it or in a key.  It has a place in a
  text only where its value does not matter. -/
  | illFormed
  | arr (items : List Json)
  | obj (members : List (String × Json))

namespace Json

/-! ## 1. Text -/

/-- A lowercase hexadecimal digit. -/
def hexDigit (n : Nat) : Char :=
  if n < 10 then Char.ofNat (48 + n) else Char.ofNat (87 + n)

/-- A character within a string.  Quotes, backslashes and control characters are escaped, the
common ones by a letter. -/
def escape (c : Char) : List Char :=
  match c with
  | '"' => ['\\', '"']
  | '\\' => ['\\', '\\']
  | '\n' => ['\\', 'n']
  | '\r' => ['\\', 'r']
  | '\t' => ['\\', 't']
  | '\x08' => ['\\', 'b']
  | '\x0c' => ['\\', 'f']
  | _ =>
    if c.toNat < 32 then ['\\', 'u', '0', '0', hexDigit (c.toNat / 16), hexDigit (c.toNat % 16)]
    else [c]

/-- A string in its quotes. -/
def quote (s : String) : String :=
  String.ofList ('"' :: s.toList.flatMap escape ++ ['"'])

/-- The text of a value that is neither an array nor an object. -/
def scalarText : Json → String
  | bool true => "true"
  | bool false => "false"
  | int n => Decimal.intText n
  | decimal text => text
  | str s => quote s
  | _ => "null"

mutual

/-- The text without blanks. -/
def compact : Json → String
  | arr items => "[" ++ ",".intercalate (compactItems items) ++ "]"
  | obj members => "\x7b" ++ ",".intercalate (compactMembers members) ++ "\x7d"
  | j => j.scalarText

/-- The texts of the items of an array. -/
def compactItems : List Json → List String
  | [] => []
  | j :: rest => j.compact :: compactItems rest

/-- The texts of the members of an object. -/
def compactMembers : List (String × Json) → List String
  | [] => []
  | (k, j) :: rest => (quote k ++ ":" ++ j.compact) :: compactMembers rest

end

/-- Parts on lines of their own between brackets, indented by two blanks a level. -/
def block (level : Nat) (opening closing : String) (parts : List String) : String :=
  let indent (n : Nat) := String.ofList (List.replicate (2 * n) ' ')
  match parts with
  | [] => opening ++ closing
  | _ =>
    opening ++ "\n" ++ ",\n".intercalate (parts.map (indent (level + 1) ++ ·)) ++ "\n" ++
      indent level ++ closing

mutual

/-- The text with one item or member a line, as it stands `level` levels deep. -/
def prettyAt (level : Nat) : Json → String
  | arr items => block level "[" "]" (prettyItems (level + 1) items)
  | obj members => block level "\x7b" "\x7d" (prettyMembers (level + 1) members)
  | j => j.scalarText

/-- The texts of the items of an array. -/
def prettyItems (level : Nat) : List Json → List String
  | [] => []
  | j :: rest => j.prettyAt level :: prettyItems level rest

/-- The texts of the members of an object. -/
def prettyMembers (level : Nat) : List (String × Json) → List String
  | [] => []
  | (k, j) :: rest => (quote k ++ ": " ++ j.prettyAt level) :: prettyMembers level rest

end

/-- The indented text. -/
def pretty (j : Json) : String := j.prettyAt 0

/-! ## 2. Values of basic types -/

/-- An integer from 0 to 2⁶⁴ - 1. -/
def word? : Json → Option UInt64
  | int n => if 0 ≤ n ∧ n < UInt64.size then some (UInt64.ofNat n.toNat) else none
  | _ => none

/-- An integer from -2⁶³ to 2⁶³ - 1. -/
def signed? : Json → Option Int64
  | int n =>
    if Int64.minValue.toInt ≤ n ∧ n ≤ Int64.maxValue.toInt then some (Int64.ofInt n) else none
  | _ => none

/-- A string. -/
def str? : Json → Option String
  | str s => some s
  | _ => none

/-- A list of values of one type. -/
def list? {α : Type} (read : Json → Option α) : Json → Option (List α)
  | arr items => items.mapM read
  | _ => none

/-- One of several names, as a string or as the one key of an object with the value `null`. -/
def name? {α : Type} (names : List (String × α)) : Json → Option α
  | str s => names.lookup s
  | obj [(s, null)] => names.lookup s
  | _ => none

/-- The value of a 64-bit number. -/
def ofWord (n : UInt64) : Json := int n.toNat

/-! ## 3. Records -/

/-- The values of the named fields, each if it is there. -/
def fields? (names : List String) : Json → Option (List (Option Json))
  | obj members =>
    if names.all fun name => (members.filter (·.1 == name)).length ≤ 1 then
      some (names.map (members.lookup ·))
    else none
  | arr items =>
    if items.length ≤ names.length then
      some (items.map some ++ List.replicate (names.length - items.length) none)
    else none
  | _ => none

/-- A field that must be there. -/
def required {α : Type} (read : Json → Option α) (field : Option Json) : Option α :=
  field.bind read

/-- A field with a default. -/
def withDefault {α : Type} (default : α) (read : Json → Option α) : Option Json → Option α
  | none => some default
  | some j => read j

/-- A field that may be absent or `null`. -/
def optional {α : Type} (read : Json → Option α) : Option Json → Option (Option α)
  | none | some null => some none
  | some j => (read j).map some

/-- An object of those members that have a value. -/
def ofFields (fields : List (String × Option Json)) : Json :=
  obj (fields.filterMap fun f => f.2.map (f.1, ·))

end Json

end Timesheet
