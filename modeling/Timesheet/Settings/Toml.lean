import Timesheet.Calendar.Date
import Timesheet.Text.Decimal
import Timesheet.Text.Hexadecimal
/-!
# TOML documents

`Toml.read?` reads a TOML 1.0 document into a table.  The text of numbers and times that are not
integers is checked and then forgotten, since settings have no use for it.

A table may be opened only once: by a header, or by dotted keys.  `Table.isImplicit` and
`Table.isDotted` tell how one came into being and so what may still be added to it.
-/

namespace Timesheet

mutual

/-- A value of a document. -/
inductive Toml where
  | str (s : String)
  | int (n : Int)
  | bool (b : Bool)
  | float
  | time
  | arr (items : List Toml)
  /-- A table in braces, which is complete. -/
  | braces (t : Table)
  /-- A table of the document. -/
  | table (t : Table)
  /-- Tables under one header in double brackets, last first. -/
  | tables (last : Table) (before : List Table)

/-- A table.  It is implicit if it has no header of its own, and dotted if it stems from a dotted
key. -/
inductive Table where
  | mk (implicit dotted : Bool) (members : List (String × Toml))

end

namespace Table

def isImplicit : Table → Bool
  | mk implicit _ _ => implicit

def isDotted : Table → Bool
  | mk _ dotted _ => dotted

def members : Table → List (String × Toml)
  | mk _ _ members => members

/-- The value of a key. -/
def get? (t : Table) (key : String) : Option Toml := t.members.lookup key

/-- The table with a value for a key, in place of the one that it has. -/
def set (t : Table) (key : String) (v : Toml) : Table :=
  mk t.isImplicit t.isDotted (t.members.filter (·.1 != key) ++ [(key, v)])

/-- A table without members that has a header. -/
def opened : Table := mk false false []

/-- Changes the table at the end of a path.  Tables on the way are made if need be; a path of a
dotted key does not lead through tables that have a header. -/
def update (dotted : Bool) (change : Table → Option Table) : List String → Table → Option Table
  | [], t => change t
  | key :: path, t => do
    let v ← match t.get? key with
      | none => (update dotted change path (mk true dotted [])).map Toml.table
      | some (.table child) =>
        if dotted && !child.isImplicit then none
        else (update dotted change path child).map Toml.table
      | some (.tables last before) =>
        (update dotted change path last).map (Toml.tables · before)
      | some _ => none
    return t.set key v

/-- Adds a value for a dotted key, whose path leads to the table that gets it.  The key must be new
there, and only dotted keys add to dotted tables. -/
def add (path : List String) (key : String) (v : Toml) (t : Table) : Option Table :=
  update true (fun t =>
    if t.isDotted == path.isEmpty || (t.get? key).isSome then none else some (t.set key v)) path t

/-- Opens a table by its header.  It must be new or implicit. -/
def openTable (path : List String) (key : String) (t : Table) : Option Table :=
  update false (fun t =>
    match t.get? key with
    | none => some (t.set key (.table opened))
    | some (.table child) =>
      if child.isImplicit && !child.isDotted then
        some (t.set key (.table (mk false false child.members)))
      else none
    | some _ => none) path t

/-- Adds a table under a header in double brackets. -/
def openNext (path : List String) (key : String) (t : Table) : Option Table :=
  update false (fun t =>
    match t.get? key with
    | none => some (t.set key (.tables opened []))
    | some (.tables last before) => some (t.set key (.tables opened (last :: before)))
    | some _ => none) path t

end Table

namespace Toml

/-! ## 1. Blanks, line ends and comments -/

/-- Blanks within a line. -/
def isSpace (c : Char) : Bool := c == ' ' || c == '\t'

/-- Characters that may stand in comments and strings: all but control characters, except tabs. -/
def isPlain (c : Char) : Bool := c == '\t' || (32 ≤ c.toNat && c.toNat != 127)

def skipSpaces (cs : List Char) : List Char := cs.dropWhile isSpace

/-- Takes a line end. -/
def readNewline : List Char → Option (List Char)
  | '\n' :: rest => some rest
  | '\r' :: '\n' :: rest => some rest
  | _ => none

/-- Skips a comment, if there is one. -/
def skipComment : List Char → List Char
  | '#' :: rest => rest.dropWhile isPlain
  | cs => cs

/-- Takes blanks, a comment and the end of a line or of the text. -/
def readLineEnd (cs : List Char) : Option (List Char) :=
  match skipComment (skipSpaces cs) with
  | [] => some []
  | cs => readNewline cs

/-- Skips blanks, comments and line ends; `limit` is the length of the text. -/
def skipBreaksUpTo : (limit : Nat) → List Char → List Char
  | 0, cs => cs
  | limit + 1, cs =>
    match readNewline (skipComment (skipSpaces cs)) with
    | some rest => skipBreaksUpTo limit rest
    | none => skipSpaces cs

/-- Skips blanks, comments and line ends. -/
def skipBreaks (cs : List Char) : List Char := skipBreaksUpTo cs.length cs

/-! ## 2. Strings -/

/-- The character of a code point given by hexadecimal digits. -/
def codePoint? (digits : List Char) : Option Char := do
  let values ← digits.mapM Text.hexValue?
  let n := values.foldl (fun n d => 16 * n + d) 0
  if n < 0xD800 ∨ (0xDFFF < n ∧ n < 0x110000) then some (Char.ofNat n) else none

/-- The character that a letter after a backslash stands for. -/
def unescape? : Char → Option Char
  | '"' => some '"'
  | '\\' => some '\\'
  | 'b' => some '\x08'
  | 'f' => some '\x0c'
  | 'n' => some '\n'
  | 'r' => some '\r'
  | 't' => some '\t'
  | _ => none

/-- Adds a character to what is read of a string. -/
def push (c : Char) (r : Option (List Char × List Char)) : Option (List Char × List Char) :=
  r.map fun (text, rest) => (c :: text, rest)

/-- Reads a string in double quotes after its opening. -/
def readBasic : List Char → Option (List Char × List Char)
  | [] => none
  | '"' :: rest => some ([], rest)
  | '\\' :: 'u' :: a :: b :: c :: d :: rest =>
    (codePoint? [a, b, c, d]).bind fun x => push x (readBasic rest)
  | '\\' :: 'U' :: a :: b :: c :: d :: e :: f :: g :: h :: rest =>
    (codePoint? [a, b, c, d, e, f, g, h]).bind fun x => push x (readBasic rest)
  | '\\' :: e :: rest => (unescape? e).bind fun x => push x (readBasic rest)
  | c :: rest => if isPlain c then push c (readBasic rest) else none

/-- Reads a string in single quotes after its opening. -/
def readLiteral : List Char → Option (List Char × List Char)
  | [] => none
  | '\'' :: rest => some ([], rest)
  | c :: rest => if isPlain c then push c (readLiteral rest) else none

/-- Up to two quotes that stand before three closing ones, of which the first three characters
have been read. -/
def closeBlock (mark : Char) : List Char → List Char × List Char
  | a :: b :: rest =>
    if a = mark then (if b = mark then ([a, b], rest) else ([a], b :: rest)) else ([], a :: b :: rest)
  | [a] => if a = mark then ([a], []) else ([], [a])
  | [] => ([], [])

/-- A backslash before the end of a line, blanks aside. -/
def isContinued (cs : List Char) : Bool := (readNewline (skipSpaces cs)).isSome

/-- Reads a string in three double quotes after its opening.  After a backslash at the end of a line
everything blank is skipped (`skipping`). -/
def readBasicBlock (skipping : Bool) : List Char → Option (List Char × List Char)
  | [] => none
  | '"' :: '"' :: '"' :: rest => some (closeBlock '"' rest)
  | '\r' :: '\n' :: rest =>
    if skipping then readBasicBlock true rest else push '\n' (readBasicBlock false rest)
  | '\n' :: rest =>
    if skipping then readBasicBlock true rest else push '\n' (readBasicBlock false rest)
  | '\\' :: 'u' :: a :: b :: c :: d :: rest =>
    (codePoint? [a, b, c, d]).bind fun x => push x (readBasicBlock false rest)
  | '\\' :: 'U' :: a :: b :: c :: d :: e :: f :: g :: h :: rest =>
    (codePoint? [a, b, c, d, e, f, g, h]).bind fun x => push x (readBasicBlock false rest)
  | '\\' :: e :: rest =>
    if isContinued (e :: rest) then readBasicBlock true (e :: rest)
    else (unescape? e).bind fun x => push x (readBasicBlock false rest)
  | c :: rest =>
    if skipping && isSpace c then readBasicBlock true rest
    else if isPlain c then push c (readBasicBlock false rest)
    else none

/-- Reads a string in three single quotes after its opening. -/
def readLiteralBlock : List Char → Option (List Char × List Char)
  | [] => none
  | '\'' :: '\'' :: '\'' :: rest => some (closeBlock '\'' rest)
  | '\r' :: '\n' :: rest => push '\n' (readLiteralBlock rest)
  | '\n' :: rest => push '\n' (readLiteralBlock rest)
  | c :: rest => if isPlain c then push c (readLiteralBlock rest) else none

/-- The text without a line end at its start. -/
def dropNewline (cs : List Char) : List Char := (readNewline cs).getD cs

/-! ## 3. Numbers and times -/

/-- Digits without the underscores that stand between two of them. -/
def ungroup (isDigit : Char → Bool) : List Char → Option (List Char)
  | [] => none
  | [c] => if isDigit c then some [c] else none
  | c :: '_' :: d :: rest =>
    if isDigit c then (ungroup isDigit (d :: rest)).map (c :: ·) else none
  | c :: d :: rest => if isDigit c then (ungroup isDigit (d :: rest)).map (c :: ·) else none

/-- Digits of a whole number: no zero before others. -/
def wholeDigits? (cs : List Char) : Option (List Char) := do
  match ← ungroup Char.isDigit cs with
  | '0' :: _ :: _ => none
  | digits => some digits

/-- The number of digits in a base. -/
def inBase? (base : Nat) (cs : List Char) : Option Nat := do
  let isDigit (c : Char) : Bool := (Text.hexValue? c).any (· < base)
  let values ← (← ungroup isDigit cs).mapM Text.hexValue?
  return values.foldl (fun n d => base * n + d) 0

/-- The text without its sign, and whether that is a minus. -/
def splitSign : List Char → Bool × List Char
  | '-' :: rest => (true, rest)
  | '+' :: rest => (false, rest)
  | cs => (false, cs)

/-- An integer of 64 bits. -/
def integer? (cs : List Char) : Option Toml := do
  let n : Int ← match cs with
    | '0' :: 'x' :: rest => (inBase? 16 rest).map Int.ofNat
    | '0' :: 'o' :: rest => (inBase? 8 rest).map Int.ofNat
    | '0' :: 'b' :: rest => (inBase? 2 rest).map Int.ofNat
    | _ =>
      let (negative, digits) := splitSign cs
      (wholeDigits? digits).map fun ds =>
        if negative then -(Decimal.value ds : Int) else Decimal.value ds
  if Int64.minValue.toInt ≤ n ∧ n ≤ Int64.maxValue.toInt then some (.int n) else none

/-- The exponent of a number, after its letter. -/
def exponent? (cs : List Char) : Option Int := do
  let (negative, body) := splitSign cs
  let n := Decimal.value (← ungroup Char.isDigit body)
  return if negative then -(n : Int) else n

/-- The least number that rounds to infinity in 64 bits. -/
def leastInfinite : Nat := Nat.pow 2 1024 - Nat.pow 2 970

/-- The digits, times ten to the power `e`, stand for a number that rounds to infinity in 64 bits.
`leastInfinite` has 309 digits, so only numbers with as many are compared with it. -/
def isInfinite (digits : List Char) (e : Int) : Bool :=
  let significant := digits.dropWhile (· == '0')
  let size : Int := significant.length + e
  if significant.isEmpty || decide (size < 309) then false
  else if 309 < size then true
  else decide (leastInfinite * Nat.pow 10 (-e).toNat ≤
    Decimal.value significant * Nat.pow 10 e.toNat)

/-- The exponent behind the digits of a number, if there is one. -/
def readExponent : List Char → Option Int
  | [] => some 0
  | e :: rest => if e = 'e' ∨ e = 'E' then exponent? rest else none

/-- Characters of a run of digits. -/
def isGroup (c : Char) : Bool := c.isDigit || c == '_'

/-- The digits of a fraction and the exponent, one of which there has to be. -/
def readFraction : List Char → Option (List Char × Int)
  | [] => none
  | '.' :: rest => do
    let fraction ← ungroup Char.isDigit (rest.takeWhile isGroup)
    return (fraction, ← readExponent (rest.dropWhile isGroup))
  | rest => (readExponent rest).map ([], ·)

/-- A number with a fraction or an exponent, or one of the words for infinity and the like.  Only
the words stand for infinity: a number may not be too large, though it may be too small. -/
def float? (cs : List Char) : Option Toml := do
  let (negative, body) := splitSign cs
  if body = "inf".toList ∨ body = "nan".toList then return .float
  let whole ← wholeDigits? (body.takeWhile isGroup)
  let (fraction, e) ← readFraction (body.dropWhile isGroup)
  if !negative && isInfinite (whole ++ fraction) (e - fraction.length) then none else some .float

/-- Takes two digits that stand for a number within bounds. -/
def readTwo (least most : Nat) : List Char → Option (Nat × List Char)
  | a :: b :: rest =>
    let n := Decimal.value [a, b]
    if a.isDigit && b.isDigit && decide (least ≤ n ∧ n ≤ most) then some (n, rest) else none
  | _ => none

/-- Takes a character. -/
def readMark (c : Char) : List Char → Option (List Char)
  | [] => none
  | x :: rest => if x = c then some rest else none

/-- Takes a date. -/
def readDate (cs : List Char) : Option (List Char) := do
  let year := cs.take 4
  if year.length ≠ 4 || !year.all Char.isDigit then none
  let cs ← readMark '-' (cs.drop 4)
  let (month, cs) ← readTwo 1 12 cs
  let cs ← readMark '-' cs
  let (_, cs) ← readTwo 1 (monthLength (isLeapYear (Decimal.value year)) month) cs
  return cs

/-- Takes a time of day. -/
def readTime (cs : List Char) : Option (List Char) := do
  let (_, cs) ← readTwo 0 23 cs
  let cs ← readMark ':' cs
  let (_, cs) ← readTwo 0 59 cs
  let cs ← readMark ':' cs
  let (_, cs) ← readTwo 0 60 cs
  match cs with
  | '.' :: rest => if (rest.takeWhile Char.isDigit).isEmpty then none else rest.dropWhile Char.isDigit
  | cs => cs

/-- The text is an offset from universal time, or empty. -/
def isOffset (cs : List Char) : Bool :=
  match cs with
  | [] | ['Z'] | ['z'] => true
  | sign :: rest =>
    (sign == '+' || sign == '-') && (do
      let (_, rest) ← readTwo 0 23 rest
      let rest ← readMark ':' rest
      let (_, rest) ← readTwo 0 59 rest
      if rest.isEmpty then some () else none).isSome

/-- The text is a time of day with or without an offset. -/
def isTimeWithOffset (cs : List Char) : Bool := (readTime cs).any isOffset

/-- A date, a time, or both. -/
def time? (cs : List Char) : Option Toml :=
  match readDate cs with
  | some [] => some .time
  | some (t :: rest) => if (t = 'T' ∨ t = 't') ∧ isTimeWithOffset rest then some .time else none
  | none => if readTime cs = some [] then some .time else none

/-- Characters of numbers, times and words. -/
def isWordChar (c : Char) : Bool :=
  c.isAlphanum || c == '_' || c == '+' || c == '-' || c == '.' || c == ':'

/-- The value that a word is. -/
def word? (cs : List Char) : Option Toml :=
  if cs = "true".toList then some (.bool true)
  else if cs = "false".toList then some (.bool false)
  else (time? cs).or ((float? cs).or (integer? cs))

/-- Reads a number, a time or a word.  A blank may stand between a date and a time. -/
def readWord (cs : List Char) : Option (Toml × List Char) := do
  let word := cs.takeWhile isWordChar
  let rest := cs.dropWhile isWordChar
  match rest with
  | ' ' :: c :: more =>
    if readDate word = some [] ∧ c.isDigit then
      let clock := (c :: more).takeWhile isWordChar
      if isTimeWithOffset clock then some (.time, (c :: more).dropWhile isWordChar) else none
    else (word? word).map (·, rest)
  | _ => (word? word).map (·, rest)

/-! ## 4. Keys and values -/

/-- Characters of a key without quotes. -/
def isKeyChar (c : Char) : Bool := c.isAlphanum || c == '_' || c == '-'

/-- Reads one part of a key. -/
def readKeyPart : List Char → Option (String × List Char)
  | '"' :: rest => (readBasic rest).map fun (text, rest) => (String.ofList text, rest)
  | '\'' :: rest => (readLiteral rest).map fun (text, rest) => (String.ofList text, rest)
  | cs =>
    let part := cs.takeWhile isKeyChar
    if part.isEmpty then none else some (String.ofList part, cs.dropWhile isKeyChar)

/-- Reads the parts of a key with points between them, at most `limit`. -/
def readKeyUpTo : (limit : Nat) → List Char → Option (List String × List Char)
  | 0, _ => none
  | limit + 1, cs => do
    let (part, cs) ← readKeyPart (skipSpaces cs)
    match skipSpaces cs with
    | '.' :: rest =>
      let (parts, rest) ← readKeyUpTo limit rest
      return (part :: parts, rest)
    | cs => return ([part], cs)

/-- The deepest nesting of arrays and tables within a value, and of the parts of a key. -/
def deepest : Nat := 79

/-- Reads a key: the path to its table, and its last part. -/
def readKey (cs : List Char) : Option ((List String × String) × List Char) := do
  let (parts, cs) ← readKeyUpTo deepest cs
  let last ← parts.getLast?
  return ((parts.dropLast, last), cs)

/-- Reads a string, a number, a time or a word. -/
def readScalar : List Char → Option (Toml × List Char)
  | '"' :: '"' :: '"' :: rest => text (readBasicBlock false (dropNewline rest))
  | '\'' :: '\'' :: '\'' :: rest => text (readLiteralBlock (dropNewline rest))
  | '"' :: rest => text (readBasic rest)
  | '\'' :: rest => text (readLiteral rest)
  | cs => readWord cs
where
  /-- The value of a text. -/
  text (r : Option (List Char × List Char)) : Option (Toml × List Char) :=
    r.map fun (text, rest) => (.str (String.ofList text), rest)

/-- Reads the items of an array up to its end, with a reader of values.  There may be a comma after
the last. -/
def readItems (value : List Char → Option (Toml × List Char)) :
    (limit : Nat) → List Char → Option (List Toml × List Char)
  | 0, _ => none
  | limit + 1, cs =>
    match skipBreaks cs with
    | ']' :: rest => some ([], rest)
    | cs => do
      let (item, cs) ← value cs
      match skipBreaks cs with
      | ',' :: rest =>
        let (items, rest) ← readItems value limit rest
        return (item :: items, rest)
      | ']' :: rest => return ([item], rest)
      | _ => none

/-- Reads a key and its value. -/
def readPair (value : List Char → Option (Toml × List Char)) (cs : List Char) :
    Option ((List String × String) × Toml × List Char) := do
  let (key, cs) ← readKey cs
  let cs ← readMark '=' cs
  let (v, cs) ← value (skipSpaces cs)
  return (key, v, cs)

/-- Reads the pairs of a table in braces up to its end into a table. -/
def readPairs (value : List Char → Option (Toml × List Char)) :
    (limit : Nat) → Table → List Char → Option (Table × List Char)
  | 0, _, _ => none
  | limit + 1, t, cs => do
    let ((path, key), v, cs) ← readPair value cs
    let t ← t.add path key v
    match skipSpaces cs with
    | ',' :: rest => readPairs value limit t rest
    | '\x7d' :: rest => some (t, rest)
    | _ => none

/-- Reads a value, in which arrays and tables may be nested `depth` levels deep. -/
def readValue : (depth : Nat) → List Char → Option (Toml × List Char)
  | depth + 1, '[' :: rest => do
    let (items, rest) ← readItems (readValue depth) (rest.length + 1) rest
    return (.arr items, rest)
  | depth + 1, '\x7b' :: rest =>
    match skipSpaces rest with
    | '\x7d' :: rest => some (.braces .opened, rest)
    | rest => do
      let (t, rest) ← readPairs (readValue depth) (rest.length + 1) .opened rest
      return (.braces t, rest)
  | _, cs => readScalar cs

/-! ## 5. Documents -/

/-- Reads the header of a table and its line: whether it adds to a list of tables, and its key. -/
def readHeader : List Char → Option ((Bool × List String × String) × List Char)
  | '[' :: '[' :: rest => do
    let ((path, key), rest) ← readKey rest
    let rest ← readMark ']' rest
    let rest ← readMark ']' rest
    return ((true, path, key), ← readLineEnd rest)
  | '[' :: rest => do
    let ((path, key), rest) ← readKey rest
    let rest ← readMark ']' rest
    return ((false, path, key), ← readLineEnd rest)
  | _ => none

/-- Reads lines into the table of the document.  `path` leads to the table whose header came last;
`limit` is more than the number of lines. -/
def readLines : (limit : Nat) → (path : List String) → Table → List Char → Option Table
  | 0, _, _, _ => none
  | limit + 1, path, t, cs =>
    match skipSpaces cs with
    | [] => some t
    | '[' :: rest => do
      let ((isList, parents, key), rest) ← readHeader ('[' :: rest)
      let t ← if isList then t.openNext parents key else t.openTable parents key
      readLines limit (parents ++ [key]) t rest
    | c :: rest =>
      if c = '#' ∨ c = '\n' ∨ c = '\r' then do readLines limit path t (← readLineEnd (c :: rest))
      else do
        let ((keyPath, key), v, rest) ← readPair (readValue deepest) (c :: rest)
        let t ← t.update false (Table.add keyPath key v) path
        readLines limit path t (← readLineEnd rest)

/-- The table that a text is.  A byte order mark may stand before it. -/
def read? (text : String) : Option Table :=
  let cs := match text.toList with
    | '\uFEFF' :: rest => rest
    | cs => cs
  readLines (cs.length + 1) [] .opened cs

end Toml

end Timesheet
