import Mathlib.Data.List.TakeDrop
import Timesheet.Query.Lexer
import Timesheet.Query.Printer
import Timesheet.Proofs.Calendar.DateText
import Timesheet.Proofs.Results
import Timesheet.Proofs.Text.Lowercase
/-!
# Tokens that are written read back

A piece that closes all of its quotes, and has separators within quotes only, is cut out of a text as it
is (`Lexer.pieces_cons`).  Hence a text that is put together from such pieces, with separators between
them, falls apart into just these (`Lexer.pieces_words`).

`Token.spelling` is the piece that is written for a token, and `Token.IsSpelled` says that it is such a
piece and is read as that token.  That holds of all keywords and numbers, of texts that do not hold both
quotes, of bare tags in lowercase and of dates of a plain year.  Conversely `Lexer.Reads` says what a piece
is that is read as a token.  So a text that was read does not hold both quotes, and a tag that was read is
in lowercase (`Lexer.wasRead_of_classify`).
-/

namespace Timesheet

/-- The text can be put into quotes of one kind. -/
def Quotable (s : String) : Prop := ¬ ('"' ∈ s.toList ∧ '\'' ∈ s.toList)

namespace Lexer

/-! ## 1. Cutting -/

/-- The characters run to the end of a piece: no separator stands outside quotes, and at the end all
quotes are closed. -/
def isClosed (inside : Option Char) : List Char → Bool
  | [] => inside.isNone
  | c :: cs => !(inside.isNone && isSeparator c) && isClosed (quoteAfter inside c) cs

/-- A piece ends here: nothing follows, or a separator does. -/
def EndsPiece (rest : List Char) : Prop := ∀ c, rest.head? = some c → isSeparator c = true

theorem endsPiece_nil : EndsPiece [] := by simp [EndsPiece]

variable {p rest : List Char}

theorem takePiece_of_isClosed {inside : Option Char} (h : isClosed inside p = true)
    (hrest : EndsPiece rest) : takePiece inside (p ++ rest) = (p, rest) := by
  induction p generalizing inside with
  | nil =>
    obtain rfl : inside = none := Option.isNone_iff_eq_none.mp h
    cases rest with
    | nil => rfl
    | cons c rest => simp [takePiece, hrest c rfl]
  | cons c p ih =>
    simp only [isClosed, Bool.and_eq_true, Bool.not_eq_true'] at h
    rw [List.cons_append, takePiece, if_neg (by simp [h.1]), ih h.2]

/-- The pieces of a text are those of what is left of it behind its first separators. -/
theorem pieces_eq (cs : List Char) :
    pieces cs = match cs.dropWhile isSeparator with
      | [] => []
      | c :: tail =>
        (c :: (takePiece (quoteAfter none c) tail).1) ::
          pieces (takePiece (quoteAfter none c) tail).2 := by
  rw [pieces]
  split
  · next hdrop => rw [hdrop]
  · next c tail hdrop => rw [hdrop]

/-- Separators at the start of a text are passed over. -/
theorem pieces_separators {sep : List Char} (hsep : ∀ c ∈ sep, isSeparator c = true) (cs : List Char) :
    pieces (sep ++ cs) = pieces cs := by
  rw [pieces_eq, pieces_eq cs, List.dropWhile_append_of_pos hsep]

theorem pieces_nil : pieces [] = [] := by
  rw [pieces_eq]
  rfl

/-- **A closed piece is cut out as it is.** -/
theorem pieces_cons {sep : List Char} (hsep : ∀ c ∈ sep, isSeparator c = true) (hp : p ≠ [])
    (hclosed : isClosed none p = true) (hrest : EndsPiece rest) :
    pieces (sep ++ (p ++ rest)) = p :: pieces rest := by
  rw [pieces_separators hsep]
  cases p with
  | nil => exact absurd rfl hp
  | cons c p =>
    simp only [isClosed, Bool.and_eq_true, Bool.not_eq_true', Option.isNone_none,
      Bool.true_and] at hclosed
    have hdrop : (c :: p ++ rest).dropWhile isSeparator = c :: (p ++ rest) :=
      List.dropWhile_cons_of_neg (by simp [hclosed.1])
    rw [pieces_eq, hdrop]
    simp only [takePiece_of_isClosed hclosed.2 hrest]

/-- Characters that are neither quotes nor separators make up a closed piece. -/
theorem isClosed_of_forall (h : ∀ c ∈ p, isQuote c = false ∧ isSeparator c = false) :
    isClosed none p = true := by
  induction p with
  | nil => rfl
  | cons c p ih =>
    obtain ⟨⟨hquote, hsep⟩, hp⟩ := List.forall_mem_cons.mp h
    simp [isClosed, quoteAfter, hquote, hsep, ih hp]

theorem isSeparator_of_isQuote {m : Char} (hm : isQuote m = true) : isSeparator m = false := by
  simp only [isQuote, Bool.or_eq_true, beq_iff_eq] at hm
  rcases hm with rfl | rfl <;> decide

/-- A quoted run without its mark inside is a closed piece. -/
theorem isClosed_quoted {m : Char} {cs : List Char} (hm : isQuote m = true) (hcs : m ∉ cs) :
    isClosed none (m :: (cs ++ [m])) = true := by
  have hinside : isClosed (some m) (cs ++ [m]) = true := by
    induction cs with
    | nil => simp [isClosed, quoteAfter]
    | cons c cs ih =>
      rw [List.mem_cons, not_or] at hcs
      have hc : c ≠ m := fun h => hcs.1 h.symm
      simpa [isClosed, quoteAfter, hc] using ih hcs.2
  simp [isClosed, quoteAfter, hm, isSeparator_of_isQuote hm, hinside]

end Lexer

/-! ## 2. Words -/

/-- The piece that is written for a token. -/
def Token.spelling : Token → List Char
  | keyword k => k.text.toList
  | number n => Decimal.digits n.toNat
  | date raw => raw.toList
  | text s => (quoteText s).toList
  | tag name => '#' :: name.toList

/-- A token as it stands in a text, behind separators. -/
structure Word where
  sep : List Char
  token : Token

/-- The characters of a word. -/
def Word.chars (w : Word) : List Char := w.sep ++ w.token.spelling

/-- Separators stand before the word. -/
structure Word.IsParted (w : Word) : Prop where
  sep_ne_nil : w.sep ≠ []
  sep : ∀ c ∈ w.sep, Lexer.isSeparator c = true

/-- Separators stand before the word, and its token is one closed piece. -/
structure Word.IsApart (w : Word) : Prop extends w.IsParted where
  ne_nil : w.token.spelling ≠ []
  closed : Lexer.isClosed none w.token.spelling = true

namespace Lexer

theorem endsPiece_words {words : List Word} {rest : List Char} (h : ∀ w ∈ words, w.IsParted)
    (hrest : EndsPiece rest) : EndsPiece (words.flatMap Word.chars ++ rest) := by
  cases words with
  | nil => exact hrest
  | cons w words =>
    have hw := h w List.mem_cons_self
    intro c hc
    refine hw.sep c ?_
    cases hsep : w.sep with
    | nil => exact absurd hsep hw.sep_ne_nil
    | cons s sep =>
      simp only [List.flatMap_cons, Word.chars, hsep, List.cons_append, List.head?_cons,
        Option.some.injEq] at hc
      exact hc ▸ List.mem_cons_self

/-- **A text falls apart into the words of which it is made.** -/
theorem pieces_words {words : List Word} {rest : List Char} (h : ∀ w ∈ words, w.IsApart)
    (hrest : EndsPiece rest) :
    pieces (words.flatMap Word.chars ++ rest) =
      words.map (fun w => w.token.spelling) ++ pieces rest := by
  induction words with
  | nil => rfl
  | cons w words ih =>
    obtain ⟨hw, hwords⟩ := List.forall_mem_cons.mp h
    rw [List.flatMap_cons, Word.chars, List.append_assoc, List.append_assoc,
      pieces_cons hw.sep hw.ne_nil hw.closed
        (endsPiece_words (fun w hw => (hwords w hw).toIsParted) hrest), ih hwords]
    rfl

/-! ## 3. What a piece is -/

/-- A piece that does not start with a quote or a letter is neither a text nor a keyword. -/
theorem classify_cons {c : Char} (hquote : isQuote c = false) (halpha : c.isAlpha = false)
    (cs : List Char) :
    classify (c :: cs) =
      if hasDateShape (c :: cs) then .ok (.date (String.ofList (c :: cs)))
      else
        match tagName? (c :: cs) with
        | some name => .ok (.tag (Text.lowercase (String.ofList name)))
        | none =>
          match number? (c :: cs) with
          | some n => .ok (.number n)
          | none => .error (.unknownWord (String.ofList (c :: cs))) := by
  have hkeyword : Keyword.ofChars? (c :: cs) = none := by
    rw [Keyword.ofChars?, List.find?_eq_none]
    intro k _ hk
    have hupper : k.text.toList.head?.all Char.isUpper = true := by cases k <;> decide
    obtain ⟨hcapital, hsmall⟩ := Bool.or_eq_false_iff.mp halpha
    rw [beq_iff_eq.mp hk, List.map_cons, List.head?_cons, Option.all_some,
      Text.toUpper_of_isLower_eq_false hsmall, hcapital] at hupper
    exact Bool.false_ne_true hupper
  have htext : quoted? (c :: cs) = none := by simp [quoted?, hquote]
  unfold classify
  split
  · next inner hquoted => simp [htext] at hquoted
  · split
    · next k hk => simp [hkeyword] at hk
    · rfl

theorem tagName?_of_ne {c : Char} (hc : c ≠ '#') (cs : List Char) : tagName? (c :: cs) = none := by
  unfold tagName?
  split
  · next heq => exact absurd (List.cons.inj heq).1 hc
  · rfl

theorem quoted?_quoted {m : Char} {cs : List Char} (hm : isQuote m = true) (hcs : m ∉ cs) :
    quoted? (m :: (cs ++ [m])) = some cs := by
  have hspan : (cs ++ [m]).span (· != m) = (cs, [m]) := by
    have hne : ∀ c ∈ cs, (c != m) = true := by
      intro c hc
      simp only [bne_iff_ne]
      rintro rfl
      exact hcs hc
    rw [List.span_eq_takeWhile_dropWhile, List.takeWhile_append_of_pos hne,
      List.dropWhile_append_of_pos hne]
    simp
  rw [quoted?, if_pos hm, hspan]

/-- **A piece is a quoted text** if it starts and ends with a mark that is not in between. -/
theorem quoted?_eq_some_iff {inner : List Char} :
    quoted? p = some inner ↔ ∃ m, isQuote m = true ∧ m ∉ inner ∧ p = m :: (inner ++ [m]) := by
  constructor
  · intro h
    unfold quoted? at h
    split at h
    · simp at h
    · next q cs =>
      split at h
      · next hq =>
        split at h
        · next inner' last hspan =>
          obtain rfl := Option.some.inj h
          rw [List.span_eq_takeWhile_dropWhile, Prod.mk.injEq] at hspan
          obtain ⟨hinner, hlast⟩ := hspan
          obtain rfl : last = q := by
            have hstop := List.head?_dropWhile_not (· != q) cs
            rw [hlast] at hstop
            simpa using hstop
          refine ⟨last, hq, fun hmem => ?_, ?_⟩
          · rw [← hinner] at hmem
            have hne := List.mem_takeWhile_imp hmem
            simp at hne
          · rw [← hinner, ← hlast, List.takeWhile_append_dropWhile]
        · simp at h
      · simp at h
  · rintro ⟨m, hm, hinner, rfl⟩
    exact quoted?_quoted hm hinner

end Lexer

/-! ## 4. Tokens that read back -/

/-- What is written for the token is one closed piece, and is read as the token. -/
structure Token.IsSpelled (t : Token) : Prop where
  ne_nil : t.spelling ≠ []
  closed : Lexer.isClosed none t.spelling = true
  classify : Lexer.classify t.spelling = .ok t

open Lexer

theorem isPlain_of_isDigit {c : Char} (h : c.isDigit = true) :
    isQuote c = false ∧ isSeparator c = false ∧ c.isAlpha = false ∧ c ≠ '#' := by
  have hblank := Text.isBlank_of_isDigit h
  rw [Text.isDigit_iff] at h
  refine ⟨?_, ?_, ?_, ?_⟩
  · simp only [isQuote, Bool.or_eq_false_iff, beq_eq_false_iff_ne]
    constructor <;> rintro rfl <;> exact absurd h (by decide)
  · simp only [isSeparator, hblank, Bool.false_or, beq_eq_false_iff_ne]
    rintro rfl
    exact absurd h (by decide)
  · rw [Bool.eq_false_iff, ne_eq, Text.isAlpha_iff]
    omega
  · rintro rfl
    exact absurd h (by decide)

theorem isSpelled_keyword (k : Keyword) : (Token.keyword k).IsSpelled := by
  cases k <;> exact ⟨by decide, by decide, by rfl⟩

/-- Digits are not in the shape of a date. -/
theorem hasDateShape_digits {cs : List Char} (h : ∀ c ∈ cs, c.isDigit = true) :
    hasDateShape cs = false := by
  unfold hasDateShape
  split
  · next y1 y2 y3 y4 h1 m1 m2 h2 d1 d2 =>
    have hdigit : h1.isDigit = true := h h1 (by simp)
    have hne : (h1 == '-') = false := by
      rw [beq_eq_false_iff_ne]
      rintro rfl
      exact absurd hdigit (by decide)
    rw [hne, Bool.and_false, Bool.false_and]
  · rfl

theorem isSpelled_number (n : UInt64) : (Token.number n).IsSpelled := by
  have hdigit : ∀ c ∈ Decimal.digits n.toNat, c.isDigit = true :=
    fun c => Decimal.isDigit_of_mem_digits
  have hnumber : number? (Decimal.digits n.toNat) = some n := by
    have hne : (Decimal.digits n.toNat).isEmpty = false := by simp [Decimal.digits_ne_nil]
    have hall : (Decimal.digits n.toNat).all Char.isDigit = true := List.all_eq_true.mpr hdigit
    have hlt : n.toNat < UInt64.size := n.toNat_lt
    rw [number?, if_pos (by simp only [hne, hall, Decimal.value_digits, hlt]; rfl),
      Decimal.value_digits, UInt64.ofNat_toNat]
  refine ⟨Decimal.digits_ne_nil _, isClosed_of_forall fun c hc => ?_, ?_⟩
  · obtain ⟨hquote, hsep, -⟩ := isPlain_of_isDigit (hdigit c hc)
    exact ⟨hquote, hsep⟩
  · show classify (Decimal.digits n.toNat) = _
    cases hn : Decimal.digits n.toNat with
    | nil => exact absurd hn (Decimal.digits_ne_nil _)
    | cons c cs =>
      rw [hn] at hdigit hnumber
      obtain ⟨hquote, -, halpha, hne⟩ := isPlain_of_isDigit (hdigit c List.mem_cons_self)
      rw [classify_cons hquote halpha, hasDateShape_digits hdigit, tagName?_of_ne hne, hnumber]
      rfl

/-- The quotes of a text are those that it does not hold. -/
theorem toList_quoteText {s : String} (h : Quotable s) :
    ∃ m, isQuote m = true ∧ m ∉ s.toList ∧ (quoteText s).toList = m :: (s.toList ++ [m]) := by
  by_cases hdouble : '"' ∈ s.toList
  · have hsingle : '\'' ∉ s.toList := fun hsingle => h ⟨hdouble, hsingle⟩
    refine ⟨'\'', rfl, hsingle, ?_⟩
    simp [quoteText, hdouble, hsingle]
  · refine ⟨'"', rfl, hdouble, ?_⟩
    simp [quoteText, hdouble]

theorem isSpelled_text {s : String} (h : Quotable s) : (Token.text s).IsSpelled := by
  obtain ⟨m, hm, hnot, hlist⟩ := toList_quoteText h
  refine ⟨?_, ?_, ?_⟩
  · simp [Token.spelling, hlist]
  · rw [Token.spelling, hlist]
    exact isClosed_quoted hm hnot
  · simp only [Token.spelling, hlist, classify, quoted?_quoted hm hnot, String.ofList_toList]

theorem isSpelled_tag {name : String} (hbare : isBareTag name = true)
    (hlower : Text.lowercase name = name) : (Token.tag name).IsSpelled := by
  simp only [isBareTag, Bool.and_eq_true, Bool.not_eq_true', List.any_eq_false,
    Bool.or_eq_false_iff, Bool.not_eq_true] at hbare
  obtain ⟨hne, hall⟩ := hbare
  have htag : tagName? ('#' :: name.toList) = some name.toList := by
    have hempty : name.toList.isEmpty = false := by simpa using hne
    have hmarks : (name.toList.any fun c => isQuote c || c == '#') = false := by
      rw [List.any_eq_false]
      intro c hc
      obtain ⟨⟨⟨⟨-, -⟩, hdouble⟩, hsingle⟩, hmark⟩ := hall c hc
      simp [isQuote, hdouble, hsingle, hmark]
    simp [tagName?, hempty, hmarks]
  refine ⟨by simp [Token.spelling], isClosed_of_forall fun c hc => ?_, ?_⟩
  · rcases List.mem_cons.mp hc with rfl | hc
    · decide
    · obtain ⟨⟨⟨⟨hblank, hcomma⟩, hdouble⟩, hsingle⟩, -⟩ := hall c hc
      simp [isQuote, isSeparator, hblank, hcomma, hdouble, hsingle]
  · have hshape : hasDateShape ('#' :: name.toList) = false := by
      unfold hasDateShape
      split
      · next heq =>
        obtain ⟨rfl, -⟩ := List.cons.inj heq
        rfl
      · rfl
    rw [Token.spelling, classify_cons (by decide) (by decide), hshape, if_neg (by simp), htag]
    simp only [String.ofList_toList, hlower]

/-! ## 5. Dates -/

theorem isClosed_date (d : Date) : isClosed none d.chars = true := by
  refine isClosed_of_forall fun c hc => ?_
  have hpart : ∀ w n, c ∈ Decimal.padded w n → isQuote c = false ∧ isSeparator c = false := by
    intro w n hc
    obtain ⟨hquote, hsep, -⟩ := isPlain_of_isDigit (Decimal.isDigit_of_mem_padded hc)
    exact ⟨hquote, hsep⟩
  have hyear : c ∈ Date.yearText d.year → isQuote c = false ∧ isSeparator c = false := by
    intro hc
    unfold Date.yearText at hc
    split at hc
    · exact hpart _ _ hc
    · rcases List.mem_cons.mp hc with rfl | hc
      · split <;> decide
      · exact hpart _ _ hc
  simp only [Date.chars, List.mem_append, List.mem_cons] at hc
  rcases hc with (hc | rfl | hc) | rfl | hc
  · exact hyear hc
  · decide
  · exact hpart _ _ hc
  · decide
  · exact hpart _ _ hc

/-- A date of a plain year has the shape of a date. -/
theorem hasDateShape_chars {d : Date} (h : d.HasPlainYear) : hasDateShape d.chars = true := by
  obtain ⟨hyear, hlt⟩ := Date.yearText_of_plain h
  obtain ⟨hmonth, hday⟩ := d.month_day_lt
  have hdigit : ∀ w n, ∀ c ∈ Decimal.padded w n, c.isDigit = true :=
    fun w n c => Decimal.isDigit_of_mem_padded
  have hyearDigits := hdigit 4 d.year.natAbs
  have hmonthDigits := hdigit 2 d.month
  have hdayDigits := hdigit 2 d.day
  have hyearLength := Decimal.length_padded (by omega : 0 < 4) hlt
  obtain ⟨m1, m2, hm⟩ := List.length_eq_two.mp (Decimal.length_padded (by omega : 0 < 2) hmonth)
  obtain ⟨d1, d2, hd⟩ := List.length_eq_two.mp (Decimal.length_padded (by omega : 0 < 2) hday)
  rcases hy : Decimal.padded 4 d.year.natAbs with _ | ⟨y1, _ | ⟨y2, _ | ⟨y3, _ | ⟨y4, _ | ⟨y5, ys⟩⟩⟩⟩⟩
  case cons.cons.cons.cons.nil =>
    rw [hy] at hyearDigits
    rw [hm] at hmonthDigits
    rw [hd] at hdayDigits
    simp_all [Date.chars, hasDateShape]
  all_goals simp [hy] at hyearLength

/-- What has the shape of a date starts with a digit, and is neither quoted nor cut. -/
theorem isPlain_of_hasDateShape {p : List Char} (h : hasDateShape p = true) :
    (∃ c cs, p = c :: cs ∧ c.isDigit = true) ∧
      ∀ c ∈ p, isQuote c = false ∧ isSeparator c = false := by
  have hshape : (∃ c cs, p = c :: cs ∧ c.isDigit = true) ∧ ∀ c ∈ p, c.isDigit = true ∨ c = '-' := by
    unfold hasDateShape at h
    split at h
    · simp_all
    · simp at h
  refine ⟨hshape.1, fun c hc => ?_⟩
  rcases hshape.2 c hc with hdigit | rfl
  · obtain ⟨hquote, hsep, -⟩ := isPlain_of_isDigit hdigit
    exact ⟨hquote, hsep⟩
  · decide

theorem isSpelled_of_hasDateShape {raw : String} (h : hasDateShape raw.toList = true) :
    (Token.date raw).IsSpelled := by
  obtain ⟨⟨c, cs, hraw, hdigit⟩, hplain⟩ := isPlain_of_hasDateShape h
  refine ⟨?_, isClosed_of_forall hplain, ?_⟩
  · simp [Token.spelling, hraw]
  · obtain ⟨hquote, -, halpha, -⟩ := isPlain_of_isDigit hdigit
    rw [Token.spelling, hraw, classify_cons hquote halpha, ← hraw, if_pos h, String.ofList_toList]

theorem isSpelled_date {d : Date} (h : d.HasPlainYear) : (Token.date d.text).IsSpelled := by
  refine isSpelled_of_hasDateShape ?_
  rw [Date.text, String.toList_ofList]
  exact hasDateShape_chars h

/-- **A date of any other year is not read**: its sign makes it a word unknown. -/
theorem exists_classify_eq_error {d : Date} (h : ¬ d.HasPlainYear) :
    ∃ err, classify d.chars = .error err := by
  have hchars : ∃ sign tail, (sign = '-' ∨ sign = '+') ∧ d.chars = sign :: tail := by
    rw [Date.HasPlainYear] at h
    rw [Date.chars, Date.yearText, if_neg h]
    refine ⟨_, _, ?_, rfl⟩
    split
    · exact Or.inl rfl
    · exact Or.inr rfl
  obtain ⟨sign, tail, hsign, hchars⟩ := hchars
  have hplain : isQuote sign = false ∧ sign.isAlpha = false ∧ sign.isDigit = false ∧ sign ≠ '#' := by
    rcases hsign with rfl | rfl <;> decide
  obtain ⟨hquote, halpha, hdigit, hne⟩ := hplain
  have hshape : hasDateShape (sign :: tail) = false := by
    unfold hasDateShape
    split
    · next heq =>
      obtain ⟨rfl, -⟩ := List.cons.inj heq
      simp [hdigit]
    · rfl
  have hnumber : number? (sign :: tail) = none := by simp [number?, hdigit]
  rw [hchars, classify_cons hquote halpha, hshape, if_neg (by simp), tagName?_of_ne hne, hnumber]
  exact ⟨_, rfl⟩

/-! ## 6. What was read -/

namespace Lexer

/-- What is known of a piece by the token as which it is read.  Quotes stand in the piece of a text only, and
there the first of them is closed by the last. -/
inductive Reads : List Char → Token → Prop where
  | text {m : Char} {inner : List Char} (hm : isQuote m = true) (hinner : m ∉ inner) :
      Reads (m :: (inner ++ [m])) (.text (String.ofList inner))
  | keyword {p : List Char} (k : Keyword) (hp : ∀ c ∈ p, isQuote c = false) : Reads p (.keyword k)
  | date {p : List Char} (hshape : hasDateShape p = true) : Reads p (.date (String.ofList p))
  | tag {name : List Char} (hne : name ≠ [])
      (hname : ∀ c ∈ name, isQuote c = false ∧ c ≠ '#') :
      Reads ('#' :: name) (.tag (Text.lowercase (String.ofList name)))
  | number {p : List Char} (n : UInt64) (hp : ∀ c ∈ p, isQuote c = false) : Reads p (.number n)

variable {p name : List Char} {t : Token}

theorem isQuote_of_ofChars? {k : Keyword} (h : Keyword.ofChars? p = some k) :
    ∀ c ∈ p, isQuote c = false := by
  intro c hc
  rw [Keyword.ofChars?] at h
  have hspells : k.text.toList = p.map Char.toUpper := by simpa using List.find?_some h
  have hupper : k.text.toList.any isQuote = false := by cases k <;> decide
  rw [hspells, List.any_eq_false] at hupper
  rw [Bool.eq_false_iff]
  intro hquote
  have hsame : c.toUpper = c := by
    simp only [isQuote, Bool.or_eq_true, beq_iff_eq] at hquote
    rcases hquote with rfl | rfl <;> rfl
  have hfree := hupper c.toUpper (List.mem_map_of_mem hc)
  rw [hsame] at hfree
  exact hfree hquote

theorem tagName?_eq_some (h : tagName? p = some name) :
    p = '#' :: name ∧ name ≠ [] ∧ ∀ c ∈ name, isQuote c = false ∧ c ≠ '#' := by
  unfold tagName? at h
  split at h
  · next name' =>
    split at h
    · simp at h
    · next hmarks =>
      obtain rfl := Option.some.inj h
      simp only [Bool.or_eq_true, List.any_eq_true, not_or, not_exists, not_and,
        Bool.not_eq_true, beq_eq_false_iff_ne] at hmarks
      exact ⟨rfl, by simpa using hmarks.1, hmarks.2⟩
  · simp at h

/-- **What is read as a token is a piece of its kind.** -/
theorem reads_of_classify (h : classify p = .ok t) : Reads p t := by
  unfold classify at h
  split at h
  · next inner hquoted =>
    obtain rfl := Except.ok.inj h
    obtain ⟨m, hm, hinner, rfl⟩ := quoted?_eq_some_iff.mp hquoted
    exact .text hm hinner
  · split at h
    · next k hkeyword =>
      obtain rfl := Except.ok.inj h
      exact .keyword k (isQuote_of_ofChars? hkeyword)
    · split at h
      · next hshape =>
        obtain rfl := Except.ok.inj h
        exact .date hshape
      · split at h
        · next name htag =>
          obtain rfl := Except.ok.inj h
          obtain ⟨rfl, hne, hname⟩ := tagName?_eq_some htag
          exact .tag hne hname
        · split at h
          · next n hnumber =>
            obtain rfl := Except.ok.inj h
            refine .number n fun c hc => ?_
            unfold number? at hnumber
            split at hnumber
            · next hdigits =>
              simp only [Bool.and_eq_true, List.all_eq_true] at hdigits
              exact (isPlain_of_isDigit (hdigits.1.2 c hc)).1
            · simp at hnumber
          · simp at h

end Lexer

/-- What holds of every token that is read from a text. -/
def Token.WasRead : Token → Prop
  | text s => Quotable s
  | date raw => Quotable raw
  | tag name => Text.lowercase name = name ∧ Quotable name
  | _ => True

theorem quotable_lowercase {s : String} (h : Quotable s) : Quotable (Text.lowercase s) := by
  rintro ⟨hdouble, hsingle⟩
  refine h ⟨?_, ?_⟩
  · exact Text.mem_of_mem_lowercase hdouble (by decide)
  · exact Text.mem_of_mem_lowercase hsingle (by decide)

/-- A text that lacks one of the quotes can be put into it. -/
theorem quotable_of_not_mem {cs : List Char} {m : Char} (hm : isQuote m = true) (hcs : m ∉ cs) :
    Quotable (String.ofList cs) := by
  rintro ⟨hdouble, hsingle⟩
  rw [String.toList_ofList] at hdouble hsingle
  simp only [isQuote, Bool.or_eq_true, beq_iff_eq] at hm
  rcases hm with rfl | rfl
  · exact hcs hdouble
  · exact hcs hsingle

/-- A text without quotes can be put into them. -/
theorem quotable_of_forall {cs : List Char} (h : ∀ c ∈ cs, isQuote c = false) :
    Quotable (String.ofList cs) := by
  refine quotable_of_not_mem (m := '"') rfl fun hmem => ?_
  exact absurd (h '"' hmem) (by decide)

/-- **A token that was read can be put into quotes, and a tag is in lowercase.** -/
theorem Lexer.wasRead_of_classify {p : List Char} {t : Token} (h : classify p = .ok t) :
    t.WasRead := by
  cases reads_of_classify h with
  | text hm hinner => exact quotable_of_not_mem hm hinner
  | keyword k hp => trivial
  | date hshape => exact quotable_of_forall fun c hc => ((isPlain_of_hasDateShape hshape).2 c hc).1
  | tag hne hname =>
    exact ⟨Text.lowercase_lowercase _,
      quotable_lowercase (quotable_of_forall fun c hc => (hname c hc).1)⟩
  | number n hp => trivial

end Timesheet
