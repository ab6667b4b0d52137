import Mathlib.Data.List.Basic
import Timesheet.Proofs.Query.Separators
/-!
# Tokens as they are displayed

`Token.display` puts every text in double quotes, also one that holds double quotes itself.  The tokens of
a text, displayed with blanks between them, are read as the same tokens exactly if there is no such text
among them (`Lexer.tokens_display_eq_ok_iff`).

All other tokens that were read are displayed as they are spelled (`Token.toList_display`), and what is
spelled is one piece that is read as the token again (`Lexer.Reads.isSpelled`); for tags this needs that
lowercase brings in nothing that would end the piece.  The other direction looks at the first text with
double quotes.  What stands before it is read as it should be, so the piece that is cut there would have
to be read as that text; but the piece starts with a double quote, and what is read of such a piece holds
none (`Lexer.Reads.eq_of_text`).
-/

namespace Timesheet

open Lexer

variable {p cs : List Char} {t : Token} {ts : List Token} {s text : String}

/-! ## 1. What was read is spelled out -/

namespace Lexer

/-- A piece without quotes has no separators. -/
theorem isSeparator_of_isWhole (h : isWhole none p = true) (hquote : ∀ c ∈ p, isQuote c = false) :
    ∀ c ∈ p, isSeparator c = false := by
  induction p with
  | nil => simp
  | cons c p ih =>
    obtain ⟨hc, hp⟩ := List.forall_mem_cons.mp hquote
    simp only [isWhole, Option.isNone_none, Bool.true_and, quoteAfter, hc, Bool.and_eq_true,
      Bool.not_eq_true'] at h
    exact List.forall_mem_cons.mpr ⟨h.1, ih h.2 hp⟩

/-- **The name of a tag can be written behind a mark again**, once it is in lowercase. -/
theorem isBareTag_lowercase {name : List Char} (hne : name ≠ [])
    (hname : ∀ c ∈ name, isQuote c = false ∧ c ≠ '#' ∧ isSeparator c = false) :
    isBareTag (Text.lowercase (String.ofList name)) = true := by
  have hempty : Text.lowercase (String.ofList name) ≠ "" :=
    Text.lowercase_ne_empty (by simpa using hne)
  have hmem : ∀ c ∈ (Text.lowercase (String.ofList name)).toList,
      c.toNat < 97 ∨ Text.isBlank c = true → c ∈ name := by
    intro c hc hlow
    rw [← String.toList_ofList (l := name)]
    rcases hlow with hlow | hblank
    · exact Text.mem_of_mem_lowercase hc hlow
    · exact Text.mem_of_isBlank hc hblank
  simp only [isBareTag, Bool.and_eq_true, Bool.not_eq_true', List.any_eq_false, Bool.or_eq_true,
    not_or, beq_iff_eq]
  refine ⟨by simpa using hempty, fun c hc => ⟨⟨⟨⟨?_, ?_⟩, ?_⟩, ?_⟩, ?_⟩⟩
  · intro hblank
    obtain ⟨-, -, hsep⟩ := hname c (hmem c hc (Or.inr hblank))
    simp [isSeparator, hblank] at hsep
  · rintro rfl
    exact absurd (hname ',' (hmem ',' hc (Or.inl (by decide)))).2.2 (by decide)
  · rintro rfl
    exact absurd (hname '"' (hmem '"' hc (Or.inl (by decide)))).1 (by decide)
  · rintro rfl
    exact absurd (hname '\'' (hmem '\'' hc (Or.inl (by decide)))).1 (by decide)
  · rintro rfl
    exact (hname '#' (hmem '#' hc (Or.inl (by decide)))).2.1 rfl

/-- **What was read is spelled in a way that is read again.** -/
theorem Reads.isSpelled (h : Reads p t) (hwhole : isWhole none p = true) : t.IsSpelled := by
  cases h with
  | text hm hinner => exact isSpelled_text (quotable_of_not_mem hm hinner)
  | keyword k hp => exact isSpelled_keyword k
  | date hshape => exact isSpelled_of_hasDateShape (by rwa [String.toList_ofList])
  | @tag name hne hname =>
    have hquote : ∀ c ∈ '#' :: name, isQuote c = false :=
      List.forall_mem_cons.mpr ⟨by decide, fun c hc => (hname c hc).1⟩
    have hsep := isSeparator_of_isWhole hwhole hquote
    refine isSpelled_tag (isBareTag_lowercase hne fun c hc => ?_) (Text.lowercase_lowercase _)
    exact ⟨(hname c hc).1, (hname c hc).2, hsep c (List.mem_cons_of_mem _ hc)⟩
  | number n hp => exact isSpelled_number n

theorem isSpelled_of_tokens (h : tokens text = .ok ts) : ∀ t ∈ ts, t.IsSpelled := by
  intro t ht
  obtain ⟨p, hp, hread⟩ := (Results.mem_of_mapM_eq_ok h t).mp ht
  exact (reads_of_classify hread).isSpelled (isWhole_of_mem_pieces hp)

/-- The piece of a text is the text between its marks, and no such mark is in it. -/
theorem Reads.eq_of_text (h : Reads p (.text s)) :
    ∃ m, p = m :: (s.toList ++ [m]) ∧ m ∉ s.toList := by
  cases h with
  | @text m inner hm hinner =>
    rw [String.toList_ofList]
    exact ⟨m, rfl, hinner⟩

end Lexer

/-! ## 2. Display and spelling -/

/-- The token is no text with double quotes in it. -/
def Token.IsPlain (t : Token) : Prop := ∀ s, t = .text s → '"' ∉ s.toList

/-- **Tokens are displayed as they are spelled**, but for texts with double quotes in them. -/
theorem Token.toList_display (h : t.IsPlain) : t.display.toList = t.spelling := by
  cases t with
  | keyword k => rfl
  | number n => simp [display, spelling, Decimal.text]
  | date raw => rfl
  | text s => simp [display, spelling, quoteText, h s rfl]
  | tag name => simp [display, spelling]

/-- What starts with a double quote is not read as a text with double quotes in it. -/
theorem Lexer.isPlain_of_pieces {ps : List (List Char)} (hcut : pieces ('"' :: cs) = p :: ps)
    (hread : classify p = .ok t) : t.IsPlain := by
  have hstart : ∃ tail, p = '"' :: tail := by
    have hdrop : ('"' :: cs).dropWhile isSeparator = '"' :: cs :=
      List.dropWhile_cons_of_neg (by decide)
    rw [pieces_eq, hdrop] at hcut
    exact ⟨_, (List.cons.inj hcut).1.symm⟩
  rintro s rfl
  obtain ⟨tail, rfl⟩ := hstart
  obtain ⟨m, hm, hnot⟩ := (reads_of_classify hread).eq_of_text
  obtain ⟨rfl, -⟩ := List.cons.inj hm
  exact hnot

/-! ## 3. Displayed tokens, one after the other -/

/-- The tokens as they are displayed, with blanks between them. -/
def displayed (ts : List Token) : List Char := [' '].intercalate (ts.map fun t => t.display.toList)

theorem toList_intercalate_display (ts : List Token) :
    (" ".intercalate (ts.map Token.display)).toList = displayed ts := by
  simp [displayed, String.toList_intercalate, List.map_map, Function.comp_def]

/-- Behind the first token there is a blank, or nothing. -/
theorem displayed_cons (t : Token) (ts : List Token) :
    ∃ rest, displayed (t :: ts) = t.display.toList ++ rest ∧ EndsPiece rest ∧
      pieces rest = pieces (displayed ts) := by
  cases ts with
  | nil => exact ⟨[], by simp [displayed], endsPiece_nil, rfl⟩
  | cons t' ts =>
    have hblank : ∀ c ∈ [' '], isSeparator c = true := List.all_eq_true.mp (by decide)
    refine ⟨[' '] ++ displayed (t' :: ts), ?_,
      endsPiece_separators (List.cons_ne_nil _ _) hblank _, pieces_separators hblank _⟩
    simp only [displayed, List.map_cons]
    rw [List.intercalate_cons_cons, List.append_assoc]

/-- **Displayed tokens read back exactly if none of them is a text with double quotes in it.**  The
induction is on the tokens. -/
theorem map_classify_displayed_iff (h : ∀ t ∈ ts, t.IsSpelled) :
    (pieces (displayed ts)).map classify = ts.map .ok ↔ ∀ t ∈ ts, t.IsPlain := by
  induction ts with
  | nil => simp [displayed, pieces_nil]
  | cons t ts ih =>
    obtain ⟨ht, hts⟩ := List.forall_mem_cons.mp h
    obtain ⟨rest, hshow, hends, hrest⟩ := displayed_cons t ts
    rw [hshow, List.forall_mem_cons]
    by_cases hplain : t.IsPlain
    · have hcut := pieces_cons (List.forall_mem_nil _) ht.ne_nil ht.closed hends
      rw [List.nil_append] at hcut
      rw [Token.toList_display hplain, hcut, hrest, List.map_cons, List.map_cons, ht.classify,
        List.cons_inj_right, ih hts]
      exact (and_iff_right hplain).symm
    · refine ⟨fun hread => absurd ?_ hplain, fun hall => absurd hall.1 hplain⟩
      obtain ⟨s, rfl, -⟩ : ∃ s, t = .text s ∧ '"' ∈ s.toList := by
        simpa [Token.IsPlain] using hplain
      obtain ⟨cs, hquote⟩ : ∃ cs, (Token.text s).display.toList ++ rest = '"' :: cs :=
        ⟨s.toList ++ '"' :: rest, by simp [Token.display]⟩
      rw [hquote, List.map_cons] at hread
      cases hcut : pieces ('"' :: cs) with
      | nil => simp [hcut] at hread
      | cons p ps =>
        rw [hcut, List.map_cons] at hread
        exact isPlain_of_pieces hcut (List.cons.inj hread).1

/-- **The tokens of a text, displayed with blanks between them, read back exactly if no text among them
holds a double quote.** -/
theorem Lexer.tokens_display_eq_ok_iff (h : tokens text = .ok ts) :
    tokens (" ".intercalate (ts.map Token.display)) = .ok ts ↔
      ∀ s, .text s ∈ ts → '"' ∉ s.toList := by
  rw [tokens, toList_intercalate_display, Results.mapM_eq_ok_iff,
    map_classify_displayed_iff (isSpelled_of_tokens h)]
  constructor
  · exact fun hplain s hs => hplain _ hs s rfl
  · rintro hplain t ht s rfl
    exact hplain s ht

/-- A number with zeros, what looks like a date, a tag in capitals and single quotes within double ones read
back; a text with double quotes in it is torn. -/
theorem Lexer.displayed_and_torn :
    (∃ ts, tokens "list 007, 2020-13-45 #ÄRGER \"it's, so\"" = .ok ts ∧
        tokens (" ".intercalate (ts.map Token.display)) = .ok ts) ∧
      ∃ ts, tokens "title 'a \", \" b'" = .ok ts ∧
        tokens (" ".intercalate (ts.map Token.display)) ≠ .ok ts := by
  have hplain : tokens "list 007, 2020-13-45 #ÄRGER \"it's, so\"" = .ok
      [.keyword .LIST, .number 7, .date "2020-13-45", .tag "ärger", .text "it's, so"] := by
    decide +kernel
  have htorn : tokens "title 'a \", \" b'" = .ok [.keyword .TITLE, .text "a \", \" b"] := by
    decide +kernel
  refine ⟨⟨_, hplain, (tokens_display_eq_ok_iff hplain).mpr fun s hs => ?_⟩, _, htorn, ?_⟩
  · obtain rfl : s = "it's, so" := by simpa using hs
    decide
  · exact fun hback => (tokens_display_eq_ok_iff htorn).mp hback "a \", \" b" (by simp) (by decide)

end Timesheet
