import Mathlib.Data.List.Basic
import Timesheet.Proofs.Query.Lexing
/-!
# Separators part texts

A text that is read and a text that follows it behind separators do not touch each other: the tokens of
both together are the tokens of the one and then those of the other, and an error of the second is the
error of the whole (`Lexer.tokens_append_separators`).

Only a quote that is left open could reach over the separators, and then the piece in which it stands goes
on to the end of the text.  So two things carry the proof.  A piece that is read closes all of its quotes
(`Lexer.Reads.closes`), and texts all of whose pieces are closed are cut on their own
(`Lexer.pieces_append`).  For the second the induction is on the pieces: what stands before and behind the
first of them is told by `Lexer.exists_of_pieces_eq_cons`.
-/

namespace Timesheet.Lexer

variable {p cs rest sep : List Char} {ps : List (List Char)} {t : Token} {text : String}
  {ts : List Token}

/-! ## 1. Open quotes -/

/-- The quoted run that is open behind the characters. -/
def openAfter (inside : Option Char) (cs : List Char) : Option Char := cs.foldl quoteAfter inside

/-- No separator stands outside quotes. -/
def isWhole (inside : Option Char) : List Char → Bool
  | [] => true
  | c :: cs => !(inside.isNone && isSeparator c) && isWhole (quoteAfter inside c) cs

theorem openAfter_append (inside : Option Char) (cs cs' : List Char) :
    openAfter inside (cs ++ cs') = openAfter (openAfter inside cs) cs' := List.foldl_append

theorem openAfter_of_forall (h : ∀ c ∈ cs, isQuote c = false) : openAfter none cs = none := by
  induction cs with
  | nil => rfl
  | cons c cs ih =>
    obtain ⟨hc, hcs⟩ := List.forall_mem_cons.mp h
    have hnone : quoteAfter none c = none := by simp [quoteAfter, hc]
    rw [openAfter, List.foldl_cons, hnone]
    exact ih hcs

/-- Separators open no quotes. -/
theorem openAfter_separators (hsep : ∀ c ∈ sep, isSeparator c = true) : openAfter none sep = none := by
  refine openAfter_of_forall fun c hc => ?_
  have hc := hsep c hc
  rw [Bool.eq_false_iff]
  intro hquote
  rw [isSeparator_of_isQuote hquote] at hc
  exact Bool.false_ne_true hc

/-- What is closed is whole, and leaves no quotes open. -/
theorem isClosed_eq (inside : Option Char) (p : List Char) :
    isClosed inside p = (isWhole inside p && (openAfter inside p).isNone) := by
  induction p generalizing inside with
  | nil => rfl
  | cons c p ih =>
    rw [isClosed, isWhole, ih, Bool.and_assoc]
    rfl

/-- **A piece that is read closes its quotes.** -/
theorem Reads.closes (h : Reads p t) : openAfter none p = none := by
  cases h with
  | text hm hinner =>
    have hclosed := isClosed_quoted hm hinner
    rw [isClosed_eq, Bool.and_eq_true] at hclosed
    exact Option.isNone_iff_eq_none.mp hclosed.2
  | keyword k hp => exact openAfter_of_forall hp
  | date hshape => exact openAfter_of_forall fun c hc => ((isPlain_of_hasDateShape hshape).2 c hc).1
  | tag hne hname =>
    refine openAfter_of_forall fun c hc => ?_
    rcases List.mem_cons.mp hc with rfl | hc
    · decide
    · exact (hname c hc).1
  | number n hp => exact openAfter_of_forall hp

/-! ## 2. The first piece -/

theorem EndsPiece.append (hcs : EndsPiece cs) (hrest : EndsPiece rest) : EndsPiece (cs ++ rest) := by
  cases cs with
  | nil => exact hrest
  | cons c cs => exact fun c' hc' => hcs c' hc'

theorem endsPiece_separators (hne : sep ≠ []) (hsep : ∀ c ∈ sep, isSeparator c = true)
    (rest : List Char) : EndsPiece (sep ++ rest) := by
  cases sep with
  | nil => exact absurd rfl hne
  | cons s sep =>
    intro c hc
    obtain rfl : s = c := Option.some.inj hc
    exact hsep s List.mem_cons_self

theorem isWhole_takePiece (inside : Option Char) (cs : List Char) :
    isWhole inside (takePiece inside cs).1 = true := by
  induction cs generalizing inside with
  | nil => rfl
  | cons c cs ih =>
    unfold takePiece
    split
    · rfl
    · next hgo =>
      rw [Bool.not_eq_true] at hgo
      simp only [isWhole, hgo, Bool.not_false, Bool.true_and, ih]

theorem endsPiece_takePiece (inside : Option Char) (cs : List Char) :
    EndsPiece (takePiece inside cs).2 := by
  induction cs generalizing inside with
  | nil => exact endsPiece_nil
  | cons c cs ih =>
    unfold takePiece
    split
    · next hstop =>
      rw [Bool.and_eq_true] at hstop
      intro c' hc'
      obtain rfl : c = c' := Option.some.inj hc'
      exact hstop.2
    · exact ih _

/-- A text without pieces is made up of separators. -/
theorem separators_of_pieces_eq_nil (h : pieces cs = []) : ∀ c ∈ cs, isSeparator c = true := by
  rw [pieces_eq] at h
  split at h
  · next hdrop => exact List.dropWhile_eq_nil_iff.mp hdrop
  · simp at h

/-- Before the first piece there are separators, and it is read from there on. -/
theorem exists_takePiece_of_pieces_eq_cons (h : pieces cs = p :: ps) :
    ∃ sep rest, cs = sep ++ (p ++ rest) ∧ (∀ c ∈ sep, isSeparator c = true) ∧ p ≠ [] ∧
      takePiece none (p ++ rest) = (p, rest) ∧ pieces rest = ps := by
  rw [pieces_eq] at h
  split at h
  · simp at h
  · next c tail hdrop =>
    obtain ⟨rfl, rfl⟩ := List.cons.inj h
    have hc : isSeparator c = false := by
      have hstop := List.head?_dropWhile_not isSeparator cs
      rwa [hdrop] at hstop
    refine ⟨cs.takeWhile isSeparator, (takePiece (quoteAfter none c) tail).2, ?_,
      fun _ => List.mem_takeWhile_imp, List.cons_ne_nil _ _, ?_, rfl⟩
    · rw [List.cons_append, takePiece_append, ← hdrop, List.takeWhile_append_dropWhile]
    · rw [List.cons_append, takePiece_append, takePiece, if_neg (by simp [hc])]

/-- **Before the first piece there are separators, and behind it a separator or nothing.** -/
theorem exists_of_pieces_eq_cons (h : pieces cs = p :: ps) :
    ∃ sep rest, cs = sep ++ (p ++ rest) ∧ (∀ c ∈ sep, isSeparator c = true) ∧ p ≠ [] ∧
      isWhole none p = true ∧ EndsPiece rest ∧ pieces rest = ps := by
  obtain ⟨sep, rest, hcs, hsep, hne, htake, hrest⟩ := exists_takePiece_of_pieces_eq_cons h
  have hwhole := isWhole_takePiece none (p ++ rest)
  have hends := endsPiece_takePiece none (p ++ rest)
  rw [htake] at hwhole hends
  exact ⟨sep, rest, hcs, hsep, hne, hwhole, hends, hrest⟩

/-! ## 3. All pieces -/

/-- **A text all of whose pieces are closed is cut on its own**, whatever follows it behind a
separator. -/
theorem pieces_append (hclosed : ∀ p ∈ pieces cs, isClosed none p = true) (hrest : EndsPiece rest) :
    pieces (cs ++ rest) = pieces cs ++ pieces rest := by
  induction hps : pieces cs generalizing cs with
  | nil => exact pieces_separators (separators_of_pieces_eq_nil hps) rest
  | cons p ps ih =>
    obtain ⟨sep, tail, rfl, hsep, hne, -, hends, rfl⟩ := exists_of_pieces_eq_cons hps
    rw [hps] at hclosed
    obtain ⟨hp, hps'⟩ := List.forall_mem_cons.mp hclosed
    rw [List.append_assoc, List.append_assoc, pieces_cons hsep hne hp (hends.append hrest),
      ih hps' rfl, List.cons_append]

/-- A text all of whose pieces are closed leaves no quotes open. -/
theorem openAfter_of_pieces (hclosed : ∀ p ∈ pieces cs, isClosed none p = true) :
    openAfter none cs = none := by
  induction hps : pieces cs generalizing cs with
  | nil => exact openAfter_separators (separators_of_pieces_eq_nil hps)
  | cons p ps ih =>
    obtain ⟨sep, tail, rfl, hsep, -, -, -, rfl⟩ := exists_of_pieces_eq_cons hps
    rw [hps] at hclosed
    obtain ⟨hp, hps'⟩ := List.forall_mem_cons.mp hclosed
    rw [isClosed_eq, Bool.and_eq_true, Option.isNone_iff_eq_none] at hp
    rw [openAfter_append, openAfter_append, openAfter_separators hsep, hp.2]
    exact ih hps' rfl

theorem isWhole_of_mem_pieces (h : p ∈ pieces cs) : isWhole none p = true := by
  induction hps : pieces cs generalizing cs with
  | nil =>
    rw [hps] at h
    simp at h
  | cons p' ps ih =>
    obtain ⟨sep, tail, -, -, -, hwhole, -, rfl⟩ := exists_of_pieces_eq_cons hps
    rw [hps] at h
    rcases List.mem_cons.mp h with rfl | h
    · exact hwhole
    · exact ih h rfl

/-! ## 4. Texts that are read -/

/-- **All pieces of a text that is read are closed.** -/
theorem isClosed_of_tokens (h : tokens text = .ok ts) :
    ∀ p ∈ pieces text.toList, isClosed none p = true := by
  intro p hp
  obtain ⟨t, ht⟩ := Results.exists_mapM_eq_ok_iff.mp ⟨ts, h⟩ p hp
  rw [isClosed_eq, isWhole_of_mem_pieces hp, (reads_of_classify ht).closes]
  rfl

/-- **Separators part what is read.**  If a text is read, then whatever follows it behind separators is
read as if it stood alone: its tokens come after those of the first text, or its error is the error of the
whole.  So separators at the start of a text change nothing, and those at the end of a text that is read
do not either.  A text that is read leaves no quotes open. -/
theorem tokens_append_separators {sep : String} (hne : sep ≠ "")
    (hsep : ∀ c ∈ sep.toList, isSeparator c = true) :
    (∀ a ta, tokens a = .ok ta →
      openAfter none a.toList = none ∧
      (∀ b, tokens (a ++ sep ++ b) = (tokens b).map (ta ++ ·)) ∧
      tokens (a ++ sep) = .ok ta) ∧
    ∀ b, tokens (sep ++ b) = tokens b := by
  have hleading : ∀ b, tokens (sep ++ b) = tokens b := by
    intro b
    rw [tokens, String.toList_append, pieces_separators hsep]
    rfl
  have hnonempty : sep.toList ≠ [] := by simpa using hne
  have hall : ∀ a ta, tokens a = .ok ta → ∀ b, tokens (a ++ sep ++ b) = (tokens b).map (ta ++ ·) := by
    intro a ta ha b
    have hcut := pieces_append (isClosed_of_tokens ha)
      (endsPiece_separators hnonempty hsep b.toList)
    rw [tokens, String.toList_append, String.toList_append, List.append_assoc, hcut,
      pieces_separators hsep, List.mapM_append, ← tokens, ← tokens, ha]
    cases tokens b with
    | error err => rfl
    | ok tb => rfl
  refine ⟨fun a ta ha => ⟨openAfter_of_pieces (isClosed_of_tokens ha), hall a ta ha, ?_⟩, hleading⟩
  have hnil : tokens "" = .ok [] := by
    rw [tokens, String.toList_empty, pieces_nil]
    rfl
  have htrailing := hall a ta ha ""
  rw [String.append_empty, hnil] at htrailing
  rw [htrailing]
  exact congrArg Except.ok (List.append_nil ta)

/-- Separators and the other quote in a title, before a text that is left open: its error is the error of
both together. -/
theorem tokens_title_then_open :
    (∀ c ∈ ", ".toList, isSeparator c = true) ∧
      tokens "title 'x, \"y'" = .ok [.keyword .TITLE, .text "x, \"y"] ∧
      openAfter none "title 'x, \"y'".toList = none ∧
      tokens ("title 'x, \"y'" ++ ", " ++ "\"never, closed") =
        .error (.unknownWord "\"never, closed") ∧
      tokens ("title 'x, \"y'" ++ ", " ++ "#Late") =
        .ok [.keyword .TITLE, .text "x, \"y", .tag "late"] := by
  have hsep : ∀ c ∈ ", ".toList, isSeparator c = true := List.all_eq_true.mp (by decide)
  have htitle : tokens "title 'x, \"y'" = .ok [.keyword .TITLE, .text "x, \"y"] := by decide +kernel
  have hopen : tokens "\"never, closed" = .error (.unknownWord "\"never, closed") := by decide +kernel
  have htag : tokens "#Late" = .ok [.tag "late"] := by decide +kernel
  obtain ⟨hclosed, hall, -⟩ := (tokens_append_separators (by decide) hsep).1 _ _ htitle
  refine ⟨hsep, htitle, hclosed, ?_, ?_⟩
  · rw [hall, hopen]
    rfl
  · rw [hall, htag]
    rfl

end Timesheet.Lexer
