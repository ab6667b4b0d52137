import Mathlib.Data.List.Basic
import Timesheet.Proofs.Query.Separators
/-!
# Cutting loses nothing

A text is made up of separators, a piece, separators, a piece and so on to its end, and the pieces are those
that it is cut into (`Lexer.Layout`, `Lexer.exists_layout`).  Separators stand within a piece only in a
quoted run that is still open there, and only the last piece may leave one open; nothing comes behind it
then.

Quoted runs are told without reference to the reader: `Lexer.Balanced` says that all of them are closed, and
`Lexer.LeavesOpen` that the last one is not.  `Lexer.openAfter_eq_none_iff` and
`Lexer.openAfter_eq_some_iff` say that the reader sees just these.

The pieces can as well be found by their places.  `Lexer.cuts` goes through a text byte by byte and notes
where each piece starts and stops; a start is noted before the piece is read, and a stop when a separator is
met or, if none is, where the text ends.  These places are the borders of the layout, so that each of them
is one at which a text may be cut (`Lexer.slice?`).  What carries the proof is that going on behind a quoted
run comes to the same as reading on within it (`Lexer.afterRun_offsets`).
-/

namespace Timesheet.Lexer

variable {cs rest before after inner : List Char} {q c : Char}

/-! ## 1. Quoted runs -/

/-- All quoted runs are closed: plain characters and whole runs, one after the other. -/
inductive Balanced : List Char → Prop
  | nil : Balanced []
  | plain {c : Char} {cs : List Char} (hc : isQuote c = false) (hcs : Balanced cs) : Balanced (c :: cs)
  | run {q : Char} {inner cs : List Char} (hq : isQuote q = true) (hinner : q ∉ inner)
      (hcs : Balanced cs) : Balanced (q :: (inner ++ q :: cs))

/-- The last quoted run was opened by `q`, and `q` has not come again. -/
def LeavesOpen (q : Char) (cs : List Char) : Prop :=
  ∃ before inner, Balanced before ∧ isQuote q = true ∧ q ∉ inner ∧ cs = before ++ q :: inner

theorem Balanced.append (h : Balanced cs) (hrest : Balanced rest) : Balanced (cs ++ rest) := by
  induction h with
  | nil => exact hrest
  | plain hc _ ih => exact .plain hc ih
  | run hq hinner _ ih =>
    rw [List.cons_append, List.append_assoc, List.cons_append]
    exact .run hq hinner ih

/-- Whatever is read, either all runs are closed or the last one is open.  The induction adds one character
at the end, which opens a run, closes it or does neither. -/
theorem balanced_or_leavesOpen (cs : List Char) :
    openAfter none cs = none ∧ Balanced cs ∨ ∃ q, openAfter none cs = some q ∧ LeavesOpen q cs := by
  induction cs using List.reverseRecOn with
  | nil => exact .inl ⟨rfl, .nil⟩
  | append_singleton cs c ih =>
    rw [openAfter_append]
    rcases ih with ⟨hopen, hcs⟩ | ⟨q, hopen, before, inner, hbefore, hq, hinner, rfl⟩
    · rw [hopen]
      cases hc : isQuote c with
      | false => exact .inl ⟨by simp [openAfter, quoteAfter, hc], hcs.append (.plain hc .nil)⟩
      | true =>
        refine .inr ⟨c, by simp [openAfter, quoteAfter, hc], cs, [], hcs, hc, by simp, rfl⟩
    · rw [hopen]
      by_cases hc : c = q
      · subst hc
        refine .inl ⟨by simp [openAfter, quoteAfter], ?_⟩
        rw [List.append_assoc, List.cons_append]
        exact hbefore.append (.run hq hinner .nil)
      · refine .inr ⟨q, by simp [openAfter, quoteAfter, hc], before, inner ++ [c], hbefore, hq, ?_, ?_⟩
        · simp [hinner, Ne.symm hc]
        · simp

theorem Balanced.openAfter_eq_none (h : Balanced cs) : openAfter none cs = none := by
  induction h with
  | nil => rfl
  | plain hc _ ih => simpa [openAfter, quoteAfter, hc] using ih
  | @run q inner cs hq hinner _ ih =>
    have hrun : isClosed none (q :: (inner ++ [q])) = true := isClosed_quoted hq hinner
    rw [isClosed_eq, Bool.and_eq_true, Option.isNone_iff_eq_none] at hrun
    rw [show q :: (inner ++ q :: cs) = q :: (inner ++ [q]) ++ cs by simp, openAfter_append, hrun.2, ih]

/-- **The reader sees no open run exactly if all runs are closed.** -/
theorem openAfter_eq_none_iff : openAfter none cs = none ↔ Balanced cs := by
  refine ⟨fun h => ?_, Balanced.openAfter_eq_none⟩
  rcases balanced_or_leavesOpen cs with ⟨-, hcs⟩ | ⟨q, hopen, -⟩
  · exact hcs
  · simp [h] at hopen

theorem openAfter_of_not_mem (h : q ∉ inner) : openAfter (some q) inner = some q := by
  induction inner with
  | nil => rfl
  | cons c inner ih =>
    rw [List.mem_cons, not_or] at h
    have hc : c ≠ q := Ne.symm h.1
    simpa [openAfter, quoteAfter, hc] using ih h.2

/-- **The reader sees a run open exactly if it is the last one and left open.** -/
theorem openAfter_eq_some_iff : openAfter none cs = some q ↔ LeavesOpen q cs := by
  constructor
  · intro h
    rcases balanced_or_leavesOpen cs with ⟨hopen, -⟩ | ⟨q', hopen, hcs⟩
    · simp [h] at hopen
    · obtain rfl := Option.some.inj (h.symm.trans hopen)
      exact hcs
  · rintro ⟨before, inner, hbefore, hq, hinner, rfl⟩
    have hopens : quoteAfter none q = some q := by simp [quoteAfter, hq]
    rw [openAfter_append, hbefore.openAfter_eq_none, openAfter, List.foldl_cons, hopens]
    exact openAfter_of_not_mem hinner

/-! ## 2. The layout of a text -/

/-- A piece and the separators behind it. -/
structure Segment where
  piece : List Char
  gap : List Char

/-- Separators in front, then the pieces, each with the separators behind it. -/
structure Layout where
  lead : List Char
  segments : List Segment

namespace Layout

/-- The characters laid out. -/
def chars (l : Layout) : List Char := l.lead ++ l.segments.flatMap fun s => s.piece ++ s.gap

/-- The pieces in order. -/
def pieces (l : Layout) : List (List Char) := l.segments.map Segment.piece

/-- What a piece may be: there is something of it, and separators stand only within runs that are open. -/
def IsPiece (p : List Char) : Prop :=
  p ≠ [] ∧ ∀ before c after, p = before ++ c :: after → isSeparator c = true → ∃ q, LeavesOpen q before

/-- Gaps are made of separators, and there are some between two pieces.  Only the last piece leaves a
quoted run open, and then nothing comes behind it. -/
structure Fits (l : Layout) : Prop where
  lead : ∀ c ∈ l.lead, isSeparator c = true
  gaps : ∀ s ∈ l.segments, ∀ c ∈ s.gap, isSeparator c = true
  pieces : ∀ s ∈ l.segments, IsPiece s.piece
  parted : ∀ before s after, l.segments = before ++ s :: after → after ≠ [] → s.gap ≠ []
  open_last : ∀ before s after q, l.segments = before ++ s :: after → LeavesOpen q s.piece →
    after = [] ∧ s.gap = []

end Layout

open Layout

theorem openAfter_takePiece (inside : Option Char) (cs : List Char) :
    openAfter inside (takePiece inside cs).1 = none ∨ (takePiece inside cs).2 = [] := by
  induction cs generalizing inside with
  | nil => exact .inr rfl
  | cons c cs ih =>
    unfold takePiece
    split
    · next hstop =>
      rw [Bool.and_eq_true, Option.isNone_iff_eq_none] at hstop
      exact .inl hstop.1
    · exact ih _

/-- In what is whole, a separator stands where a run is open. -/
theorem exists_openAfter_of_isWhole {inside : Option Char}
    (h : isWhole inside (before ++ c :: after) = true) (hc : isSeparator c = true) :
    ∃ q, openAfter inside before = some q := by
  induction before generalizing inside with
  | nil =>
    simp only [List.nil_append, isWhole, hc, Bool.and_true, Bool.and_eq_true, Bool.not_eq_true',
      Option.isNone_eq_false_iff] at h
    exact Option.isSome_iff_exists.mp h.1
  | cons b before ih =>
    simp only [List.cons_append, isWhole, Bool.and_eq_true] at h
    exact ih h.2

theorem isPiece_of_isWhole {p : List Char} (hne : p ≠ []) (h : isWhole none p = true) : IsPiece p := by
  refine ⟨hne, ?_⟩
  rintro before c after rfl hc
  obtain ⟨q, hq⟩ := exists_openAfter_of_isWhole h hc
  exact ⟨q, openAfter_eq_some_iff.mp hq⟩

/-- Before a layout whose first piece stands right at a border, a gap is not empty: a piece does not start
with a separator. -/
theorem Layout.lead_ne_nil {l : Layout} (hl : l.Fits) (hsegments : l.segments ≠ [])
    (hends : EndsPiece l.chars) : l.lead ≠ [] := by
  obtain ⟨_ | ⟨c, lead⟩, _ | ⟨⟨piece, gap⟩, segments⟩⟩ := l
  · exact absurd rfl hsegments
  · obtain ⟨hne, hpiece⟩ := hl.pieces ⟨piece, gap⟩ List.mem_cons_self
    cases piece with
    | nil => exact absurd rfl hne
    | cons c piece =>
      obtain ⟨q, before, inner, -, -, -, hnil⟩ := hpiece [] c piece rfl (hends c rfl)
      simp at hnil
  · simp
  · simp

/-- **A piece goes in front of a layout**: what led there becomes the gap behind it. -/
theorem Layout.Fits.cons {l : Layout} (hl : l.Fits) {sep p : List Char}
    (hsep : ∀ c ∈ sep, isSeparator c = true) (hp : IsPiece p) (hends : EndsPiece l.chars)
    (hopen : ∀ q, LeavesOpen q p → l.chars = []) :
    Fits ⟨sep, ⟨p, l.lead⟩ :: l.segments⟩ where
  lead := hsep
  gaps := List.forall_mem_cons.mpr ⟨hl.lead, hl.gaps⟩
  pieces := List.forall_mem_cons.mpr ⟨hp, hl.pieces⟩
  parted := by
    rintro (_ | ⟨s₀, before⟩) s after hsegments hafter
    · obtain ⟨rfl, rfl⟩ := List.cons.inj hsegments
      exact lead_ne_nil hl hafter hends
    · exact hl.parted before s after (List.cons.inj hsegments).2 hafter
  open_last := by
    rintro (_ | ⟨s₀, before⟩) s after q hsegments hs
    · obtain ⟨rfl, rfl⟩ := List.cons.inj hsegments
      obtain ⟨hlead, hflat⟩ := List.append_eq_nil_iff.mp (hopen q hs)
      refine ⟨?_, hlead⟩
      rw [List.flatMap_eq_nil_iff] at hflat
      refine List.eq_nil_iff_forall_not_mem.mpr fun s' hs' => ?_
      exact (hl.pieces s' hs').1 (List.append_eq_nil_iff.mp (hflat s' hs')).1
    · exact hl.open_last before s after q (List.cons.inj hsegments).2 hs

/-! ## 3. Places -/

/-- The bytes that characters take up in a text. -/
def bytes (cs : List Char) : Nat := (String.ofList cs).utf8ByteSize

theorem bytes_append (cs cs' : List Char) : bytes (cs ++ cs') = bytes cs + bytes cs' := by
  rw [bytes, String.ofList_append, String.utf8ByteSize_append]
  rfl

theorem bytes_cons (c : Char) (cs : List Char) : bytes (c :: cs) = c.utf8Size + bytes cs := by
  have hone : bytes [c] = c.utf8Size := by
    rw [bytes, ← String.singleton_eq_ofList, String.utf8ByteSize_singleton]
  rw [← hone, ← bytes_append]
  rfl

theorem bytes_nil : bytes [] = 0 := rfl

/-- Characters, each with the byte at which it starts. -/
def offsets (i : Nat) : List Char → List (Nat × Char)
  | [] => []
  | c :: cs => (i, c) :: offsets (i + c.utf8Size) cs

/-- What comes behind the mark that closes a quoted run; nothing if it is not closed. -/
def afterRun (q : Char) : List (Nat × Char) → List (Nat × Char)
  | [] => []
  | (_, c) :: cs => if c = q then cs else afterRun q cs

theorem length_afterRun_le (q : Char) (cs : List (Nat × Char)) : (afterRun q cs).length ≤ cs.length := by
  induction cs with
  | nil => rfl
  | cons x cs ih =>
    unfold afterRun
    split
    · simp
    · exact ih.trans (by simp)

/-- Where a piece stops, and what is left there: at the first separator outside quoted runs, or where the
text of this size ends. -/
def scanPiece (size : Nat) : List (Nat × Char) → Nat × List (Nat × Char)
  | [] => (size, [])
  | (i, c) :: cs =>
    if isSeparator c then (i, (i, c) :: cs)
    else if isQuote c then scanPiece size (afterRun c cs)
    else scanPiece size cs
termination_by cs => cs.length
decreasing_by
  · have := length_afterRun_le c cs
    simp only [List.length_cons]
    omega
  · simp

theorem scanPiece_nil (size : Nat) : scanPiece size [] = (size, []) := by rw [scanPiece.eq_def]

theorem scanPiece_cons (size i : Nat) (c : Char) (cs : List (Nat × Char)) :
    scanPiece size ((i, c) :: cs) =
      if isSeparator c then (i, (i, c) :: cs)
      else if isQuote c then scanPiece size (afterRun c cs)
      else scanPiece size cs := by
  rw [scanPiece.eq_def]

theorem length_scanPiece_le (size : Nat) (cs : List (Nat × Char)) :
    (scanPiece size cs).2.length ≤ cs.length := by
  fun_induction scanPiece size cs with
  | case1 => rfl
  | case2 => rfl
  | case3 i c cs _ _ ih =>
    have := length_afterRun_le c cs
    simp only [List.length_cons]
    omega
  | case4 i c cs _ _ ih =>
    simp only [List.length_cons]
    omega

theorem length_scanPiece_lt {i : Nat} (hc : isSeparator c = false) (size : Nat)
    (cs : List (Nat × Char)) : (scanPiece size ((i, c) :: cs)).2.length < cs.length + 1 := by
  rw [scanPiece_cons, hc, if_neg (by simp)]
  split
  · exact Nat.lt_succ_of_le ((length_scanPiece_le _ _).trans (length_afterRun_le c cs))
  · exact Nat.lt_succ_of_le (length_scanPiece_le _ _)

/-- Where each piece starts and stops, in a text of this size. -/
def cutsFrom (size : Nat) : List (Nat × Char) → List (Nat × Nat)
  | [] => []
  | (i, c) :: cs =>
    if isSeparator c then cutsFrom size cs
    else
      (i, (scanPiece size ((i, c) :: cs)).1) :: cutsFrom size (scanPiece size ((i, c) :: cs)).2
termination_by cs => cs.length
decreasing_by
  · simp
  · next hc => exact length_scanPiece_lt (Bool.eq_false_iff.mpr hc) size cs

theorem cutsFrom_nil (size : Nat) : cutsFrom size [] = [] := by rw [cutsFrom.eq_def]

theorem cutsFrom_cons (size i : Nat) (c : Char) (cs : List (Nat × Char)) :
    cutsFrom size ((i, c) :: cs) =
      if isSeparator c then cutsFrom size cs
      else
        (i, (scanPiece size ((i, c) :: cs)).1) :: cutsFrom size (scanPiece size ((i, c) :: cs)).2 := by
  rw [cutsFrom.eq_def]

/-- Where the pieces of a text start and stop. -/
def cuts (text : String) : List (Nat × Nat) := cutsFrom text.utf8ByteSize (offsets 0 text.toList)

/-- The part of a text between two bytes.  There is none unless a character starts at either, or the text
ends there. -/
def slice? (text : String) (start stop : Nat) : Option String :=
  if h : start ≤ stop ∧ (⟨start⟩ : String.Pos.Raw).IsValid text ∧
      (⟨stop⟩ : String.Pos.Raw).IsValid text then
    some (text.extract (text.pos ⟨start⟩ h.2.1) (text.pos ⟨stop⟩ h.2.2))
  else none

/-- Between two other texts, a text is found at its place. -/
theorem slice?_append (a b c : String) :
    slice? (a ++ b ++ c) a.utf8ByteSize (a.utf8ByteSize + b.utf8ByteSize) = some b := by
  have hstart : (⟨a.utf8ByteSize⟩ : String.Pos.Raw).IsValid (a ++ b ++ c) :=
    (String.Pos.Raw.isValid_rawEndPos.append_right b).append_right c
  have hstop : (⟨a.utf8ByteSize + b.utf8ByteSize⟩ : String.Pos.Raw).IsValid (a ++ b ++ c) := by
    rw [← String.utf8ByteSize_append]
    exact String.Pos.Raw.isValid_rawEndPos.append_right c
  have hskip := ByteArray.extract_append_size_add' (b := b.toByteArray ++ c.toByteArray) (i := 0)
    (j := b.utf8ByteSize) (String.size_toByteArray (s := a)).symm
  rw [slice?, dif_pos ⟨by omega, hstart, hstop⟩, Option.some.injEq, ← String.toByteArray_inj,
    String.toByteArray_extract, String.toByteArray_append, String.toByteArray_append,
    ByteArray.append_assoc]
  simp only [String.offset_pos]
  rw [Nat.add_zero] at hskip
  rw [hskip]
  exact ByteArray.extract_append_eq_left rfl

/-! ## 4. The pieces at their places -/

/-- **Behind a quoted run, reading goes on as within it**: the piece is the run and what is read from
there. -/
theorem afterRun_offsets (q : Char) (i : Nat) (cs : List Char) :
    ∃ run rest, cs = run ++ rest ∧ afterRun q (offsets i cs) = offsets (i + bytes run) rest ∧
      takePiece (some q) cs = (run ++ (takePiece none rest).1, (takePiece none rest).2) := by
  induction cs generalizing i with
  | nil => exact ⟨[], [], rfl, rfl, rfl⟩
  | cons c cs ih =>
    by_cases hc : c = q
    · refine ⟨[c], cs, rfl, ?_, ?_⟩
      · simp [offsets, afterRun, hc, bytes_cons, bytes_nil]
      · simp [takePiece, quoteAfter, hc]
    · obtain ⟨run, rest, rfl, hafter, htake⟩ := ih (i + c.utf8Size)
      refine ⟨c :: run, rest, rfl, ?_, ?_⟩
      · simp [offsets, afterRun, hc, hafter, bytes_cons, Nat.add_assoc]
      · simp [takePiece, quoteAfter, hc, htake]

/-- **A piece is scanned as it is read.**  The induction goes by the length of the text, since a quoted run
is passed over as a whole. -/
theorem scanPiece_offsets {p : List Char} (h : takePiece none cs = (p, rest)) (i : Nat) :
    scanPiece (i + bytes cs) (offsets i cs) = (i + bytes p, offsets (i + bytes p) rest) := by
  induction hn : cs.length using Nat.strong_induction_on generalizing cs p rest i with
  | _ n ih =>
    subst hn
    cases cs with
    | nil =>
      obtain ⟨rfl, rfl⟩ := Prod.mk.inj h
      simp [offsets, scanPiece_nil]
    | cons c cs =>
      rw [takePiece] at h
      cases hsep : isSeparator c with
      | true =>
        simp only [hsep, Option.isNone_none, Bool.and_true, if_true, Prod.mk.injEq] at h
        obtain ⟨rfl, rfl⟩ := h
        simp [offsets, scanPiece_cons, hsep, bytes_nil]
      | false =>
        simp only [hsep, Bool.and_false, Bool.false_eq_true, if_false, Prod.mk.injEq] at h
        obtain ⟨rfl, rfl⟩ := h
        rw [offsets, scanPiece_cons, hsep, if_neg (by simp), bytes_cons, ← Nat.add_assoc]
        cases hquote : isQuote c with
        | true =>
          have hinside : quoteAfter none c = some c := by simp [quoteAfter, hquote]
          obtain ⟨run, rest, rfl, hafter, htake⟩ := afterRun_offsets c (i + c.utf8Size) cs
          have hshort : rest.length < (c :: (run ++ rest)).length := by
            simp only [List.length_cons, List.length_append]
            omega
          have hscan := ih rest.length hshort (Prod.mk.eta (p := takePiece none rest)).symm
            (i + c.utf8Size + bytes run) rfl
          rw [if_pos rfl, hafter, bytes_append, ← Nat.add_assoc, hscan, hinside, htake]
          simp only [bytes_cons, bytes_append, Nat.add_assoc]
        | false =>
          have hinside : quoteAfter none c = none := by simp [quoteAfter, hquote]
          have hscan := ih cs.length (by simp) (Prod.mk.eta (p := takePiece none cs)).symm
            (i + c.utf8Size) rfl
          rw [if_neg (by simp), hscan, hinside]
          simp only [bytes_cons, Nat.add_assoc]

theorem cutsFrom_separators {sep : List Char} (hsep : ∀ c ∈ sep, isSeparator c = true) (size i : Nat)
    (cs : List Char) :
    cutsFrom size (offsets i (sep ++ cs)) = cutsFrom size (offsets (i + bytes sep) cs) := by
  induction sep generalizing i with
  | nil => rfl
  | cons c sep ih =>
    obtain ⟨hc, hsep⟩ := List.forall_mem_cons.mp hsep
    rw [List.cons_append, offsets, cutsFrom_cons, if_pos hc, ih hsep, bytes_cons, Nat.add_assoc]

theorem cutsFrom_piece {p : List Char} (hne : p ≠ []) (h : takePiece none (p ++ rest) = (p, rest))
    (i : Nat) :
    cutsFrom (i + bytes (p ++ rest)) (offsets i (p ++ rest)) =
      (i, i + bytes p) :: cutsFrom (i + bytes (p ++ rest)) (offsets (i + bytes p) rest) := by
  cases p with
  | nil => exact absurd rfl hne
  | cons c p =>
    have hscan := scanPiece_offsets h i
    have hc : isSeparator c = false := by
      rw [Bool.eq_false_iff]
      intro hc
      simp [takePiece, hc] at h
    rw [List.cons_append, offsets] at hscan ⊢
    rw [cutsFrom_cons, hc, if_neg (by simp), hscan]

/-- Where the segments of a layout start, and where their pieces stop. -/
def borders (i : Nat) : List Segment → List (Nat × Nat)
  | [] => []
  | s :: segments =>
    (i, i + bytes s.piece) :: borders (i + bytes s.piece + bytes s.gap) segments

/-- Between two of its borders there is the piece. -/
theorem mapM_slice?_borders (before : List Char) (segments : List Segment) :
    (borders (bytes before) segments).mapM (fun x => slice?
        (String.ofList (before ++ segments.flatMap fun s => s.piece ++ s.gap)) x.1 x.2) =
      some (segments.map fun s => String.ofList s.piece) := by
  induction segments generalizing before with
  | nil => rfl
  | cons s segments ih =>
    have hrest := ih (before ++ (s.piece ++ s.gap))
    have hslice := slice?_append (String.ofList before) (String.ofList s.piece)
      (String.ofList (s.gap ++ segments.flatMap fun s => s.piece ++ s.gap))
    simp only [← String.ofList_append, List.append_assoc, bytes_append, ← Nat.add_assoc] at hrest hslice
    rw [borders, List.mapM_cons]
    simp only [List.flatMap_cons, List.append_assoc, hrest]
    rw [bytes, bytes, hslice]
    rfl

/-- Every text has a layout with the pieces that it is cut into, and the borders are where it is cut. -/
theorem exists_fits (cs : List Char) :
    ∃ l : Layout, l.chars = cs ∧ l.pieces = pieces cs ∧ l.Fits ∧
      ∀ i, cutsFrom (i + bytes cs) (offsets i cs) = borders (i + bytes l.lead) l.segments := by
  induction hps : pieces cs generalizing cs with
  | nil =>
    have hsep := separators_of_pieces_eq_nil hps
    refine ⟨⟨cs, []⟩, List.append_nil cs, rfl, ⟨hsep, ?_, ?_, ?_, ?_⟩, fun i => ?_⟩
    · simp
    · simp
    · simp
    · simp
    · have hcuts := cutsFrom_separators hsep (i + bytes cs) i []
      rw [List.append_nil] at hcuts
      rw [hcuts, offsets, cutsFrom_nil, borders]
  | cons p ps ih =>
    obtain ⟨sep, rest, rfl, hsep, hne, htake, hrest⟩ := exists_takePiece_of_pieces_eq_cons hps
    obtain ⟨l, rfl, hpieces, hl, hborders⟩ := ih rest hrest
    have hwhole := isWhole_takePiece none (p ++ l.chars)
    have hends := endsPiece_takePiece none (p ++ l.chars)
    have hclosed := openAfter_takePiece none (p ++ l.chars)
    rw [htake] at hwhole hends hclosed
    refine ⟨⟨sep, ⟨p, l.lead⟩ :: l.segments⟩, ?_, ?_,
      hl.cons hsep (isPiece_of_isWhole hne hwhole) hends ?_, fun i => ?_⟩
    · simp [chars]
    · rw [← hpieces]
      rfl
    · intro q hq
      refine hclosed.resolve_left fun hnone => ?_
      rw [openAfter_eq_some_iff.mpr hq] at hnone
      simp at hnone
    · rw [cutsFrom_separators hsep, bytes_append, ← Nat.add_assoc, cutsFrom_piece hne htake, borders,
        bytes_append, ← Nat.add_assoc, hborders]

/-- **Nothing is lost when a text is cut.**  Every text is separators, its pieces in order, and separators
between and behind them; no two pieces touch.  A piece is not empty, and separators stand in it only where a
quoted run is open, that is where a quote has opened it and the same quote has not come again.  Only the last
piece may leave a run open, and then the text ends with it.  Read byte by byte, the text is cut at just these
places, all of which are borders between characters. -/
theorem exists_layout (text : String) :
    ∃ l : Layout, l.chars = text.toList ∧ l.pieces = pieces text.toList ∧ l.Fits ∧
      cuts text = borders (bytes l.lead) l.segments ∧
      (cuts text).mapM (fun x => slice? text x.1 x.2) = some (l.pieces.map String.ofList) := by
  obtain ⟨l, hchars, hpieces, hl, hborders⟩ := exists_fits text.toList
  have hcuts : cuts text = borders (bytes l.lead) l.segments := by
    have hcuts := hborders 0
    rwa [Nat.zero_add, Nat.zero_add, bytes, String.ofList_toList] at hcuts
  refine ⟨l, hchars, hpieces, hl, hcuts, ?_⟩
  have hslices := mapM_slice?_borders l.lead l.segments
  rw [← Layout.chars.eq_def, hchars, String.ofList_toList] at hslices
  rw [hcuts, hslices, Layout.pieces, List.map_map]
  rfl

/-- Two runs that touch, behind a letter of two bytes, and a run that is left open. -/
example : cuts "é\"a b\"'c,' , \"d e " = [(0, 11), (14, 19)] := by decide +kernel

end Timesheet.Lexer
