import Mathlib.Data.List.Infix
import Mathlib.Data.List.TakeWhile
import Mathlib.Tactic.IntervalCases
import Timesheet.Json.Reader
import Timesheet.Text.CodePoints
/-!
# JSON texts read back

A value without fractions is read back from its compact and from its indented text (`read?_compact`,
`read?_pretty`).  The reader works in two steps, and so does the argument.  `Spells` says which lexemes a
text is cut into, whatever stands behind it: only a number could go on there, and nothing that is written
behind a value goes on with one (`Breaks`).  `Moves` says what the lexemes of a text do to a reading; texts
are put together by it as the readings follow each other, so that neither step is looked at as a whole.

Both layouts are one: brackets, commas and colons with blanks around them (`isText_arr`, `isText_obj`), of
which the compact text has none.
-/

namespace Timesheet.Json

/-! ## 1. Lexemes -/

variable {c : Char} {cs cs' rest : List Char} {l : Lexeme} {ls ls' more : List Lexeme}
  {r r' r'' : Reading} {outer : List Frame} {j : Json}

theorem lexemesUpTo_mono {limit limit' : Nat} (h : lexemesUpTo limit cs = some ls)
    (hle : limit ≤ limit') : lexemesUpTo limit' cs = some ls := by
  induction limit generalizing cs ls limit' with
  | zero =>
    cases cs with
    | nil => cases limit' <;> simpa [lexemesUpTo] using h
    | cons c cs => simp [lexemesUpTo] at h
  | succ limit ih =>
    cases cs with
    | nil => cases limit' <;> simpa [lexemesUpTo] using h
    | cons c cs =>
      obtain ⟨limit', rfl⟩ : ∃ k, limit' = k + 1 := ⟨limit' - 1, by omega⟩
      rw [lexemesUpTo] at h ⊢
      split at h
      · next hspace =>
        rw [if_pos hspace]
        exact ih h (by omega)
      · next hspace =>
        simp only [Option.bind_eq_bind, Option.bind_eq_some_iff] at h
        obtain ⟨⟨l, rest⟩, hread, ls', hrest, h⟩ := h
        rw [if_neg hspace, hread, Option.bind_eq_bind, Option.bind_some]
        simp only [ih hrest (by omega : limit ≤ limit')]
        exact h

/-- A blank is passed over. -/
theorem lexemes_space (hc : isSpace c = true) (h : lexemes cs = some ls) :
    lexemes (c :: cs) = some ls := by
  rw [lexemes, List.length_cons, lexemesUpTo, if_pos hc]
  exact h

/-- A lexeme is cut off. -/
theorem lexemes_cons (hc : isSpace c = false) (hread : readLexeme c cs = some (l, rest))
    (hlength : rest.length ≤ cs.length) (h : lexemes rest = some ls) :
    lexemes (c :: cs) = some (l :: ls) := by
  rw [lexemes, List.length_cons, lexemesUpTo, if_neg (by simp [hc]), hread, Option.bind_eq_bind,
    Option.bind_some]
  simp only [lexemesUpTo_mono h hlength]
  rfl

/-- The character does not go on a number. -/
def isBreak (c : Char) : Bool := !c.isDigit && c != '.' && c != 'e' && c != 'E'

/-- The text does not go on a number. -/
def Breaks (cs : List Char) : Prop := ∀ c ∈ cs.head?, isBreak c = true

/-- The text is read as these lexemes, whatever follows that does not go on a number. -/
def Spells (cs : List Char) (ls : List Lexeme) : Prop :=
  ∀ rest more, Breaks rest → lexemes rest = some more → lexemes (cs ++ rest) = some (ls ++ more)

namespace Spells

theorem nil : Spells [] [] := fun _ _ _ h => h

theorem space (hc : isSpace c = true) (h : Spells cs ls) : Spells (c :: cs) ls :=
  fun rest more hbreaks hrest => lexemes_space hc (h rest more hbreaks hrest)

/-- A mark is a lexeme of one character, whatever follows. -/
theorem mark (hc : isSpace c = false) (hread : ∀ rest, readLexeme c rest = some (l, rest))
    (h : Spells cs ls) : Spells (c :: cs) (l :: ls) :=
  fun rest more hbreaks hrest =>
    lexemes_cons hc (hread _) (Nat.le_refl _) (h rest more hbreaks hrest)

theorem append (h : Spells cs ls) (h' : Spells cs' ls') (hbreaks : ∀ rest, Breaks (cs' ++ rest)) :
    Spells (cs ++ cs') (ls ++ ls') := by
  intro rest more hrest hmore
  rw [List.append_assoc, List.append_assoc]
  exact h _ _ (hbreaks rest) (h' rest more hrest hmore)

end Spells

/-! ## 2. Readings -/

/-- The text consists of blanks. -/
def IsGap (gap : List Char) : Prop := ∀ c ∈ gap, isSpace c = true

/-- The text takes a reading from one state to another. -/
def Moves (cs : List Char) (r r' : Reading) : Prop :=
  ∃ ls, Spells cs ls ∧ ls.foldlM Reading.step r = some r'

namespace Moves

theorem refl (r : Reading) : Moves [] r r := ⟨[], .nil, rfl⟩

theorem spaces {gap : List Char} (hgap : IsGap gap) (h : Moves cs r r') : Moves (gap ++ cs) r r' := by
  obtain ⟨ls, hspells, hsteps⟩ := h
  refine ⟨ls, ?_, hsteps⟩
  induction gap with
  | nil => exact hspells
  | cons c gap ih =>
    obtain ⟨hc, hgap⟩ := List.forall_mem_cons.mp hgap
    exact (ih hgap).space hc

theorem mark (hc : isSpace c = false) (hread : ∀ rest, readLexeme c rest = some (l, rest))
    (hstep : r.step l = some r') (h : Moves cs r' r'') : Moves (c :: cs) r r'' := by
  obtain ⟨ls, hspells, hsteps⟩ := h
  refine ⟨l :: ls, hspells.mark hc hread, ?_⟩
  rw [List.foldlM_cons, hstep]
  exact hsteps

theorem append (h : Moves cs r r') (h' : Moves cs' r' r'') (hbreaks : ∀ rest, Breaks (cs' ++ rest)) :
    Moves (cs ++ cs') r r'' := by
  obtain ⟨ls, hspells, hsteps⟩ := h
  obtain ⟨ls', hspells', hsteps'⟩ := h'
  refine ⟨ls ++ ls', hspells.append hspells' hbreaks, ?_⟩
  rw [List.foldlM_append, hsteps]
  exact hsteps'

end Moves

/-- The text is that of the value. -/
def IsText (cs : List Char) (j : Json) : Prop := ∀ outer, Moves cs (.value outer) (.done outer j)

/-- What is the text of a value is read as it. -/
theorem read?_of_isText {s : String} (h : IsText s.toList j) : read? s = some j := by
  obtain ⟨ls, hspells, hsteps⟩ := h []
  have hlexemes : lexemes s.toList = some ls := by
    have := hspells [] [] (by simp [Breaks]) rfl
    rwa [List.append_nil, List.append_nil] at this
  rw [read?, hlexemes, Option.bind_eq_bind, Option.bind_some, hsteps]
  rfl

/-! ## 3. Strings -/

theorem hexValue?_hexDigit {n : Nat} (h : n < 16) : Text.hexValue? (hexDigit n) = some n := by
  interval_cases n <;> rfl

theorem textOfUnits_escaped {n : Nat} (h : n < 0xD800) (units : List Unit16) :
    textOfUnits (.escaped n :: units) = (textOfUnits units).map (Char.ofNat n :: ·) := by
  rw [textOfUnits.eq_def]
  simp only
  rw [if_neg (by omega), if_neg (by omega)]

/-- A letter behind a backslash is read as the character that it stands for. -/
theorem readString_letter {e : Char} (he : unescape? e = some c) {units : List Unit16}
    (h : readString cs = some (units, rest)) :
    readString ('\\' :: e :: cs) = some (.char c :: units, rest) := by
  rw [readString, he, h]
  · rfl
  · rintro _ _ _ _ _ rfl
    simp [unescape?] at he

theorem textOfUnits_char {units : List Unit16} {text : List Char} (h : textOfUnits units = some text)
    (c : Char) : textOfUnits (.char c :: units) = some (c :: text) := by
  simp [textOfUnits, h]

/-- A character that is written within a string is read back. -/
theorem readString_escape (c : Char) {units : List Unit16} (h : readString cs = some (units, rest)) :
    ∃ unit, readString (escape c ++ cs) = some (unit :: units, rest) ∧
      ∀ text, textOfUnits units = some text → textOfUnits (unit :: units) = some (c :: text) := by
  unfold escape
  split
  -- All but the last case are escapes by a letter; the last one has an escape by number of its own.
  case h_8 hquote hbackslash _ _ _ _ _ =>
    split
    · next hcontrol =>
      have hhigh := hexValue?_hexDigit (n := c.toNat / 16) (by omega)
      have hlow := hexValue?_hexDigit (n := c.toNat % 16) (by omega)
      have hzero : Text.hexValue? '0' = some 0 := rfl
      have hsum : 16 * (c.toNat / 16) + c.toNat % 16 = c.toNat := Nat.div_add_mod c.toNat 16
      refine ⟨.escaped c.toNat, ?_, fun text htext => ?_⟩
      · simp [readString, hhigh, hlow, hzero, hsum, h]
      · rw [textOfUnits_escaped (by omega), htext, Char.ofNat_toNat]
        rfl
    · next hcontrol =>
      refine ⟨.char c, ?_, fun text htext => ?_⟩
      · rw [List.singleton_append, readString, if_neg hcontrol, h]
        · rfl
        · exact hquote
        · exact fun _ _ _ _ _ hc => absurd hc hbackslash
        · exact fun _ _ hc => absurd hc hbackslash
      · exact textOfUnits_char htext c
  all_goals exact ⟨_, readString_letter rfl h, fun _ htext => textOfUnits_char htext _⟩

/-- **A string in its quotes is read back.** -/
theorem readString_quote (text rest : List Char) :
    ∃ units, readString (text.flatMap escape ++ '"' :: rest) = some (units, rest) ∧
      textOfUnits units = some text := by
  induction text with
  | nil => exact ⟨[], rfl, rfl⟩
  | cons c text ih =>
    obtain ⟨units, hread, htext⟩ := ih
    obtain ⟨unit, hread', hunit⟩ := readString_escape c hread
    refine ⟨unit :: units, ?_, hunit _ htext⟩
    rwa [List.flatMap_cons, List.append_assoc]

theorem readLexeme_quote (s : String) (rest : List Char) :
    readLexeme '"' (s.toList.flatMap escape ++ '"' :: rest) = some (.scalar (str s), rest) := by
  obtain ⟨units, hread, htext⟩ := readString_quote s.toList rest
  simp only [readLexeme, hread, Option.map_some, ofUnits, htext, String.ofList_toList]

theorem spells_quote (s : String) : Spells (quote s).toList [.scalar (str s)] := by
  intro rest more _ hrest
  have hquote : (quote s).toList ++ rest = '"' :: (s.toList.flatMap escape ++ '"' :: rest) := by
    simp [quote]
  rw [hquote]
  exact lexemes_cons rfl (readLexeme_quote s rest) (by simp; omega) hrest

/-! ## 4. Numbers -/

theorem exists_digits_eq_cons (n : Nat) :
    ∃ d ds, Decimal.digits n = d :: ds ∧ d.isDigit = true ∧ (d = '0' → n = 0) := by
  induction n using Nat.strongRecOn with
  | _ n ih =>
    rw [Decimal.digits]
    split
    · next hn =>
      refine ⟨_, [], rfl, Decimal.isDigit_digitChar hn, ?_⟩
      interval_cases n <;> decide
    · next hn =>
      obtain ⟨d, ds, hds, hdigit, hzero⟩ := ih (n / 10) (by omega)
      refine ⟨d, ds ++ [Decimal.digitChar (n % 10)], by rw [hds]; rfl, hdigit, fun hd => ?_⟩
      have := hzero hd
      omega

theorem takeWhile_isDigit_of_breaks (h : Breaks rest) : rest.takeWhile Char.isDigit = [] := by
  cases rest with
  | nil => rfl
  | cons c rest =>
    have hc := h c rfl
    simp only [isBreak, Bool.and_eq_true, Bool.not_eq_true'] at hc
    rw [List.takeWhile_cons_of_neg (by simp [hc.1.1.1])]

theorem readDigits_append {ds : List Char} (hne : ds ≠ []) (hds : ∀ d ∈ ds, d.isDigit = true)
    (h : Breaks rest) : readDigits (ds ++ rest) = some (ds, rest) := by
  have htake : (ds ++ rest).takeWhile Char.isDigit = ds := by
    rw [List.takeWhile_append_of_pos hds, takeWhile_isDigit_of_breaks h, List.append_nil]
  have hdrop : (ds ++ rest).dropWhile Char.isDigit = rest := by
    have := List.takeWhile_append_dropWhile (p := Char.isDigit) (l := ds ++ rest)
    rw [htake] at this
    exact List.append_cancel_left this
  rw [readDigits, htake, hdrop, if_neg (by simp [hne])]

theorem readWhole_digits (n : Nat) (h : Breaks rest) :
    readWhole (Decimal.digits n ++ rest) = some (Decimal.digits n, rest) := by
  obtain ⟨d, ds, hds, hdigit, hzero⟩ := exists_digits_eq_cons n
  by_cases hd : d = '0'
  · obtain rfl := hzero hd
    rw [Decimal.digits]
    rfl
  · have hread := readDigits_append (Decimal.digits_ne_nil n)
      (fun d hd => Decimal.isDigit_of_mem_digits hd) h
    rw [hds] at hread ⊢
    rw [List.cons_append, readWhole, ← List.cons_append, hread]
    exact fun _ heq => hd (List.cons.inj heq).1

theorem readFraction_of_breaks (h : Breaks rest) : readFraction rest = some ([], rest) := by
  cases rest with
  | nil => rfl
  | cons c rest =>
    have hc := h c rfl
    rw [readFraction]
    rintro _ heq
    rw [(List.cons.inj heq).1] at hc
    exact absurd hc (by decide)

theorem readExponent_of_breaks (h : Breaks rest) : readExponent rest = some ([], rest) := by
  cases rest with
  | nil => rfl
  | cons c rest =>
    have hc := h c rfl
    rw [readExponent.eq_def]
    simp only
    rw [if_neg]
    rintro (rfl | rfl)
    · exact absurd hc (by decide)
    · exact absurd hc (by decide)

/-- **The digits of a number are read as it**, where no zero has a sign. -/
theorem readNumber_digits (negative : Bool) (n : Nat) (hsign : negative = true → n ≠ 0)
    (h : Breaks rest) : readNumber negative (Decimal.digits n ++ rest) =
      some (int (if negative then -n else n), rest) := by
  have hzero : (negative && (n : Int) == 0) = false := by
    cases negative with
    | false => rfl
    | true => simpa using hsign rfl
  simp only [readNumber, readWhole_digits n h, readFraction_of_breaks h, readExponent_of_breaks h,
    Option.bind_eq_bind, Option.bind_some, Decimal.value_digits, hzero]
  rfl

theorem isSpace_of_isDigit (hc : c.isDigit = true) : isSpace c = false := by
  rw [Bool.eq_false_iff]
  intro hspace
  simp only [isSpace, Bool.or_eq_true, beq_iff_eq] at hspace
  rcases hspace with ((rfl | rfl) | rfl) | rfl <;> exact absurd hc (by decide)

theorem readLexeme_digit (hc : c.isDigit = true) (cs : List Char) :
    readLexeme c cs = (readNumber false (c :: cs)).map fun (j, rest) => (.scalar j, rest) := by
  unfold readLexeme
  split
  case h_12 => rw [if_pos hc]
  all_goals exact absurd hc (by decide)

/-- **An integer is read back.** -/
theorem spells_int (n : Int) : Spells (Decimal.intText n).toList [.scalar (int n)] := by
  intro rest more hbreaks hrest
  rw [Decimal.intText, String.toList_ofList]
  by_cases hneg : n < 0
  · have hnumber := readNumber_digits true n.natAbs (by omega) hbreaks
    have hn : -(n.natAbs : Int) = n := by omega
    rw [if_pos rfl, hn] at hnumber
    rw [if_pos hneg, List.cons_append]
    refine lexemes_cons rfl ?_ (by simp) hrest
    rw [readLexeme, hnumber]
    rfl
  · have hnumber := readNumber_digits false n.natAbs (by simp) hbreaks
    have hn : (n.natAbs : Int) = n := by omega
    rw [if_neg (by simp), hn] at hnumber
    rw [if_neg hneg]
    obtain ⟨d, ds, hds, hdigit, -⟩ := exists_digits_eq_cons n.natAbs
    rw [hds, List.cons_append] at hnumber ⊢
    refine lexemes_cons (isSpace_of_isDigit hdigit) ?_ (by simp) hrest
    rw [readLexeme_digit hdigit, hnumber]
    rfl

/-! ## 5. Arrays and objects -/

theorem isText_of_spells (h : Spells cs [.scalar j]) : IsText cs j := fun _ => ⟨_, h, rfl⟩

theorem breaks_gap {gap : List Char} (hgap : IsGap gap) (hc : isBreak c = true) (rest : List Char) :
    Breaks ((gap ++ [c]) ++ rest) := by
  rw [List.append_assoc]
  intro c' hc'
  cases gap with
  | nil => exact Option.some.inj hc' ▸ hc
  | cons space gap =>
    obtain rfl := Option.some.inj hc'
    have hspace := hgap _ List.mem_cons_self
    simp only [isSpace, Bool.or_eq_true, beq_iff_eq] at hspace
    rcases hspace with ((rfl | rfl) | rfl) | rfl <;> rfl

/-- What begins the text of a value begins that of the first item of an array. -/
theorem Moves.item {outer' : List Frame} (h : Moves cs (.value (.array [] :: outer)) (.done outer' j)) :
    Moves cs (.item outer) (.done outer' j) := by
  obtain ⟨ls, hspells, hsteps⟩ := h
  refine ⟨ls, hspells, ?_⟩
  cases ls with
  | nil => simp at hsteps
  | cons l ls =>
    rw [List.foldlM_cons] at hsteps ⊢
    -- The two states differ by the end of the array only, with which no value begins.
    cases l with
    | closeArray => simp [Reading.step, Reading.start] at hsteps
    | _ => exact hsteps

section Separated

variable {α : Type} {text : α → List Char} {gap close : List Char} {x : α} {xs acc : List α}

theorem intercalate_cons (text : α → List Char) (sep : List Char) (x : α) (xs : List α) :
    sep.intercalate ((x :: xs).map text) = text x ++ xs.flatMap fun y => sep ++ text y := by
  induction xs generalizing x with
  | nil => simp [List.intercalate]
  | cons y xs ih =>
    rw [List.map_cons, List.map_cons, List.intercalate_cons_cons, ← List.map_cons, ih,
      List.flatMap_cons, List.append_assoc, List.append_assoc]

theorem breaks_separated (hbreaks : ∀ rest, Breaks (close ++ rest)) (rest : List Char) :
    Breaks (((xs.flatMap fun y => ',' :: gap ++ text y) ++ close) ++ rest) := by
  cases xs with
  | nil => exact hbreaks rest
  | cons y xs =>
    intro c hc
    obtain rfl := Option.some.inj hc
    rfl

/-- **Parts behind commas are read one by one**, up to the text that closes them.  The state is given by
the parts read so far, of which the last one is kept by itself. -/
theorem Moves.separated (after : List α → α → Reading) (acc : List α) (x : α)
    (hnext : ∀ y ∈ xs, ∀ acc x, Moves (',' :: gap ++ text y) (after acc x) (after (x :: acc) y))
    (hclose : ∀ acc' y, y :: acc' = xs.reverse ++ x :: acc → Moves close (after acc' y) r)
    (hbreaks : ∀ rest, Breaks (close ++ rest)) :
    Moves ((xs.flatMap fun y => ',' :: gap ++ text y) ++ close) (after acc x) r := by
  -- The part kept by itself goes to the others as soon as a comma follows.
  induction xs generalizing x acc with
  | nil => exact hclose acc x rfl
  | cons y xs ih =>
    obtain ⟨hy, hnext⟩ := List.forall_mem_cons.mp hnext
    rw [List.flatMap_cons, List.append_assoc]
    refine (hy acc x).append (ih _ _ hnext fun acc' z hz => hclose acc' z ?_) (breaks_separated hbreaks)
    rw [hz, List.reverse_cons, List.append_assoc]
    rfl

end Separated

section Layout

variable {first gap last : List Char} (hfirst : IsGap first) (hgap : IsGap gap) (hlast : IsGap last)
include hfirst hgap hlast

/-- **The texts of the items make up the text of the array**, with any blanks around them. -/
theorem isText_arr (text : Json → List Char) {items : List Json} (h : ∀ j ∈ items, IsText (text j) j) :
    IsText ('[' :: (first ++ ((',' :: gap).intercalate (items.map text) ++ (last ++ [']']))))
      (arr items) := by
  intro outer
  have hitems : Moves ((',' :: gap).intercalate (items.map text) ++ (last ++ [']'])) (.item outer)
      (.done outer (arr items)) := by
    cases items with
    | nil =>
      show Moves (last ++ [']']) _ _
      exact .spaces hlast (.mark rfl (fun _ => rfl) rfl (.refl _))
    | cons x xs =>
      obtain ⟨hx, hxs⟩ := List.forall_mem_cons.mp h
      have hbreaks := breaks_gap hlast (c := ']') rfl
      rw [intercalate_cons, List.append_assoc]
      refine (hx _).item.append
        (.separated (fun acc j => .done (.array acc :: outer) j) [] x ?_ ?_ hbreaks)
        (breaks_separated hbreaks)
      · intro y hy acc x
        exact .mark rfl (fun _ => rfl) rfl (.spaces hgap (hxs y hy _))
      · intro acc y hy
        refine .spaces hlast (.mark rfl (fun _ => rfl) ?_ (.refl _))
        rw [Reading.step, hy]
        simp
  exact .mark rfl (fun _ => rfl) rfl (.spaces hfirst hitems)

/-- A member as it is written, with a gap before its value. -/
def memberText (before : List Char) (text : Json → List Char) (m : String × Json) : List Char :=
  (quote m.1).toList ++ ':' :: (before ++ text m.2)

omit hfirst hgap hlast in
theorem moves_member {before : List Char} (hbefore : IsGap before) {text : Json → List Char}
    {m : String × Json} (h : IsText (text m.2) m.2) (outer : List Frame)
    (ms : List (Option String × Json)) :
    Moves (memberText before text m) (.key outer ms) (.done (.object ms (some m.1) :: outer) m.2) := by
  have hkey : Moves (quote m.1).toList (.key outer ms) (.colon outer ms (some m.1)) :=
    ⟨_, spells_quote m.1, by cases ms <;> rfl⟩
  refine hkey.append (.mark rfl (fun _ => rfl) rfl (.spaces hbefore (h _))) fun rest c hc => ?_
  obtain rfl := Option.some.inj hc
  rfl

omit hfirst hgap hlast in
theorem ofMembers_reverse (members : List (String × Json)) :
    ofMembers (members.reverse.map fun m => (some m.1, m.2)) = obj members := by
  have hkeys : (members.map fun m => (some m.1, m.2)).mapM
      (fun m : Option String × Json => m.1.map (·, m.2)) = some members := by
    rw [List.mapM_map]
    exact (List.mapM_pure (f := id)).trans (by rw [List.map_id]; rfl)
  rw [ofMembers, ← List.map_reverse, List.reverse_reverse, hkeys]

/-- **The texts of the members make up the text of the object**, with any blanks around them. -/
theorem isText_obj (before : List Char) (hbefore : IsGap before) (text : Json → List Char)
    {members : List (String × Json)} (h : ∀ m ∈ members, IsText (text m.2) m.2) :
    IsText ('\x7b' :: (first ++ ((',' :: gap).intercalate (members.map (memberText before text)) ++
      (last ++ ['\x7d'])))) (obj members) := by
  intro outer
  have hmembers : Moves ((',' :: gap).intercalate (members.map (memberText before text)) ++
      (last ++ ['\x7d'])) (.key outer []) (.done outer (obj members)) := by
    cases members with
    | nil =>
      show Moves (last ++ ['\x7d']) _ _
      exact .spaces hlast (.mark rfl (fun _ => rfl) rfl (.refl _))
    | cons x xs =>
      obtain ⟨hx, hxs⟩ := List.forall_mem_cons.mp h
      have hbreaks := breaks_gap hlast (c := '\x7d') rfl
      rw [intercalate_cons, List.append_assoc]
      refine (moves_member hbefore hx outer []).append (.separated (fun acc (m : String × Json) =>
        .done (.object (acc.map fun m => (some m.1, m.2)) (some m.1) :: outer) m.2) [] x ?_ ?_ hbreaks)
        (breaks_separated hbreaks)
      · intro y hy acc x
        exact .mark rfl (fun _ => rfl) rfl (.spaces hgap (moves_member hbefore (hxs y hy) outer _))
      · intro acc y hy
        refine .spaces hlast (.mark rfl (fun _ => rfl) ?_ (.refl _))
        have hall : y :: acc = (x :: xs).reverse := by simpa using hy
        rw [Reading.step, ← ofMembers_reverse (x :: xs), ← hall]
        rfl
  exact .mark rfl (fun _ => rfl) rfl (.spaces hfirst hmembers)

end Layout

/-! ## 6. Both texts -/

/-- The value has no numbers other than integers, and nothing ill-formed. -/
inductive IsPlain : Json → Prop
  | null : IsPlain null
  | bool (b : Bool) : IsPlain (bool b)
  | int (n : Int) : IsPlain (int n)
  | str (s : String) : IsPlain (str s)
  | arr (items : List Json) (h : ∀ j ∈ items, IsPlain j) : IsPlain (arr items)
  | obj (members : List (String × Json)) (h : ∀ m ∈ members, IsPlain m.2) : IsPlain (obj members)

/-- An object is plain if the fields that are given are. -/
theorem isPlain_ofFields {fields : List (String × Option Json)}
    (h : ∀ f ∈ fields, ∀ j ∈ f.2, IsPlain j) : IsPlain (ofFields fields) := by
  refine .obj _ fun m hm => ?_
  obtain ⟨f, hf, hm⟩ := List.mem_filterMap.mp hm
  obtain ⟨j, hj, rfl⟩ := Option.map_eq_some_iff.mp hm
  exact h f hf j hj

theorem isText_null : IsText (scalarText null).toList null :=
  isText_of_spells fun _ _ _ hrest => lexemes_cons rfl rfl (by simp; omega) hrest

theorem isText_bool (b : Bool) : IsText (scalarText (bool b)).toList (bool b) := by
  cases b with
  | true => exact isText_of_spells fun _ _ _ hrest => lexemes_cons rfl rfl (by simp; omega) hrest
  | false => exact isText_of_spells fun _ _ _ hrest => lexemes_cons rfl rfl (by simp; omega) hrest

theorem compactItems_eq_map (items : List Json) : compactItems items = items.map compact := by
  induction items with
  | nil => rfl
  | cons j items ih => rw [compactItems, ih, List.map_cons]

theorem compactMembers_eq_map (members : List (String × Json)) :
    compactMembers members = members.map fun m => quote m.1 ++ ":" ++ m.2.compact := by
  induction members with
  | nil => rfl
  | cons m members ih => rw [compactMembers, ih, List.map_cons]

/-- **The compact text of a value is read as it.** -/
theorem isText_compact (h : IsPlain j) : IsText j.compact.toList j := by
  have hgap : IsGap [] := by simp [IsGap]
  induction h with
  | null => exact isText_null
  | bool b => exact isText_bool b
  | int n => exact isText_of_spells (spells_int n)
  | str s => exact isText_of_spells (spells_quote s)
  | arr items _ ih =>
    have htext := isText_arr hgap hgap hgap (fun j => j.compact.toList) ih
    rw [compact, compactItems_eq_map]
    simpa [String.toList_intercalate, Function.comp_def] using htext
  | obj members _ ih =>
    have htext := isText_obj hgap hgap hgap [] hgap (fun j => j.compact.toList) ih
    unfold memberText at htext
    rw [compact, compactMembers_eq_map]
    simpa [String.toList_intercalate, Function.comp_def] using htext

theorem prettyItems_eq_map (level : Nat) (items : List Json) :
    prettyItems level items = items.map (prettyAt level) := by
  induction items with
  | nil => rfl
  | cons j items ih => rw [prettyItems, ih, List.map_cons]

theorem prettyMembers_eq_map (level : Nat) (members : List (String × Json)) :
    prettyMembers level members =
      members.map fun m => quote m.1 ++ ": " ++ m.2.prettyAt level := by
  induction members with
  | nil => rfl
  | cons m members ih => rw [prettyMembers, ih, List.map_cons]

/-- The end of a line and the indentation of the next. -/
def newLine (level : Nat) : List Char := '\n' :: List.replicate (2 * level) ' '

theorem isGap_newLine (level : Nat) : IsGap (newLine level) := by
  intro c hc
  rcases List.mem_cons.mp hc with rfl | hc
  · rfl
  · rw [List.eq_of_mem_replicate hc]
    rfl

/-- Parts on lines of their own are set apart by commas and new lines. -/
theorem toList_block (level : Nat) (opening closing part : String) (parts : List String) :
    (block level opening closing (part :: parts)).toList =
      opening.toList ++ (newLine (level + 1) ++ ((',' :: newLine (level + 1)).intercalate
        ((part :: parts).map String.toList) ++ (newLine level ++ closing.toList))) := by
  simp only [block, String.toList_append, String.toList_intercalate, List.map_map,
    Function.comp_def, String.toList_ofList, List.append_assoc]
  rw [intercalate_cons, intercalate_cons]
  simp [newLine]

/-- **The indented text of a value is read as it**, at any depth. -/
theorem isText_prettyAt (h : IsPlain j) (level : Nat) : IsText (j.prettyAt level).toList j := by
  have hgap : IsGap [] := by simp [IsGap]
  induction h generalizing level with
  | null => exact isText_null
  | bool b => exact isText_bool b
  | int n => exact isText_of_spells (spells_int n)
  | str s => exact isText_of_spells (spells_quote s)
  | arr items _ ih =>
    let text (j : Json) := (j.prettyAt (level + 1)).toList
    have hitems : ∀ j ∈ items, IsText (text j) j := fun j hj => ih j hj (level + 1)
    rw [prettyAt, prettyItems_eq_map]
    cases items with
    | nil => simpa [block, List.intercalate] using isText_arr hgap hgap hgap text hitems
    | cons x xs =>
      have htext := isText_arr (isGap_newLine (level + 1)) (isGap_newLine (level + 1))
        (isGap_newLine level) text hitems
      rw [List.map_cons, toList_block]
      simpa [text, Function.comp_def] using htext
  | obj members _ ih =>
    let text (j : Json) := (j.prettyAt (level + 1)).toList
    have hmembers : ∀ m ∈ members, IsText (text m.2) m.2 := fun m hm => ih m hm (level + 1)
    rw [prettyAt, prettyMembers_eq_map]
    cases members with
    | nil => simpa [block, List.intercalate] using isText_obj hgap hgap hgap [] hgap text hmembers
    | cons x xs =>
      have htext := isText_obj (isGap_newLine (level + 1)) (isGap_newLine (level + 1))
        (isGap_newLine level) [' '] (by simp [IsGap, isSpace]) text hmembers
      unfold memberText at htext
      rw [List.map_cons, toList_block]
      simpa [text, Function.comp_def] using htext

/-- **A plain value is read back from its compact text.** -/
theorem read?_compact (h : IsPlain j) : read? j.compact = some j :=
  read?_of_isText (isText_compact h)

/-- **A plain value is read back from its indented text.** -/
theorem read?_pretty (h : IsPlain j) : read? j.pretty = some j :=
  read?_of_isText (isText_prettyAt h 0)

end Timesheet.Json
