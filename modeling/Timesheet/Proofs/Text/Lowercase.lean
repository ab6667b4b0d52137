import Mathlib.Data.List.Basic
import Timesheet.Text.Blank
import Timesheet.Text.Lowercase
/-!
# Lowercase text is in lowercase

What `Text.lowercase` returns has no capitals, and a text without capitals stays as it is, so that to
lowercase twice is to lowercase once (`lowercase_lowercase`).  Neither does it bring in quotes, or any
other character before the small letters (`mem_of_mem_lowercase`).

Both come down to the table of capitals: the lowercase forms of a block make up a block again, which none
of the blocks of capitals meets (`blocksApart`).  Blocks are compared by their ends, and by the parity of
their code points where capitals and small letters alternate.
-/

namespace Timesheet.Text

/-! ## 1. The table of capitals -/

namespace CapitalBlock

/-- The lowercase form of the first capital. -/
def firstSmall (b : CapitalBlock) : Nat := (b.first + b.shift).toNat

/-- The lowercase form of the last capital. -/
def lastSmall (b : CapitalBlock) : Nat := (b.last + b.shift).toNat

/-- The lowercase forms of the block are characters, none of them `U+0130`, and come no sooner than
the small letters. -/
def isProper (b : CapitalBlock) : Bool :=
  Nat.ble 97 b.firstSmall
    && (Nat.blt b.lastSmall 0xD800 || Nat.blt 0xDFFF b.firstSmall && Nat.blt b.lastSmall 0x110000)
    && (Nat.blt b.lastSmall 0x130 || Nat.blt 0x130 b.firstSmall)

/-- No lowercase form of the first block is a capital of the second: one ends before the other starts,
or they alternate. -/
def isApart (b b' : CapitalBlock) : Bool :=
  Nat.blt b'.last b.firstSmall || Nat.blt b.lastSmall b'.first ||
    (Nat.beq b.step 2 || Nat.beq b.firstSmall b.lastSmall) && Nat.beq b'.step 2 &&
      Nat.beq ((b.firstSmall + b'.first) % 2) 1

/-- The blanks behind the small letters, in ranges. -/
def laterBlanks : List (Nat × Nat) :=
  [(0x85, 0x85), (0xA0, 0xA0), (0x1680, 0x1680), (0x2000, 0x200A), (0x2028, 0x2029), (0x202F, 0x202F),
    (0x205F, 0x205F), (0x3000, 0x3000)]

/-- No lowercase form of the block is a blank. -/
def avoidsBlanks (b : CapitalBlock) : Bool :=
  laterBlanks.all fun r => Nat.blt r.2 b.firstSmall || Nat.blt b.lastSmall r.1

end CapitalBlock

theorem blocksApart : (capitals.all fun b => b.isProper && capitals.all b.isApart) = true := by
  decide +kernel

theorem blocksWithoutBlanks : (capitals.all CapitalBlock.avoidsBlanks) = true := by
  decide +kernel

variable {b b' : CapitalBlock} {n : Nat} {c d : Char}

theorem isProper_of_mem (hb : b ∈ capitals) : b.isProper = true := by
  have h := List.all_eq_true.mp blocksApart b hb
  rw [Bool.and_eq_true] at h
  exact h.1

theorem isApart_of_mem (hb : b ∈ capitals) (hb' : b' ∈ capitals) : b.isApart b' = true := by
  have h := List.all_eq_true.mp blocksApart b hb
  rw [Bool.and_eq_true, List.all_eq_true] at h
  exact h.2 b' hb'

/-- The lowercase form of a capital lies between those of the ends of its block. -/
theorem small_between (hn : b.holds n = true) :
    b.firstSmall ≤ (n + b.shift).toNat ∧ (n + b.shift).toNat ≤ b.lastSmall := by
  simp only [CapitalBlock.holds, Bool.and_eq_true, decide_eq_true_eq] at hn
  simp only [CapitalBlock.firstSmall, CapitalBlock.lastSmall]
  omega

/-- **The lowercase form of a capital is no capital.** -/
theorem not_holds_small (hb : b ∈ capitals) (hb' : b' ∈ capitals) (hn : b.holds n = true) :
    b'.holds (n + b.shift).toNat = false := by
  obtain ⟨hlow, hhigh⟩ := small_between hn
  have hproper := isProper_of_mem hb
  have hapart := isApart_of_mem hb hb'
  rw [Bool.eq_false_iff]
  intro hheld
  simp only [CapitalBlock.holds, Bool.and_eq_true, decide_eq_true_eq, beq_iff_eq] at hn hheld
  simp only [CapitalBlock.isProper, CapitalBlock.isApart, Nat.blt_eq, Nat.ble_eq, Nat.beq_eq,
    Bool.and_eq_true, Bool.or_eq_true] at hproper hapart
  rcases hapart with (hbelow | habove) | ⟨⟨hstep, hstep'⟩, hparity⟩
  · omega
  · omega
  · rw [hstep'] at hheld
    have hfirst : b.firstSmall = (b.first + b.shift).toNat := rfl
    rcases hstep with hstep | hsingle
    · rw [hstep] at hn
      omega
    · omega

/-- **The lowercase form of a capital is no blank.** -/
theorem not_isBlank_small (hb : b ∈ capitals) (hn : b.holds n = true)
    (hd : d.toNat = (n + b.shift).toNat) : isBlank d = false := by
  obtain ⟨hlow, hhigh⟩ := small_between hn
  have hproper := isProper_of_mem hb
  have hblanks := List.all_eq_true.mp blocksWithoutBlanks b hb
  simp only [CapitalBlock.isProper, Nat.ble_eq, Bool.and_eq_true] at hproper
  simp only [CapitalBlock.avoidsBlanks, CapitalBlock.laterBlanks, List.all_cons, List.all_nil,
    Nat.blt_eq, Bool.and_eq_true, Bool.or_eq_true] at hblanks
  rw [← hd] at hlow hhigh
  rw [Bool.eq_false_iff]
  intro hblank
  simp only [isBlank, Bool.and_eq_true, Bool.or_eq_true, decide_eq_true_eq, beq_iff_eq] at hblank
  omega

/-! ## 2. Characters without a lowercase form of their own -/

/-- The code point is not that of a capital. -/
def isSmall (n : Nat) : Bool := n != 0x130 && capitals.all fun b => !b.holds n

theorem not_isSmall_sigma : isSmall 'Σ'.toNat = false := by decide +kernel

theorem isSmall_of_sigma (d : Char) (h : d = 'ς' ∨ d = 'σ') : isSmall d.toNat = true := by
  rcases h with rfl | rfl
  · decide +kernel
  · decide +kernel

theorem lowercaseChar_of_isSmall (h : isSmall c.toNat = true) : lowercaseChar c = [c] := by
  simp only [isSmall, Bool.and_eq_true, bne_iff_ne, List.all_eq_true, Bool.not_eq_true'] at h
  rw [lowercaseChar, if_neg h.1, List.find?_eq_none.mpr]
  intro b hb
  simp [h.2 b hb]

/-- **The lowercase form of a character is made up of small ones.**  They are the character itself, or
come no sooner than the small letters and are no blanks. -/
theorem of_mem_lowercaseChar (h : d ∈ lowercaseChar c) :
    isSmall d.toNat = true ∧ (d = c ∨ 97 ≤ d.toNat ∧ isBlank d = false) := by
  unfold lowercaseChar at h
  split at h
  · have hd : isSmall 'i'.toNat = true ∧ isSmall '\u0307'.toNat = true := by decide +kernel
    rcases List.mem_cons.mp h with rfl | h
    · exact ⟨hd.1, Or.inr (by decide)⟩
    · obtain rfl := List.mem_singleton.mp h
      exact ⟨hd.2, Or.inr (by decide)⟩
  · next hc =>
    split at h
    · next b hfind =>
      obtain rfl := List.mem_singleton.mp h
      have hb := List.mem_of_find?_eq_some hfind
      have hn : b.holds c.toNat = true := by simpa using List.find?_some hfind
      obtain ⟨hlow, hhigh⟩ := small_between hn
      have hproper := isProper_of_mem hb
      simp only [CapitalBlock.isProper, Nat.blt_eq, Nat.ble_eq, Bool.and_eq_true,
        Bool.or_eq_true] at hproper
      have hvalid : (c.toNat + b.shift).toNat.isValidChar := by
        rw [Nat.isValidChar]
        omega
      have hcode : (Char.ofNat (c.toNat + b.shift).toNat).toNat = (c.toNat + b.shift).toNat := by
        rw [Char.ofNat, dif_pos hvalid]
        rfl
      have hblank := not_isBlank_small hb hn hcode
      rw [hcode]
      refine ⟨?_, Or.inr ⟨by omega, hblank⟩⟩
      simp only [isSmall, Bool.and_eq_true, bne_iff_ne, List.all_eq_true, Bool.not_eq_true']
      exact ⟨by omega, fun b' hb' => not_holds_small hb hb' hn⟩
    · next hfind =>
      obtain rfl := List.mem_singleton.mp h
      refine ⟨?_, Or.inl rfl⟩
      simp only [isSmall, Bool.and_eq_true, bne_iff_ne, List.all_eq_true, Bool.not_eq_true']
      exact ⟨hc, fun b hb => by simpa using List.find?_eq_none.mp hfind b hb⟩

theorem lowercaseChar_ne_nil (c : Char) : lowercaseChar c ≠ [] := by
  unfold lowercaseChar
  split
  · simp
  · split <;> simp

/-! ## 3. Texts -/

/-- What lowercasing returns has no capitals; its characters are of the text, or come no sooner than
the small letters and are no blanks. -/
theorem of_mem_lowercaseAfter {before cs : List Char} (h : d ∈ lowercaseAfter before cs) :
    isSmall d.toNat = true ∧ (d ∈ cs ∨ 97 ≤ d.toNat ∧ isBlank d = false) := by
  induction cs generalizing before with
  | nil => simp [lowercaseAfter] at h
  | cons c cs ih =>
    rw [lowercaseAfter, List.mem_append] at h
    rcases h with h | h
    · split at h
      · have hd : d = 'ς' ∨ d = 'σ' := by
          rw [List.mem_singleton.mp h, lowercaseSigma]
          split
          · exact Or.inl rfl
          · exact Or.inr rfl
        refine ⟨isSmall_of_sigma d hd, Or.inr ?_⟩
        rcases hd with rfl | rfl
        · decide
        · decide
      · obtain ⟨hsmall, hd⟩ := of_mem_lowercaseChar h
        refine ⟨hsmall, hd.imp_left ?_⟩
        rintro rfl
        exact List.mem_cons_self
    · obtain ⟨hsmall, hd⟩ := ih h
      exact ⟨hsmall, hd.imp_left (List.mem_cons_of_mem c)⟩

/-- A text without capitals stays as it is. -/
theorem lowercaseAfter_of_isSmall {before cs : List Char}
    (h : ∀ c ∈ cs, isSmall c.toNat = true) : lowercaseAfter before cs = cs := by
  induction cs generalizing before with
  | nil => rfl
  | cons c cs ih =>
    obtain ⟨hc, hcs⟩ := List.forall_mem_cons.mp h
    have hsigma : c ≠ 'Σ' := by
      rintro rfl
      rw [not_isSmall_sigma] at hc
      exact Bool.false_ne_true hc
    rw [lowercaseAfter, if_neg hsigma, lowercaseChar_of_isSmall hc, ih hcs, List.singleton_append]

/-- **To lowercase twice is to lowercase once.** -/
theorem lowercase_lowercase (s : String) : lowercase (lowercase s) = lowercase s := by
  simp only [lowercase, String.toList_ofList]
  rw [lowercaseAfter_of_isSmall fun c hc => (of_mem_lowercaseAfter hc).1]

/-- Lowercasing brings in no quotes, nor any other character before the small letters. -/
theorem mem_of_mem_lowercase {s : String} (h : c ∈ (lowercase s).toList) (hc : c.toNat < 97) :
    c ∈ s.toList := by
  rw [lowercase, String.toList_ofList] at h
  exact (of_mem_lowercaseAfter h).2.resolve_right (by omega)

/-- Lowercasing brings in no blanks. -/
theorem mem_of_isBlank {s : String} (h : c ∈ (lowercase s).toList) (hc : isBlank c = true) :
    c ∈ s.toList := by
  rw [lowercase, String.toList_ofList] at h
  exact (of_mem_lowercaseAfter h).2.resolve_right (by simp [hc])

/-- Something is left of a text in lowercase. -/
theorem lowercase_ne_empty {s : String} (h : s ≠ "") : lowercase s ≠ "" := by
  have hne : lowercaseAfter [] s.toList ≠ [] := by
    cases hs : s.toList with
    | nil => exact absurd (String.toList_eq_nil_iff.mp hs) h
    | cons c cs =>
      rw [lowercaseAfter]
      split
      · simp
      · simp [lowercaseChar_ne_nil]
  rwa [lowercase, ne_eq, String.ofList_eq_empty_iff]

end Timesheet.Text
