import Mathlib.Data.Bool.AllAny
import PaintQuote.Formula.Token

/-!
# Characters of a formula

Where a word, a number or a text ends.  A blank is no part of a word
(`not_isBlank_of_continuesWord`), a character that starts a word starts nothing else
(`not_mem_wordless`), and the characters that may follow an operand, `delimiters`, go on with no word
and no number (`Delimited`).
-/

namespace PaintQuote.Formula

open Text Token

/-! ## Runs of characters -/

section

variable {p : Char → Bool} {cs rest : List Char}

/-- A run of characters of a class ends where another character follows. -/
theorem takeWhile_run (hcs : ∀ c ∈ cs, p c = true) (hrest : ∀ c ∈ rest.head?, p c = false) :
    (cs ++ rest).takeWhile p = cs := by
  rw [List.takeWhile_append_of_pos hcs]
  cases rest with
  | nil => simp
  | cons c rest => simp [hrest c rfl]

theorem dropWhile_run (hcs : ∀ c ∈ cs, p c = true) (hrest : ∀ c ∈ rest.head?, p c = false) :
    (cs ++ rest).dropWhile p = rest := by
  rw [List.dropWhile_append_of_pos hcs]
  cases rest with
  | nil => rfl
  | cons c rest => exact List.dropWhile_cons_of_neg (Bool.eq_false_iff.1 (hrest c rfl))

theorem take_length_takeWhile : cs.take (cs.takeWhile p).length = cs.takeWhile p :=
  (List.prefix_iff_eq_take.1 (List.takeWhile_prefix p)).symm

/-- What is left after a run. -/
theorem drop_length_takeWhile : cs.drop (cs.takeWhile p).length = cs.dropWhile p := by
  have hsplit : cs.takeWhile p ++ cs.dropWhile p = cs := List.takeWhile_append_dropWhile
  exact (congrArg (List.drop _) hsplit.symm).trans List.drop_left

end

/-! ## Letters and digits -/

theorem isAlpha_iff {c : Char} :
    c.isAlpha = true ↔
      (65 ≤ c.toNat ∧ c.toNat ≤ 90) ∨ (97 ≤ c.toNat ∧ c.toNat ≤ 122) := by
  have hupper : c.isUpper = true ↔ 65 ≤ c.toNat ∧ c.toNat ≤ 90 := decide_eq_true_iff
  have hlower : c.isLower = true ↔ 97 ≤ c.toNat ∧ c.toNat ≤ 122 :=
    Bool.and_eq_true_iff.trans (and_congr decide_eq_true_iff decide_eq_true_iff)
  exact Bool.or_eq_true_iff.trans (or_congr hupper hlower)

theorem isDigit_iff {c : Char} : c.isDigit = true ↔ 48 ≤ c.toNat ∧ c.toNat ≤ 57 :=
  Char.isDigit_iff_toNat

/-! ## Blanks -/

/-- The closed ranges of the code points of blanks. -/
def blankRanges : List (Nat × Nat) :=
  [(9, 13), (32, 32), (0x85, 0x85), (0xA0, 0xA0), (0x1680, 0x1680), (0x2000, 0x200A),
    (0x2028, 0x2028), (0x2029, 0x2029), (0x202F, 0x202F), (0x205F, 0x205F), (0x3000, 0x3000)]

theorem exists_blankRange {c : Char} (h : isBlank c = true) :
    ∃ s ∈ blankRanges, s.1 ≤ c.toNat ∧ c.toNat ≤ s.2 := by
  have hany : blankRanges.any (fun s => s.1 ≤ c.toNat && c.toNat ≤ s.2) = true := by
    simpa [isBlank, blankRanges, Nat.eq_iff_le_and_ge, or_assoc, and_comm] using h
  simpa only [List.any_eq_true, Bool.and_eq_true, decide_eq_true_eq] using hany

/-- Whether a closed range of code points has no blank.  The ranges above the last blank, which are
most of a table, are told by one comparison. -/
def hasNoBlank (r : Nat × Nat) : Bool :=
  Nat.blt 0x3000 r.1 || blankRanges.all fun s => Nat.blt r.2 s.1 || Nat.blt s.2 r.1

/-- A blank is in no table whose ranges have no blank. -/
theorem inRanges_blank {c : Char} (h : isBlank c = true) {ranges : Array (Nat × Nat)}
    (hranges : ranges.toList.all hasNoBlank = true) : inRanges ranges c = false := by
  rw [inRanges, ← Array.any_toList]
  refine List.any_eq_false.2 fun r hr hin => ?_
  obtain ⟨s, hs, hlow, hhigh⟩ := exists_blankRange h
  have hlast : s.2 ≤ 0x3000 := by
    have hall : ∀ s ∈ blankRanges, s.2 ≤ 0x3000 := by decide
    exact hall s hs
  have hclear := List.all_eq_true.1 hranges r hr
  simp only [hasNoBlank, Bool.or_eq_true, List.all_eq_true, Nat.blt_eq] at hclear
  simp only [Bool.and_eq_true, decide_eq_true_eq] at hin
  rcases hclear with hclear | hclear
  · omega
  · rcases hclear s hs with hclear | hclear <;> omega

/-- A blank is no letter and no numeral. -/
theorem isAlphanumeric_blank {c : Char} (h : isBlank c = true) : isAlphanumeric c = false := by
  have hletters : inRanges alphabeticRanges c = false := inRanges_blank h (by decide +kernel)
  have hnumerals : inRanges numericRanges c = false := inRanges_blank h (by decide +kernel)
  have hascii : c.toNat < 128 → c.isAlpha = false ∧ c.isDigit = false := by
    intro hlt
    obtain ⟨s, hs, hlow, hhigh⟩ := exists_blankRange h
    have hsplit : ∀ s ∈ blankRanges, s.2 ≤ 32 ∨ 128 ≤ s.1 := by decide
    have hcontrol : c.toNat ≤ 32 := by
      rcases hsplit s hs with hlast | hfirst
      · exact Nat.le_trans hhigh hlast
      · exact absurd (Nat.lt_of_lt_of_le hlt hfirst) (Nat.not_lt.2 hlow)
    simp only [← Bool.not_eq_true, isAlpha_iff, isDigit_iff]
    omega
  rw [isAlphanumeric, isAlphabetic, isNumeric]
  split
  next hlt => simp [hascii hlt]
  next => rw [hletters, hnumerals]; rfl

/-- No blank goes on with a word. -/
theorem not_isBlank_of_continuesWord {c : Char} (h : continuesWord c = true) :
    isBlank c = false := by
  refine Bool.eq_false_iff.2 fun hblank => ?_
  have hother : ∀ d, isBlank d = false → (c == d) = false := by
    intro d hd
    refine beq_eq_false_iff_ne.2 ?_
    rintro rfl
    rw [hd] at hblank
    cases hblank
  simp only [continuesWord, isAlphanumeric_blank hblank, hother '_' (by decide),
    hother '$' (by decide), hother '.' (by decide), hother '\\' (by decide)] at h
  cases h

/-- A text between characters that are not blank has nothing to trim. -/
theorem trim_eq_self {c d : Char} {cs : List Char} (hc : isBlank c = false)
    (hlast : (c :: cs).getLast? = some d) (hd : isBlank d = false) : trim (c :: cs) = c :: cs := by
  have hstart : trimStart (c :: cs) = c :: cs := List.dropWhile_cons_of_neg (Bool.eq_false_iff.1 hc)
  obtain ⟨front, hfront⟩ := List.getLast?_eq_some_iff.1 hlast
  rw [trim, hstart, trimEnd, hfront, List.reverse_concat,
    List.dropWhile_cons_of_neg (Bool.eq_false_iff.1 hd), List.reverse_cons, List.reverse_reverse]

/-- A text without blanks has nothing to trim. -/
theorem trim_of_forall {cs : List Char} (h : ∀ c ∈ cs, isBlank c = false) : trim cs = cs := by
  cases cs with
  | nil => rfl
  | cons c rest =>
      have hlast := List.getLast?_eq_some_getLast (List.cons_ne_nil c rest)
      exact trim_eq_self (h c List.mem_cons_self) hlast (h _ (List.getLast_mem _))

/-! ## Words -/

/-- What starts a word goes on with one. -/
theorem continuesWord_of_startsWord {c : Char} (h : startsWord c = true) :
    continuesWord c = true := by
  simp only [startsWord, continuesWord, isAlphanumeric, Bool.or_eq_true] at h ⊢
  rcases h with ((h | h) | h) | h <;> simp [h]

theorem startsWord_of_isAlpha {c : Char} (h : c.isAlpha = true) : startsWord c = true := by
  have hcode : c.toNat < 128 := by
    rcases isAlpha_iff.1 h with h | h <;> omega
  simp [startsWord, isAlphabetic_of_lt hcode, h]

/-- Whether a text is formed as a word. -/
def isIdentifier : List Char → Bool
  | [] => false
  | c :: rest => startsWord c && rest.all continuesWord

theorem isIdentifier_cons {c : Char} {rest : List Char} :
    isIdentifier (c :: rest) = true ↔
      startsWord c = true ∧ ∀ d ∈ rest, continuesWord d = true := by
  simp [isIdentifier]

/-! ## Digits and symbols -/

/-- The digits. -/
def digitChars : List Char := ['0', '1', '2', '3', '4', '5', '6', '7', '8', '9']

theorem mem_digitChars {c : Char} (h : c.isDigit = true) : c ∈ digitChars := by
  have hcode : 48 ≤ c.toNat ∧ c.toNat ≤ 57 := isDigit_iff.1 h
  have hall : ∀ n, n ≤ 57 → 48 ≤ n → Char.ofNat n ∈ digitChars := by decide
  simpa using hall c.toNat hcode.2 hcode.1

theorem continuesWord_of_isDigit {c : Char} (h : c.isDigit = true) : continuesWord c = true := by
  have hall : ∀ c ∈ digitChars, continuesWord c = true :=
    List.all_iff_forall_prop.1 (by decide)
  exact hall c (mem_digitChars h)

/-- The characters that start something else than a word. -/
def wordless : List Char :=
  ['+', '-', '*', '/', '^', '&', '=', '%', ':', ',', ';', '(', ')', '\x7b', '\x7d', '<', '>', '"', '\'',
    '.', '#'] ++ digitChars

theorem not_startsWord_of_mem : ∀ c ∈ wordless, startsWord c = false :=
  List.all_iff_forall_prop.1 (by decide)

/-- A character that starts a word starts nothing else. -/
theorem not_mem_wordless {c : Char} (h : startsWord c = true) : c ∉ wordless := by
  intro hc
  rw [not_startsWord_of_mem c hc] at h
  cases h

/-! ## Delimiters -/

/-- The characters that may follow an operand. -/
def delimiters : List Char :=
  ['+', '-', '*', '/', '^', '&', '=', '<', '>', '%', ',', ';', ':', ')', '\x7d']

/-- What follows an operand is nothing or starts with a delimiter. -/
def Delimited (rest : List Char) : Prop := ∀ c ∈ rest.head?, c ∈ delimiters

theorem Delimited.nil : Delimited [] := by
  intro c hc
  cases hc

theorem Delimited.cons {c : Char} (h : c ∈ delimiters) (rest : List Char) :
    Delimited (c :: rest) := by
  intro d hd
  cases hd
  exact h

theorem continuesWord_delimiter : ∀ c ∈ delimiters, continuesWord c = false :=
  List.all_iff_forall_prop.1 (by decide)

end PaintQuote.Formula
