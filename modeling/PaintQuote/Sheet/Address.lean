import PaintQuote.Sheet.ReferenceError
import PaintQuote.Text.Blank
import PaintQuote.Text.Case
import PaintQuote.Text.Cut

/-!
# Addresses

The place of a cell on its sheet, and its text `B12`: the column as letters, the row as a number
from one.  Letters are the bijective numeral of base 26 (`A` is one, `Z` is 26, `AA` is 27).  A
dollar sign before either part marks it as absolute in a formula and says nothing about the place.
-/

namespace PaintQuote.Sheet

open Text

/-- The number of rows of a sheet. -/
def rowLimit : Nat := 1048576

/-- The number of columns of a sheet. -/
def columnLimit : Nat := 16384

/-- The place of a cell on its sheet, counted from zero. -/
structure Address where
  /-- The row. -/
  row : Nat
  /-- The column. -/
  column : Nat
deriving DecidableEq, Repr

/-! ## Columns -/

/-- The letter for a digit of base 26 from zero. -/
def columnLetter (digit : Nat) : Char := Char.ofNat ('A'.toNat + digit)

/-- The letters for a positive numeral, before letters already known. -/
def lettersBefore (number : Nat) (known : List Char) : List Char :=
  if number = 0 then known
  else lettersBefore ((number - 1) / 26) (columnLetter ((number - 1) % 26) :: known)
termination_by number
decreasing_by omega

/-- The letters of a column. -/
def columnLetters (column : Nat) : List Char := lettersBefore (column + 1) []

/-- The numeral of a letter, from one. -/
def letterValue (c : Char) : Nat := c.toUpper.toNat - 'A'.toNat + 1

/-- Reads letters onto the numeral of the letters before them; stops as soon as the numeral passes
the last column. -/
def readLetters (all : List Char) (number : Nat) : List Char → Except ReferenceError Nat
  | [] => .ok number
  | c :: rest =>
      if c.isAlpha then
        let next := number * 26 + letterValue c
        if columnLimit < next then
          .error (.column (String.ofList (upperChars all)) (columnLimit - 1))
        else readLetters all next rest
      else .error (.address (.badLetter c))

/-- The column with the given letters. -/
def columnOfLetters (letters : List Char) : Except ReferenceError Nat :=
  if letters.isEmpty then .error (.address .emptyLetters)
  else (readLetters letters 0 letters).map (· - 1)

/-! ## Rows -/

/-- The value of a run of decimal digits. -/
def numeral (digits : List Char) : Nat := digits.foldl (fun n c => n * 10 + (c.toNat - '0'.toNat)) 0

/-- The row with the given number from one; `text` is the text it stands in. -/
def rowOfDigits (text : String) (digits : List Char) : Except ReferenceError Nat :=
  if digits.isEmpty then .error (.address (.noRow text))
  else if !digits.all Char.isDigit || 0x100000000 ≤ numeral digits then
    .error (.address (.badRow text))
  else if numeral digits = 0 then .error (.address (.rowZero text))
  else if rowLimit < numeral digits then .error (.row (numeral digits - 1) (rowLimit - 1))
  else .ok (numeral digits - 1)

namespace Address

/-! ## Text -/

/-- The text of an address. -/
def chars (a : Address) : List Char := columnLetters a.column ++ Nat.toDigits 10 (a.row + 1)

/-- The text of an address. -/
def toText (a : Address) : String := String.ofList a.chars

/-- A text without one dollar sign at its start. -/
def afterDollar (cs : List Char) : List Char := (afterLead? ['$'] cs).getD cs

/-- The address written in a text without blanks at its ends. -/
def ofBody (body : List Char) : Except ReferenceError Address := do
  let text := String.ofList body
  if body.isEmpty then .error (.address .blank)
  let fromLetters := afterDollar body
  let letters := fromLetters.takeWhile Char.isAlpha
  if letters.isEmpty then .error (.address (.noLetters text))
  let column ← columnOfLetters letters
  let row ← rowOfDigits text (afterDollar (fromLetters.dropWhile Char.isAlpha))
  .ok ⟨row, column⟩

/-- The address written in a text. -/
def ofChars (cs : List Char) : Except ReferenceError Address := ofBody (trim cs)

/-- The address written in a text. -/
def ofText (s : String) : Except ReferenceError Address := ofChars s.toList

/-- Whether an address lies on a sheet. -/
def InBounds (a : Address) : Prop := a.row < rowLimit ∧ a.column < columnLimit

instance (a : Address) : Decidable a.InBounds := inferInstanceAs (Decidable (_ ∧ _))

/-! ## Order -/

/-- Addresses are ordered by row and then by column. -/
instance : Ord Address := ⟨fun a b => (compare a.row b.row).then (compare a.column b.column)⟩

example : (⟨11, 1⟩ : Address).toText = "B12" := by decide +kernel
example : (ofText " $xfd$1048576 ").toOption = some ⟨1048575, 16383⟩ := by decide +kernel
example : (ofText "A0").toOption = none := by decide +kernel
example : (⟨0, 26⟩ : Address).toText = "AA1" := by decide +kernel

end Address

end PaintQuote.Sheet
