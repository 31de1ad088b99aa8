import PaintQuote.Formula.Functions.Arguments
import PaintQuote.Formula.Functions.NumberFormat
import PaintQuote.Text.Case

/-!
# Text functions

Taking texts apart and putting them together, their case, and the way between texts and numbers.
Positions and lengths count characters.
-/

namespace PaintQuote.Formula.Functions

open Sheet Text

/-! ## Parts -/

/-- A number of characters. -/
def characterCount (n : Int) : Except FormulaError Nat :=
  if n < 0 then .error (.type ("Character count " ++ toString n ++ " is negative"))
  else .ok n.toNat

/-- The number of characters that an argument says, or one. -/
def countOrOne (v : Option Value) : Except FormulaError Nat := do
  let n ← wholeOrDefault v 1
  characterCount n

/-- A text as a value. -/
def textValue (cs : List Char) : Value := .text (String.ofList cs)

/-- The number of characters. -/
def textLength (v : Value) : Answer := (textArgument v).map fun s => countValue s.length

/-- The first characters. -/
def leftPart (v : Value) (count : Option Value) : Answer := do
  let s ← textArgument v
  let n ← countOrOne count
  .ok (textValue (s.toList.take n))

/-- The last characters. -/
def rightPart (v : Value) (count : Option Value) : Answer := do
  let s ← textArgument v
  let n ← countOrOne count
  .ok (textValue (s.toList.drop (s.length - n)))

/-- The characters from a position on, which counts from one. -/
def middlePart (v start count : Value) : Answer := do
  let s ← textArgument v
  let first ← countOrOne (some start)
  if first = 0 then .error (.type "MID start must be at least 1")
  else
    let n ← countOrOne (some count)
    .ok (textValue ((s.toList.drop (first - 1)).take n))

/-! ## Forms -/

/-- The text in upper case. -/
def upperCase (v : Value) : Answer := (textArgument v).map fun s => .text (upper s)

/-- The text in lower case. -/
def lowerCase (v : Value) : Answer := (textArgument v).map fun s => .text (lower s)

/-- The words of a text with one space between them. -/
def spaced (v : Value) : Answer := (textArgument v).map fun s => textValue (joinWords s.toList)

/-! ## Joining -/

/-- The texts of single values, one after the other. -/
def concatenation (vs : List Value) : Answer := (vs.mapM textArgument).map fun ss =>
  .text (String.join ss)

/-- The texts of all cells, one after the other; the first error is the answer. -/
def joinedCells (vs : List Value) : Answer :=
  let cells := vs.flatMap Value.cells
  match cells.findSome? CellValue.error? with
  | some e => .ok (.error e)
  | none => .ok (.text (String.join (cells.map CellValue.toText)))

/-- Whether two texts are equal, letter by letter. -/
def identical (v w : Value) : Answer := do
  let s ← textArgument v
  let t ← textArgument w
  .ok (.boolean (s == t))

/-! ## Numbers -/

/-- The number written in a text that may have dollar signs in front and commas. -/
def amount? (s : String) : Option Decimal :=
  Decimal.readNumeric? (((trim s.toList).dropWhile (· == '$')).filter (· != ','))

/-- The number that a value says. -/
def numberFromText (v : Value) : Answer :=
  match v with
  | .number n => .ok (.number n)
  | .empty => .ok (.number 0)
  | .error e => .ok (.error e)
  | .text s =>
      match amount? s with
      | some n => .ok (.number n)
      | none => .error (.type ("\"" ++ s ++ "\" is not a number"))
  | v => .error (.type ("Cannot convert " ++ v.describe ++ " to number"))

/-- The text of a number in a format. -/
def formatted (format : String) (n : Decimal) : Answer :=
  match (NumberFormat.ofChars? format.toList).bind (·.format? n) with
  | some s => .ok (.text s)
  | none => .error (.type ("Unsupported number format \"" ++ format ++ "\""))

/-- The first argument in the format that the second says; a text that is no number stays. -/
def textFromNumber (v format : Value) : Answer := do
  let f ← textArgument format
  match v with
  | .text s =>
      match Decimal.readNumeric? s.toList with
      | some n => formatted f n
      | none => .ok (.text s)
  | v =>
      let n ← v.toNumber
      formatted f n

end PaintQuote.Formula.Functions
