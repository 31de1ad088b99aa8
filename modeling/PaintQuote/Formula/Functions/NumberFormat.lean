import PaintQuote.Decimal.Text
import PaintQuote.Text.Cut

/-!
# Number formats

Formats such as `0`, `0.00`, `#,##0.00`, `$#,##0` and `0.0%`: a text in front, a whole part that may
ask for commas, as many places as there are zeros after the point, and perhaps a percent sign, which
multiplies the number by a hundred.
-/

namespace PaintQuote.Formula.Functions

open Text

/-- A way to write numbers. -/
structure NumberFormat where
  /-- The text in front of the digits. -/
  lead : List Char
  /-- The number of places. -/
  places : Nat
  /-- Whether thousands are set off by commas. -/
  grouping : Bool
  /-- Whether the number is written as a percentage. -/
  percent : Bool
deriving DecidableEq, Repr

namespace NumberFormat

/-- Whether a character stands for a digit. -/
def isDigitMark (c : Char) : Bool := c == '0' || c == '#'

/-- The format written in a text. -/
def ofChars? (cs : List Char) : Option NumberFormat :=
  let lead := cs.takeWhile (!isDigitMark ·)
  let marks := cs.drop lead.length
  let body := (beforeEnd? '%' marks).getD marks
  let (whole, fraction) := (cutFirst? '.' body).getD (body, [])
  if marks.isEmpty || !whole.all (fun c => isDigitMark c || c == ',') || !fraction.all (· == '0')
      || lead.any Char.isAlphanum then
    none
  else some ⟨lead, fraction.length, whole.contains ',', (beforeEnd? '%' marks).isSome⟩

/-- The digits of a whole number with a comma before every three digits from the end, except at the
start. -/
def grouped : List Char → List Char
  | [] => []
  | c :: rest =>
      if rest.length % 3 = 0 ∧ rest ≠ [] then c :: ',' :: grouped rest else c :: grouped rest

/-- The sign of a number, if it is below zero. -/
def minus (n : Decimal) : List Char := if n.negative && !n.isZero then ['-'] else []

/-- The text of a number that has been rounded. -/
def write (f : NumberFormat) (n : Decimal) : List Char :=
  let (whole, fraction) := n.toFixed f.places
  minus n ++ f.lead ++ Decimal.pointed (if f.grouping then grouped whole else whole) fraction
    ++ (if f.percent then ['%'] else [])

/-- The text of a number; there is none for a percentage that is too large. -/
def format? (f : NumberFormat) (n : Decimal) : Option String :=
  let n? := if f.percent then n.mul? 100 else some n
  n?.map fun n => String.ofList (f.write (n.round f.places .halfAway))

example : (ofChars? "$#,##0.00".toList).bind (·.format? (-(Decimal.scaled 12345678 3))) =
    some "-$12,345.68" := by decide +kernel
example : (ofChars? "0.0%".toList).bind (·.format? (Decimal.scaled 725 4)) = some "7.3%" := by
  decide +kernel
example : ofChars? "abc0".toList = none := by decide

end NumberFormat

end PaintQuote.Formula.Functions
