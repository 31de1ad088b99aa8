import PaintQuote.Binary64.Decimal
import PaintQuote.Binary64.Text
import PaintQuote.Json.Basic
import PaintQuote.Sheet.CellValue

/-!
# Interchange of cell values

Cell values from binary numbers, and as JSON.  Both give up something: a binary number keeps its
leading digits only, and in JSON numbers and errors are texts as they are shown.
-/

namespace PaintQuote.Sheet.CellValue

/-- The value for a binary number; one that is too large for a decimal is a number error. -/
def ofBinary64 (x : Binary64) : CellValue :=
  match Decimal.ofBinary64? x with
  | some n => number n
  | none => error .number

/-- The value for what a text says of a binary number, if it says anything. -/
def ofReading? : Binary64.Reading → Option CellValue
  | .malformed => none
  | .special => some (error .number)
  | .finite x => some (ofBinary64 x)

/-- The value in JSON. -/
def toJson : CellValue → Json
  | empty => .null
  | boolean b => .boolean b
  | v => .string v.toText

end PaintQuote.Sheet.CellValue
