import PaintQuote.Decimal.Text
import PaintQuote.Sheet.ErrorValue

/-!
# Cell values

What a cell holds or shows.  `agrees` is sameness of values, in which numbers are compared by value;
equality also tells `1.5` from `1.50`.
-/

namespace PaintQuote.Sheet

/-- The value of a cell. -/
inductive CellValue where
  /-- Nothing. -/
  | empty
  /-- A logical value. -/
  | boolean (b : Bool)
  /-- A number. -/
  | number (n : Decimal)
  /-- A text. -/
  | text (s : String)
  /-- An error. -/
  | error (e : ErrorValue)
deriving DecidableEq, Repr

namespace CellValue

instance : Inhabited CellValue := ⟨empty⟩

/-- Whether two values are the same, whatever the scales and signs of zero of their numbers. -/
def agrees : CellValue → CellValue → Bool
  | number m, number n => m.same n
  | number _, _ => false
  | v, w => v == w

@[simp] theorem agrees_self (v : CellValue) : v.agrees v := by
  cases v <;> simp [agrees]

/-- The value with its number in normal form. -/
def normalize : CellValue → CellValue
  | number n => number n.normalize
  | v => v

/-- The number that a value is; a logical value is one or zero. -/
def toNumber? : CellValue → Option Decimal
  | number n => some n
  | boolean b => some (if b then 1 else 0)
  | _ => none

/-- The logical value that a value is; a number is true unless it is zero. -/
def toBool? : CellValue → Option Bool
  | boolean b => some b
  | number n => some !n.isZero
  | _ => none

/-- The error that a value is. -/
def error? : CellValue → Option ErrorValue
  | error e => some e
  | _ => none

/-- The name of the kind of a value. -/
def kind : CellValue → String
  | empty => "empty"
  | boolean _ => "boolean"
  | number _ => "number"
  | text _ => "text"
  | error _ => "error"

/-- The literal of a logical value. -/
def booleanText (b : Bool) : String := if b then "TRUE" else "FALSE"

/-- The value as it is shown. -/
def toText : CellValue → String
  | empty => ""
  | boolean b => booleanText b
  | number n => n.toPlain
  | text s => s
  | error e => e.literal

/-- The logical value with the given literal, in any case. -/
def booleanOfText? (s : String) : Option Bool :=
  if Text.sameAsciiCase s "TRUE" then some true
  else if Text.sameAsciiCase s "FALSE" then some false
  else none

end CellValue

end PaintQuote.Sheet
