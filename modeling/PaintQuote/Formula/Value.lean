import PaintQuote.Formula.Error
import PaintQuote.Sheet.CellValue
import PaintQuote.Text.Blank

/-!
# Values of formulas

What a formula evaluates to: the value of a cell, or an array of such values, which is what a range
or an array constant gives.  The conversions below are those of operators and functions; one that
can fail says why in a `FormulaError`.
-/

namespace PaintQuote.Formula

open Sheet

/-- The value of a formula. -/
inductive Value where
  /-- The value of a cell. -/
  | scalar (v : CellValue)
  /-- The values of several cells, row by row. -/
  | array (rows : List (List CellValue))
deriving DecidableEq, Repr

namespace Value

/-- Nothing. -/
@[match_pattern] abbrev empty : Value := scalar .empty

/-- A number. -/
@[match_pattern] abbrev number (n : Decimal) : Value := scalar (.number n)

/-- A text. -/
@[match_pattern] abbrev text (s : String) : Value := scalar (.text s)

/-- A logical value. -/
@[match_pattern] abbrev boolean (b : Bool) : Value := scalar (.boolean b)

/-- An error. -/
@[match_pattern] abbrev error (e : ErrorValue) : Value := scalar (.error e)

instance : Inhabited Value := ⟨empty⟩

/-! ## Views -/

/-- The error that a value is. -/
def error? : Value → Option ErrorValue
  | error e => some e
  | _ => none

/-- Whether a value is an error. -/
def isError (v : Value) : Bool := v.error?.isSome

/-- Whether a value is an error or an array with an error in it. -/
def carriesError : Value → Bool
  | scalar v => v.error?.isSome
  | array rows => rows.flatten.any fun v => v.error?.isSome

/-- The cells of a value, row by row. -/
def cells : Value → List CellValue
  | scalar v => [v]
  | array rows => rows.flatten

/-- The rows of a value; a single value is one row of one cell. -/
def grid : Value → List (List CellValue)
  | scalar v => [[v]]
  | array rows => rows

/-- The numbers of rows and columns of a grid. -/
def dimensions (rows : List (List CellValue)) : Nat × Nat := (rows.length, (rows.headD []).length)

/-- The value of a cell that holds a formula with this value: an array of one cell is that cell, and
no other array fits into a cell. -/
def toCell : Value → CellValue
  | scalar v => v
  | array [[v]] => v
  | array _ => .error .value

/-- Whether two rows have the same values. -/
def agreeRow : List CellValue → List CellValue → Bool
  | [], [] => true
  | v :: vs, w :: ws => v.agrees w && agreeRow vs ws
  | _, _ => false

/-- Whether two lists of rows have the same values. -/
def agreeRows : List (List CellValue) → List (List CellValue) → Bool
  | [], [] => true
  | r :: rs, q :: qs => agreeRow r q && agreeRows rs qs
  | _, _ => false

/-- Whether two values are the same, whatever the scales and signs of zero of their numbers. -/
def agrees : Value → Value → Bool
  | scalar v, scalar w => v.agrees w
  | array rows, array rows' => agreeRows rows rows'
  | _, _ => false

/-! ## Conversions -/

/-- How a value is spoken of. -/
def describe : Value → String
  | number n => "number " ++ n.toPlain
  | text s => "text \"" ++ s ++ "\""
  | boolean b => "logical " ++ CellValue.booleanText b
  | error e => "error " ++ e.literal
  | empty => "empty cell"
  | array _ => "range"

/-- The number that a value counts as in arithmetic; numeric text counts, and so does nothing. -/
def number? : Value → Option Decimal
  | number n => some n
  | boolean b => some (if b then 1 else 0)
  | text s => Decimal.readNumeric? s.toList
  | empty => some 0
  | _ => none

/-- The number that a value counts as in arithmetic, or why there is none. -/
def toNumber (v : Value) : Except FormulaError Decimal :=
  match v with
  | error e => .error (.errorValue e)
  | array _ => .error (.type "Expected a single value, got a range")
  | v =>
      match v.number? with
      | some n => .ok n
      | none => .error (.type ("Cannot convert " ++ v.describe ++ " to number"))

/-- The logical value that a value counts as in a condition. -/
def bool? : Value → Option Bool
  | boolean b => some b
  | number n => some !n.isZero
  | text s => CellValue.booleanOfText? s
  | empty => some false
  | _ => none

/-- The logical value that a value counts as in a condition, or why there is none. -/
def toBool (v : Value) : Except FormulaError Bool :=
  match v with
  | error e => .error (.errorValue e)
  | v =>
      match v.bool? with
      | some b => .ok b
      | none => .error (.type ("Cannot convert " ++ v.describe ++ " to a logical"))

/-- The text that a value counts as. -/
def toText : Value → String
  | scalar v => v.toText
  | array _ => ErrorValue.value.literal

example : (array [[.boolean true]]).toCell = .boolean true := rfl
example : (text " 5% ").number? = some (Decimal.scaled 5 2) := by decide +kernel

end Value

end PaintQuote.Formula
