import PaintQuote.Formula.Functions.Arguments
import PaintQuote.Formula.Functions.Criterion

/-!
# Counting and conditional functions

Counts of arguments, and sums, means and counts of the cells of a range that meet a condition.  The
cells to sum may stand in another range, where they are found at the same places; places that it
does not have are passed over.
-/

namespace PaintQuote.Formula.Functions

open Sheet

/-! ## Counts -/

/-- The number of numbers in an argument; a single argument may be what counts as a number. -/
def numberCount : Value → Nat
  | .array rows => (rows.flatten.filter fun v => v matches .number _).length
  | .number _ | .boolean _ => 1
  | .text s => if (Decimal.readNumeric? s.toList).isSome then 1 else 0
  | _ => 0

/-- The number of numbers. -/
def count (vs : List Value) : Answer :=
  .ok (countValue (vs.foldr (fun v n => numberCount v + n) 0))

/-- The number of values that are something, errors too. -/
def countFilled (vs : List Value) : Answer :=
  .ok (countValue ((vs.flatMap Value.cells).filter (· != .empty)).length)

/-- The number of cells that meet a condition. -/
def countIf (range criterion : Value) : Answer :=
  match range with
  | .error e => .ok (.error e)
  | range =>
      let c := Criterion.ofValue criterion
      .ok (countValue (range.cells.filter fun v => c.accepts (.scalar v)).length)

/-! ## Conditional totals -/

/-- The cells of one row at the places where another row meets a condition. -/
def selectedInRow (c : Criterion) : List CellValue → List CellValue → List CellValue
  | v :: vs, w :: ws =>
      if c.accepts (.scalar v) then w :: selectedInRow c vs ws else selectedInRow c vs ws
  | _, _ => []

/-- The cells of one grid at the places where another grid meets a condition, row by row. -/
def selected (c : Criterion) : List (List CellValue) → List (List CellValue) → List CellValue
  | row :: rows, values :: rest => selectedInRow c row values ++ selected c rows rest
  | _, _ => []

/-- The numbers among the cells that a condition on a range selects. -/
def selectedNumbers (range criterion : Value) (values : Option Value) :
    Except FormulaError (List Decimal) :=
  match range, values with
  | .error e, _ => .error (.errorValue e)
  | _, some (.error e) => .error (.errorValue e)
  | range, values =>
      cellNumbers (selected (Criterion.ofValue criterion) range.grid (values.getD range).grid)

/-- The sum of the selected numbers. -/
def sumIf (range criterion : Value) (values : Option Value) : Answer := do
  let ns ← selectedNumbers range criterion values
  let total ← orNumberError (sumOf ns)
  .ok (.number total)

/-- The mean of the selected numbers. -/
def averageIf (range criterion : Value) (values : Option Value) : Answer := do
  let ns ← selectedNumbers range criterion values
  meanOf ns

end PaintQuote.Formula.Functions
