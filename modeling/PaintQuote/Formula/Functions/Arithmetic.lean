import PaintQuote.Decimal.Remainder
import PaintQuote.Formula.Functions.Arguments
import PaintQuote.Formula.Operator

/-!
# Arithmetic functions

Sums and products over arguments, roundings to places and to multiples, remainders, powers and
roots.  Rounding to places with a negative number of them rounds to tens, hundreds and so on.
-/

namespace PaintQuote.Formula.Functions

open Sheet

/-! ## Totals -/

/-- The sum of the numbers. -/
def sum (vs : List Value) : Answer := do
  let ns ← numbers vs
  let total ← orNumberError (sumOf ns)
  .ok (.number total)

/-- The product of the numbers; without any, zero. -/
def product (vs : List Value) : Answer := do
  let ns ← numbers vs
  if ns.isEmpty then .ok (.number 0) else numberOr (ns.foldlM Decimal.mul? 1)

/-- The mean of the numbers. -/
def average (vs : List Value) : Answer := do
  let ns ← numbers vs
  meanOf ns

/-- The smaller of two numbers; of two equal ones, the first. -/
def smaller (a b : Decimal) : Decimal := if a.compare b = .gt then b else a

/-- The greater of two numbers; of two equal ones, the second. -/
def greater (a b : Decimal) : Decimal := if a.compare b = .gt then a else b

/-- The number that remains when pairs of numbers are merged from the left; without any, zero. -/
def mergeNumbers (merge : Decimal → Decimal → Decimal) : List Decimal → Decimal
  | [] => 0
  | n :: ns => ns.foldl merge n

/-- The smallest of the numbers. -/
def minimum (vs : List Value) : Answer :=
  (numbers vs).map fun ns => .number (mergeNumbers smaller ns)

/-- The greatest of the numbers. -/
def maximum (vs : List Value) : Answer :=
  (numbers vs).map fun ns => .number (mergeNumbers greater ns)

/-! ## Sums of products -/

/-- A number, or the answer that ends a computation early. -/
abbrev Early (α : Type) := Except Answer α

/-- A number, or a number error as the answer. -/
def earlyNumber (n : Option Decimal) : Early Decimal :=
  match n with
  | some n => .ok n
  | none => .error (.error (.errorValue .number))

/-- The value at a place of a grid. -/
def valueAt (grid : List (List CellValue)) (row column : Nat) : CellValue :=
  ((grid[row]?).bind fun r => r[column]?).getD .empty

/-- A product with a further factor; what is no number makes it zero, and an error is the answer. -/
def timesValue (total : Decimal) : CellValue → Early Decimal
  | .number n => earlyNumber (total.mul? n)
  | .error e => .error (.ok (.error e))
  | _ => .ok 0

/-- The product of the values at one place of several grids. -/
def productAt (grids : List (List (List CellValue))) (row column : Nat) : Early Decimal :=
  grids.foldlM (fun total grid => timesValue total (valueAt grid row column)) 1

/-- The sum of the products at all places. -/
def sumOfProducts (grids : List (List (List CellValue))) (rows columns : Nat) : Early Decimal :=
  ((List.range rows).flatMap fun row => (List.range columns).map fun column => (row, column)).foldlM
    (fun total place => do
      let p ← productAt grids place.1 place.2
      earlyNumber (total.add? p))
    0

/-- The sum of the products of values at the same place of arrays of one shape. -/
def sumProduct (vs : List Value) : Answer :=
  let grids := vs.map Value.grid
  let shape := Value.dimensions (grids.headD [])
  if grids.any fun g => Value.dimensions g != shape then
    .error (.type "SUMPRODUCT arrays must have the same dimensions")
  else
    match sumOfProducts grids shape.1 shape.2 with
    | .ok total => .ok (.number total)
    | .error answer => answer

/-! ## Places -/

/-- A number rounded to places; a negative number of places counts to the left of the point. -/
def roundTo (rule : Decimal.Rounding) (n : Decimal) (places : Int) : Option Decimal :=
  if 0 ≤ places then some (n.round (min places.toNat Decimal.maxScale) rule)
  else if places < -28 then some 0
  else do
    let unit ← (10 : Decimal).powNat? places.natAbs
    let units ← n.div? unit
    (units.round 0 rule).mul? unit

/-- The first argument rounded to the places that the second says. -/
def roundBy (rule : Decimal.Rounding) (v places : Value) : Answer := do
  let n ← v.toNumber
  let d ← wholeNumber places
  numberOr (roundTo rule n d)

/-- The first argument cut off after the places that the second says, or after none. -/
def truncate (v : Value) (places : Option Value) : Answer := do
  let n ← v.toNumber
  let d ← wholeOrDefault places 0
  numberOr (roundTo .towardZero n d)

/-- The greatest whole number not above a number. -/
def integer (v : Value) : Answer := v.toNumber.map fun n => .number n.floor

/-! ## Multiples -/

/-- A number of units as a multiple of a step. -/
def snap (n step : Decimal) (units : Decimal → Decimal) : Answer := do
  let quotient ← orNumberError (n.div? step)
  numberOr ((units quotient).mul? step)

/-- Whether a positive number meets a step with a minus. -/
def signsClash (n step : Decimal) : Bool := n.isPositive && step.negative

/-- The nearest multiple, a tie going away from zero; both numbers need one sign. -/
def nearestMultiple (v multiple : Value) : Answer := do
  let n ← v.toNumber
  let step ← multiple.toNumber
  if step.isZero then .ok (.number 0)
  else if !n.isZero && n.negative != step.negative then .error (.errorValue .number)
  else snap n step (·.round 0 .halfAway)

/-- The multiple of a significance at or above a number, or below it if the significance is
negative. -/
def ceiling (v significance : Value) : Answer := do
  let n ← v.toNumber
  let step ← significance.toNumber
  if signsClash n step then .error (.errorValue .number)
  else if step.isZero then .ok (.number 0)
  else snap n step Decimal.ceil

/-- The multiple of a significance at or below a number, or above it if the significance is
negative. -/
def floor (v significance : Value) : Answer := do
  let n ← v.toNumber
  let step ← significance.toNumber
  if signsClash n step then .error (.errorValue .number)
  else if step.isZero then
    if n.isZero then .ok (.number 0) else .error .divisionByZero
  else snap n step Decimal.floor

/-- The multiple of a significance next to a number, by one rule, or by another for a negative
number if the mode is not zero.  The sign of the significance does not count. -/
def multipleBy (usual reversed : Decimal → Decimal) (v : Value) (significance mode : Option Value) :
    Answer := do
  let n ← v.toNumber
  let step ← numberOrDefault significance 1
  let mode ← numberOrDefault mode 0
  if step.isZero then .ok (.number 0)
  else snap n step.abs (if n.negative && !mode.isZero then reversed else usual)

/-- The multiple at or above a number. -/
def ceilingMath : Value → Option Value → Option Value → Answer :=
  multipleBy Decimal.ceil Decimal.floor

/-- The multiple at or below a number. -/
def floorMath : Value → Option Value → Option Value → Answer :=
  multipleBy Decimal.floor Decimal.ceil

/-! ## Single numbers -/

/-- The remainder of a division, with the sign of the divisor. -/
def modulo (v divisor : Value) : Answer := do
  let n ← v.toNumber
  let d ← divisor.toNumber
  if d.isZero then .error .divisionByZero
  else
    let r ← orNumberError (n.rem? d)
    if !r.isZero && r.negative != d.negative then numberOr (r.add? d) else .ok (.number r)

/-- The magnitude of a number. -/
def absolute (v : Value) : Answer := v.toNumber.map fun n => .number n.abs

/-- The first argument to the power of the second. -/
def powerOf (base exponent : Value) : Answer := do
  let b ← base.toNumber
  let e ← exponent.toNumber
  power b e

/-- The square root of a number. -/
def squareRoot (v : Value) : Answer := do
  let n ← v.toNumber
  if n.negative && !n.isZero then .error (.errorValue .number) else numberOr n.sqrt?

/-- The sign of a number. -/
def sign (v : Value) : Answer := do
  let n ← v.toNumber
  match n.compare 0 with
  | .lt => .ok (.number (-1))
  | .eq => .ok (.number 0)
  | .gt => .ok (.number 1)

example : roundTo .halfAway (Decimal.scaled 2675 3) 2 = some (Decimal.scaled 268 2) := by
  decide +kernel
example : roundTo .halfAway 1250 (-2) = some 1300 := by decide +kernel

end PaintQuote.Formula.Functions
