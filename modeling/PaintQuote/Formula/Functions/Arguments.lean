import PaintQuote.Formula.Function

/-!
# Reading arguments

How functions take numbers, words and texts from their arguments.  A single argument is converted as
an operand would be.  Inside a range only what already is a number or a logical value counts, and
the first error found is the answer.
-/

namespace PaintQuote.Formula

open Sheet

/-! ## One argument -/

/-- A number that has no decimal is a number error. -/
def orNumberError {α : Type} (a : Option α) : Except FormulaError α :=
  match a with
  | some a => .ok a
  | none => .error (.errorValue .number)

/-- The number of an argument that may be left out. -/
def numberOrDefault (v : Option Value) (otherwise : Decimal) : Except FormulaError Decimal :=
  match v with
  | some v => v.toNumber
  | none => .ok otherwise

/-- The whole number of an argument, cut off toward zero. -/
def wholeNumber (v : Value) : Except FormulaError Int := do
  let n ← v.toNumber
  orNumberError n.trunc.toInt64?

/-- The whole number of an argument that may be left out. -/
def wholeOrDefault (v : Option Value) (otherwise : Int) : Except FormulaError Int :=
  match v with
  | some v => wholeNumber v
  | none => .ok otherwise

/-- The text of an argument; an array has none. -/
def textArgument (v : Value) : Except FormulaError String :=
  match v with
  | .error e => .error (.errorValue e)
  | .array _ => .error (.type "Expected text, got a range")
  | .scalar v => .ok v.toText

/-- The first error among arguments. -/
def firstError? (vs : List Value) : Option ErrorValue := vs.findSome? Value.error?

/-! ## Many arguments -/

/-- The numbers among cells. -/
def cellNumbers : List CellValue → Except FormulaError (List Decimal)
  | [] => .ok []
  | .number n :: vs => (cellNumbers vs).map (n :: ·)
  | .error e :: _ => .error (.errorValue e)
  | _ :: vs => cellNumbers vs

/-- The numbers of arguments; nothing is passed over, and a single argument has to be a number. -/
def numbers : List Value → Except FormulaError (List Decimal)
  | [] => .ok []
  | .array rows :: vs => do
      let ns ← cellNumbers rows.flatten
      let ms ← numbers vs
      .ok (ns ++ ms)
  | .empty :: vs => numbers vs
  | v :: vs => do
      let n ← v.toNumber
      let ns ← numbers vs
      .ok (n :: ns)

/-- The logical values among cells; a number is one too. -/
def cellLogicals : List CellValue → Except FormulaError (List Bool)
  | [] => .ok []
  | .boolean b :: vs => (cellLogicals vs).map (b :: ·)
  | .number n :: vs => (cellLogicals vs).map ((!n.isZero) :: ·)
  | .error e :: _ => .error (.errorValue e)
  | _ :: vs => cellLogicals vs

/-- The logical values of arguments; nothing is passed over, and a single argument has to be a
logical value. -/
def logicalsFrom : List Value → Except FormulaError (List Bool)
  | [] => .ok []
  | .array rows :: vs => do
      let bs ← cellLogicals rows.flatten
      let cs ← logicalsFrom vs
      .ok (bs ++ cs)
  | .empty :: vs => logicalsFrom vs
  | v :: vs => do
      let b ← v.toBool
      let bs ← logicalsFrom vs
      .ok (b :: bs)

/-- The logical values of arguments, of which there has to be one. -/
def logicals (vs : List Value) : Except FormulaError (List Bool) := do
  let bs ← logicalsFrom vs
  if bs.isEmpty then .error (.type "No logical values to evaluate") else .ok bs

/-! ## Sums -/

/-- The sum of numbers, taken from the left. -/
def sumOf (ns : List Decimal) : Option Decimal := ns.foldlM Decimal.add? 0

/-- The mean of numbers, of which there has to be one. -/
def meanOf (ns : List Decimal) : Answer :=
  if ns.isEmpty then .error .divisionByZero
  else do
    let sum ← orNumberError (sumOf ns)
    let mean ← orNumberError (sum.div? (.ofNat ns.length))
    .ok (.number mean)

/-- A count as a value. -/
def countValue (n : Nat) : Value := .number (.ofNat n)

end PaintQuote.Formula
