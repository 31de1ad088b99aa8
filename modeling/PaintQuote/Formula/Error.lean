import PaintQuote.Sheet.ErrorValue

/-!
# Errors of formulas

What can be wrong with a formula, when it is read and when it is evaluated.  None of these stops
anything: each has an error value (`cellError`) that takes the place of the result, and is kept
beside it as the explanation.
-/

namespace PaintQuote.Formula

open Sheet

/-- What is wrong with a formula. -/
inductive FormulaError where
  /-- The text cannot be read; the position counts the bytes of the formula before the fault. -/
  | parse (position : Nat) (message : String)
  /-- A function that does not exist. -/
  | unknownFunction (function : String)
  /-- A name that is not defined. -/
  | unknownName (name : String)
  /-- A function with too few or too many arguments. -/
  | argumentCount (function expected : String) (actual : Nat)
  /-- Cells that depend on themselves. -/
  | circularReference (cells : String)
  /-- A reference to nothing. -/
  | invalidReference (message : String)
  /-- A value of the wrong kind. -/
  | type (message : String)
  /-- A division by zero. -/
  | divisionByZero
  /-- An error that the formula produced itself. -/
  | errorValue (e : ErrorValue)
  /-- An error that came from a cell. -/
  | propagated (cell : String) (e : ErrorValue)
deriving DecidableEq, Repr

namespace FormulaError

/-- The error that a cell holds for this error. -/
def cellError : FormulaError → ErrorValue
  | parse _ _ => .formula
  | unknownFunction _ | unknownName _ => .name
  | argumentCount _ _ _ | type _ => .value
  | circularReference _ => .circular
  | invalidReference _ => .reference
  | divisionByZero => .divisionByZero
  | errorValue e | propagated _ e => e

/-- The wording of an error. -/
def message : FormulaError → String
  | parse position text => "Parse error at position " ++ toString position ++ ": " ++ text
  | unknownFunction function => "Unknown function: " ++ function
  | unknownName name => "Unknown name: " ++ name
  | argumentCount function expected actual =>
      "Wrong number of arguments for " ++ function ++ ": expected " ++ expected ++ ", got "
        ++ toString actual
  | circularReference cells => "Circular reference involving " ++ cells
  | invalidReference text => "Invalid reference: " ++ text
  | type text => "Type mismatch: " ++ text
  | divisionByZero => "Division by zero"
  | errorValue e => "Formula evaluated to " ++ e.literal
  | propagated cell e => e.literal ++ " propagated from " ++ cell

end FormulaError

end PaintQuote.Formula
