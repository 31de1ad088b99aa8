import PaintQuote.Formula.Functions.Arguments

/-!
# Inspecting functions

Tests of the kind of a single value.  They look at errors as at any other value.
-/

namespace PaintQuote.Formula.Functions

open Sheet

/-- What a function makes of a single value; an array is refused. -/
def inspect (answer : CellValue → Value) : Value → Answer
  | .scalar v => .ok (answer v)
  | .array _ => .error (.type "Expected a single value, got a range")

/-- A test of a single value. -/
def testing (test : CellValue → Bool) : Value → Answer := inspect fun v => .boolean (test v)

/-- Whether a value is nothing. -/
def isBlank : Value → Answer := testing (· matches .empty)

/-- Whether a value is a number. -/
def isNumber : Value → Answer := testing (· matches .number _)

/-- Whether a value is a text. -/
def isText : Value → Answer := testing (· matches .text _)

/-- Whether a value is a logical value. -/
def isLogical : Value → Answer := testing (· matches .boolean _)

/-- Whether a value is an error. -/
def isError : Value → Answer := testing (· matches .error _)

/-- Whether a value is the error of what is not available. -/
def isNotAvailable : Value → Answer := testing (· matches .error .notAvailable)

/-- The error of what is not available. -/
def notAvailable : Answer := .ok (.error .notAvailable)

/-- The number of a value: a number is itself, truth is one, an error stays, and all else is
zero. -/
def numberOf : Value → Answer :=
  inspect fun
    | .number n => .number n
    | .boolean true => .number 1
    | .error e => .error e
    | _ => .number 0

end PaintQuote.Formula.Functions
