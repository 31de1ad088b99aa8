import PaintQuote.Text.Case

/-!
# Error values

The errors that a cell can hold.  Each has a literal, under which it is typed and shown, and a code,
by which errors are ordered.  Literals are read in any case (`ofText?_literal`).
-/

namespace PaintQuote.Sheet

/-- An error that a cell can hold. -/
inductive ErrorValue where
  /-- An empty intersection of ranges. -/
  | null
  /-- A division by zero. -/
  | divisionByZero
  /-- An argument or operand of the wrong kind. -/
  | value
  /-- A reference to nothing. -/
  | reference
  /-- An unknown name or function. -/
  | name
  /-- A number out of range. -/
  | number
  /-- A value that is not available. -/
  | notAvailable
  /-- A failed calculation. -/
  | calculation
  /-- A cell that depends on itself. -/
  | circular
  /-- A formula that cannot be read. -/
  | formula
deriving DecidableEq, Repr

namespace ErrorValue

/-- All errors, in the order of their codes. -/
def all : List ErrorValue :=
  [null, divisionByZero, value, reference, name, number, notAvailable, calculation, circular,
    formula]

theorem mem_all (e : ErrorValue) : e ∈ all := by cases e <;> decide

/-- The literal of an error. -/
def literal : ErrorValue → String
  | null => "#NULL!"
  | divisionByZero => "#DIV/0!"
  | value => "#VALUE!"
  | reference => "#REF!"
  | name => "#NAME?"
  | number => "#NUM!"
  | notAvailable => "#N/A"
  | calculation => "#CALC!"
  | circular => "#CIRCULAR!"
  | formula => "#ERROR!"

/-- The code of an error. -/
def code : ErrorValue → Nat
  | null => 0x00
  | divisionByZero => 0x07
  | value => 0x0F
  | reference => 0x17
  | name => 0x1D
  | number => 0x24
  | notAvailable => 0x2A
  | calculation => 0x2D
  | circular => 0x40
  | formula => 0x41

theorem code_injective {a b : ErrorValue} (h : a.code = b.code) : a = b := by
  revert h
  cases a <;> cases b <;> decide

/-- The error with the given literal, in any case. -/
def ofText? (s : String) : Option ErrorValue :=
  let wanted := Text.upper s
  all.find? fun e => e.literal == wanted

example : ofText? "#n/a" = some notAvailable := by decide +kernel
example : ofText? "#N/A?" = none := by decide +kernel

end ErrorValue

end PaintQuote.Sheet
