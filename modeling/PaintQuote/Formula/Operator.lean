import PaintQuote.Decimal.Power
import PaintQuote.Formula.Expr
import PaintQuote.Formula.Value

/-!
# Operators

What the operators make of values.  An error on the left wins over an error on the right, and both
win over any other complaint.  Arithmetic takes numbers and what counts as numbers; a result without
a decimal is a number error.  Comparisons take anything: numbers come before texts, texts before
logical values, those before errors and errors before arrays.  A value that is nothing takes the
kind of the value beside it.
-/

namespace PaintQuote.Formula

open Sheet

/-- A number, or the error of numbers where there is none. -/
def numberOr (n : Option Decimal) : Except FormulaError Value :=
  match n with
  | some n => .ok (.number n)
  | none => .error (.errorValue .number)

/-! ## Powers -/

/-- The power of a number.  Zero has positive powers only, and a negative number whole ones only. -/
def power (base exponent : Decimal) : Except FormulaError Value :=
  if base.isZero then
    match exponent.compare 0 with
    | .lt => .error .divisionByZero
    | .eq => .error (.errorValue .number)
    | .gt => .ok (.number 0)
  else if exponent.isWhole then
    match exponent.toInt64? with
    | some n => numberOr (base.powInt? n)
    | none => .error (.errorValue .number)
  else if base.negative then .error (.errorValue .number)
  else numberOr (base.powDecimal? exponent)

/-! ## Comparison -/

namespace Value

/-- What nothing stands for beside another value. -/
def besides (v : CellValue) (other : Value) : CellValue :=
  match v with
  | .empty =>
      match other with
      | text _ => .text ""
      | boolean _ => .boolean false
      | _ => .number 0
  | v => v

/-- The place of the kind of a value in the order. -/
def rank : Value → Nat
  | number _ => 0
  | text _ => 1
  | boolean _ => 2
  | error _ => 3
  | array _ | empty => 4

/-- The order of two values that are something. -/
def compareFilled : Value → Value → Ordering
  | number m, number n => m.compare n
  | text s, text t => compare (Text.lower s) (Text.lower t)
  | boolean a, boolean b => compare a.toNat b.toNat
  | error d, error e => compare d.code e.code
  | v, w => compare v.rank w.rank

/-- Whether two values are of one kind. -/
def sameKind : Value → Value → Bool
  | scalar v, scalar w => v.kind == w.kind
  | array _, array _ => true
  | _, _ => false

/-- A value with nothing replaced by what it stands for beside another value. -/
def filled (v other : Value) : Value :=
  match v with
  | scalar v => scalar (besides v other)
  | array rows => array rows

/-- The order of two values. -/
def compareTo (v w : Value) : Ordering :=
  let v := v.filled w
  compareFilled v (w.filled v)

end Value

/-! ## Operators -/

namespace BinaryOperator

/-- Whether a comparison holds, given the order of its operands. -/
def holds (o : BinaryOperator) (order : Ordering) : Bool :=
  match o with
  | equal => order == .eq
  | notEqual => order != .eq
  | less => order == .lt
  | lessEqual => order != .gt
  | greater => order == .gt
  | greaterEqual => order != .lt
  | _ => false

/-- The quotient of two numbers. -/
def quotient (m n : Decimal) : Except FormulaError Value :=
  if n.isZero then .error .divisionByZero else numberOr (m.div? n)

/-- What an operation on numbers makes of two values. -/
def arithmetic (operation : Decimal → Decimal → Except FormulaError Value) (left right : Value) :
    Except FormulaError Value := do
  let m ← left.toNumber
  let n ← right.toNumber
  operation m n

/-- The texts of two values, one after the other. -/
def joined (left right : Value) : Except FormulaError Value :=
  match left, right with
  | .scalar v, .scalar w => .ok (.text (v.toText ++ w.toText))
  | _, _ => .error (.type "Cannot concatenate a range")

/-- What an operator makes of two values that are no errors. -/
def onValues (o : BinaryOperator) (left right : Value) : Except FormulaError Value :=
  match o with
  | add => arithmetic (fun m n => numberOr (m.add? n)) left right
  | subtract => arithmetic (fun m n => numberOr (m.sub? n)) left right
  | multiply => arithmetic (fun m n => numberOr (m.mul? n)) left right
  | divide => arithmetic quotient left right
  | power => arithmetic Formula.power left right
  | concatenate => joined left right
  | comparison => .ok (.boolean (comparison.holds (left.compareTo right)))

/-- What an operator makes of two values. -/
def apply (o : BinaryOperator) (left right : Value) : Except FormulaError Value :=
  match left.error?, right.error? with
  | some e, _ => .ok (.error e)
  | none, some e => .ok (.error e)
  | none, none => o.onValues left right

end BinaryOperator

/-- What a minus in front makes of a value. -/
def negated (v : Value) : Except FormulaError Value :=
  match v with
  | .error e => .ok (.error e)
  | v => v.toNumber.map fun n => .number (-n)

/-- What a percent sign makes of a value. -/
def hundredth (v : Value) : Except FormulaError Value :=
  match v with
  | .error e => .ok (.error e)
  | v => v.toNumber.bind fun n => numberOr (n.div? 100)

example : (Value.empty).compareTo (.text "") = .eq := by decide +kernel
example : (Value.number 9).compareTo (.text "1") = .lt := by decide +kernel

end PaintQuote.Formula
