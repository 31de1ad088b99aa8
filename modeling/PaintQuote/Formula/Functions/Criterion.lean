import PaintQuote.Formula.Functions.Wildcard
import PaintQuote.Formula.Operator

/-!
# Criteria

The conditions of conditional sums and counts.  A number asks for that number.  A text may start
with a comparison: before a number it compares numbers, and before anything else only equality and
its opposite mean something, and they compare with a pattern.  Letters of either case are the same.
-/

namespace PaintQuote.Formula

open Sheet Text

/-- A condition on values. -/
inductive Criterion where
  /-- The value is the number. -/
  | number (n : Decimal)
  /-- The value is a number in the given relation, or is no number where the relation is
  inequality. -/
  | comparison (relation : BinaryOperator) (n : Decimal)
  /-- The value is a text that fits the pattern, or is not, as the flag says. -/
  | text (pattern : List Char) (wanted : Bool)
  /-- The value is nothing. -/
  | blank
  /-- No value will do. -/
  | never
deriving DecidableEq, Repr

namespace Criterion

/-- The relation at the start of a text, and the text after it. -/
def leadingRelation : List Char → Option BinaryOperator × List Char
  | '>' :: '=' :: rest => (some .greaterEqual, rest)
  | '<' :: '=' :: rest => (some .lessEqual, rest)
  | '<' :: '>' :: rest => (some .notEqual, rest)
  | '>' :: rest => (some .greater, rest)
  | '<' :: rest => (some .less, rest)
  | '=' :: rest => (some .equal, rest)
  | cs => (none, cs)

/-- The condition for a relation and a text that is no number. -/
def ofPattern (relation : Option BinaryOperator) (pattern : List Char) : Criterion :=
  match relation with
  | none => .text (lowerChars pattern) true
  | some .equal => if pattern.isEmpty then .blank else .text (lowerChars pattern) true
  | some .notEqual => .text (lowerChars pattern) false
  | some _ => .never

/-- The condition written in a text. -/
def ofText (s : String) : Criterion :=
  let body := trim s.toList
  if body.isEmpty then .blank
  else
    let (relation, rest) := leadingRelation body
    let rest := trim rest
    match Decimal.readNumeric? rest, relation with
    | some n, some relation => .comparison relation n
    | some n, none => .number n
    | none, relation => ofPattern relation rest

/-- The condition that a value stands for. -/
def ofValue : Value → Criterion
  | .number n => .number n
  | .boolean b => .number (if b then 1 else 0)
  | .text s => ofText s
  | .empty => .blank
  | .error _ | .array _ => .never

/-- Whether a value is a text that fits a pattern; nothing fits the empty pattern. -/
def fitsPattern (pattern : List Char) : Value → Bool
  | .text s => Wildcard.fits pattern (lowerChars s.toList)
  | .empty => pattern.isEmpty
  | _ => false

/-- Whether a value meets a condition. -/
def accepts : Criterion → Value → Bool
  | number n, .number m => m.same n
  | number _, _ => false
  | comparison relation n, .number m => relation.holds (m.compare n)
  | comparison relation _, _ => relation == .notEqual
  | text pattern wanted, v => fitsPattern pattern v == wanted
  | blank, .empty => true
  | blank, .text s => s.isEmpty
  | blank, _ => false
  | never, _ => false

example : (ofText ">=10").accepts (.number 10) = true := by decide +kernel
example : (ofText "Eg*").accepts (.text "EGGSHELL") = true := by decide +kernel
example : (ofText "<>flat").accepts (.number 1) = true := by decide +kernel

end Criterion

end PaintQuote.Formula
