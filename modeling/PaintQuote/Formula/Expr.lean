import PaintQuote.Sheet.CellKey
import PaintQuote.Sheet.CellValue
import PaintQuote.Sheet.Range

/-!
# Formula expressions

The tree of a formula.  A literal number is never negative, since a minus in front of it is an
operator; only the items of an array constant carry their own minus.  Equality of trees is decided
by `Expr.same`.
-/

namespace PaintQuote.Formula

open Sheet

/-! ## Parts -/

/-- A constant in a formula. -/
inductive Literal where
  /-- A number. -/
  | number (n : Decimal)
  /-- A text. -/
  | text (s : String)
  /-- A logical value. -/
  | boolean (b : Bool)
  /-- An error. -/
  | error (e : ErrorValue)
deriving DecidableEq, Repr

/-- An item of an array constant. -/
inductive ArrayItem where
  /-- A constant. -/
  | literal (l : Literal)
  /-- A number with a minus. -/
  | negated (n : Decimal)
deriving DecidableEq, Repr

/-- Which parts of an address are marked as absolute. -/
structure Anchors where
  /-- Whether the column is. -/
  column : Bool := false
  /-- Whether the row is. -/
  row : Bool := false
deriving DecidableEq, Repr

/-- A reference to a cell. -/
structure CellReference where
  /-- The sheet, if the formula names one. -/
  sheet? : Option SheetName
  /-- The cell. -/
  address : Address
  /-- The absolute parts. -/
  anchors : Anchors
deriving DecidableEq, Repr

/-- A reference to a range. -/
structure RangeReference where
  /-- The sheet, if the formula names one. -/
  sheet? : Option SheetName
  /-- The cells. -/
  area : Range
  /-- The absolute parts of the first corner. -/
  startAnchors : Anchors
  /-- The absolute parts of the second corner. -/
  stopAnchors : Anchors
deriving DecidableEq, Repr

/-- An operator between two operands. -/
inductive BinaryOperator where
  | add | subtract | multiply | divide | power
  | equal | notEqual | less | lessEqual | greater | greaterEqual
  | concatenate
deriving DecidableEq, Repr

namespace BinaryOperator

/-- All operators. -/
def all : List BinaryOperator :=
  [add, subtract, multiply, divide, power, equal, notEqual, less, lessEqual, greater, greaterEqual,
    concatenate]

/-- The symbol of an operator. -/
def symbol : BinaryOperator → String
  | add => "+"
  | subtract => "-"
  | multiply => "*"
  | divide => "/"
  | power => "^"
  | equal => "="
  | notEqual => "<>"
  | less => "<"
  | lessEqual => "<="
  | greater => ">"
  | greaterEqual => ">="
  | concatenate => "&"

/-- How tightly an operator binds. -/
def precedence : BinaryOperator → Nat
  | equal | notEqual | less | lessEqual | greater | greaterEqual => 1
  | concatenate => 2
  | add | subtract => 3
  | multiply | divide => 4
  | power => 5

/-- The operator with the given symbol. -/
def ofSymbol? (s : String) : Option BinaryOperator := all.find? fun o => o.symbol == s

end BinaryOperator

/-! ## Trees -/

/-- The tree of a formula. -/
inductive Expr where
  /-- A constant. -/
  | literal (l : Literal)
  /-- The value of a cell. -/
  | cell (r : CellReference)
  /-- The values of a range. -/
  | range (r : RangeReference)
  /-- What a defined name stands for. -/
  | name (s : String)
  /-- Two operands with an operator between them. -/
  | binary (operator : BinaryOperator) (left right : Expr)
  /-- The operand with the other sign. -/
  | negate (operand : Expr)
  /-- A hundredth of the operand. -/
  | percent (operand : Expr)
  /-- A function, named in upper case, of arguments. -/
  | call (function : String) (arguments : List Expr)
  /-- An array constant, row by row. -/
  | array (rows : List (List ArrayItem))
deriving Repr

namespace Expr

instance : Inhabited Expr := ⟨name ""⟩

mutual
/-- Whether two trees are equal. -/
def same : Expr → Expr → Bool
  | literal a, literal b => a == b
  | cell a, cell b => a == b
  | range a, range b => a == b
  | name a, name b => a == b
  | binary o l r, binary o' l' r' => o == o' && l.same l' && r.same r'
  | negate a, negate b => a.same b
  | percent a, percent b => a.same b
  | call f as, call g bs => f == g && sameAll as bs
  | array a, array b => a == b
  | _, _ => false

/-- Whether two lists of trees are equal. -/
def sameAll : List Expr → List Expr → Bool
  | [], [] => true
  | a :: as, b :: bs => a.same b && sameAll as bs
  | _, _ => false
end

mutual
theorem same_iff_eq : (a b : Expr) → (a.same b = true ↔ a = b)
  | binary o l r, b => by
      cases b <;> simp [same, same_iff_eq l, same_iff_eq r, and_assoc]
  | negate a, b => by cases b <;> simp [same, same_iff_eq a]
  | percent a, b => by cases b <;> simp [same, same_iff_eq a]
  | call f as, b => by cases b <;> simp [same, sameAll_iff_eq as]
  | literal a, b => by cases b <;> simp [same]
  | cell a, b => by cases b <;> simp [same]
  | range a, b => by cases b <;> simp [same]
  | name a, b => by cases b <;> simp [same]
  | array a, b => by cases b <;> simp [same]

theorem sameAll_iff_eq : (as bs : List Expr) → (sameAll as bs = true ↔ as = bs)
  | [], bs => by cases bs <;> simp [sameAll]
  | a :: as, bs => by cases bs <;> simp [sameAll, same_iff_eq a, sameAll_iff_eq as]
end

instance : DecidableEq Expr := fun a b => decidable_of_iff _ (same_iff_eq a b)

mutual
/-- Whether a tree calls the given function, in any case. -/
def calls (function : String) : Expr → Bool
  | binary _ l r => l.calls function || r.calls function
  | negate a => a.calls function
  | percent a => a.calls function
  | call f as => Text.sameAsciiCase f function || anyCalls function as
  | _ => false

/-- Whether one of the trees calls the given function. -/
def anyCalls (function : String) : List Expr → Bool
  | [] => false
  | a :: as => a.calls function || anyCalls function as
end

end Expr

end PaintQuote.Formula
