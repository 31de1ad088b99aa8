import PaintQuote.Formula.Expr

/-!
# The text of a formula

A tree is written with upper-case functions, no blanks and as few parentheses as keep its shape:
an operand goes between parentheses only if it binds less tightly than its place demands.  All
binary operators group to the left, so the right operand of one has to bind more tightly than it.
-/

namespace PaintQuote.Formula

open Sheet Text

/-! ## Parts -/

/-- The text of a literal; the quotes in a text are doubled. -/
def Literal.chars : Literal → List Char
  | number n => n.toText.toList
  | text s => '"' :: (double '"' s.toList ++ ['"'])
  | boolean b => (CellValue.booleanText b).toList
  | error e => e.literal.toList

/-- The text of an item of an array constant. -/
def ArrayItem.chars : ArrayItem → List Char
  | literal l => l.chars
  | negated n => '-' :: n.toText.toList

/-- A dollar sign, if the part that follows is absolute. -/
def dollar (absolute : Bool) : List Char := if absolute then ['$'] else []

/-- The text of an address with its absolute parts marked. -/
def anchoredChars (a : Address) (anchors : Anchors) : List Char :=
  dollar anchors.column ++ columnLetters a.column ++ dollar anchors.row
    ++ Nat.toDigits 10 (a.row + 1)

/-- The sheet in front of a reference, with its mark. -/
def sheetMark : Option SheetName → List Char
  | none => []
  | some sheet => sheet.chars ++ ['!']

/-- The text of a reference to a cell. -/
def CellReference.chars (r : CellReference) : List Char :=
  sheetMark r.sheet? ++ anchoredChars r.address r.anchors

/-- The text of a reference to a range; both corners are written. -/
def RangeReference.chars (r : RangeReference) : List Char :=
  sheetMark r.sheet? ++ anchoredChars r.area.start r.startAnchors
    ++ ':' :: anchoredChars r.area.stop r.stopAnchors

/-- Texts with a separator between neighbours. -/
def separated (separator : Char) (parts : List (List Char)) : List Char :=
  List.intercalate [separator] parts

/-- The text of an array constant. -/
def arrayChars (rows : List (List ArrayItem)) : List Char :=
  '\x7b' :: (separated ';' (rows.map fun row => separated ',' (row.map ArrayItem.chars)) ++ ['\x7d'])

/-! ## Trees -/

namespace Expr

/-- The precedence of a sign or percent operator. -/
def unaryPrecedence : Nat := 6

/-- The precedence of an expression that needs no operator. -/
def primaryPrecedence : Nat := 7

/-- How tightly an expression binds. -/
def precedence : Expr → Nat
  | binary operator _ _ => operator.precedence
  | negate _ | percent _ => unaryPrecedence
  | _ => primaryPrecedence

/-- Whether a percent sign may follow an expression without parentheses. -/
def takesPercent : Expr → Bool
  | percent _ => true
  | e => e.precedence == primaryPrecedence

/-- A text between parentheses, if they are needed. -/
def parenthesized (needed : Bool) (cs : List Char) : List Char :=
  if needed then '(' :: (cs ++ [')']) else cs

mutual
/-- The text of an expression, without the equals sign of a formula. -/
def chars : Expr → List Char
  | literal l => l.chars
  | cell r => r.chars
  | range r => r.chars
  | name s => s.toList
  | binary operator left right =>
      parenthesized (left.precedence < operator.precedence) left.chars
        ++ operator.symbol.toList
        ++ parenthesized (right.precedence ≤ operator.precedence) right.chars
  | negate operand =>
      '-' :: parenthesized (operand.precedence < unaryPrecedence) operand.chars
  | percent operand => parenthesized (!operand.takesPercent) operand.chars ++ ['%']
  | call function arguments => function.toList ++ '(' :: (separated ',' (charsAll arguments) ++ [')'])
  | array rows => arrayChars rows

/-- The texts of expressions. -/
def charsAll : List Expr → List (List Char)
  | [] => []
  | e :: es => e.chars :: charsAll es
end

/-- The text of a formula. -/
def toText (e : Expr) : String := String.ofList ('=' :: e.chars)

theorem charsAll_eq_map (es : List Expr) : charsAll es = es.map chars := by
  induction es with
  | nil => rfl
  | cons e es ih => rw [charsAll, ih, List.map_cons]

example : toText (.binary .subtract (.literal (.number 1))
    (.binary .subtract (.literal (.number 2)) (.literal (.number 3)))) = "=1-(2-3)" := by
  decide +kernel
example : toText (.percent (.negate (.literal (.number 5)))) = "=(-5)%" := by decide +kernel

end Expr

end PaintQuote.Formula
