import PaintQuote.Sheet.DefinedName

/-!
# Cache keys

What identifies the evaluation of a formula: its text, the names in it with what they stand for, and
the cells that it reads with their values.  A key is a flat list of numbers, in which every text is
preceded by its length and every part by a tag, so that the parts can be told from each other
whatever they contain.  Names count in either case, and numbers by value.
-/

namespace PaintQuote.Engine

open Sheet

/-- What identifies the evaluation of a formula. -/
structure CacheKey where
  /-- The numbers that spell the formula and what it reads. -/
  code : List Nat
deriving DecidableEq, Repr

namespace CacheKey

/-! ## Parts -/

/-- A part of a key after the text of the formula. -/
inductive Part where
  /-- A name and what it stands for, if it is defined. -/
  | name (name : String) (target? : Option Target)
  /-- A cell and its value. -/
  | dependency (cell : CellKey) (value : CellValue)
deriving DecidableEq, Repr

/-- A text, preceded by its length. -/
def textCode (s : String) : List Nat := s.length :: s.toList.map Char.toNat

/-- An address. -/
def addressCode (a : Address) : List Nat := [a.row, a.column]

/-- A cell. -/
def cellCode (k : CellKey) : List Nat := textCode k.sheet.text ++ addressCode k.address

/-- A number in normal form. -/
def numberCode (n : Decimal) : List Nat :=
  [n.normalize.negative.toNat, n.normalize.scale, n.normalize.coefficient]

/-- A value, preceded by the tag of its kind. -/
def valueCode : CellValue → List Nat
  | .empty => [0]
  | .boolean b => [1, b.toNat]
  | .number n => 2 :: numberCode n
  | .text s => 3 :: textCode s
  | .error e => [4, e.code]

/-- What a name stands for, preceded by the tag of its kind. -/
def targetCode : Option Target → List Nat
  | none => [0]
  | some (.cell key) => 1 :: cellCode key
  | some (.range sheet area) =>
      2 :: (textCode sheet.text ++ addressCode area.start ++ addressCode area.stop)
  | some (.constant value) => 3 :: valueCode value

/-- A part, preceded by the tag of its kind. -/
def partCode : Part → List Nat
  | .name name target? => 0 :: (textCode (Text.asciiUpper name) ++ targetCode target?)
  | .dependency cell value => 1 :: (cellCode cell ++ valueCode value)

/-! ## Keys -/

/-- The key for a formula and the parts that it reads, in order. -/
def ofParts (formula : String) (parts : List Part) : CacheKey :=
  ⟨textCode formula ++ parts.flatMap partCode⟩

/-- The key for a formula that reads cells only. -/
def ofCells (formula : String) (cells : List (CellKey × CellValue)) : CacheKey :=
  ofParts formula (cells.map fun c => .dependency c.1 c.2)

end CacheKey

end PaintQuote.Engine
