import PaintQuote.Formula.Library
import PaintQuote.Sheet.Workbook

/-!
# Evaluation

The value of a formula, given the cells and names that it can read and the sheet it stands on.
Evaluation never fails: every error becomes an error value, and its cause is noted in the log.  The
causes of errors that were dealt with inside an expression are forgotten when its value is known
(`Logged.sparing`).
-/

namespace PaintQuote.Formula

open Sheet

/-! ## What a formula can read -/

/-- Where a formula reads cells, sheets and names. -/
structure Source where
  /-- The value of a cell. -/
  value : CellKey → CellValue
  /-- Whether a sheet exists. -/
  hasSheet : SheetName → Bool
  /-- The defined name with a name. -/
  name? : String → Option DefinedName

/-- The source without cells and names, where every sheet exists. -/
def Source.bare : Source := ⟨fun _ => .empty, fun _ => true, fun _ => none⟩

/-- A workbook as a source: its literals and its names.  Cells with formulas read as empty. -/
def Source.ofWorkbook (w : Workbook) : Source := ⟨w.literal, w.hasSheet, w.name?⟩

/-- Where a formula is evaluated. -/
structure Context where
  /-- What it can read. -/
  source : Source
  /-- The sheet that it stands on. -/
  sheet : SheetName

namespace Context

/-- The context of a formula that stands nowhere. -/
def bare : Context := ⟨.bare, .standard⟩

/-! ## Reading -/

/-- The sheet that a reference means. -/
def resolve (c : Context) : Option SheetName → Except FormulaError SheetName
  | none => .ok c.sheet
  | some sheet =>
      if c.source.hasSheet sheet then .ok sheet
      else .error (.invalidReference ("Sheet " ++ sheet.toText ++ " does not exist"))

/-- The value of a cell; an error in it is noted. -/
def readCell (c : Context) (key : CellKey) : Logged CellValue :=
  match c.source.value key with
  | .error e => do
      Logged.note (.propagated key.toText e)
      pure (.error e)
  | v => pure v

/-- The value of a referenced cell. -/
def cellValue (c : Context) (sheet? : Option SheetName) (address : Address) : Logged Value :=
  match c.resolve sheet? with
  | .ok sheet => do
      let v ← c.readCell ⟨sheet, address⟩
      pure (.scalar v)
  | .error e => Logged.fail e

/-- The values of a referenced range, row by row. -/
def rangeValue (c : Context) (sheet? : Option SheetName) (area : Range) : Logged Value :=
  match c.resolve sheet? with
  | .ok sheet => do
      let rows ← Logged.all (area.rows.map fun row =>
        Logged.all (row.map fun address => c.readCell ⟨sheet, address⟩))
      pure (.array rows)
  | .error e => Logged.fail e

/-- The value of what a name stands for. -/
def nameValue (c : Context) (name : String) : Logged Value :=
  match c.source.name? name with
  | none => Logged.fail (.unknownName name)
  | some defined =>
      match defined.target with
      | .cell key => c.cellValue (some key.sheet) key.address
      | .range sheet area => c.rangeValue (some sheet) area
      | .constant v => pure (.scalar v)

end Context

/-! ## Expressions -/

/-- The value of a literal. -/
def Literal.value : Literal → CellValue
  | number n => .number n
  | text s => .text s
  | boolean b => .boolean b
  | error e => .error e

/-- The value of an item of an array constant. -/
def ArrayItem.value : ArrayItem → CellValue
  | literal l => l.value
  | negated n => .number (-n)

/-- The value of a function, given its arguments as computations. -/
def callFunction (name : String) (arguments : List (Logged Value)) : Logged Value :=
  match function? name with
  | none => Logged.fail (.unknownFunction name)
  | some f =>
      match f.arityError? arguments.length with
      | some e => Logged.fail e
      | none =>
          match f.implementation with
          | .lazy answer => do
              let a ← answer arguments
              Logged.settle a
          | .eager answer => do
              let vs ← Logged.all arguments
              Logged.settle (answer vs)

mutual
/-- The value of an expression. -/
def evaluate (c : Context) : Expr → Logged Value
  | .literal l => pure (.scalar l.value)
  | .array rows => pure (.array (rows.map fun row => row.map ArrayItem.value))
  | .cell r => Logged.sparing (c.cellValue r.sheet? r.address)
  | .range r => Logged.sparing (c.rangeValue r.sheet? r.area)
  | .name s => Logged.sparing (c.nameValue s)
  | .binary o left right => Logged.sparing do
      let v ← evaluate c left
      let w ← evaluate c right
      Logged.settle (o.apply v w)
  | .negate operand => Logged.sparing do
      let v ← evaluate c operand
      Logged.settle (negated v)
  | .percent operand => Logged.sparing do
      let v ← evaluate c operand
      Logged.settle (hundredth v)
  | .call function arguments => Logged.sparing (callFunction function (evaluateEach c arguments))

/-- The values of expressions, as computations. -/
def evaluateEach (c : Context) : List Expr → List (Logged Value)
  | [] => []
  | e :: es => evaluate c e :: evaluateEach c es
end

/-- The value of an expression, and the earliest error that explains it. -/
def evaluateAlone (c : Context) (e : Expr) : Value × Option FormulaError :=
  let (v, log) := (evaluate c e).run []
  (v, log.head?)

end PaintQuote.Formula
