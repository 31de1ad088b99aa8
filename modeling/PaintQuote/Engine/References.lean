import PaintQuote.Engine.Graph
import PaintQuote.Formula.Parser
import PaintQuote.Sheet.Workbook

/-!
# References

The cells and the names that a formula reads, found without evaluating it.  A reference without a
sheet means the sheet of the formula, and a name that is defined stands for the cells of its target.
-/

namespace PaintQuote.Engine

open Sheet Formula

/-- What a formula reads. -/
structure References where
  /-- The cells. -/
  cells : CellSet := {}
  /-- The names, in upper case. -/
  names : Std.TreeSet String := {}

namespace References

/-- The references with further cells. -/
def addCells (r : References) (cells : List CellKey) : References :=
  { r with cells := cells.foldl (fun set cell => set.insert cell) r.cells }

/-- The references with a further name and the cells that it stands for. -/
def addName (r : References) (names : NameTable) (name : String) : References :=
  let r := r.addCells (((names.find? name).map fun d => d.target.cells).getD [])
  { r with names := r.names.insert (Text.asciiUpper name) }

mutual
/-- The references with those of an expression. -/
def collect (names : NameTable) (sheet : SheetName) (r : References) : Expr → References
  | .cell c => r.addCells [⟨c.sheet?.getD sheet, c.address⟩]
  | .range a => r.addCells (a.area.cells.map fun address => ⟨a.sheet?.getD sheet, address⟩)
  | .name s => r.addName names s
  | .binary _ left right => collect names sheet (collect names sheet r left) right
  | .negate operand => collect names sheet r operand
  | .percent operand => collect names sheet r operand
  | .call _ arguments => collectAll names sheet r arguments
  | .literal _ | .array _ => r

/-- The references with those of expressions. -/
def collectAll (names : NameTable) (sheet : SheetName) (r : References) :
    List Expr → References
  | [] => r
  | e :: es => collectAll names sheet (collect names sheet r e) es
end

/-- What an expression on a sheet reads. -/
def ofExpr (names : NameTable) (sheet : SheetName) (e : Expr) : References :=
  collect names sheet {} e

end References

end PaintQuote.Engine

namespace PaintQuote.Sheet.Workbook

open Engine Formula

/-! ## The references of a cell -/

/-- The tree of the formula of a cell, if the cell holds a formula that can be read. -/
def expr? (w : Workbook) (key : CellKey) : Option Expr :=
  (w.formula? key).bind fun text => (Expr.ofText text).toOption

/-- The cells that the formula of a cell reads, in order. -/
def references (w : Workbook) (key : CellKey) : List CellKey :=
  match w.expr? key with
  | some expr => (References.ofExpr w.names key.sheet expr).cells.toList
  | none => []

variable {w : Workbook} {key : CellKey}

theorem references_ok {text : String} {expr : Expr} (hf : w.formula? key = some text)
    (hx : Expr.ofText text = .ok expr) :
    w.references key = (References.ofExpr w.names key.sheet expr).cells.toList := by
  have hexpr : w.expr? key = some expr := by
    rw [expr?, hf, Option.bind_some, hx]
    rfl
  rw [references, hexpr]

theorem references_error {text : String} {error : ParseError} (hf : w.formula? key = some text)
    (hx : Expr.ofText text = .error error) : w.references key = [] := by
  have hexpr : w.expr? key = none := by
    rw [expr?, hf, Option.bind_some, hx]
    rfl
  rw [references, hexpr]

/-- Only cells with formulas read others. -/
theorem references_none (hf : w.formula? key = none) : w.references key = [] := by
  have hexpr : w.expr? key = none := by
    rw [expr?, hf]
    rfl
  rw [references, hexpr]

end PaintQuote.Sheet.Workbook
