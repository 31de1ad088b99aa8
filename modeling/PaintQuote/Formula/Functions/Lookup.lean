import PaintQuote.Formula.Functions.Arguments
import PaintQuote.Formula.Functions.Logic
import PaintQuote.Formula.Operator

/-!
# Lookup functions

Finding a value among keys, and what stands beside it.  An exact lookup finds the first key of the
same kind that is equal.  An approximate one halves the keys that are not empty until one is left,
as if they were in order, and its answer has to be of the kind of the value.
-/

namespace PaintQuote.Formula.Functions

open Sheet

/-! ## Positions -/

/-- How a value is looked for among keys. -/
inductive MatchMode where
  /-- The first key that is equal. -/
  | exact
  /-- The last key that is not greater, where keys ascend. -/
  | ascending
  /-- The last key that is not smaller, where keys descend. -/
  | descending
deriving DecidableEq, Repr

/-- Whether two values are of one kind and equal in the order of values. -/
def isEqualKey (key value : CellValue) : Bool :=
  key.kind == value.kind && (Value.scalar key).compareTo (.scalar value) == .eq

/-- The place at which halving the places from `base` ends, `size` of them, where `test` says
whether to go to the upper half. -/
def halve (test : Nat → Bool) (base size : Nat) : Nat :=
  if size ≤ 1 then base
  else halve test (if test (base + size / 2) then base + size / 2 else base) (size - size / 2)
termination_by size
decreasing_by omega

/-- The number of places before the one where a test starts to fail, found by halving. -/
def turningPoint (test : Nat → Bool) (size : Nat) : Nat :=
  if size = 0 then 0
  else
    let place := halve test 0 size
    if test place then place + 1 else place

/-- Whether a key may stand before the place where a value is found. -/
def mayPrecede (mode : MatchMode) (value key : CellValue) : Bool :=
  let order := (Value.scalar key).compareTo (.scalar value)
  match mode with
  | .descending => order != .lt
  | _ => order != .gt

/-- The keys that are something, each with its position. -/
def filledKeys (keys : List CellValue) : List (CellValue × Nat) :=
  keys.zipIdx.filter fun k => k.1 != .empty

/-- The position found by halving. -/
def approximatePosition? (mode : MatchMode) (value : CellValue) (keys : List CellValue) :
    Option Nat :=
  let candidates := (filledKeys keys).toArray
  let test (place : Nat) : Bool :=
    (candidates[place]?.map fun k => mayPrecede mode value k.1).getD false
  match turningPoint test candidates.size with
  | 0 => none
  | place + 1 =>
      (candidates[place]?).bind fun k => if k.1.kind = value.kind then some k.2 else none

/-- The position of a value among keys.  Nothing is found nowhere. -/
def findPosition? (mode : MatchMode) (value : CellValue) (keys : List CellValue) : Option Nat :=
  if value = .empty then none
  else if mode = .exact then keys.findIdx? fun k => isEqualKey k value
  else approximatePosition? mode value keys

/-! ## Arguments -/

/-- The value to look for, which has to be a single value. -/
def lookupValue : Value → Except FormulaError CellValue
  | .error e => .error (.errorValue e)
  | .array _ => .error (.type "Lookup value must be a single value")
  | .scalar v => .ok v

/-- The mode of a table lookup, approximate if the argument is left out. -/
def tableMode (approximate : Option Value) : Except FormulaError MatchMode :=
  match approximate with
  | none => .ok .ascending
  | some v => v.toBool.map fun b => if b then .ascending else .exact

/-- Something that is found, or the error of what is not available. -/
def orNotFound {α : Type} (a : Option α) : Except FormulaError α :=
  match a with
  | some a => .ok a
  | none => .error (.errorValue .notAvailable)

/-! ## Tables -/

/-- The number of a line of a table, from zero; `line` and `way` word the errors. -/
def lineIndex (line way : String) (number : Int) (count : Nat) : Except FormulaError Nat :=
  if number < 1 then .error (.type (line ++ " index must be at least 1"))
  else if count ≤ (number - 1).toNat then
    .error (.invalidReference
      (line ++ " " ++ toString number ++ " is outside a " ++ toString count ++ "-" ++ way
        ++ " table"))
  else .ok (number - 1).toNat

/-- The value in a column of the row whose first value is looked for. -/
def verticalLookup (value table column : Value) (approximate : Option Value) : Answer := do
  let v ← lookupValue value
  match table with
  | .error e => .ok (.error e)
  | table =>
      let rows := table.grid
      let number ← wholeNumber column
      let index ← lineIndex "Column" "column" number (Value.dimensions rows).2
      let mode ← tableMode approximate
      let row ← orNotFound (findPosition? mode v (rows.filterMap List.head?))
      let found ← orNotFound ((rows[row]?).bind fun r => r[index]?)
      .ok (.scalar found)

/-- The value in a row of the column whose first value is looked for. -/
def horizontalLookup (value table row : Value) (approximate : Option Value) : Answer := do
  let v ← lookupValue value
  match table with
  | .error e => .ok (.error e)
  | table =>
      let rows := table.grid
      let number ← wholeNumber row
      let index ← lineIndex "Row" "row" number (Value.dimensions rows).1
      let mode ← tableMode approximate
      let column ← orNotFound (findPosition? mode v (rows.headD []))
      let found ← orNotFound ((rows[index]?).bind fun r => r[column]?)
      .ok (.scalar found)

/-- The mode for a match type: zero is exact, and a sign says how the keys go. -/
def modeOfType (type : Int) : MatchMode :=
  if type = 0 then .exact else if 0 < type then .ascending else .descending

/-- The position of a value in one row or column, from one. -/
def position (value keys : Value) (type : Option Value) : Answer := do
  let v ← lookupValue value
  match keys with
  | .error e => .ok (.error e)
  | keys =>
      let (rows, columns) := Value.dimensions keys.grid
      if 1 < rows ∧ 1 < columns then .error (.errorValue .notAvailable)
      else
        let type ← wholeOrDefault type 1
        let found ← orNotFound (findPosition? (modeOfType type) v keys.cells)
        .ok (countValue (found + 1))

/-- The row and column that the arguments of an indexing ask for, from one.  One number counts along
an array of a single row. -/
def indexPlace (rows columns : Nat) (row : Value) (column : Option Value) :
    Except FormulaError (Int × Int) :=
  match column with
  | some column => do
      let r ← wholeNumber row
      let c ← wholeNumber column
      .ok (r, c)
  | none => do
      let n ← wholeNumber row
      .ok (if rows = 1 ∧ 1 < columns then (1, n) else (n, 1))

/-- The value at a place of an array. -/
def index (array row : Value) (column : Option Value) : Answer :=
  match firstError? (array :: row :: column.toList) with
  | some e => .ok (.error e)
  | none => do
      let grid := array.grid
      let (rows, columns) := Value.dimensions grid
      let (r, c) ← indexPlace rows columns row column
      if r < 1 ∨ c < 1 then .error (.type "INDEX positions start at 1")
      else
        match (grid[(r - 1).toNat]?).bind fun cells => cells[(c - 1).toNat]? with
        | some v => .ok (.scalar v)
        | none =>
            .error (.invalidReference
              ("INDEX(" ++ toString r ++ ", " ++ toString c ++ ") is outside a " ++ toString rows
                ++ "x" ++ toString columns ++ " array"))

/-! ## Choosing by number -/

/-- The choice with the given number, from one. -/
def choiceAt? {α : Type} (number : Decimal) (choices : List α) : Option α :=
  match number.toNat64? with
  | some (n + 1) => choices[n]?
  | _ => none

/-- The argument with the number that the first argument says. -/
def choose : List (Logged Value) → Logged Answer
  | number :: choices => do
      let v ← number
      match v.toNumber with
      | .error e => pure (.error e)
      | .ok n =>
          match choiceAt? n.trunc choices with
          | some run => answerOf run
          | none =>
              pure (.error (.type
                ("CHOOSE index " ++ n.trunc.toText ++ " is outside 1.." ++ toString choices.length)))
  | [] => pure (.ok .empty)

example : findPosition? .ascending (.number 5) [.number 1, .empty, .number 5, .number 9] = some 2 :=
  by decide +kernel
example : findPosition? .exact (.text "B") [.text "a", .text "b"] = some 1 := by decide +kernel

end PaintQuote.Formula.Functions
