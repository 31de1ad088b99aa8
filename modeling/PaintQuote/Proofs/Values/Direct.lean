import PaintQuote.Formula.Library

/-!
# Reading by index

The functions of the library once more, as they read their arguments and the cells of tables by index
(`directLibrary`).  An index that is out of range gives nothing.  Arguments that may be left out and cells
that may lie outside of a table are looked up instead, as in the library.

The values that they are made for are rectangles that are not empty (`Value.IsRectangular`).
-/

namespace PaintQuote.Formula

open Sheet

/-! ## Rectangles -/

/-- Rows of one length, at least one row and one column. -/
structure IsGrid {α : Type} (rows : List (List α)) : Prop where
  rows_pos : 0 < rows.length
  columns_pos : 0 < (rows.headD []).length
  length_eq : ∀ row ∈ rows, row.length = (rows.headD []).length

/-- An array has rows of one length, at least one row and one column.  A single value is one row of one
cell. -/
def Value.IsRectangular (v : Value) : Prop := IsGrid v.grid

namespace IsGrid

variable {α β : Type} {rows : List (List α)}

theorem of_length (width : Nat) (hne : rows ≠ []) (hwidth : 0 < width) (h : ∀ row ∈ rows, row.length = width) :
    IsGrid rows := by
  cases rows with
  | nil => exact absurd rfl hne
  | cons row rows =>
      have hrow : row.length = width := h row List.mem_cons_self
      exact ⟨Nat.succ_pos _, hrow ▸ hwidth, fun r hr => (h r hr).trans hrow.symm⟩

theorem map (h : IsGrid rows) (f : α → β) : IsGrid (rows.map fun row => row.map f) := by
  refine of_length (rows.headD []).length ?_ h.columns_pos ?_
  · exact fun hnil => List.length_pos_iff.1 h.rows_pos (List.map_eq_nil_iff.1 hnil)
  · intro row hrow
    obtain ⟨r, hr, rfl⟩ := List.mem_map.1 hrow
    rw [List.length_map, h.length_eq r hr]

/-- There is a cell wherever the numbers of rows and columns say. -/
theorem exists_cell (h : IsGrid rows) {r c : Nat} (hr : r < rows.length) (hc : c < (rows.headD []).length) :
    ∃ row, rows[r]? = some row ∧ ∃ cell, row[c]? = some cell := by
  have hlength : rows[r].length = (rows.headD []).length := h.length_eq _ (List.getElem_mem hr)
  exact ⟨rows[r], List.getElem?_eq_getElem hr, _, List.getElem?_eq_getElem (hlength ▸ hc)⟩

end IsGrid

theorem Value.isRectangular_scalar (v : CellValue) : (Value.scalar v).IsRectangular :=
  ⟨Nat.one_pos, Nat.one_pos, List.forall_mem_singleton.2 rfl⟩

/-! ## Arguments by index -/

section

variable {α : Type}

/-- What a function of any arguments does, which reads none by index. -/
def atAll (answer : List Value → α) (vs : List Value) : Option α := some (answer vs)

/-- What a function of one argument does. -/
def atOne (answer : Value → α) (vs : List Value) : Option α := do
  let v ← vs[0]?
  some (answer v)

/-- What a function of one argument and an optional one does. -/
def atOneOrTwo (answer : Value → Option Value → α) (vs : List Value) : Option α := do
  let v ← vs[0]?
  some (answer v vs[1]?)

/-- What a function of one argument and two optional ones does. -/
def atOneToThree (answer : Value → Option Value → Option Value → α) (vs : List Value) : Option α := do
  let v ← vs[0]?
  some (answer v vs[1]? vs[2]?)

/-- What a function of two arguments does. -/
def atTwo (answer : Value → Value → α) (vs : List Value) : Option α := do
  let v ← vs[0]?
  let w ← vs[1]?
  some (answer v w)

/-- What a function of two arguments and an optional one does. -/
def atTwoOrThree (answer : Value → Value → Option Value → α) (vs : List Value) : Option α := do
  let v ← vs[0]?
  let w ← vs[1]?
  some (answer v w vs[2]?)

/-- What a function of three arguments does. -/
def atThree (answer : Value → Value → Value → α) (vs : List Value) : Option α := do
  let u ← vs[0]?
  let v ← vs[1]?
  let w ← vs[2]?
  some (answer u v w)

/-- What a function of three arguments and an optional one does. -/
def atThreeOrFour (answer : Value → Value → Value → Option Value → α) (vs : List Value) : Option α := do
  let u ← vs[0]?
  let v ← vs[1]?
  let w ← vs[2]?
  some (answer u v w vs[3]?)

/-- Continues with the entry at a place. -/
def atPlace (as : List α) (place : Nat) (next : α → Logged (Option Answer)) : Logged (Option Answer) :=
  match as[place]? with
  | some a => next a
  | none => pure none

/-- Continues with the entries from a place on. -/
def fromPlace (as : List α) (place : Nat) (next : List α → Logged (Option Answer)) :
    Logged (Option Answer) :=
  if place ≤ as.length then next (as.drop place) else pure none

/-- A list in pairs; the last entry may stand alone. -/
def inPairs : List α → List (List α)
  | a :: b :: as => [a, b] :: inPairs as
  | [a] => [[a]]
  | [] => []

end

/-! ## Tables by index -/

/-- The value of a cell that holds a formula with this value: an array of one cell is that cell. -/
def Value.directCell? : Value → Option CellValue
  | .scalar v => some v
  | .array rows =>
      if rows.length = 1 then do
        let row ← rows[0]?
        if row.length = 1 then row[0]? else some (.error .value)
      else some (.error .value)

namespace Functions

/-- The product of the cells at one place of several grids. -/
def directProductAt (grids : List (List (List CellValue))) (row column : Nat) : Option (Early Decimal) := do
  let cells ← grids.mapM fun grid => grid[row]?.bind fun r => r[column]?
  some (cells.foldlM timesValue 1)

/-- The sum of the products at all places. -/
def directSumOfProducts (grids : List (List (List CellValue))) (rows columns : Nat) :
    Option (Early Decimal) := do
  let places := (List.range rows).flatMap fun row => (List.range columns).map fun column => (row, column)
  let products ← places.mapM fun place => directProductAt grids place.1 place.2
  some (products.foldlM
    (fun total product => do
      let p ← product
      earlyNumber (total.add? p))
    0)

/-- The sum of the products of values at the same place of arrays of one shape. -/
def directSumProduct (vs : List Value) : Option Answer := do
  let grids := vs.map Value.grid
  let first ← grids[0]?
  let shape := Value.dimensions first
  if grids.any fun g => Value.dimensions g != shape then
    some (.error (.type "SUMPRODUCT arrays must have the same dimensions"))
  else
    match ← directSumOfProducts grids shape.1 shape.2 with
    | .ok total => some (.ok (.number total))
    | .error answer => some answer

/-- The place of what a vertical lookup finds in a table. -/
def verticalPlace (v : CellValue) (rows : List (List CellValue)) (column : Value)
    (approximate : Option Value) : Except FormulaError (Nat × Nat) := do
  let number ← wholeNumber column
  let index ← lineIndex "Column" "column" number (Value.dimensions rows).2
  let mode ← tableMode approximate
  let row ← orNotFound (findPosition? mode v (rows.filterMap List.head?))
  .ok (row, index)

/-- The value in a column of the row whose first value is looked for. -/
def directVerticalLookup (value table column : Value) (approximate : Option Value) : Option Answer :=
  match lookupValue value with
  | .error e => some (.error e)
  | .ok v =>
      match table.error? with
      | some e => some (.ok (.error e))
      | none =>
          match verticalPlace v table.grid column approximate with
          | .error e => some (.error e)
          | .ok place => do
              let row ← table.grid[place.1]?
              let found ← row[place.2]?
              some (.ok (.scalar found))

/-- The place of what a horizontal lookup finds in a table. -/
def horizontalPlace (v : CellValue) (rows : List (List CellValue)) (row : Value)
    (approximate : Option Value) : Except FormulaError (Nat × Nat) := do
  let number ← wholeNumber row
  let index ← lineIndex "Row" "row" number (Value.dimensions rows).1
  let mode ← tableMode approximate
  let column ← orNotFound (findPosition? mode v (rows.headD []))
  .ok (index, column)

/-- The value in a row of the column whose first value is looked for.  Only the row is read by its
index. -/
def directHorizontalLookup (value table row : Value) (approximate : Option Value) : Option Answer :=
  match lookupValue value with
  | .error e => some (.error e)
  | .ok v =>
      match table.error? with
      | some e => some (.ok (.error e))
      | none =>
          match horizontalPlace v table.grid row approximate with
          | .error e => some (.error e)
          | .ok place => do
              let row ← table.grid[place.1]?
              some ((orNotFound row[place.2]?).map .scalar)

/-! ## Choosing functions by index -/

/-- The second argument if the first is true, else the third or false. -/
def directChoice (runs : List (Logged Value)) : Logged (Option Answer) :=
  atPlace runs 0 fun test => do
    let v ← test
    match v.toBool with
    | .error e => pure (some (.error e))
    | .ok true => atPlace runs 1 fun yes => some <$> answerOf yes
    | .ok false =>
        match runs[2]? with
        | some run => some <$> answerOf run
        | none => pure (some (.ok (.boolean false)))

/-- The second one of the first pair whose first one is true. -/
def directFirstTrue : List (List (Logged Value)) → Logged (Option Answer)
  | pair :: rest =>
      atPlace pair 0 fun test => do
        let v ← test
        match v.toBool with
        | .error e => pure (some (.error e))
        | .ok true => atPlace pair 1 fun yes => some <$> answerOf yes
        | .ok false => directFirstTrue rest
  | [] => pure (some (.ok (.error .notAvailable)))

/-- The argument after the first true one; the arguments have to come in pairs. -/
def directChoices (runs : List (Logged Value)) : Logged (Option Answer) :=
  if runs.length % 2 = 1 then
    pure (some (.error (.argumentCount "IFS" "condition/value pairs" runs.length)))
  else directFirstTrue (inPairs runs)

/-- The first argument, or the second if the first is an error of the given kind. -/
def directReplacing (caught : ErrorValue → Bool) (runs : List (Logged Value)) : Logged (Option Answer) :=
  atPlace runs 0 fun run => do
    let (v, mark) ← Logged.marked run
    match v with
    | .error e =>
        if caught e then
          Logged.keep mark
          atPlace runs 1 fun other => some <$> answerOf other
        else pure (some (.ok v))
    | v => pure (some (.ok v))

/-- The second one of the first pair whose first one is a case for a value, or the last argument if it
stands alone. -/
def directFirstCase (v : Value) : List (List (Logged Value)) → Logged (Option Answer)
  | [otherwise] :: _ => some <$> answerOf otherwise
  | pair :: rest =>
      atPlace pair 0 fun test => do
        let w ← test
        match w with
        | .error e => pure (some (.ok (.error e)))
        | w =>
            if isCaseFor v w then atPlace pair 1 fun yes => some <$> answerOf yes
            else directFirstCase v rest
  | [] => pure (some (.ok (.error .notAvailable)))

/-- The argument after the first case for the first argument. -/
def directSwitch (runs : List (Logged Value)) : Logged (Option Answer) :=
  atPlace runs 0 fun subject => do
    let v ← subject
    match v with
    | .error e => pure (some (.ok (.error e)))
    | v => fromPlace runs 1 fun cases => directFirstCase v (inPairs cases)

/-- The argument with the number that the first argument says. -/
def directChoose (runs : List (Logged Value)) : Logged (Option Answer) :=
  atPlace runs 0 fun number => do
    let v ← number
    match v.toNumber with
    | .error e => pure (some (.error e))
    | .ok n =>
        fromPlace runs 1 fun choices =>
          match choiceAt? n.trunc choices with
          | some run => some <$> answerOf run
          | none =>
              pure (some (.error (.type
                ("CHOOSE index " ++ n.trunc.toText ++ " is outside 1.." ++ toString choices.length))))

end Functions

/-! ## The library by index -/

open Functions

/-- What a function does that reads by index: nothing, if an index is out of range. -/
inductive Direct where
  /-- It works on values. -/
  | eager (answer : List Value → Option Answer)
  /-- It runs the arguments that it needs. -/
  | lazy (answer : List (Logged Value) → Logged (Option Answer))

/-- All functions with their names, as they read by index. -/
def directLibrary : List (String × Direct) :=
  [("ABS", .eager (atOne absolute)),
    ("AND", .eager (atAll conjunction)),
    ("AVERAGE", .eager (atAll average)),
    ("AVERAGEIF", .eager (atTwoOrThree averageIf)),
    ("CEILING", .eager (atTwo ceiling)),
    ("CEILING.MATH", .eager (atOneToThree ceilingMath)),
    ("CHOOSE", .lazy directChoose),
    ("CONCAT", .eager (atAll joinedCells)),
    ("CONCATENATE", .eager (atAll concatenation)),
    ("COUNT", .eager (atAll count)),
    ("COUNTA", .eager (atAll countFilled)),
    ("COUNTIF", .eager (atTwo countIf)),
    ("EXACT", .eager (atTwo identical)),
    ("FALSE", .eager (atAll (withNone (.ok (.boolean false))))),
    ("FLOOR", .eager (atTwo floor)),
    ("FLOOR.MATH", .eager (atOneToThree floorMath)),
    ("HLOOKUP", .eager fun vs => (atThreeOrFour directHorizontalLookup vs).join),
    ("IF", .lazy directChoice),
    ("IFERROR", .lazy (directReplacing fun _ => true)),
    ("IFNA", .lazy (directReplacing (· == .notAvailable))),
    ("IFS", .lazy directChoices),
    ("INDEX", .eager (atTwoOrThree index)),
    ("INT", .eager (atOne integer)),
    ("ISBLANK", .eager (atOne isBlank)),
    ("ISERROR", .eager (atOne isError)),
    ("ISLOGICAL", .eager (atOne isLogical)),
    ("ISNA", .eager (atOne isNotAvailable)),
    ("ISNUMBER", .eager (atOne isNumber)),
    ("ISTEXT", .eager (atOne isText)),
    ("LEFT", .eager (atOneOrTwo leftPart)),
    ("LEN", .eager (atOne textLength)),
    ("LOWER", .eager (atOne lowerCase)),
    ("MATCH", .eager (atTwoOrThree position)),
    ("MAX", .eager (atAll maximum)),
    ("MID", .eager (atThree middlePart)),
    ("MIN", .eager (atAll minimum)),
    ("MOD", .eager (atTwo modulo)),
    ("MROUND", .eager (atTwo nearestMultiple)),
    ("N", .eager (atOne numberOf)),
    ("NA", .eager (atAll (withNone notAvailable))),
    ("NOT", .eager (atOne negation)),
    ("OR", .eager (atAll disjunction)),
    ("POWER", .eager (atTwo powerOf)),
    ("PRODUCT", .eager (atAll product)),
    ("RIGHT", .eager (atOneOrTwo rightPart)),
    ("ROUND", .eager (atTwo (roundBy .halfAway))),
    ("ROUNDDOWN", .eager (atTwo (roundBy .towardZero))),
    ("ROUNDUP", .eager (atTwo (roundBy .away))),
    ("SIGN", .eager (atOne sign)),
    ("SQRT", .eager (atOne squareRoot)),
    ("SUM", .eager (atAll sum)),
    ("SUMIF", .eager (atTwoOrThree sumIf)),
    ("SUMPRODUCT", .eager directSumProduct),
    ("SWITCH", .lazy directSwitch),
    ("TEXT", .eager (atTwo textFromNumber)),
    ("TRIM", .eager (atOne spaced)),
    ("TRUE", .eager (atAll (withNone (.ok (.boolean true))))),
    ("TRUNC", .eager (atOneOrTwo truncate)),
    ("UPPER", .eager (atOne upperCase)),
    ("VALUE", .eager (atOne numberFromText)),
    ("VLOOKUP", .eager fun vs => (atThreeOrFour directVerticalLookup vs).join),
    ("XOR", .eager (atAll parity))]

/-- What the function with a name does, reading by index. -/
def direct? (name : String) : Option Direct := (directLibrary.find? fun d => d.1 == name).map (·.2)

end PaintQuote.Formula
