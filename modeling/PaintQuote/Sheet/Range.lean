import PaintQuote.Sheet.Address

/-!
# Ranges

Rectangles of cells.  The corners of a range are its top left and its bottom right cell, whichever
corners it was made from.  Its cells are listed row by row by a `Cursor`, which counts columns, rows and
the cells that are left; `rows` lists them by nested lists.  The cell that a cursor comes to is that at
its position (`next?_cursorAt`), so the list is exactly what lies in the range (`mem_cells`).
-/

namespace PaintQuote.Sheet

open Text

/-- A rectangle of cells. -/
structure Range where
  /-- The top left cell. -/
  start : Address
  /-- The bottom right cell. -/
  stop : Address
  row_le : start.row ≤ stop.row
  column_le : start.column ≤ stop.column
deriving DecidableEq, Repr

namespace Range

/-! ## Construction -/

/-- The range that two opposite corners span. -/
def between (a b : Address) : Range where
  start := ⟨min a.row b.row, min a.column b.column⟩
  stop := ⟨max a.row b.row, max a.column b.column⟩
  row_le := Nat.le_trans (Nat.min_le_left _ _) (Nat.le_max_left _ _)
  column_le := Nat.le_trans (Nat.min_le_left _ _) (Nat.le_max_left _ _)

/-- The range of one cell. -/
def single (a : Address) : Range := ⟨a, a, Nat.le_refl _, Nat.le_refl _⟩

/-! ## Cells -/

/-- Whether a cell lies in the range. -/
def contains (r : Range) (a : Address) : Bool :=
  decide (r.start.row ≤ a.row ∧ a.row ≤ r.stop.row
    ∧ r.start.column ≤ a.column ∧ a.column ≤ r.stop.column)

/-- The number of rows. -/
def rowCount (r : Range) : Nat := r.stop.row - r.start.row + 1

/-- The number of columns. -/
def columnCount (r : Range) : Nat := r.stop.column - r.start.column + 1

/-- The number of cells. -/
def cellCount (r : Range) : Nat := r.rowCount * r.columnCount

/-- The cells of the row with the given index within the range. -/
def rowCells (r : Range) (index : Nat) : List Address :=
  (List.range r.columnCount).map fun j => ⟨r.start.row + index, r.start.column + j⟩

/-- The rows of the range, each with its cells. -/
def rows (r : Range) : List (List Address) := (List.range r.rowCount).map r.rowCells

/-! ## Cells one after the other -/

/-- A place among the cells of a range, which are gone through row by row. -/
structure Cursor where
  /-- The range. -/
  range : Range
  /-- The row of the next cell. -/
  row : Nat
  /-- The column of the next cell. -/
  column : Nat
  /-- The number of cells from here on. -/
  remaining : Nat

namespace Cursor

/-- The place behind the next cell; behind the last column the next row begins. -/
def after (c : Cursor) : Cursor :=
  if c.range.stop.column ≤ c.column then
    { c with row := c.row + 1, column := c.range.start.column, remaining := c.remaining - 1 }
  else { c with column := c.column + 1, remaining := c.remaining - 1 }

/-- The next cell and the place behind it, unless no cell is left. -/
def next? (c : Cursor) : Option (Address × Cursor) :=
  if c.remaining = 0 then none else some (⟨c.row, c.column⟩, c.after)

/-- The next cells, no more than the given number. -/
def take : Nat → Cursor → List Address
  | 0, _ => []
  | count + 1, c =>
      match c.next? with
      | none => []
      | some (a, c) => a :: take count c

end Cursor

/-- The place of the first cell. -/
def cursor (r : Range) : Cursor := ⟨r, r.start.row, r.start.column, r.cellCount⟩

/-- The cells, row by row. -/
def cells (r : Range) : List Address := r.cursor.take r.cellCount

/-- The first cells, row by row; no more than these are listed. -/
def firstCells (r : Range) (count : Nat) : List Address := r.cursor.take count

/-- The cell at the given position, row by row. -/
def cellAt (r : Range) (position : Nat) : Address :=
  ⟨r.start.row + position / r.columnCount, r.start.column + position % r.columnCount⟩

/-- The place of the cell at the given position. -/
def cursorAt (r : Range) (position : Nat) : Cursor :=
  ⟨r, (r.cellAt position).row, (r.cellAt position).column, r.cellCount - position⟩

theorem cursor_eq (r : Range) : r.cursor = r.cursorAt 0 := by
  simp [cursor, cursorAt, cellAt]

theorem cellAt_add (r : Range) (i : Nat) {j : Nat} (hj : j < r.columnCount) :
    r.cellAt (i * r.columnCount + j) = ⟨r.start.row + i, r.start.column + j⟩ := by
  have hpos : 0 < r.columnCount := Nat.succ_pos _
  rw [cellAt, Nat.add_comm (i * _), Nat.add_mul_div_right _ _ hpos, Nat.div_eq_of_lt hj,
    Nat.zero_add, Nat.add_mul_mod_self_right, Nat.mod_eq_of_lt hj]

/-- Every position is in some row and column. -/
theorem exists_position (r : Range) (position : Nat) :
    ∃ i j, j < r.columnCount ∧ position = i * r.columnCount + j :=
  ⟨_, _, Nat.mod_lt position (Nat.succ_pos _), (Nat.div_add_mod' position _).symm⟩

theorem after_cursorAt (r : Range) (position : Nat) :
    (r.cursorAt position).after = r.cursorAt (position + 1) := by
  obtain ⟨i, j, hj, rfl⟩ := r.exists_position position
  have hcolumn := r.column_le
  have hcount : r.columnCount = r.stop.column - r.start.column + 1 := rfl
  simp only [cursorAt, Cursor.after, cellAt_add r i hj]
  by_cases hlast : j + 1 = r.columnCount
  · have hnext : r.cellAt (i * r.columnCount + j + 1) = ⟨r.start.row + (i + 1), r.start.column⟩ := by
      rw [Nat.add_assoc, hlast, ← Nat.succ_mul]
      exact cellAt_add r (i + 1) (Nat.succ_pos _)
    rw [if_pos (by omega), hnext]
    rfl
  · have hnext : r.cellAt (i * r.columnCount + j + 1) = ⟨r.start.row + i, r.start.column + (j + 1)⟩ :=
      cellAt_add r i (j := j + 1) (by omega)
    rw [if_neg (by omega), hnext]
    rfl

theorem next?_cursorAt {r : Range} {position : Nat} (h : position < r.cellCount) :
    (r.cursorAt position).next? = some (r.cellAt position, r.cursorAt (position + 1)) := by
  rw [Cursor.next?, after_cursorAt, cursorAt, if_neg (Nat.sub_ne_zero_of_lt h)]

theorem next?_cursorAt_end {r : Range} {position : Nat} (h : r.cellCount ≤ position) :
    (r.cursorAt position).next? = none := by
  rw [Cursor.next?, cursorAt, if_pos (Nat.sub_eq_zero_of_le h)]

theorem take_cursorAt (r : Range) (count : Nat) : ∀ position, (r.cursorAt position).take count =
    (List.range' position (min count (r.cellCount - position))).map r.cellAt := by
  induction count with
  | zero =>
      intro position
      rw [Nat.zero_min]
      rfl
  | succ count ih =>
      intro position
      by_cases h : position < r.cellCount
      · have hmin : min (count + 1) (r.cellCount - position) =
            min count (r.cellCount - (position + 1)) + 1 := by omega
        rw [Cursor.take, next?_cursorAt h, hmin, List.range'_succ, List.map_cons, ← ih]
      · rw [Cursor.take, next?_cursorAt_end (Nat.not_lt.1 h), Nat.sub_eq_zero_of_le (Nat.not_lt.1 h),
          Nat.min_zero]
        rfl

/-- The cells are those at the positions up to their number. -/
theorem cells_eq_map (r : Range) : r.cells = (List.range r.cellCount).map r.cellAt := by
  rw [cells, cursor_eq, take_cursorAt, Nat.sub_zero, Nat.min_self, List.range_eq_range']

/-- The list of a cursor is that of the rows, one after the other. -/
theorem cells_eq_flatten (r : Range) : r.cells = r.rows.flatten := by
  have hrows : ∀ count, (List.range (count * r.columnCount)).map r.cellAt =
      ((List.range count).map r.rowCells).flatten := by
    intro count
    induction count with
    | zero => simp
    | succ count ih =>
        have hrow : ((List.range r.columnCount).map (count * r.columnCount + ·)).map r.cellAt =
            r.rowCells count := by
          rw [List.map_map]
          exact List.map_congr_left fun j hj => cellAt_add r count (List.mem_range.1 hj)
        rw [Nat.succ_mul, List.range_add, List.map_append, ih, hrow, List.range_succ, List.map_append,
          List.flatten_append, List.map_singleton, List.flatten_singleton]
  rw [cells_eq_map, cellCount, hrows, rows]

theorem mem_rowCells {r : Range} {index : Nat} {a : Address} :
    a ∈ r.rowCells index ↔
      a.row = r.start.row + index ∧ r.start.column ≤ a.column ∧ a.column ≤ r.stop.column := by
  have hc := r.column_le
  simp only [rowCells, columnCount, List.mem_map, List.mem_range]
  constructor
  · rintro ⟨j, hj, rfl⟩
    exact ⟨rfl, Nat.le_add_right _ _, by show r.start.column + j ≤ _; omega⟩
  · rintro ⟨h₁, h₂, h₃⟩
    refine ⟨a.column - r.start.column, by omega, ?_⟩
    cases a
    simp_all

/-- The cells of a range are the cells that lie in it. -/
theorem mem_cells {r : Range} {a : Address} : a ∈ r.cells ↔ r.contains a := by
  have hr := r.row_le
  simp only [cells_eq_flatten, rows, rowCount, List.mem_flatten, List.mem_map, List.mem_range,
    contains, decide_eq_true_eq]
  constructor
  · rintro ⟨_, ⟨i, hi, rfl⟩, ha⟩
    obtain ⟨h₁, h₂, h₃⟩ := mem_rowCells.1 ha
    omega
  · rintro ⟨h₁, h₂, h₃, h₄⟩
    exact ⟨_, ⟨a.row - r.start.row, by omega, rfl⟩, mem_rowCells.2 ⟨by omega, h₃, h₄⟩⟩

theorem start_mem_cells (r : Range) : r.start ∈ r.cells := by
  rw [mem_cells, contains, decide_eq_true_iff]
  exact ⟨Nat.le_refl _, r.row_le, Nat.le_refl _, r.column_le⟩

/-! ## Text -/

/-- Whether a range has one cell. -/
def isSingle (r : Range) : Bool := r.start == r.stop

/-- The text of a range: its corners, or its only cell. -/
def toText (r : Range) : String :=
  if r.isSingle then r.start.toText else r.start.toText ++ ":" ++ r.stop.toText

/-- The range written in a text: two corners with a colon between them, or one cell. -/
def ofChars (cs : List Char) : Except ReferenceError Range :=
  let body := trim cs
  let corner (part : List Char) :=
    (Address.ofChars part).mapError (ReferenceError.range (String.ofList body))
  match cutFirst? ':' body with
  | some (first, second) => do
      let a ← corner first
      let b ← corner second
      .ok (between a b)
  | none => (Address.ofChars body).map single

/-- The range written in a text. -/
def ofText (s : String) : Except ReferenceError Range := ofChars s.toList

example : (between ⟨2, 1⟩ ⟨0, 3⟩).toText = "B1:D3" := by decide +kernel
example : (between ⟨0, 0⟩ ⟨1, 1⟩).cells = [⟨0, 0⟩, ⟨0, 1⟩, ⟨1, 0⟩, ⟨1, 1⟩] := by decide

end Range

end PaintQuote.Sheet
