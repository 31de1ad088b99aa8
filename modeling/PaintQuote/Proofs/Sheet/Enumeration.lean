import PaintQuote.Engine.Edges
import PaintQuote.Proofs.Evaluation.Notes
import PaintQuote.Proofs.Evaluation.Reads
import PaintQuote.Proofs.Sheet.Ranges

/-!
# The cells of a range, one after the other

Three things go through the cells of a range.  A cursor counts columns and rows, and apart from them the
cells that are left; the value of a range is made by reading row after row; and a formula that refers to
the range reads what is collected for it.  All three have the same cells in the same order, which is the
order of addresses.

On a sheet the numbers of a cursor stay within words of 32, 16 and 64 bits, behind the last cell as well:
at most one row below the last row of the sheet is counted, and no column to the right of the range
(`Range.fits_cursorAt`).

* `Range.cells_enumerate`: the cells of the range between two corners.
-/

namespace PaintQuote

open Sheet Formula Engine

/-! ## Cursors -/

namespace Sheet.Range

/-- Whether the row of a cursor has room in 32 bits, its column in 16 and its number of cells in 64. -/
structure Cursor.Fits (c : Cursor) : Prop where
  row : c.row < twoTo 32
  column : c.column < twoTo 16
  remaining : c.remaining < twoTo 64

/-- A cursor gives these cells and then nothing more, and its numbers have room all the way. -/
def Cursor.Yields : Cursor → List Address → Prop
  | c, [] => c.Fits ∧ c.next? = none
  | c, a :: cells => c.Fits ∧ ∃ d, c.next? = some (a, d) ∧ d.Yields cells

section

variable {r : Range}

theorem counts_fit (hstop : r.stop.InBounds) :
    r.rowCount ≤ rowLimit ∧ r.columnCount ≤ columnLimit ∧ r.cellCount < twoTo 64 := by
  have hrows : r.rowCount ≤ rowLimit := Nat.succ_le_of_lt (Nat.lt_of_le_of_lt (Nat.sub_le _ _) hstop.1)
  have hcolumns : r.columnCount ≤ columnLimit :=
    Nat.succ_le_of_lt (Nat.lt_of_le_of_lt (Nat.sub_le _ _) hstop.2)
  have hcells : r.cellCount ≤ rowLimit * columnLimit := Nat.mul_le_mul hrows hcolumns
  exact ⟨hrows, hcolumns, Nat.lt_of_le_of_lt hcells (by decide)⟩

theorem fits_cursorAt (hstop : r.stop.InBounds) {position : Nat} (h : position ≤ r.cellCount) :
    (r.cursorAt position).Fits := by
  have hrow := r.row_le
  have hcolumn := r.column_le
  have hpos : 0 < r.columnCount := Nat.succ_pos _
  have hi : position / r.columnCount ≤ r.rowCount :=
    Nat.div_le_of_le_mul (Nat.mul_comm r.columnCount _ ▸ h)
  have hj : position % r.columnCount ≤ r.stop.column - r.start.column :=
    Nat.le_of_lt_succ (Nat.mod_lt _ hpos)
  refine ⟨?row, ?column, Nat.lt_of_le_of_lt (Nat.sub_le _ _) (counts_fit hstop).2.2⟩
  case row =>
    calc r.start.row + position / r.columnCount
        ≤ r.start.row + (r.stop.row - r.start.row + 1) := Nat.add_le_add_left hi _
      _ = r.stop.row + 1 := by omega
      _ ≤ rowLimit := hstop.1
      _ < twoTo 32 := by decide
  case column =>
    calc r.start.column + position % r.columnCount
        ≤ r.start.column + (r.stop.column - r.start.column) := Nat.add_le_add_left hj _
      _ = r.stop.column := Nat.add_sub_cancel' hcolumn
      _ < columnLimit := hstop.2
      _ < twoTo 16 := by decide

/-- From each of its places a cursor gives the cells at the positions from there on. -/
theorem yields_cursorAt (hstop : r.stop.InBounds) (count : Nat) : ∀ position,
    position + count = r.cellCount →
      (r.cursorAt position).Yields ((List.range' position count).map r.cellAt) := by
  induction count with
  | zero => exact fun position h => ⟨fits_cursorAt hstop (by omega), next?_cursorAt_end (by omega)⟩
  | succ count ih =>
      intro position h
      exact ⟨fits_cursorAt hstop (by omega), _, next?_cursorAt (by omega), ih (position + 1) (by omega)⟩

theorem yields_cells (hstop : r.stop.InBounds) : r.cursor.Yields r.cells := by
  rw [cursor_eq, cells_eq_map, List.range_eq_range']
  exact yields_cursorAt hstop r.cellCount 0 (Nat.zero_add _)

theorem length_cells (r : Range) : r.cells.length = r.cellCount := by
  rw [cells_eq_map, List.length_map, List.length_range]

/-- The first cells are the beginning of all cells. -/
theorem firstCells_eq_take (r : Range) (count : Nat) : r.firstCells count = r.cells.take count := by
  rw [firstCells, cursor_eq, take_cursorAt, cells_eq_map, ← List.map_take, List.take_range,
    List.range_eq_range', Nat.sub_zero]

/-! ## Order -/

theorem compare_cellAt (r : Range) {p q : Nat} (h : p < q) :
    compare (r.cellAt p) (r.cellAt q) = .lt := by
  have hrow : p / r.columnCount ≤ q / r.columnCount := Nat.div_le_div_right h.le
  have hp := Nat.div_add_mod p r.columnCount
  have hq := Nat.div_add_mod q r.columnCount
  show (compare (r.start.row + p / r.columnCount) (r.start.row + q / r.columnCount)).then
    (compare (r.start.column + p % r.columnCount) (r.start.column + q % r.columnCount)) = .lt
  rcases hrow.lt_or_eq with hlt | heq
  · rw [Nat.compare_eq_lt.2 (Nat.add_lt_add_left hlt _)]
    rfl
  · -- In one row the columns decide.
    rw [heq] at hp
    rw [heq, Nat.compare_eq_eq.2 rfl, Nat.compare_eq_lt.2 (by omega)]
    rfl

/-- The cells are listed by row and then by column, each once. -/
theorem cells_pairwise (r : Range) : r.cells.Pairwise fun p q => compare p q = .lt := by
  rw [cells_eq_map, List.pairwise_map]
  exact List.pairwise_lt_range.imp fun h => r.compare_cellAt h

end

end Sheet.Range

/-! ## Reading -/

namespace Formula

namespace Logged

theorem all_append {α : Type} (runs runs' : List (Logged α)) :
    all (runs ++ runs') = all runs >>= fun as => all runs' >>= fun bs => pure (as ++ bs) := by
  induction runs with
  | nil => simp [all]
  | cons run runs ih => simp [all, ih]

/-- Computations in several lists are run in the order of the lists. -/
theorem all_flatten {α : Type} (lists : List (List (Logged α))) :
    List.flatten <$> all (lists.map all) = all lists.flatten := by
  induction lists with
  | nil => simp [all]
  | cons runs lists ih => simp [all, all_append, ← ih]

end Logged

/-- The value of a range is what its cells are read as, one after the other. -/
theorem Context.cells_rangeValue {c : Context} {sheet? : Option SheetName} {sheet : SheetName}
    (h : c.resolve sheet? = .ok sheet) (area : Range) :
    Value.cells <$> c.rangeValue sheet? area =
      Logged.all ((area.cells.map (CellKey.mk sheet)).map c.readCell) := by
  have hrows : (area.rows.map fun row => Logged.all (row.map fun address => c.readCell ⟨sheet, address⟩)) =
      (area.rows.map (List.map fun address => c.readCell ⟨sheet, address⟩)).map Logged.all := by
    rw [List.map_map]
    rfl
  have hcells : Value.cells <$> c.rangeValue sheet? area =
      List.flatten <$> Logged.all
        (area.rows.map fun row => Logged.all (row.map fun address => c.readCell ⟨sheet, address⟩)) := by
    simp [rangeValue, h, Value.cells]
  rw [hcells, hrows, Logged.all_flatten, ← List.map_flatten, ← Range.cells_eq_flatten, List.map_map]
  rfl

end Formula

/-! ## Collecting -/

namespace Engine.References

/-- Cells that are collected in their order are listed in this order. -/
theorem toList_addCells {cells : List CellKey} (h : cells.Pairwise fun a b => compare a b = .lt) :
    (References.addCells {} cells).cells.toList = cells := by
  refine Graph.eq_of_mem_iff Std.TreeSet.ordered_toList h fun key => ?_
  rw [Std.TreeSet.mem_toList, mem_addCells]
  exact or_iff_left Std.TreeSet.not_mem_emptyc

/-- On one sheet the cells of a range are in the order of keys. -/
theorem keys_pairwise (sheet : SheetName) (area : Range) :
    (area.cells.map (CellKey.mk sheet)).Pairwise fun a b => compare a b = .lt := by
  refine List.pairwise_map.2 (area.cells_pairwise.imp fun {p q} h => ?_)
  show (compare sheet.text sheet.text).then (compare p q) = .lt
  rw [Std.ReflOrd.compare_self, h]
  rfl

end Engine.References

open Engine.References

/-- The range between two corners on a sheet has the cells that lie in it, each once, by row and then by
column.  A cursor gives just these and its numbers have room, the value of the range is made by reading
these, unless its sheet does not exist, and these are collected for a reference to the range and for a
name of it. -/
theorem Sheet.Range.cells_enumerate (a b : Address) (ha : a.InBounds) (hb : b.InBounds) :
    let r := Range.between a b
    (r.rowCount < twoTo 32 ∧ r.columnCount < twoTo 16 ∧ r.cellCount < twoTo 64 ∧
      r.cursor.Yields r.cells) ∧
    (∀ p, p ∈ r.cells ↔ r.contains p = true) ∧
    (r.cells.Pairwise fun p q => compare p q = .lt) ∧
    r.cells.length = r.cellCount ∧
    (∀ (c : Context) (sheet? : Option SheetName),
      match c.resolve sheet? with
      | .ok sheet => Value.cells <$> c.rangeValue sheet? r =
          Logged.all ((r.cells.map (CellKey.mk sheet)).map c.readCell)
      | .error e => c.rangeValue sheet? r = Logged.fail e) ∧
    (∀ (names : NameTable) (sheet : SheetName) (reference : RangeReference), reference.area = r →
      (References.ofExpr names sheet (.range reference)).cells.toList =
        r.cells.map (CellKey.mk (reference.sheet?.getD sheet))) ∧
    ∀ (names : NameTable) (sheet on : SheetName) (name : String) (defined : DefinedName),
      names.find? name = some defined → defined.target = .range on r →
        (References.ofExpr names sheet (.name name)).cells.toList = r.cells.map (CellKey.mk on) := by
  obtain ⟨-, hstop⟩ := inBounds_between ha hb
  obtain ⟨hrows, hcolumns, hcells⟩ := counts_fit hstop
  refine ⟨⟨Nat.lt_of_le_of_lt hrows (by decide), Nat.lt_of_le_of_lt hcolumns (by decide), hcells,
    yields_cells hstop⟩, fun _ => mem_cells, cells_pairwise _, length_cells _, ?read, ?collected, ?named⟩
  case read =>
    intro c sheet?
    cases h : c.resolve sheet? with
    | ok sheet => exact Context.cells_rangeValue h _
    | error e =>
        rw [Context.rangeValue, h]
  case collected =>
    rintro names sheet reference harea
    rw [ofExpr, collect, harea]
    exact toList_addCells (keys_pairwise _ _)
  case named =>
    intro names sheet on name defined hfind htarget
    rw [ofExpr, collect, addName, hfind, Option.map_some, Option.getD_some, htarget]
    exact toList_addCells (keys_pairwise on _)

/-- The last four cells of a sheet, from the other two corners. -/
theorem Sheet.Range.cells_enumerate_edge :
    (⟨1048575, 16382⟩ : Address).InBounds ∧ (⟨1048574, 16383⟩ : Address).InBounds ∧
      (Range.between ⟨1048575, 16382⟩ ⟨1048574, 16383⟩).cursor.Yields
        [⟨1048574, 16382⟩, ⟨1048574, 16383⟩, ⟨1048575, 16382⟩, ⟨1048575, 16383⟩] := by
  have hcells : (Range.between ⟨1048575, 16382⟩ ⟨1048574, 16383⟩).cells =
      [⟨1048574, 16382⟩, ⟨1048574, 16383⟩, ⟨1048575, 16382⟩, ⟨1048575, 16383⟩] := by decide
  refine ⟨by decide, by decide, hcells ▸ ?_⟩
  exact (cells_enumerate ⟨1048575, 16382⟩ ⟨1048574, 16383⟩ (by decide) (by decide)).1.2.2.2

end PaintQuote
