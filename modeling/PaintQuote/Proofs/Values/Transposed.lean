import PaintQuote.Proofs.Values.Like
import PaintQuote.Proofs.Values.OtherKinds

/-!
# Tables and their transposes

A vertical lookup finds a value in the first column of a table and answers with what stands beside it.  A
horizontal lookup does the same in the transposed table (`settled_horizontalLookup`), and so does an
indexing of the table by the position of the value in its first column (`settled_index_position`), for
every value looked for, an error, an array or nothing among them.
-/

namespace PaintQuote.Formula

open Sheet

/-! ## Tables -/

/-- The columns of a grid as rows. -/
def transposeRows (rows : List (List CellValue)) : List (List CellValue) :=
  (List.range (rows.headD []).length).map fun column => rows.filterMap fun row => row[column]?

namespace Value

/-- The table with the columns as rows. -/
def transposed : Value → Value
  | scalar v => scalar v
  | array rows => array (transposeRows rows)

/-- The first column of a table. -/
def firstColumn (v : Value) : Value := array (v.grid.map fun row => row.take 1)

/-- A value is a table if it has rows and all of them have one width, which is not zero.  An error is
none. -/
structure IsTable (table : Value) (width : Nat) : Prop where
  no_error : table.error? = none
  ne_nil : table.grid ≠ []
  width_pos : 0 < width
  length_eq : ∀ row ∈ table.grid, row.length = width

end Value

section

variable {rows : List (List CellValue)} {width i j : Nat}

theorem filterMap_getElem? (h : ∀ row ∈ rows, row.length = width) (hj : j < width) :
    (rows.filterMap fun row => row[j]?)[i]? = rows[i]?.bind fun row => row[j]? := by
  induction rows generalizing i with
  | nil => rfl
  | cons row rows ih =>
      have hrow : j < row.length := by
        rw [h row List.mem_cons_self]
        exact hj
      simp only [List.filterMap_cons, List.getElem?_eq_getElem hrow]
      cases i with
      | zero => exact (List.getElem?_eq_getElem hrow).symm
      | succ i => exact ih fun row hrow => h row (List.mem_cons_of_mem _ hrow)

end

namespace Value.IsTable

variable {table : Value} {width i j : Nat}

theorem dimensions_eq (h : table.IsTable width) : dimensions table.grid = (table.grid.length, width) := by
  cases hgrid : table.grid with
  | nil => exact absurd hgrid h.ne_nil
  | cons row rows =>
      rw [dimensions, List.headD_cons, h.length_eq row (hgrid ▸ List.mem_cons_self)]

theorem transposed_grid (h : table.IsTable width) :
    table.transposed.grid =
      (List.range width).map fun column => table.grid.filterMap fun row => row[column]? := by
  have hwidth : (table.grid.headD []).length = width := congrArg Prod.snd h.dimensions_eq
  cases table with
  | scalar v =>
      rw [← hwidth]
      rfl
  | array rows =>
      rw [← hwidth]
      rfl

theorem transposed_error? (h : table.IsTable width) : table.transposed.error? = none := by
  cases table with
  | scalar v => exact h.no_error
  | array rows => rfl

theorem transposed_height (h : table.IsTable width) :
    (dimensions table.transposed.grid).1 = width := by
  rw [dimensions, h.transposed_grid, List.length_map, List.length_range]

/-- The first row of the transposed table is the first column. -/
theorem transposed_head (h : table.IsTable width) :
    table.transposed.grid.headD [] = table.grid.filterMap List.head? := by
  obtain ⟨width, rfl⟩ := Nat.exists_eq_succ_of_ne_zero h.width_pos.ne'
  rw [h.transposed_grid, List.range_succ_eq_map, List.map_cons, List.headD_cons]
  simp only [List.head?_eq_getElem?]

/-- What stands in a column of a row stands in the row of a column of the transposed table. -/
theorem transposed_cell (h : table.IsTable width) (hj : j < width) :
    (table.transposed.grid[j]?.bind fun row => row[i]?) = table.grid[i]?.bind fun row => row[j]? := by
  rw [h.transposed_grid, List.getElem?_map, List.getElem?_range hj]
  exact filterMap_getElem? h.length_eq hj

end Value.IsTable

/-! ## Lookups -/

namespace Functions

variable {v table column : Value} {approximate type : Option Value} {width : Nat}

/-- A lookup whose table is no error. -/
theorem verticalLookup_of_table (h : table.error? = none) :
    verticalLookup v table column approximate = (do
      let value ← lookupValue v
      let number ← wholeNumber column
      let place ← lineIndex "Column" "column" number (Value.dimensions table.grid).2
      let mode ← tableMode approximate
      let row ← orNotFound (findPosition? mode value (table.grid.filterMap List.head?))
      let found ← orNotFound ((table.grid[row]?).bind fun r => r[place]?)
      .ok (.scalar found)) := by
  cases table with
  | scalar v =>
      cases v with
      | error e => cases h
      | _ => rfl
  | array rows => rfl

theorem horizontalLookup_of_table (h : table.error? = none) :
    horizontalLookup v table column approximate = (do
      let value ← lookupValue v
      let number ← wholeNumber column
      let place ← lineIndex "Row" "row" number (Value.dimensions table.grid).1
      let mode ← tableMode approximate
      let row ← orNotFound (findPosition? mode value (table.grid.headD []))
      let found ← orNotFound ((table.grid[place]?).bind fun r => r[row]?)
      .ok (.scalar found)) := by
  cases table with
  | scalar v =>
      cases v with
      | error e => cases h
      | _ => rfl
  | array rows => rfl

/-- Outside a table the number of a line is refused, whatever the line is called. -/
theorem lineIndex_outside (line way : String) {number : Int} {count : Nat}
    (h : number < 1 ∨ (count : Int) < number) :
    ∃ e, lineIndex line way number count = .error e ∧
      e.cellError = if number < 1 then .value else .reference := by
  unfold lineIndex
  split
  next => exact ⟨_, rfl, rfl⟩
  next hpos =>
    rw [if_pos (by omega)]
    exact ⟨_, rfl, rfl⟩

theorem lineIndex_inside (line way : String) {number : Int} {count : Nat} (hpos : 1 ≤ number)
    (hle : number ≤ count) : lineIndex line way number count = .ok (number - 1).toNat := by
  rw [lineIndex, if_neg (by omega), if_neg (by omega)]

/-- A horizontal lookup in the transposed table settles to what a vertical one in the table settles
to. -/
theorem settled_horizontalLookup (h : table.IsTable width) :
    settled (horizontalLookup v table.transposed column approximate) =
      settled (verticalLookup v table column approximate) := by
  rw [horizontalLookup_of_table h.transposed_error?, verticalLookup_of_table h.no_error,
    h.transposed_height, h.transposed_head, h.dimensions_eq]
  cases lookupValue v with
  | error e => rfl
  | ok value =>
      cases wholeNumber column with
      | error e => rfl
      | ok number =>
          by_cases hin : 1 ≤ number ∧ number ≤ width
          · simp only [lineIndex_inside _ _ hin.1 hin.2, bind, Except.bind,
              fun i => h.transposed_cell (i := i) (j := (number - 1).toNat) (by omega)]
          · have hout : number < 1 ∨ (width : Int) < number := by omega
            obtain ⟨e, he, hcell⟩ := lineIndex_outside "Row" "row" hout
            obtain ⟨e', he', hcell'⟩ := lineIndex_outside "Column" "column" hout
            simp only [he, he', bind, Except.bind, settled, hcell, hcell']

/-! ## Positions in the first column -/

theorem cells_firstColumn (table : Value) :
    table.firstColumn.cells = table.grid.filterMap List.head? := by
  show (table.grid.map fun row => row.take 1).flatten = _
  induction table.grid with
  | nil => rfl
  | cons row rows ih =>
      rw [List.map_cons, List.flatten_cons, ih]
      cases row <;> rfl

theorem dimensions_firstColumn (h : table.IsTable width) :
    (Value.dimensions table.firstColumn.grid).2 = 1 := by
  show (Value.dimensions (table.grid.map fun row => row.take 1)).2 = 1
  cases hgrid : table.grid with
  | nil => exact absurd hgrid h.ne_nil
  | cons row rows =>
      have hpos := h.width_pos
      rw [← h.length_eq row (hgrid ▸ List.mem_cons_self)] at hpos
      show (row.take 1).length = 1
      rw [List.length_take]
      omega

/-- The match type of a table lookup that is approximate or not. -/
def typeOfMode (approximate : Bool) : Value := .number (if approximate then 1 else 0)

theorem position_firstColumn (h : table.IsTable width) (approximate : Bool) :
    position v table.firstColumn (some (typeOfMode approximate)) = (do
      let value ← lookupValue v
      let found ← orNotFound
        (findPosition? (if approximate then .ascending else .exact) value
          (table.grid.filterMap List.head?))
      .ok (countValue (found + 1))) := by
  have hnarrow : ¬ (1 < (Value.dimensions table.firstColumn.grid).1 ∧
      1 < (Value.dimensions table.firstColumn.grid).2) := by
    rw [dimensions_firstColumn h]
    omega
  have htype : wholeOrDefault (some (typeOfMode approximate)) 1 =
      .ok (if approximate then 1 else 0) := by
    cases approximate <;> decide +kernel
  have hmode : modeOfType (if approximate then 1 else 0) =
      if approximate then .ascending else .exact := by
    cases approximate <;> rfl
  have hfold : Value.array (table.grid.map fun row => row.take 1) = table.firstColumn := rfl
  simp only [position, Value.firstColumn, bind, Except.bind]
  simp only [hfold, if_neg hnarrow, htype, hmode, cells_firstColumn]

/-- The number of a place is read back, as long as it fits a machine word. -/
theorem wholeNumber_countValue {n : Nat} (h : n < 0x8000000000000000) :
    wholeNumber (countValue n) = .ok (n : Int) := by
  have hmin : min n (Decimal.coefficientLimit - 1) = n := by
    simp only [Decimal.coefficientLimit]
    omega
  have hwhole : (Decimal.ofNat n).trunc = Decimal.ofNat n := Decimal.quantize_of_le _ (Nat.le_refl _)
  have hword : (Decimal.ofNat n).toInt64? = some (n : Int) := by
    simp only [Decimal.toInt64?, Decimal.ofNat, tenTo_zero, Nat.div_one, hmin]
    rw [if_neg Bool.false_ne_true, if_pos h]
  show orNumberError (Decimal.ofNat n).trunc.toInt64? = _
  rw [hwhole, hword]
  rfl

theorem error?_of_wholeNumber {number : Value} {k : Int} (h : wholeNumber number = .ok k) :
    number.error? = none := by
  cases number with
  | array rows => rfl
  | scalar c =>
      cases c with
      | error e => cases h
      | _ => rfl

/-- An indexing of a table by a row and a column gives what stands there. -/
theorem index_of_cell {row number : Value} {r k : Int} {c : CellValue} (h : table.error? = none)
    (hrow : wholeNumber row = .ok r) (hnumber : wholeNumber number = .ok k) (hr : 1 ≤ r) (hk : 1 ≤ k)
    (hc : (table.grid[(r - 1).toNat]?.bind fun cells => cells[(k - 1).toNat]?) = some c) :
    index table row (some number) = .ok (.scalar c) := by
  have hnone : firstError? (table :: row :: (some number).toList) = none := by
    simp [firstError?, h, error?_of_wholeNumber hrow, error?_of_wholeNumber hnumber]
  have hinside : ¬ (r < 1 ∨ k < 1) := by omega
  simp only [index, hnone, indexPlace, hrow, hnumber, bind, Except.bind, if_neg hinside, hc]

/-- An indexing by an error settles to the error. -/
theorem settled_index_error (h : table.error? = none) (number : Value) (e : ErrorValue) :
    settled (index table (.error e) (some number)) = .error e := by
  have herror : firstError? (table :: Value.error e :: (some number).toList) = some e := by
    rw [firstError?, List.findSome?_cons, h]
    rfl
  simp only [index, herror, settled]

/-- A vertical lookup settles to what an indexing by the position in the first column settles to. -/
theorem settled_index_position (h : table.IsTable width) (hsize : table.grid.length < 0x8000000000000000)
    {k : Int} (hcolumn : wholeNumber column = .ok k) (hpos : 1 ≤ k) (hle : k ≤ width)
    (approximate : Bool) :
    settled (index table (settled (position v table.firstColumn (some (typeOfMode approximate))))
        (some column)) =
      settled (verticalLookup v table column (some (.boolean approximate))) := by
  have hmode : tableMode (some (.boolean approximate)) =
      .ok (if approximate then .ascending else .exact) := rfl
  rw [position_firstColumn h, verticalLookup_of_table h.no_error, h.dimensions_eq, hcolumn, hmode]
  cases lookupValue v with
  | error e => exact settled_index_error h.no_error column _
  | ok value =>
      simp only [lineIndex_inside _ _ hpos hle, bind, Except.bind]
      cases hfound : findPosition? (if approximate then MatchMode.ascending else .exact) value
          (table.grid.filterMap List.head?) with
      | none => exact settled_index_error h.no_error column _
      | some i =>
          obtain ⟨key, hkey, -⟩ := of_findPosition? hfound
          have hi : i < table.grid.length :=
            Nat.lt_of_lt_of_le (List.getElem?_eq_some_iff.1 hkey).1 (List.length_filterMap_le _ _)
          have hplace : (k - 1).toNat < (table.grid[i]).length := by
            rw [h.length_eq _ (List.getElem_mem hi)]
            omega
          have hcell : (table.grid[i]?.bind fun cells => cells[(k - 1).toNat]?) =
              some (table.grid[i])[(k - 1).toNat] := by
            rw [List.getElem?_eq_getElem hi, Option.bind_some, List.getElem?_eq_getElem hplace]
          have hrow : (((i + 1 : Nat) : Int) - 1).toNat = i := by omega
          have hindex : index table (countValue (i + 1)) (some column) =
              .ok (.scalar (table.grid[i])[(k - 1).toNat]) :=
            index_of_cell h.no_error (wholeNumber_countValue (by omega)) hcolumn (by omega) hpos
              (by rw [hrow, hcell])
          simp only [orNotFound, hcell, settled, hindex]

/-- Outside the table both lookups settle to one error. -/
theorem settled_lookup_outside (v : Value) (approximate : Option Value) (h : table.IsTable width) {k : Int}
    (hcolumn : wholeNumber column = .ok k) (hout : k < 1 ∨ (width : Int) < k) :
    ∃ e, settled (verticalLookup v table column approximate) = .error e := by
  rw [verticalLookup_of_table h.no_error, h.dimensions_eq, hcolumn]
  cases lookupValue v with
  | error e => exact ⟨_, rfl⟩
  | ok value =>
      obtain ⟨e, he, -⟩ := lineIndex_outside "Column" "column" hout
      simp only [he, bind, Except.bind]
      exact ⟨_, rfl⟩

/-- A vertical lookup in a column of a table is an indexing of the table by the position in its first
column, and in every column, or outside the table, a horizontal lookup in the transposed table.  The
position comes back as a number and is read again, so that the rows have to be countable in a machine
word. -/
theorem lookups_agree (v table column : Value) (width : Nat) (h : table.IsTable width)
    (hsize : table.grid.length < 0x8000000000000000) :
    (∀ k, wholeNumber column = .ok k → 1 ≤ k → k ≤ width → ∀ approximate : Bool,
      settled (verticalLookup v table column (some (.boolean approximate))) =
        settled (index table
          (settled (position v table.firstColumn (some (.number (if approximate then 1 else 0)))))
          (some column))) ∧
    (∀ approximate : Option Value,
      settled (horizontalLookup v table.transposed column approximate) =
        settled (verticalLookup v table column approximate)) ∧
    ∀ k, wholeNumber column = .ok k → k < 1 ∨ (width : Int) < k → ∀ approximate : Option Value,
      ∃ e, settled (verticalLookup v table column approximate) = .error e ∧
        settled (horizontalLookup v table.transposed column approximate) = .error e := by
  refine ⟨fun k hk hpos hle approximate => ?_, fun approximate => settled_horizontalLookup h,
    fun k hk hout approximate => ?_⟩
  · exact (settled_index_position h hsize hk hpos hle approximate).symm
  · obtain ⟨e, he⟩ := settled_lookup_outside v approximate h hk hout
    exact ⟨e, he, (settled_horizontalLookup h).trans he⟩

/-- The price of a paint beside a blank and an error, and a column that the table has not. -/
theorem lookups_agree_prices :
    let prices : Value := .array [[.text "eggshell", .number 31], [.empty, .error .notAvailable],
      [.text "matt", .number 24]]
    prices.IsTable 2 ∧
      settled (verticalLookup (.text "Matt") prices (.number 2) (some (.boolean false))) = .number 24 ∧
      settled (index prices (settled (position (.text "Matt") prices.firstColumn (some (.number 0))))
        (some (.number 2))) = .number 24 ∧
      settled (horizontalLookup (.text "Matt") prices.transposed (.number 2) (some (.boolean false))) =
        .number 24 ∧
      settled (verticalLookup (.text "Matt") prices (.number 3) none) = .error .reference ∧
      settled (horizontalLookup (.text "Matt") prices.transposed (.number 3) none) =
        .error .reference := by
  intro prices
  have htable : prices.IsTable 2 := ⟨rfl, by decide, by decide, by decide⟩
  have hfound : settled (verticalLookup (.text "Matt") prices (.number 2) (some (.boolean false))) =
      .number 24 := by
    decide +kernel
  have hmissed : settled (verticalLookup (.text "Matt") prices (.number 3) none) = .error .reference := by
    decide +kernel
  obtain ⟨hindex, hhorizontal, -⟩ :=
    lookups_agree (.text "Matt") prices (.number 2) 2 htable (by decide)
  obtain ⟨-, -, houtside⟩ := lookups_agree (.text "Matt") prices (.number 3) 2 htable (by decide)
  refine ⟨htable, hfound, ?_, ?_, hmissed, ?_⟩
  · rw [← hfound]
    exact (hindex 2 (by decide +kernel) (by decide) (by decide) false).symm
  · rw [← hfound]
    exact hhorizontal _
  · obtain ⟨e, hvertical, hhorizontal⟩ := houtside 3 (by decide +kernel) (by decide) none
    rw [hhorizontal, ← hvertical, hmissed]

end Functions

end PaintQuote.Formula
