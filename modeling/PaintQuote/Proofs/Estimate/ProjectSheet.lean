import PaintQuote.Proofs.Estimate.Discounts
import PaintQuote.Proofs.Estimate.Meaning

/-!
# What the formulas of a project read

On the sheet of a project, a range of rooms gives what the rows have in its column
(`Page.gives_roomRange`), and the formulas in column J sum columns up: a total is the sum of the numbers
from the first row on, or the first error (`Page.gives_total`).  The number of rooms is the number of
names, whatever they are (`Page.gives_names`), and the discount is the one for this number
(`Page.exists_discount`).  The price of a tier is what the prices of the rooms come to, less the discount
(`Page.value_price`).
-/

namespace PaintQuote

open Sheet Formula Engine Estimate

/-! ## Sums of cells -/

namespace Formula.Functions

/-- The sum of the numbers in cells, or the first error among the cells. -/
def cellTotal (vs : List CellValue) : CellValue :=
  match cellNumbers vs with
  | .ok ns => .checked (sumOf ns)
  | .error e => .error e.cellError

theorem cellTotal_ne_empty (vs : List CellValue) : cellTotal vs ≠ .empty := by
  unfold cellTotal
  cases cellNumbers vs with
  | ok ns => exact CellValue.checked_ne_empty _
  | error e => nofun

theorem cellNumbers_numbers (ns : List Decimal) : cellNumbers (ns.map .number) = .ok ns := by
  induction ns with
  | nil => rfl
  | cons n ns ih => rw [List.map_cons, cellNumbers, ih]; rfl

theorem cellTotal_numbers (ns : List Decimal) : cellTotal (ns.map .number) = .checked (sumOf ns) := by
  rw [cellTotal, cellNumbers_numbers]

theorem flatten_singletons {α β : Type} (f : α → β) (xs : List α) :
    (xs.map fun x => [f x]).flatten = xs.map f := by
  induction xs with
  | nil => rfl
  | cons x xs ih => rw [List.map_cons, List.flatten_cons, ih]; rfl

theorem settled_sum {rows : List (List CellValue)} :
    settled (sum [.array rows]) = .scalar (cellTotal rows.flatten) := by
  rw [sum, cellTotal]
  simp only [numbers, bind, Except.bind]
  cases cellNumbers rows.flatten with
  | error e => rfl
  | ok ns =>
      simp only [List.append_nil]
      cases sumOf ns <;> rfl

end Formula.Functions

namespace Estimate

namespace Layout

theorem one_le_lastRow (rooms : Nat) : 1 ≤ max rooms 1 := Nat.le_max_right rooms 1

/-- The cells of the rooms in a column. -/
def roomArea (rooms j : Nat) : Range := ⟨⟨1, j⟩, ⟨max rooms 1, j⟩, one_le_lastRow rooms, Nat.le_refl j⟩

theorem roomArea_rows {rooms : Nat} (h : 0 < rooms) (j : Nat) :
    (roomArea rooms j).rows = (List.range rooms).map fun i => [⟨1 + i, j⟩] := by
  have hcount : (roomArea rooms j).rowCount = rooms := by
    simp only [Range.rowCount, roomArea]
    omega
  have hcolumn : (roomArea rooms j).columnCount = 1 := by simp [Range.columnCount, roomArea]
  rw [Range.rows, hcount]
  refine List.map_congr_left fun i _ => ?_
  rw [Range.rowCells, hcolumn]
  rfl

end Layout

/-- The price of a project for the prices of its rooms. -/
def projectPrice? (rates : Rates) (discount : Decimal) (prices : List Decimal) : Option Decimal := do
  let sum ← sumOf prices
  let part ← (1 : Decimal).sub? discount
  let price ← sum.mul? part
  some ((if price.less rates.projectMinimum then rates.projectMinimum else price).round 2 .halfAway)

namespace Page

variable {rates : Rates} {base : Engine} (hbase : ratesEngine rates = .ok base) {rows : List ProjectRow}
include hbase

section

variable (hrows : rows ≠ [])
include hrows

/-- A range of rooms gives what the rows have in its column. -/
theorem gives_roomRange {j : Nat} (f : ProjectRow → CellValue)
    (hf : ∀ row ∈ rows, (Layout.rowContents row)[j]? = some (.literal (f row))) :
    (Layout.roomRange rows.length j).Gives ((project rows).context base)
      (.array (rows.map fun row => [f row])) := by
  have hcell : ∀ i (hi : i < rows.length),
      (project rows).value base ⟨Layout.projectSheet, ⟨1 + i, j⟩⟩ = f rows[i] := by
    intro i hi
    refine value_of_literal (bare_of_ratesEngine hbase) (List.mem_append_left _ ?_)
    refine Layout.mem_table.2 ⟨i + 1, j, ?_, Layout.rowContents rows[i], ?_, hf _ (List.getElem_mem hi)⟩
    · simp [Layout.place, Nat.add_comm]
    · rw [List.getElem?_cons_succ, List.getElem?_map, List.getElem?_eq_getElem hi]
      rfl
  have hvalues : ((List.range rows.length).map fun i =>
      [(project rows).value base ⟨Layout.projectSheet, ⟨1 + i, j⟩⟩]) = rows.map fun row => [f row] := by
    refine List.ext_getElem (by simp) fun i hi _ => ?_
    simp only [List.getElem_map, List.getElem_range]
    rw [hcell i (by simpa using hi)]
  have hrange := (project rows).gives_range base
    ⟨none, Layout.roomArea rows.length j, ⟨false, false⟩, ⟨false, false⟩⟩ rfl
  rw [show (project rows).sheet = Layout.projectSheet from rfl,
    Layout.roomArea_rows (List.length_pos_iff.2 hrows), List.map_map] at hrange
  rw [← hvalues]
  exact hrange

/-- A sum over rooms gives the sum of what the rows have in its column, or the first error. -/
theorem gives_total {j : Nat} (f : ProjectRow → CellValue)
    (hf : ∀ row ∈ rows, (Layout.rowContents row)[j]? = some (.literal (f row))) :
    (Layout.totalExpr "SUM" rows.length j).Gives ((project rows).context base)
      (.scalar (Functions.cellTotal (rows.map f))) := by
  refine .call rfl rfl rfl (.cons (gives_roomRange hbase hrows f hf) .nil) ?_
  exact Functions.settled_sum.trans (by rw [Functions.flatten_singletons])

/-- The count of the names, whatever these are, gives the number of rooms. -/
theorem gives_names :
    (Layout.totalExpr "COUNTA" rows.length 0).Gives ((project rows).context base)
      (.number (.ofNat rows.length)) := by
  have hnames := gives_roomRange (j := 0) hbase hrows (fun row => .text row.name) fun _ _ => rfl
  refine .call rfl rfl rfl (.cons hnames .nil) ?_
  have hcount : ((rows.map fun row => CellValue.text row.name).filter (· != .empty)).length = rows.length := by
    rw [List.filter_eq_self.2, List.length_map]
    rintro v hv
    obtain ⟨row, -, rfl⟩ := List.mem_map.1 hv
    rfl
  show Value.number (.ofNat (([Value.array _].flatMap Value.cells).filter (· != .empty)).length) = _
  rw [List.flatMap_singleton, Value.cells, Functions.flatten_singletons, hcount]

end

variable (hfit : rows.length < rowLimit)
include hfit

/-- A cell in column J comes to what its formula gives. -/
theorem value_of_totalExpr {i : Nat} {e : Expr} (he : (Layout.totalExprs rows.length)[i]? = some e)
    {v : CellValue} (hv : v ≠ .empty) (hgives : e.Gives ((project rows).context base) (.scalar v)) :
    (project rows).value base ⟨Layout.projectSheet, ⟨1 + i, 9⟩⟩ = v := by
  obtain ⟨t, ht, hx⟩ := exists_getElem?_of_forall₂ (Layout.ofText_totals hfit).flip he
  refine value_of_gives hbase (List.mem_append_right _ ?_) hx hv hgives
  exact Layout.mem_column.2 ⟨i, rfl, by rw [List.getElem?_map, ht]; rfl⟩

omit hbase hfit in
/-- A reference to a cell in column J gives what the cell comes to. -/
theorem gives_project {i : Nat} {v : CellValue}
    (h : (project rows).value base ⟨Layout.projectSheet, ⟨1 + i, 9⟩⟩ = v) :
    (Layout.cellExpr 'J' (i + 2)).Gives ((project rows).context base) (.scalar v) := by
  rw [Nat.add_comm] at h
  exact gives_cellExpr base _ h

variable (hrows : rows ≠ [])
include hrows

/-- The number of rooms is the number of their names, whatever these are. -/
theorem gives_count :
    (Layout.cellExpr 'J' 5).Gives ((project rows).context base) (.number (.ofNat rows.length)) :=
  gives_project (i := 3) (value_of_totalExpr hbase hfit rfl nofun (gives_names hbase hrows))

variable (hvalid : rates.fault? = none)
include hvalid

/-- The discount of a project is that for the number of its rooms. -/
theorem exists_discount : ∃ d, rates.IsDiscountFor rows.length d ∧
    (project rows).value base ProjectOutput.discount.key = .number d.discount := by
  have htable : (Expr.name "DISCOUNTS").Gives ((project rows).context base) (.array rates.discountRows) :=
    gives_name hbase (by decide) (publishes hbase hvalid _).discounts
  obtain ⟨d, hd, hlookup⟩ := Rates.exists_discountLookup hvalid (n := rows.length)
    (List.length_pos_iff.2 hrows) (Nat.lt_trans hfit (by decide))
  refine ⟨d, hd, value_of_totalExpr hbase hfit (i := 4) rfl nofun ?_⟩
  exact .call rfl rfl rfl (.cons (gives_count hbase hfit hrows) (.cons htable (.cons (.literal _)
    (.cons (.literal _) .nil)))) (congrArg settled hlookup)

/-- The price of a tier is what the prices of the rooms come to, less the discount. -/
theorem value_price {d : Decimal} (hd : (project rows).value base ProjectOutput.discount.key = .number d)
    {i j : Nat} (hi : (Layout.totalExprs rows.length)[i]? = some (Layout.priceExpr rows.length j))
    {prices : List Decimal} (f : ProjectRow → CellValue)
    (hf : ∀ row ∈ rows, (Layout.rowContents row)[j]? = some (.literal (f row)))
    (hprices : rows.map f = prices.map .number) :
    (project rows).value base ⟨Layout.projectSheet, ⟨1 + i, 9⟩⟩ =
      .checked (projectPrice? rates d prices) := by
  have hsum : (Layout.totalExpr "SUM" rows.length j).GivesNumber ((project rows).context base)
      (sumOf prices) := by
    have htotal := gives_total hbase hrows f hf
    rwa [hprices, Functions.cellTotal_numbers] at htotal
  have hdiscount : (Layout.cellExpr 'J' 6).GivesNumber ((project rows).context base) (some d) :=
    gives_project (i := 4) hd
  have hminimum : (Expr.name "PROJECT_MINIMUM").GivesNumber ((project rows).context base)
      (some rates.projectMinimum) := gives_rate hbase hvalid (by simp [Layout.namedRates])
  have hgives := (hminimum.greatest (hsum.multiply
    ((Expr.GivesNumber.literal 1).subtract hdiscount))).round
  refine value_of_totalExpr hbase hfit hi (CellValue.checked_ne_empty _) (hgives.of_eq ?_)
  simp only [projectPrice?, Functions.greater_eq, Option.bind_eq_bind, Option.bind_some, Option.bind_assoc,
    Option.map_eq_bind, Function.comp_def]

end Page

end Estimate

end PaintQuote
