import PaintQuote.Proofs.Decimal.Units
import PaintQuote.Proofs.Estimate.Meaning
import PaintQuote.Proofs.Estimate.Validity
import PaintQuote.Proofs.Values.Lookup

/-!
# What the formulas of a room read

On the sheet of a room, column B gives what is known of the room (`Page.gives_given`), column D what the
formulas above give (`Page.measure_value`), and names give the rates.  The tables give the rate for the
paint and for the condition of the room (`Page.gives_paint`, `Page.gives_multiplier`).
-/

namespace PaintQuote

open Sheet Formula Engine Estimate

namespace Estimate

/-! ## Keys of tables -/

theorem isEqualKey_paint (p q : PaintType) :
    Functions.isEqualKey (.text p.name) (.text q.name) = decide (p = q) := by
  cases p <;> cases q <;> decide

theorem isEqualKey_condition (c d : SurfaceCondition) :
    Functions.isEqualKey (.text c.name) (.text d.name) = decide (c = d) := by
  cases c <;> cases d <;> decide

namespace Page

variable {rates : Rates} {base : Engine} (hbase : ratesEngine rates = .ok base) {r : Room}

/-! ## Columns -/

section

include hbase

/-- A reference to a cell in column B gives what is known of the room. -/
theorem gives_given {i : Nat} {v : CellValue} (hv : (Layout.roomContents r)[i]? = some (.literal v)) :
    (Layout.cellExpr 'B' (i + 1)).Gives ((room r).context base) (.scalar v) := by
  have hentry : (⟨Layout.roomSheet, ⟨i, 1⟩⟩, .literal v) ∈ (room r).entries := by
    refine Layout.mem_roomEntries.2 ⟨_, List.mem_cons_self, ?_⟩
    exact Layout.mem_column.2 ⟨i, by simp [Layout.place], hv⟩
  exact gives_cellExpr base _ (value_of_literal (bare_of_ratesEngine hbase) hentry)

/-- A cell in column D comes to what its formula gives. -/
theorem measure_value {i : Nat} {e : Expr} (he : Layout.measureExprs[i]? = some e) {v : CellValue}
    (hv : v ≠ .empty) (hgives : e.Gives ((room r).context base) (.scalar v)) :
    (room r).value base ⟨Layout.roomSheet, ⟨i, 3⟩⟩ = v := by
  obtain ⟨t, ht, hx⟩ := exists_getElem?_of_forall₂ Layout.ofText_measures.flip he
  refine value_of_gives hbase ?_ hx hv hgives
  refine Layout.mem_roomEntries.2 ⟨_, List.mem_cons_of_mem _ List.mem_cons_self, ?_⟩
  exact Layout.mem_column.2 ⟨i, by simp [Layout.place], by rw [List.getElem?_map, ht]; rfl⟩

omit hbase in
/-- A reference to a cell in column D gives what the cell comes to. -/
theorem gives_measure {i : Nat} {v : CellValue}
    (h : (room r).value base ⟨Layout.roomSheet, ⟨i, 3⟩⟩ = v) :
    (Layout.cellExpr 'D' (i + 1)).Gives ((room r).context base) (.scalar v) :=
  gives_cellExpr base _ h

end

/-! ## Rates -/

section

variable (hvalid : rates.fault? = none)
include hbase hvalid

/-- What the table of paints gives for the paint of a room. -/
theorem gives_paint {paint : PaintRate} (hpaint : rates.paintRate? r.paint = some paint) {j : Nat}
    {n : Decimal} (hn : (paint.coverage :: paint.price.toList)[j]? = some n) :
    (Expr.call "VLOOKUP" [Layout.cellExpr 'B' 8, .name "PAINT_TABLE", Layout.countExpr (j + 2),
      .literal (.boolean false)]).GivesNumber ((room r).context base) (some n) := by
  have hj : j < 4 := (List.getElem?_eq_some_iff.1 hn).1
  have hnumber : wholeNumber (.number (.ofNat (j + 2))) = .ok ((j + 1 + 1 : Nat) : Int) := by
    have hall : ∀ c < 4, wholeNumber (.number (.ofNat (c + 2))) = .ok ((c + 1 + 1 : Nat) : Int) := by decide
    exact hall j hj
  have htable : (Expr.name "PAINT_TABLE").Gives ((room r).context base) (.array rates.paintRows) :=
    gives_name hbase (by decide) (publishes hbase hvalid _).paints
  have hfound : (rates.paints.find? fun p =>
      Functions.isEqualKey (.text p.paint.name) (.text r.paint.name)) = some paint := by
    simp only [isEqualKey_paint]
    exact hpaint
  have hwidth : ∀ p ∈ rates.paints,
      (CellValue.number p.coverage :: p.price.toList.map .number).length = 4 := fun _ _ => rfl
  have hlookup := Functions.verticalLookup_exact (fun p : PaintRate => .text p.paint.name)
    (fun p => .number p.coverage :: p.price.toList.map .number) (v := .text r.paint.name)
    (w := .number n) rfl hnumber hwidth nofun hfound (by rw [← List.map_cons, List.getElem?_map, hn]; rfl)
  exact .call rfl rfl rfl (.cons (gives_given hbase rfl) (.cons htable (.cons (.literal _)
    (.cons (.literal _) .nil)))) (congrArg settled hlookup)

/-- What the table of conditions gives for the condition of a room. -/
theorem gives_multiplier {condition : ConditionRate}
    (hcondition : rates.conditionRate? r.condition = some condition) :
    (Expr.call "VLOOKUP" [Layout.cellExpr 'B' 7, .name "CONDITION_TABLE", Layout.countExpr 2,
      .literal (.boolean false)]).GivesNumber ((room r).context base) (some condition.multiplier) := by
  have htable : (Expr.name "CONDITION_TABLE").Gives ((room r).context base) (.array rates.conditionRows) :=
    gives_name hbase (by decide) (publishes hbase hvalid _).conditions
  have hfound : (rates.conditions.find? fun c =>
      Functions.isEqualKey (.text c.condition.name) (.text r.condition.name)) = some condition := by
    simp only [isEqualKey_condition]
    exact hcondition
  have hnumber : wholeNumber (.number (.ofNat 2)) = .ok ((0 + 1 + 1 : Nat) : Int) := by decide
  have hlookup := Functions.verticalLookup_exact (fun c : ConditionRate => .text c.condition.name)
    (fun c => [.number c.multiplier]) (v := .text r.condition.name) (w := .number condition.multiplier)
    rfl hnumber (fun _ _ => rfl) nofun hfound rfl
  exact .call rfl rfl rfl (.cons (gives_given hbase rfl) (.cons htable (.cons (.literal _)
    (.cons (.literal _) .nil)))) (congrArg settled hlookup)

end

end Page

end Estimate

end PaintQuote
