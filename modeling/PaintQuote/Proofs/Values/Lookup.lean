import PaintQuote.Formula.Library

/-!
# Lookups in tables

A lookup gives what stands in the row of a table whose position is found (`verticalLookup_of_position`).  An
exact one finds the first row whose key is equal to the value that is looked for (`verticalLookup_exact`).
-/

namespace PaintQuote.Formula.Functions

open Sheet

/-! ## First places -/

theorem findIdx?_of_find? {α : Type} {xs : List α} {p : α → Bool} {x : α} (h : xs.find? p = some x) :
    ∃ i, xs.findIdx? p = some i ∧ xs[i]? = some x := by
  obtain ⟨hp, i, hi, rfl, hbefore⟩ := List.find?_eq_some_iff_getElem.1 h
  refine ⟨i, List.findIdx?_eq_some_iff_getElem.2 ⟨hi, hp, fun j hj => ?_⟩, List.getElem?_eq_getElem hi⟩
  simpa using hbefore j hj

/-! ## Halving -/

/-- Halving does not leave the places that it is given. -/
theorem halve_lt (test : Nat → Bool) (base size : Nat) :
    halve test base size < base + max size 1 := by
  fun_induction halve test base size with
  | case1 base size hsize => omega
  | case2 base size hsize ih =>
      refine Nat.lt_of_lt_of_le ih ?_
      split <;> omega

/-! ## Tables -/

theorem lookupValue_scalar {v : CellValue} (h : v.error? = none) : lookupValue (.scalar v) = .ok v := by
  cases v with
  | error e => cases h
  | _ => rfl

theorem lineIndex_ok (line way : String) {place count : Nat} (h : place < count) :
    lineIndex line way ((place + 1 : Nat) : Int) count = .ok place := by
  have hplace : (((place + 1 : Nat) : Int) - 1).toNat = place := by omega
  rw [lineIndex, if_neg (by omega), hplace, if_neg (Nat.not_le.2 h)]

section

variable {α : Type} {xs : List α} (key : α → CellValue) (rest : α → List CellValue)

theorem filterMap_head?_rows :
    (xs.map fun x => key x :: rest x).filterMap List.head? = xs.map key := by
  rw [List.filterMap_map, ← List.filterMap_eq_map]
  rfl

section

variable {x : α} {v w : CellValue} {number : Value} {column width : Nat} (herror : v.error? = none)
  (hnumber : wholeNumber number = .ok ((column + 1 + 1 : Nat) : Int))
  (hwidth : ∀ y ∈ xs, (rest y).length = width)
include herror hnumber hwidth

/-- A lookup gives what stands in the row with the position that is found. -/
theorem verticalLookup_of_position {approximate : Option Value} {m : MatchMode} {i : Nat}
    (hmode : tableMode approximate = .ok m) (hposition : findPosition? m v (xs.map key) = some i)
    (hx : xs[i]? = some x) (hw : (rest x)[column]? = some w) :
    verticalLookup (.scalar v) (.array (xs.map fun y => key y :: rest y)) number approximate =
      .ok (.scalar w) := by
  have hcolumn : column < width := by
    rw [← hwidth x (List.mem_of_getElem? hx)]
    exact (List.getElem?_eq_some_iff.1 hw).1
  have hdimension : (Value.dimensions (xs.map fun y => key y :: rest y)).2 = width + 1 := by
    cases xs with
    | nil => cases hx
    | cons y ys => exact congrArg (· + 1) (hwidth y List.mem_cons_self)
  have hcell : ((xs.map fun y => key y :: rest y)[i]?).bind (fun r => r[column + 1]?) = some w := by
    rw [List.getElem?_map, hx]
    exact hw
  rw [verticalLookup, lookupValue_scalar herror]
  simp only [Value.grid, hnumber, hdimension, lineIndex_ok _ _ (Nat.succ_lt_succ hcolumn), hmode,
    filterMap_head?_rows, hposition, orNotFound, hcell, bind, Except.bind]

/-- An exact lookup gives what stands in the first row whose key is equal. -/
theorem verticalLookup_exact (hv : v ≠ .empty)
    (hfound : (xs.find? fun y => isEqualKey (key y) v) = some x) (hw : (rest x)[column]? = some w) :
    verticalLookup (.scalar v) (.array (xs.map fun y => key y :: rest y)) number (some (.boolean false)) =
      .ok (.scalar w) := by
  obtain ⟨i, hi, hx⟩ := findIdx?_of_find? hfound
  refine verticalLookup_of_position key rest herror hnumber hwidth (m := .exact) rfl ?_ hx hw
  rw [findPosition?, if_neg hv, if_pos rfl, List.findIdx?_map]
  exact hi

end

end

end PaintQuote.Formula.Functions
