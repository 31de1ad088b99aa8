import PaintQuote.Sheet.CellKey
import Std.Data.TreeMap
import Std.Data.TreeSet

/-!
# Maps and sets over cells

Two cells are equal when the order of keys says so.  With this the look-ups in maps and sets over
cells are stated by equality of cells.
-/

namespace PaintQuote.Sheet.Keyed

/-! ## Maps -/

section

variable {β : Type} (m : Std.TreeMap CellKey β) (k a : CellKey) (v : β)

theorem get?_insert : (m.insert k v).get? a = if a = k then some v else m.get? a := by
  rw [Std.TreeMap.get?_eq_getElem?, Std.TreeMap.getElem?_insert]
  by_cases h : a = k
  · simp [h]
  · rw [if_neg h, if_neg fun hc => h (Std.LawfulEqOrd.compare_eq_iff_eq.1 hc).symm]
    rfl

theorem get?_erase : (m.erase k).get? a = if a = k then none else m.get? a := by
  rw [Std.TreeMap.get?_eq_getElem?, Std.TreeMap.getElem?_erase]
  by_cases h : a = k
  · simp [h]
  · rw [if_neg h, if_neg fun hc => h (Std.LawfulEqOrd.compare_eq_iff_eq.1 hc).symm]
    rfl

theorem contains_eq_isSome : m.contains a = (m.get? a).isSome :=
  Std.TreeMap.contains_eq_isSome_getElem?

theorem contains_insert : (m.insert k v).contains a = (m.contains a || decide (a = k)) := by
  rw [contains_eq_isSome, contains_eq_isSome, get?_insert]
  by_cases h : a = k <;> simp [h]

end

/-! ## Sets -/

section

variable (s : Std.TreeSet CellKey) (k a : CellKey)

theorem mem_insert : a ∈ s.insert k ↔ a = k ∨ a ∈ s := by
  rw [Std.TreeSet.mem_insert, Std.LawfulEqOrd.compare_eq_iff_eq, eq_comm]

theorem mem_erase : a ∈ s.erase k ↔ a ≠ k ∧ a ∈ s := by
  rw [Std.TreeSet.mem_erase, Ne, Std.LawfulEqOrd.compare_eq_iff_eq, ne_comm]

theorem contains_setInsert : (s.insert k).contains a = (s.contains a || decide (a = k)) := by
  rw [Bool.eq_iff_iff, Bool.or_eq_true, decide_eq_true_iff, Std.TreeSet.contains_iff_mem,
    Std.TreeSet.contains_iff_mem, mem_insert, or_comm]

theorem mem_foldl_insert (cells : List CellKey) :
    a ∈ cells.foldl (fun set cell => set.insert cell) s ↔ a ∈ cells ∨ a ∈ s := by
  induction cells generalizing s with
  | nil => simp
  | cons cell cells ih =>
      rw [List.foldl_cons, ih, mem_insert, List.mem_cons, or_left_comm, or_assoc]

theorem mem_foldl_erase (cells : List CellKey) :
    a ∈ cells.foldl (fun set cell => set.erase cell) s ↔ a ∉ cells ∧ a ∈ s := by
  induction cells generalizing s with
  | nil => simp
  | cons cell cells ih =>
      rw [List.foldl_cons, ih, mem_erase, List.mem_cons, not_or, and_left_comm, and_assoc]

end

end PaintQuote.Sheet.Keyed
