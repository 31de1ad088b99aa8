import Mathlib.Order.Compare
import PaintQuote.Formula.Operator
import PaintQuote.Proofs.Decimal.Value

/-!
# The order of values

Values that are something are ordered by their kind, and values of one kind by what is in them: numbers
by the number, texts by the text in lower case, logical values and errors by a code.  So their order is
that of tuples (`Value.compareFilled_eq`), and in particular total and transitive.  A value that is
nothing has no place in it, since it takes the kind of whatever it is compared with.

A value that is nothing is replaced before a comparison, first on the left and then on the right, and
the second replacement looks at what the first one left.  It comes out as if each side had looked at the
other one as it was given (`Value.compareTo_eq_filled`), so a comparison treats its sides alike: it is
reflexive, and swapping the sides reverses it (`Value.compareTo_self`, `Value.compareTo_swap`).

On values that are something it is a total preorder, in which the kind decides first
(`Value.compareTo_preorder`).  Nothing is left out there for a reason: it is equal to zero, to the empty
text and to what is false, which are not equal to each other.
-/

namespace PaintQuote

theorem Decimal.compare_eq : Decimal.compare = compareOn Decimal.value := by
  funext a b
  have hless : a.compare b = .lt ↔ a.value < b.value := by rw [← less_iff, less, beq_iff_eq]
  have hsame : a.compare b = .eq ↔ a.value = b.value := by rw [← same_iff_value, same, beq_iff_eq]
  rw [compareOn]
  cases horder : a.compare b with
  | lt => exact (compare_lt_iff_lt.2 (hless.1 horder)).symm
  | eq => exact (compare_eq_iff_eq.2 (hsame.1 horder)).symm
  | gt =>
      have hnot : ¬ a.value < b.value := fun h => by simp [hless.2 h] at horder
      have hne : a.value ≠ b.value := fun h => by simp [hsame.2 h] at horder
      exact (compare_gt_iff_gt.2 (lt_of_le_of_ne (not_lt.1 hnot) hne.symm)).symm

namespace Formula.Value

open Sheet

/-! ## Values that are something -/

/-- The number in a value, if it has one. -/
def numberPart : Value → ℚ
  | number n => n.value
  | _ => 0

/-- The text in a value as it is compared, if it has one. -/
def textPart : Value → String
  | text s => Text.lower s
  | _ => ""

/-- The code of a logical value or an error. -/
def codePart : Value → Nat
  | boolean b => b.toNat
  | error e => e.code
  | _ => 0

/-- Values are ordered as tuples of their kind and what is in them. -/
theorem compareFilled_eq :
    compareFilled =
      compareLex (compareOn rank)
        (compareLex (compareOn numberPart) (compareLex (compareOn textPart) (compareOn codePart))) := by
  funext v w
  cases v with
  | array _ =>
      cases w with
      | array _ => rfl
      | scalar d => cases d <;> rfl
  | scalar c =>
      cases w with
      | array _ => cases c <;> rfl
      | scalar d =>
          cases c <;> cases d
          -- Within a kind all parts but one are the same; between kinds the kind decides.
          case number.number => simp [compareFilled, Decimal.compare_eq, compareLex, compareOn, rank,
            numberPart, textPart, codePart]
          case text.text | boolean.boolean | error.error =>
            simp [compareFilled, compareLex, compareOn, rank, numberPart, textPart, codePart]
          all_goals rfl

instance : Std.TransCmp compareFilled := by
  rw [compareFilled_eq]
  infer_instance

/-! ## Values of cells -/

section

variable {v w : CellValue}

/-- Values that are something are compared as they are. -/
theorem compareTo_of_filled (hv : v ≠ .empty) (hw : w ≠ .empty) :
    (scalar v).compareTo (scalar w) = compareFilled (scalar v) (scalar w) := by
  cases v with
  | empty => exact absurd rfl hv
  | _ =>
      cases w with
      | empty => exact absurd rfl hw
      | _ => rfl

end

section

variable {u v w : Value}

/-! ## Values in the place of nothing -/

/-- A value that is something stands for itself. -/
theorem filled_of_ne_empty (hv : v ≠ .empty) (other : Value) : v.filled other = v := by
  cases v with
  | array rows => rfl
  | scalar c =>
      cases c with
      | empty => exact absurd rfl hv
      | _ => rfl

/-- Both sides are replaced as if each had looked at the other one as it was given. -/
theorem compareTo_eq_filled (v w : Value) :
    v.compareTo w = compareFilled (v.filled w) (w.filled v) := by
  by_cases hv : v = .empty
  · by_cases hw : w = .empty
    · rw [hv, hw]
      rfl
    · rw [compareTo, filled_of_ne_empty hw, filled_of_ne_empty hw]
  · rw [compareTo, filled_of_ne_empty hv]

theorem compareTo_self (v : Value) : v.compareTo v = .eq := by
  rw [compareTo_eq_filled]
  exact Std.ReflCmp.compare_self

/-- Swapping the sides of a comparison reverses it. -/
theorem compareTo_swap (v w : Value) : w.compareTo v = (v.compareTo w).swap := by
  rw [compareTo_eq_filled, compareTo_eq_filled v]
  exact Std.OrientedCmp.eq_swap

/-! ## Values that are something -/

theorem compareTo_of_ne_empty (hv : v ≠ .empty) (hw : w ≠ .empty) :
    v.compareTo w = compareFilled v w := by
  rw [compareTo_eq_filled, filled_of_ne_empty hv, filled_of_ne_empty hw]

theorem compareTo_trans (hu : u ≠ .empty) (hv : v ≠ .empty) (hw : w ≠ .empty)
    (huv : (u.compareTo v).isLE) (hvw : (v.compareTo w).isLE) : (u.compareTo w).isLE := by
  rw [compareTo_of_ne_empty hu hv] at huv
  rw [compareTo_of_ne_empty hv hw] at hvw
  rw [compareTo_of_ne_empty hu hw]
  exact Std.TransCmp.isLE_trans huv hvw

/-- Between values of different kinds the kind decides. -/
theorem compareTo_of_rank_ne (hv : v ≠ .empty) (hw : w ≠ .empty) (h : v.rank ≠ w.rank) :
    v.compareTo w = compare v.rank w.rank := by
  rw [compareTo_of_ne_empty hv hw, compareFilled_eq, compareLex, compareOn]
  cases hrank : compare v.rank w.rank with
  | eq => exact absurd (Std.LawfulEqOrd.compare_eq_iff_eq.1 hrank) h
  | _ => rfl

/-- Comparing is reflexive, swapping its sides reverses it, and on values that are something it is a
total preorder: numbers come before texts, these before logical values, then errors and then arrays;
numbers are ordered by value, texts by their lower case, logical values and errors by their codes, and
all arrays are equal. -/
theorem compareTo_preorder :
    (∀ v : Value, v.compareTo v = .eq) ∧
    (∀ v w : Value, w.compareTo v = (v.compareTo w).swap) ∧
    (∀ u v w : Value, u ≠ .empty → v ≠ .empty → w ≠ .empty →
      (u.compareTo v).isLE → (v.compareTo w).isLE → (u.compareTo w).isLE) ∧
    (∀ v w : Value, (v.compareTo w).isLE ∨ (w.compareTo v).isLE) ∧
    (∀ (n : Decimal) (s : String) (b : Bool) (e : ErrorValue) (rows : List (List CellValue)),
      [number n, text s, boolean b, error e, array rows].Pairwise fun v w => v.compareTo w = .lt) ∧
    (∀ m n : Decimal, (number m).compareTo (number n) = compare m.value n.value) ∧
    (∀ s t : String, (text s).compareTo (text t) = compare (Text.lower s) (Text.lower t)) ∧
    (∀ a b : Bool, (boolean a).compareTo (boolean b) = compare a.toNat b.toNat) ∧
    (∀ d e : ErrorValue, (error d).compareTo (error e) = compare d.code e.code) ∧
    ∀ rows rows' : List (List CellValue), (array rows).compareTo (array rows') = .eq := by
  refine ⟨compareTo_self, compareTo_swap, fun _ _ _ => compareTo_trans, ?total, ?kinds, ?numbers,
    fun _ _ => rfl, fun _ _ => rfl, fun _ _ => rfl, fun _ _ => rfl⟩
  case total =>
    intro v w
    rw [compareTo_swap v w]
    cases v.compareTo w with
    | gt => exact .inr rfl
    | _ => exact .inl rfl
  case kinds =>
    intro n s b e rows
    have hbefore : ∀ {v w : Value}, v ≠ .empty → w ≠ .empty → v.rank < w.rank →
        v.compareTo w = .lt := fun hv hw h => by
      rw [compareTo_of_rank_ne hv hw (Nat.ne_of_lt h)]
      exact Nat.compare_eq_lt.2 h
    have hkinds : [number n, text s, boolean b, error e, array rows].Pairwise
        fun v w => v.rank < w.rank := by
      simp [rank]
    refine List.Pairwise.imp_of_mem ?_ hkinds
    intro v w hv hw h
    refine hbefore ?_ ?_ h
    · rintro rfl
      simp at hv
    · rintro rfl
      simp at hw
  case numbers =>
    intro m n
    show Decimal.compare m n = _
    rw [Decimal.compare_eq, compareOn]

/-- A price, a finish in either case and a logical value, in this order and so from end to end. -/
theorem compareTo_preorder_finish :
    (number (Decimal.scaled 150 2)).compareTo (text "Satin") = .lt ∧
    (text "satin").compareTo (text "SATIN") = .eq ∧
    ((number (Decimal.scaled 150 2)).compareTo (boolean true)).isLE := by
  have hfirst : (number (Decimal.scaled 150 2)).compareTo (text "Satin") = .lt := by decide +kernel
  have hsecond : ((text "Satin").compareTo (boolean true)).isLE := by decide +kernel
  exact ⟨hfirst, by decide +kernel,
    compareTo_preorder.2.2.1 _ (text "Satin") _ nofun nofun nofun (by rw [hfirst]; rfl) hsecond⟩

end

end Formula.Value

end PaintQuote
