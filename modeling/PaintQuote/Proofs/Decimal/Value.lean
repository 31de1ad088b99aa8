import Mathlib.Algebra.Order.Field.Rat
import Mathlib.Tactic.Positivity
import Mathlib.Tactic.Linarith
import PaintQuote.Decimal.Basic

/-!
# The number that a decimal stands for

A decimal stands for a rational number, and its order is that of the rational numbers.  The
magnitude of a decimal is a fraction over a power of ten.
-/

namespace PaintQuote.Decimal

/-! ## Fractions -/

/-- The fraction `n / 10 ^ scale`. -/
def fraction (n scale : Nat) : ℚ := (n : ℚ) / (tenTo scale : ℚ)

theorem tenTo_cast_pos (n : Nat) : (0 : ℚ) < (tenTo n : ℚ) := Nat.cast_pos.2 (tenTo_pos n)

theorem fraction_le_iff {m n s t : Nat} :
    fraction m s ≤ fraction n t ↔ m * tenTo t ≤ n * tenTo s := by
  rw [fraction, fraction, div_le_div_iff₀ (tenTo_cast_pos _) (tenTo_cast_pos _)]
  norm_cast

theorem fraction_nonneg (n scale : Nat) : 0 ≤ fraction n scale :=
  div_nonneg (Nat.cast_nonneg n) (tenTo_cast_pos scale).le

theorem fraction_eq_zero_iff {n scale : Nat} : fraction n scale = 0 ↔ n = 0 := by
  rw [fraction, div_eq_zero_iff, Nat.cast_eq_zero]
  simp [(tenTo_cast_pos scale).ne']

/-! ## Values -/

/-- The number that a decimal stands for. -/
def value (d : Decimal) : ℚ := (d.signed : ℚ) / (tenTo d.scale : ℚ)

theorem value_of_not_negative {d : Decimal} (h : d.negative = false) :
    d.value = fraction d.coefficient d.scale := by
  rw [value, signed, h, fraction]
  rfl

theorem value_of_negative {d : Decimal} (h : d.negative = true) :
    d.value = -fraction d.coefficient d.scale := by
  rw [value, signed, h, fraction, if_pos rfl, Int.cast_neg, neg_div]
  rfl

theorem value_eq_zero_iff {d : Decimal} : d.value = 0 ↔ d.coefficient = 0 := by
  cases h : d.negative with
  | false => rw [value_of_not_negative h, fraction_eq_zero_iff]
  | true => rw [value_of_negative h, neg_eq_zero, fraction_eq_zero_iff]

theorem less_iff {a b : Decimal} : a.less b = true ↔ a.value < b.value := by
  rw [less, compare, beq_iff_eq, Std.compare_eq_lt, value, value,
    div_lt_div_iff₀ (tenTo_cast_pos _) (tenTo_cast_pos _)]
  norm_cast

theorem less_eq_false_iff {a b : Decimal} : a.less b = false ↔ b.value ≤ a.value := by
  rw [← Bool.not_eq_true, less_iff, not_lt]

theorem same_iff_value {a b : Decimal} : a.same b = true ↔ a.value = b.value := by
  rw [same, compare, beq_iff_eq, Std.LawfulEqOrd.compare_eq_iff_eq, value, value,
    div_eq_div_iff (tenTo_cast_pos _).ne' (tenTo_cast_pos _).ne']
  norm_cast

theorem isPositive_iff {d : Decimal} : d.isPositive = true ↔ 0 < d.value := by
  have hzero : d.isZero = true ↔ d.value = 0 := by rw [value_eq_zero_iff, isZero, beq_iff_eq]
  rw [isPositive, Bool.and_eq_true, Bool.not_eq_true', Bool.not_eq_true', ← Bool.not_eq_true d.isZero,
    hzero]
  cases h : d.negative with
  | false =>
      rw [value_of_not_negative h, lt_iff_le_and_ne, ne_comm]
      simp [fraction_nonneg]
  | true =>
      rw [value_of_negative h]
      simp [fraction_nonneg]

end PaintQuote.Decimal
