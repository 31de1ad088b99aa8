import PaintQuote.Decimal.Arithmetic
import PaintQuote.Proofs.Decimal.Value

/-!
# Rounding and scales

Whole numbers are rounded up from the middle on (`le_nearestEven`, `nearestEven_le`), and a fraction has
further zeros on a finer scale (`fraction_add`).  Rounding *keeps* the order if it passes no decimal.
-/

namespace PaintQuote.Decimal

/-! ## Whole numbers -/

/-- A quotient is rounded up from the middle between two neighbours on. -/
theorem le_nearestEven {k n d : Nat} (hd : 0 < d) (h : 2 * (k * d) < 2 * n + d) :
    k ≤ nearestEven n d := by
  have hn := Nat.div_add_mod n d
  have hr := Nat.mod_lt n hd
  rw [Nat.mul_comm] at hn
  simp only [nearestEven]
  split
  next =>
    refine Nat.le_of_not_lt fun hlt => ?_
    have hk := Nat.mul_le_mul_right d (Nat.succ_le_of_lt hlt)
    rw [Nat.succ_mul, Nat.succ_mul] at hk
    omega
  next hdown =>
    refine Nat.le_of_not_lt fun hlt => ?_
    have hk := Nat.mul_le_mul_right d (Nat.succ_le_of_lt hlt)
    rw [Nat.succ_mul] at hk
    omega

theorem nearestEven_le {k n d : Nat} (hd : 0 < d) (h : n ≤ k * d) : nearestEven n d ≤ k := by
  have hn := Nat.div_add_mod n d
  rw [Nat.mul_comm] at hn
  simp only [nearestEven]
  split
  next hup =>
    refine Nat.lt_of_not_le fun hle => ?_
    have hk := Nat.mul_le_mul_right d hle
    omega
  next => exact Nat.div_le_of_le_mul (by rwa [Nat.mul_comm] at h)

/-- A coefficient that loses digits reaches the limit without the others. -/
theorem limit_le_of_overlong {n l : Nat} (h : overlong n = l + 1) :
    coefficientLimit * tenTo l ≤ n := by
  have hn : ¬ n < coefficientLimit := by
    intro hlt
    rw [overlong_of_lt hlt] at h
    cases h
  induction l generalizing n with
  | zero => simpa using hn
  | succ l ih =>
      rw [overlong, if_neg hn, Nat.add_right_cancel_iff] at h
      have hn' : ¬ n / 10 < coefficientLimit := by
        intro hlt
        rw [overlong_of_lt hlt] at h
        cases h
      have hle := ih h hn'
      rw [tenTo_succ, ← Nat.mul_assoc]
      omega

/-! ## Scales -/

theorem fraction_add (n scale further : Nat) :
    fraction (n * tenTo further) (scale + further) = fraction n scale := by
  rw [fraction, fraction, tenTo_add, Nat.cast_mul, Nat.cast_mul,
    mul_div_mul_right _ _ (tenTo_cast_pos further).ne']

theorem fraction_add_le_iff {k n scale further : Nat} :
    fraction n (scale + further) ≤ fraction k scale ↔ n ≤ k * tenTo further := by
  rw [← fraction_add k scale further, fraction_le_iff]
  exact Nat.mul_le_mul_right_iff (tenTo_pos _)

/-- No decimal is passed on the way from one number to another. -/
structure Keeps (x y : ℚ) : Prop where
  below : ∀ d : Decimal, fraction d.coefficient d.scale ≤ x → fraction d.coefficient d.scale ≤ y
  above : ∀ d : Decimal, x ≤ fraction d.coefficient d.scale → y ≤ fraction d.coefficient d.scale

theorem signedAt_div {d : Decimal} {scale : Nat} (h : d.scale ≤ scale) :
    (d.signedAt scale : ℚ) / (tenTo scale : ℚ) = d.value := by
  obtain ⟨further, rfl⟩ := Nat.exists_eq_add_of_le h
  rw [signedAt, Nat.add_sub_cancel_left, tenTo_add, value, Int.cast_mul, Int.cast_natCast,
    Nat.cast_mul, mul_div_mul_right _ _ (tenTo_cast_pos further).ne']

end PaintQuote.Decimal
