import PaintQuote.Decimal.Arithmetic
import PaintQuote.Decimal.Division
import PaintQuote.Proofs.Decimal.Operations

/-!
# Zero, one and whole numbers

Quotients by one and products with one are the number itself, so that rounding up to a multiple of one
is rounding up (`snap_one`).  Numbers are positive when they come after zero (`isPositive_iff_compare`), and
whole numbers are in their order and have their sums (`compare_ofNat`, `add?_ofNat`).
-/

namespace PaintQuote.Decimal

/-! ## One -/

theorem div?_one (n : Decimal) : SameResult (n.div? 1) (some n) := by
  have hself : Rounds n.negative n.coefficient (tenTo n.scale) (some n) :=
    .self (tenTo_pos _) rfl (Or.inr rfl)
  refine (div?_rounds n (b := 1) rfl).sameResult hself (Nat.mul_pos Nat.one_pos (tenTo_pos _))
    (tenTo_pos _) ?_ ?_
  · show n.coefficient * tenTo 0 * tenTo n.scale = n.coefficient * (1 * tenTo n.scale)
    rw [tenTo_zero, Nat.mul_one, Nat.one_mul]
  · exact Or.inr (Bool.xor_false _)

theorem mul?_one (n : Decimal) : SameResult (n.mul? 1) (some n) := by
  have hself : Rounds n.negative n.coefficient (tenTo n.scale) (some n) :=
    .self (tenTo_pos _) rfl (Or.inr rfl)
  refine (mul?_rounds n 1).sameResult hself (tenTo_pos _) (tenTo_pos _) ?_ ?_
  · show n.coefficient * 1 * tenTo n.scale = n.coefficient * tenTo (n.scale + 0)
    rw [Nat.mul_one, Nat.add_zero]
  · exact Or.inr (Bool.xor_false _)

theorem SameResult.trans {a b c : Option Decimal} (h : SameResult a b) (h' : SameResult b c) :
    SameResult a c := by
  cases h with
  | none => exact h'
  | some h =>
      cases h' with
      | some h' => exact .some (same_trans h h')

/-- The multiple of one at or above a number is the number rounded up. -/
theorem snap_one (n : Decimal) :
    SameResult (do let q ← n.div? 1; q.ceil.mul? 1) (some n.ceil) := by
  have hunits : SameResult (do let q ← n.div? 1; q.ceil.mul? 1) (n.ceil.mul? 1) :=
    rel_bind (div?_one n) fun q n hq => mul?_same (quantize_same hq 0 .up) (same_self 1)
  exact hunits.trans (mul?_one _)

/-! ## Order -/

theorem compare_eq_gt_iff {a b : Decimal} : a.compare b = .gt ↔ b.less a = true := by
  have hle : a.compare b = .gt ↔ ¬ a.less b = true ∧ ¬ a.same b = true := by
    rw [less, same]
    cases a.compare b <;> simp
  rw [hle, less_iff, less_iff, same_iff_value]
  exact ⟨fun h => lt_of_le_of_ne (not_lt.1 h.1) (Ne.symm h.2), fun h => ⟨not_lt.2 h.le, h.ne'⟩⟩

theorem isPositive_iff_compare {n : Decimal} : n.isPositive = true ↔ n.compare 0 = .gt := by
  have hzero : (0 : Decimal).value = 0 := value_eq_zero_iff.2 rfl
  rw [compare_eq_gt_iff, isPositive_iff, less_iff, hzero]

theorem isZero_of_isPositive {n : Decimal} (h : n.isPositive = true) : n.isZero = false := by
  rw [isPositive, Bool.and_eq_true, Bool.not_eq_true', Bool.not_eq_true'] at h
  exact h.2

/-! ## Whole numbers -/

section

variable {m n : Nat}

theorem ofNat_of_lt (h : n < coefficientLimit) : ofNat n = ⟨false, n, 0, h, Nat.zero_le _⟩ := by
  have hmin : min n (coefficientLimit - 1) = n := Nat.min_eq_left (Nat.le_sub_one_of_lt h)
  simp only [ofNat, hmin]

theorem signed_ofNat (h : n < coefficientLimit) : (ofNat n).signed = (n : Int) := by
  rw [ofNat_of_lt h]
  rfl

/-- Whole numbers that have a decimal are in their order. -/
theorem compare_ofNat (hm : m < coefficientLimit) (hn : n < coefficientLimit) :
    (ofNat m).compare (ofNat n) = Ord.compare m n := by
  have hscale : ∀ k, (tenTo (ofNat k).scale : Int) = 1 := fun _ => rfl
  rw [compare, signed_ofNat hm, signed_ofNat hn, hscale, hscale, Int.mul_one, Int.mul_one]
  simp only [Ord.compare, compareOfLessAndEq, Int.ofNat_lt, Int.natCast_inj]

/-- The sum of two whole numbers, as long as it has a decimal. -/
theorem add?_ofNat (h : m + n < coefficientLimit) : (ofNat m).add? (ofNat n) = some (ofNat (m + n)) := by
  have hm : m < coefficientLimit := Nat.lt_of_le_of_lt (Nat.le_add_right m n) h
  have hn : n < coefficientLimit := Nat.lt_of_le_of_lt (Nat.le_add_left n m) h
  unfold add?
  split
  next hzero =>
    rw [ofNat_of_lt hm] at hzero
    rw [show m = 0 from beq_iff_eq.1 hzero, Nat.zero_add]
  next =>
    split
    next hzero =>
      rw [ofNat_of_lt hn] at hzero
      rw [show n = 0 from beq_iff_eq.1 hzero, Nat.add_zero]
    next =>
      have hsigned : ∀ {k}, k < coefficientLimit → (ofNat k).signedAt 0 = k := fun hk =>
        (Int.mul_one _).trans (signed_ofNat hk)
      have hsum : (ofNat m).signedAt 0 + (ofNat n).signedAt 0 = ((m + n : Nat) : Int) := by
        rw [hsigned hm, hsigned hn, Int.natCast_add]
      have hnonneg : ¬ ((m + n : Nat) : Int) < 0 := Int.not_lt.2 (Int.natCast_nonneg _)
      show fit? (decide (_ < 0)) (Int.natAbs _) 0 = _
      simp only [show max (ofNat m).scale (ofNat n).scale = 0 from rfl, hsum, hnonneg, decide_false,
        Int.natAbs_natCast]
      rw [fit?_of_lt h (Nat.zero_le _), ofParts?, dif_pos ⟨h, Nat.zero_le _⟩, ofNat_of_lt h]
      rfl

end

end PaintQuote.Decimal
