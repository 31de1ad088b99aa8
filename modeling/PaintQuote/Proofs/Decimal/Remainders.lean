import PaintQuote.Decimal.Remainder
import PaintQuote.Proofs.Decimal.Operations

/-!
# Remainders of equal numbers

Both coefficients are brought to one scale, and so the remainder is that of the numbers, whatever
their scales, where the divisor leaves the exact remainder (`LeavesExact`).  A divisor that has at
most two words on that scale does.  A longer one need not, and then zeros at the end of the numbers
can be seen in what is left.  That is less than the divisor all the same (`leftOver_lt`).
-/

namespace PaintQuote.Decimal

variable {a b a' b' : Decimal}

/-- Whether the second number leaves the exact remainder of the first on their common scale. -/
def LeavesExact (a b : Decimal) : Prop :=
  let scale := max a.scale b.scale
  leftOver (b.coefficient * tenTo (scale - b.scale)) (a.coefficient * tenTo (scale - a.scale)) =
    a.coefficient * tenTo (scale - a.scale) % (b.coefficient * tenTo (scale - b.scale))

theorem leavesExact_of_lt
    (h : b.coefficient * tenTo (max a.scale b.scale - b.scale) < doubleWordLimit) :
    LeavesExact a b := by
  rw [LeavesExact, leftOver, if_pos h]

/-- A coefficient on a finer scale is that of the same number. -/
theorem mul_tenTo_sub (d : Decimal) {scale : Nat} (h : d.scale ≤ scale) :
    fraction (d.coefficient * tenTo (scale - d.scale)) scale = fraction d.coefficient d.scale := by
  obtain ⟨further, rfl⟩ := Nat.exists_eq_add_of_le h
  rw [Nat.add_sub_cancel_left, fraction_add]

/-- The remainder of fractions does not depend on their scale. -/
theorem fraction_mod {n d s n' d' s' : Nat} (hn : fraction n s = fraction n' s')
    (hd : fraction d s = fraction d' s') : fraction (n % d) s = fraction (n' % d') s' := by
  rw [fraction_eq_iff] at hn hd ⊢
  rw [← Nat.mul_mod_mul_right, ← Nat.mul_mod_mul_right, hn, hd]

theorem sameResult_ofParts? {negative : Bool} {c s c' s' : Nat} (hc : c < coefficientLimit)
    (hs : s ≤ maxScale) (hc' : c' < coefficientLimit) (hs' : s' ≤ maxScale)
    (h : fraction c s = fraction c' s') :
    SameResult (ofParts? negative c s) (ofParts? negative c' s') := by
  have hzero : c = 0 ↔ c' = 0 := by
    rw [← @fraction_eq_zero_iff c s, h, fraction_eq_zero_iff]
  rw [ofParts?, dif_pos ⟨hc, hs⟩, ofParts?, dif_pos ⟨hc', hs'⟩]
  refine .some (same_iff_fraction.2 ⟨h, Or.inr ?_⟩)
  show (negative && c != 0) = (negative && c' != 0)
  rw [Bool.eq_iff_iff, Bool.and_eq_true, Bool.and_eq_true, bne_iff_ne, bne_iff_ne, Ne, Ne, hzero]

/-- On the common scale a divisor that is smaller than the dividend is below the limit. -/
theorem divisor_lt (h : a.abs.compare b.abs = .gt) :
    b.coefficient * tenTo (max a.scale b.scale - b.scale) < coefficientLimit := by
  rcases Nat.le_total a.scale b.scale with hle | hle
  · rw [Nat.max_eq_right hle, Nat.sub_self, tenTo_zero, Nat.mul_one]
    exact b.coefficient_lt
  · obtain ⟨further, hscale⟩ := Nat.exists_eq_add_of_le hle
    rw [Nat.max_eq_left hle, hscale, Nat.add_sub_cancel_left]
    refine Nat.lt_trans ?_ a.coefficient_lt
    have hgreater : b.coefficient * tenTo a.scale < a.coefficient * tenTo b.scale := by
      have hcompare : Ord.compare ((a.coefficient : Int) * tenTo b.scale)
          (b.coefficient * tenTo a.scale) = .gt := h
      rw [Std.compare_eq_gt] at hcompare
      exact_mod_cast hcompare
    rw [hscale, Nat.add_comm, tenTo_add, ← Nat.mul_assoc] at hgreater
    exact Nat.lt_of_mul_lt_mul_right hgreater

/-- The leading part that is left of a number is below that of the divisor, also when a digit too long for
a word has lost its upper half. -/
theorem leading_left_lt {leading : Nat} (hpos : 0 < leading) (hword : leading < wordLimit) (top : Nat) :
    (top - top / leading % wordLimit * leading) % wordLimit < leading := by
  have htop := Nat.div_add_mod top leading
  have hrest := Nat.mod_lt top hpos
  have hdigit := Nat.div_add_mod (top / leading) wordLimit
  generalize top / leading % wordLimit = digit at *
  generalize top / leading / wordLimit = lost at *
  have hleft : top - digit * leading = top % leading + wordLimit * (lost * leading) := by
    have hsplit : leading * (top / leading) = wordLimit * (lost * leading) + digit * leading := by
      rw [← hdigit, Nat.mul_comm, Nat.add_mul, Nat.mul_assoc]
    omega
  rw [hleft, Nat.add_mul_mod_self_left, Nat.mod_eq_of_lt (Nat.lt_trans hrest hword)]
  exact hrest

/-- Less than the divisor is left, also where it is not the remainder. -/
theorem reduce_lt {divisor : Nat} (hlong : doubleWordLimit ≤ divisor)
    (hthree : divisor < coefficientLimit) (n : Nat) : reduce divisor n < divisor := by
  have hpos : 0 < divisor / doubleWordLimit := Nat.div_pos hlong (by decide)
  have hword : divisor / doubleWordLimit < wordLimit :=
    Nat.div_lt_of_lt_mul (Nat.lt_of_lt_of_le hthree (by decide))
  have hleading := leading_left_lt hpos hword (n / doubleWordLimit)
  have hlow := Nat.mod_lt n (show 0 < doubleWordLimit by decide)
  have hdivisor := Nat.div_mul_le_self divisor doubleWordLimit
  simp only [reduce]
  split
  next hle =>
    refine Nat.lt_of_le_of_lt (Nat.sub_le _ _) ?_
    have hnext := Nat.mul_le_mul_right doubleWordLimit (Nat.succ_le_of_lt hleading)
    rw [Nat.succ_mul] at hnext
    omega
  next => exact Nat.mod_lt _ (Nat.lt_of_lt_of_le (by decide) hlong)

theorem longRemainder_lt {divisor : Nat} (hlong : doubleWordLimit ≤ divisor)
    (hthree : divisor < coefficientLimit) (n : Nat) : longRemainder divisor n < divisor := by
  rw [longRemainder]
  split
  next => exact Nat.lt_of_lt_of_le (by decide) hlong
  next => exact reduce_lt hlong hthree _

theorem leftOver_lt {divisor : Nat} (hpos : 0 < divisor) (hlt : divisor < coefficientLimit) (n : Nat) :
    leftOver divisor n < divisor := by
  rw [leftOver]
  split
  next => exact Nat.mod_lt n hpos
  next hlong =>
    have hunit : 0 < twoTo (95 - divisor.log2) := twoTo_pos _
    have hlog : divisor.log2 < 96 := (Nat.log2_lt (Nat.ne_of_gt hpos)).2 hlt
    have hfull : twoTo (95 - divisor.log2) * twoTo (divisor.log2 + 1) = coefficientLimit := by
      rw [← twoTo_add, show 95 - divisor.log2 + (divisor.log2 + 1) = 96 by omega]
      rfl
    refine Nat.div_lt_of_lt_mul ?_
    rw [Nat.mul_comm divisor]
    refine longRemainder_lt ?_ ?_ _
    · exact Nat.le_trans (Nat.not_lt.1 hlong) (Nat.le_mul_of_pos_left _ hunit)
    · rw [← hfull]
      exact Nat.mul_lt_mul_of_pos_left Nat.lt_log2_self hunit

/-- Exact remainders of equal numbers are equal. -/
theorem rem?_same (ha : a.same a') (hb : b.same b') (h : LeavesExact a b) (h' : LeavesExact a' b') :
    SameResult (a.rem? b) (a'.rem? b') := by
  unfold rem?
  rw [← isZero_of_same hb, ← isZero_of_same ha, ← compare_of_same (abs_same ha) (abs_same hb)]
  split
  next => exact .none
  next hbz =>
    split
    next => exact SameResult.refl _
    next haz =>
      split
      next => exact .some ha
      next => exact SameResult.refl _
      next hgt =>
        have hgt' := hgt
        rw [compare_of_same (abs_same ha) (abs_same hb)] at hgt'
        have hpos : ∀ d : Decimal, ∀ further, d.isZero = false → 0 < d.coefficient * tenTo further :=
          fun d further hd =>
            Nat.mul_pos (Nat.pos_of_ne_zero (beq_eq_false_iff_ne.1 hd)) (tenTo_pos _)
        have hbz := Bool.eq_false_iff.2 hbz
        have haz := Bool.eq_false_iff.2 haz
        have hmod := Nat.lt_trans (Nat.mod_lt (a.coefficient * tenTo (max a.scale b.scale - a.scale))
          (hpos b (max a.scale b.scale - b.scale) hbz)) (divisor_lt hgt)
        have hmod' := Nat.lt_trans
          (Nat.mod_lt (a'.coefficient * tenTo (max a'.scale b'.scale - a'.scale))
            (hpos b' (max a'.scale b'.scale - b'.scale) (isZero_of_same hb ▸ hbz))) (divisor_lt hgt')
        simp only [LeavesExact] at h h'
        simp only [h, h']
        rw [negative_of_same ha haz]
        refine sameResult_ofParts? hmod (Nat.max_le.2 ⟨a.scale_le, b.scale_le⟩) hmod'
          (Nat.max_le.2 ⟨a'.scale_le, b'.scale_le⟩) (fraction_mod ?_ ?_)
        · rw [mul_tenTo_sub a (Nat.le_max_left _ _), mul_tenTo_sub a' (Nat.le_max_left _ _)]
          exact (same_iff_fraction.1 ha).1
        · rw [mul_tenTo_sub b (Nat.le_max_right _ _), mul_tenTo_sub b' (Nat.le_max_right _ _)]
          exact (same_iff_fraction.1 hb).1

example : (79228162514264337593543890118 : Decimal).rem? (scaled 25 2) = some (scaled 0 2) ∧
    (79228162514264337593543890118 : Decimal).rem? (scaled 25000000000000000000 20) =
      some (scaled 19101606016965672960 20) := by
  decide +kernel

end PaintQuote.Decimal
