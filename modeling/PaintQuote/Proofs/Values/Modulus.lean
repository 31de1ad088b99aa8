import Mathlib.Data.Nat.ModEq
import PaintQuote.Proofs.Decimal.Remainders
import PaintQuote.Proofs.Decimal.Results
import PaintQuote.Proofs.Decimal.Units
import PaintQuote.Proofs.Values.Arithmetic

/-!
# The modulus

The modulus of a number by a divisor is what division toward zero leaves, and the divisor is added to it if
it has the other sign.  What is left is smaller than the divisor (`exists_rem?`).  For a number that is not
smaller than the divisor it stands on the common scale, where the divisor fits, and the sum is exact; but a
long divisor need not leave the remainder.  A smaller number is left as it is, and its sum with the divisor
may have too many digits: then it is rounded, perhaps to the divisor itself.  So the result never leaves the
range between zero and the divisor, and it is the modulus exactly where neither happens
(`modulo_isModulus_iff`).
-/

namespace PaintQuote

namespace Decimal

variable {n d r m m' : ℚ}

/-! ## Moduli -/

/-- The modulus of a number: zero or of the sign of the divisor, smaller than it in magnitude, and a whole
number of divisors away from the number. -/
structure IsModulus (n d m : ℚ) : Prop where
  sign : m = 0 ∨ 0 < m * d
  small : |m| < |d|
  whole : IsMultiple d (n - m)

theorem IsModulus.bounds (h : IsModulus n d m) : 0 ≤ m * d ∧ m * d < d * d := by
  have hpos : 0 < |d| := lt_of_le_of_lt (abs_nonneg m) h.small
  constructor
  · rcases h.sign with rfl | hsign
    · rw [zero_mul]
    · exact hsign.le
  · calc m * d ≤ |m * d| := le_abs_self _
      _ = |m| * |d| := abs_mul m d
      _ < |d| * |d| := mul_lt_mul_of_pos_right h.small hpos
      _ = d * d := abs_mul_abs_self d

theorem IsModulus.of_bounds (hd : d ≠ 0) (hlow : 0 ≤ m * d) (hhigh : m * d < d * d)
    (hwhole : IsMultiple d (n - m)) : IsModulus n d m where
  sign := by
    rcases hlow.eq_or_lt with hzero | hpos
    · exact Or.inl ((mul_eq_zero.1 hzero.symm).resolve_right hd)
    · exact Or.inr hpos
  small := by
    have habs : |m| * |d| < |d| * |d| := by
      rwa [← abs_mul, abs_of_nonneg hlow, abs_mul_abs_self]
    exact lt_of_mul_lt_mul_right habs (abs_nonneg d)
  whole := hwhole

/-- A number has one modulus. -/
theorem IsModulus.unique (h : IsModulus n d m) (h' : IsModulus n d m') : m = m' := by
  have hsquare : 0 < d * d := lt_of_le_of_lt h.bounds.1 h.bounds.2
  have hwhole : ∀ {x}, IsModulus n d x → IsMultiple (d * d) ((n - x) * d) := by
    intro x hx
    obtain ⟨k, hk⟩ := hx.whole
    exact ⟨k, by rw [hk, mul_assoc]⟩
  have hle : ∀ {x y}, IsModulus n d x → IsModulus n d y → (n - x) * d ≤ (n - y) * d := by
    intro x y hx hy
    refine (hwhole hx).le_of_lt_add hsquare (hwhole hy) ?_
    have hx := hx.bounds
    have hy := hy.bounds
    linarith
  have hequal := le_antisymm (hle h h') (hle h' h)
  have hd : d ≠ 0 := fun hzero => hsquare.ne' (by rw [hzero, mul_zero])
  linarith [mul_right_cancel₀ hd hequal]

theorem isMultiple_sub_add_iff : IsMultiple d (n - (r + d)) ↔ IsMultiple d (n - r) := by
  constructor
  · rintro ⟨k, hk⟩
    exact ⟨k + 1, by push_cast; linarith⟩
  · rintro ⟨k, hk⟩
    exact ⟨k - 1, by push_cast; linarith⟩

/-- What is left with the sign of the divisor is the modulus exactly if it is a whole number of divisors
away. -/
theorem isModulus_iff_of_nonneg (hd : d ≠ 0) (hsmall : |r| < |d|) (hsign : 0 ≤ r * d) :
    IsModulus n d r ↔ IsMultiple d (n - r) := by
  refine ⟨fun h => h.whole, fun h => ⟨?_, hsmall, h⟩⟩
  rcases hsign.eq_or_lt with hzero | hpos
  · exact Or.inl ((mul_eq_zero.1 hzero.symm).resolve_right hd)
  · exact Or.inr hpos

/-- What is left with the other sign is short of the modulus by the divisor. -/
theorem isModulus_add_iff_of_neg (hd : d ≠ 0) (hsmall : |r| < |d|) (hsign : r * d < 0) :
    IsModulus n d (r + d) ↔ IsMultiple d (n - r) := by
  rw [← isMultiple_sub_add_iff]
  refine ⟨fun h => h.whole, fun h => .of_bounds hd ?_ ?_ h⟩
  · have hbound : -(r * d) < d * d := by
      calc -(r * d) = |r * d| := (abs_of_neg hsign).symm
        _ = |r| * |d| := abs_mul r d
        _ < |d| * |d| := mul_lt_mul_of_pos_right hsmall (abs_pos.2 hd)
        _ = d * d := abs_mul_abs_self d
    rw [add_mul]
    linarith
  · rw [add_mul]
    linarith

/-! ## Remainders -/

section

variable {a b : Decimal} {p q : Bool} {x y : ℚ} {dividend divisor left scale : Nat}

theorem withMinus_sub (negative : Bool) (x y : ℚ) :
    withMinus negative x - withMinus negative y = withMinus negative (x - y) := by
  cases negative with
  | false => rfl
  | true => exact (neg_sub' x y).symm

theorem isMultiple_withMinus_iff : IsMultiple (withMinus p x) (withMinus q y) ↔ IsMultiple x y := by
  have hneg : ∀ unit z : ℚ, IsMultiple unit (-z) ↔ IsMultiple unit z := by
    intro unit z
    refine ⟨fun h => ?_, IsMultiple.neg⟩
    rw [← InvolutiveNeg.neg_neg z]
    exact h.neg
  have hunit : ∀ unit z : ℚ, IsMultiple (-unit) z ↔ IsMultiple unit z := by
    intro unit z
    constructor
    · rintro ⟨k, rfl⟩
      exact ⟨-k, by push_cast; ring⟩
    · rintro ⟨k, rfl⟩
      exact ⟨-k, by push_cast; ring⟩
  cases p <;> cases q <;> simp only [withMinus, hneg, hunit, if_true, Bool.false_eq_true, if_false]

/-- On one scale the difference to what is left is a whole number of divisors exactly if this is the
remainder. -/
theorem isMultiple_fraction_sub_iff (hleft : left < divisor) :
    IsMultiple (fraction divisor scale) (fraction dividend scale - fraction left scale) ↔
      left = dividend % divisor := by
  have hten := (tenTo_cast_pos scale).ne'
  have hdvd : left = dividend % divisor ↔ (divisor : ℤ) ∣ dividend - left := by
    rw [← Nat.modEq_iff_dvd, Nat.ModEq, Nat.mod_eq_of_lt hleft]
  rw [hdvd]
  refine exists_congr fun k => ?_
  rw [fraction, fraction, fraction, ← sub_div, mul_div_assoc', div_left_inj' hten, mul_comm (k : ℚ)]
  norm_cast

/-- The parts on the common scale. -/
theorem value_eq_common {d : Decimal} (h : d.scale ≤ scale) :
    d.value = withMinus d.negative (fraction (d.coefficient * tenTo (scale - d.scale)) scale) := by
  rw [mul_tenTo_sub d h, value_eq_withMinus]

/-- What is missing to the divisor is less than it and fits on the same scale. -/
theorem exists_sum_of_opposite (hleft : left < divisor) (hlimit : divisor < coefficientLimit)
    (hscale : scale ≤ maxScale)
    (hopposite : withMinus p (fraction left scale) * withMinus q (fraction divisor scale) < 0) :
    ∃ y : Decimal, y.value = withMinus p (fraction left scale) + withMinus q (fraction divisor scale) := by
  have hsigns : q = !p := by
    rw [withMinus_mul] at hopposite
    have hnonneg := mul_nonneg (fraction_nonneg left scale) (fraction_nonneg divisor scale)
    cases p <;> cases q <;> first | rfl | exact absurd hopposite (not_lt.2 hnonneg)
  obtain ⟨y, -, hy⟩ := exists_ofParts? q (Nat.lt_of_le_of_lt (Nat.sub_le divisor left) hlimit) hscale
  refine ⟨y, hy.trans ?_⟩
  rw [fraction, Nat.cast_sub hleft.le, sub_div, ← fraction, ← fraction, hsigns]
  cases p with
  | false => exact (neg_sub _ _).trans (sub_eq_add_neg _ _)
  | true => exact sub_eq_neg_add _ _

theorem isMultiple_of_abs_eq (h : |x| = |y|) : IsMultiple y x := by
  rcases abs_eq_abs.1 h with hsame | hopposite
  · exact ⟨1, by rw [hsame, Int.cast_one, one_mul]⟩
  · exact ⟨-1, by rw [hopposite, Int.cast_neg, Int.cast_one, neg_one_mul]⟩

theorem compare_abs_eq_gt_iff : a.abs.compare b.abs = .gt ↔ |b.value| < |a.value| := by
  rw [← value_abs, ← value_abs, ← less_iff, ← compare_eq_gt_iff]

/-- What a smaller divisor leaves on the common scale is smaller than it, and can be taken from it. -/
theorem exists_leftOver (hb : b.isZero = false) (hgreater : |b.value| < |a.value|) :
    let scale := max a.scale b.scale
    ∃ r, ofParts? a.negative
        (leftOver (b.coefficient * tenTo (scale - b.scale)) (a.coefficient * tenTo (scale - a.scale)))
        scale = some r ∧
      |r.value| < |b.value| ∧ (IsMultiple b.value (a.value - r.value) ↔ LeavesExact a b) ∧
      (r.value * b.value < 0 → ∃ y : Decimal, y.value = r.value + b.value) := by
  have hscale : max a.scale b.scale ≤ maxScale := Nat.max_le.2 ⟨a.scale_le, b.scale_le⟩
  have hlimit := divisor_lt (compare_abs_eq_gt_iff.2 hgreater)
  have hpos : 0 < b.coefficient * tenTo (max a.scale b.scale - b.scale) :=
    Nat.mul_pos (Nat.pos_of_ne_zero (beq_eq_false_iff_ne.1 hb)) (tenTo_pos _)
  have ha := value_eq_common (d := a) (Nat.le_max_left a.scale b.scale)
  have hb := value_eq_common (d := b) (Nat.le_max_right a.scale b.scale)
  simp only [LeavesExact]
  generalize max a.scale b.scale = scale at *
  generalize a.coefficient * tenTo (scale - a.scale) = dividend at *
  generalize b.coefficient * tenTo (scale - b.scale) = divisor at *
  have hleft := leftOver_lt hpos hlimit dividend
  generalize leftOver divisor dividend = left at *
  obtain ⟨r, hr, hvalue⟩ := exists_ofParts? a.negative (Nat.lt_trans hleft hlimit) hscale
  rw [ha, hb]
  refine ⟨r, hr, ?_, ?_, ?_⟩
  · rw [hvalue, abs_withMinus _ (fraction_nonneg _ _), abs_withMinus _ (fraction_nonneg _ _)]
    exact div_lt_div_of_pos_right (Nat.cast_lt.2 hleft) (tenTo_cast_pos scale)
  · rw [hvalue, withMinus_sub, isMultiple_withMinus_iff, isMultiple_fraction_sub_iff hleft]
  · rw [hvalue]
    exact exists_sum_of_opposite hleft hlimit hscale

/-- What division toward zero leaves of a number: the number itself if it is smaller than the divisor, and
otherwise what is left on the common scale, where it can be taken from the divisor. -/
inductive LeftFrom (a b r : Decimal) : Prop where
  | whole : |a.value| < |b.value| → r.value = a.value → LeftFrom a b r
  | divided : |b.value| ≤ |a.value| →
      (IsMultiple b.value (a.value - r.value) ↔ (|b.value| < |a.value| → LeavesExact a b)) →
      (r.value * b.value < 0 → ∃ y : Decimal, y.value = r.value + b.value) → LeftFrom a b r

/-- What division toward zero leaves is smaller than the divisor. -/
theorem exists_rem? (hb : b.isZero = false) :
    ∃ r, a.rem? b = some r ∧ |r.value| < |b.value| ∧ LeftFrom a b r := by
  have hbpos : 0 < |b.value| := abs_pos.2 (value_ne_zero hb)
  have hzero : (0 : Decimal).value = 0 := value_eq_zero_iff.2 rfl
  unfold rem?
  rw [hb, if_neg Bool.false_ne_true]
  split
  next haz =>
    have ha : a.value = 0 := isZero_eq_true_iff.1 haz
    refine ⟨0, rfl, ?_, .whole ?_ (hzero.trans ha.symm)⟩
    · rwa [hzero, abs_zero]
    · rwa [ha, abs_zero]
  next =>
    split
    next hlt =>
      have hless : |a.value| < |b.value| := by
        rw [← value_abs, ← value_abs, ← less_iff, less, hlt]
        rfl
      exact ⟨a, rfl, hless, .whole hless rfl⟩
    next heq =>
      have hequal : |a.value| = |b.value| := by
        rw [← value_abs, ← value_abs, ← same_iff_value, same, heq]
        rfl
      refine ⟨0, rfl, ?_, .divided hequal.ge ?_ ?_⟩
      · rwa [hzero, abs_zero]
      · rw [hzero, sub_zero]
        exact iff_of_true (isMultiple_of_abs_eq hequal) fun h => absurd h hequal.not_gt
      · rw [hzero, zero_mul]
        exact fun h => absurd h (lt_irrefl 0)
    next hgt =>
      have hgreater := compare_abs_eq_gt_iff.1 hgt
      obtain ⟨r, hr, hsmall, hwhole, hsum⟩ := exists_leftOver hb hgreater
      exact ⟨r, hr, hsmall, .divided hgreater.le (hwhole.trans ⟨fun h _ => h, fun h => h hgreater⟩) hsum⟩

end

/-! ## Sums with the divisor -/

section

variable {r d m : Decimal}

/-- A number that is not zero has the other sign than the divisor. -/
theorem opposite_iff (hd : d.isZero = false) :
    (!r.isZero && r.negative != d.negative) = true ↔ r.value * d.value < 0 := by
  have hdpos := lt_of_le_of_ne (fraction_nonneg d.coefficient d.scale)
    (fun hzero => beq_eq_false_iff_ne.1 hd (fraction_eq_zero_iff.1 hzero.symm))
  cases hr : r.isZero with
  | true => simp [isZero_eq_true_iff.1 hr]
  | false =>
      have hrpos := lt_of_le_of_ne (fraction_nonneg r.coefficient r.scale)
        (fun hzero => beq_eq_false_iff_ne.1 hr (fraction_eq_zero_iff.1 hzero.symm))
      have hproduct := mul_pos hrpos hdpos
      rw [value_eq_withMinus, value_eq_withMinus d, withMinus_mul, Bool.not_false, Bool.true_and]
      cases r.negative != d.negative with
      | false => simp [withMinus, hproduct.le]
      | true => simpa [withMinus] using hproduct

theorem abs_add_le_of_opposite {x y : ℚ} (hsmall : |x| < |y|) (hsign : x * y < 0) : |x + y| ≤ |y| := by
  have habs : |x + y| ≤ max |x| |y| := by
    rcases mul_neg_iff.1 hsign with ⟨hx, hy⟩ | ⟨hx, hy⟩
    · rw [abs_le, abs_of_pos hx, abs_of_neg hy]
      constructor
      · linarith [le_max_right x (-y)]
      · linarith [le_max_left x (-y)]
    · rw [abs_le, abs_of_neg hx, abs_of_pos hy]
      constructor
      · linarith [le_max_left (-x) y]
      · linarith [le_max_right (-x) y]
  rwa [max_eq_right hsmall.le] at habs

/-- The rounded sum of what is left and the divisor still lies between zero and the divisor. -/
theorem bounds_of_add? (hsmall : |r.value| < |d.value|) (hsign : r.value * d.value < 0)
    (h : r.add? d = some m) : 0 ≤ m.value * d.value ∧ |m.value| ≤ |d.value| := by
  have hzero : (0 : Decimal).value = 0 := value_eq_zero_iff.2 rfl
  have hpasses := add?_respects h
  have hpasses0 := hpasses 0
  have hpassesd := hpasses d
  rw [hzero] at hpasses0
  rcases mul_neg_iff.1 hsign with ⟨hr, hd⟩ | ⟨hr, hd⟩
  · rw [abs_of_pos hr, abs_of_neg hd] at hsmall
    have hhigh := hpasses0.2 (by linarith)
    have hlow := hpassesd.1 (by linarith)
    exact ⟨mul_nonneg_of_nonpos_of_nonpos hhigh hd.le, by rw [abs_of_nonpos hhigh, abs_of_neg hd]; linarith⟩
  · rw [abs_of_neg hr, abs_of_pos hd] at hsmall
    have hlow := hpasses0.1 (by linarith)
    have hhigh := hpassesd.2 (by linarith)
    exact ⟨mul_nonneg hlow hd.le, by rw [abs_of_nonneg hlow, abs_of_pos hd]; exact hhigh⟩

/-- What is left with the sign of the divisor is the modulus exactly if the division left the remainder. -/
theorem LeftFrom.isModulus_iff {n : Decimal} (hleft : LeftFrom n d r) (hd : d.value ≠ 0)
    (hsmall : |r.value| < |d.value|) (hsign : 0 ≤ r.value * d.value) :
    IsModulus n.value d.value r.value ↔
      (|d.value| < |n.value| → LeavesExact n d) ∧
      (|n.value| < |d.value| → n.value * d.value < 0 → ∃ y : Decimal, y.value = n.value + d.value) := by
  rw [isModulus_iff_of_nonneg hd hsmall hsign]
  cases hleft with
  | whole hless hsame =>
      rw [hsame] at hsign ⊢
      rw [sub_self]
      exact iff_of_true (isMultiple_zero _)
        ⟨fun hgt => absurd hgt hless.not_gt, fun _ hlt => absurd hlt hsign.not_gt⟩
  | divided hge hwhole _ =>
      rw [hwhole]
      exact ⟨fun h => ⟨h, fun hlt => absurd hlt hge.not_gt⟩, fun h => h.1⟩

/-- What is left with the other sign gives the modulus exactly if the division left the remainder, and if the
sum with the divisor is exact. -/
theorem LeftFrom.isModulus_add?_iff {n : Decimal} (hleft : LeftFrom n d r) (hd : d.value ≠ 0)
    (hsmall : |r.value| < |d.value|) (hsign : r.value * d.value < 0) (hm : r.add? d = some m) :
    IsModulus n.value d.value m.value ↔
      (|d.value| < |n.value| → LeavesExact n d) ∧
      (|n.value| < |d.value| → n.value * d.value < 0 → ∃ y : Decimal, y.value = n.value + d.value) := by
  have hmodulus := @isModulus_add_iff_of_neg n.value _ _ hd hsmall hsign
  have hexact : (∃ y : Decimal, y.value = r.value + d.value) → m.value = r.value + d.value := by
    rintro ⟨y, hy⟩
    obtain ⟨m', hm', hvalue⟩ := add?_exact hy
    obtain rfl : m = m' := Option.some.inj (hm.symm.trans hm')
    exact hvalue.trans hy
  cases hleft with
  | whole hless hsame =>
      rw [hsame] at hsign hmodulus hexact
      have hself : IsModulus n.value d.value (n.value + d.value) :=
        hmodulus.2 ⟨0, by rw [sub_self, Int.cast_zero, zero_mul]⟩
      constructor
      · exact fun h => ⟨fun hgt => absurd hgt hless.not_gt, fun _ _ => ⟨m, h.unique hself⟩⟩
      · intro h
        rwa [hexact (h.2 hless hsign)]
  | divided hge hwhole hfits =>
      rw [hexact (hfits hsign), hmodulus, hwhole]
      exact ⟨fun h => ⟨h, fun hlt => absurd hlt hge.not_gt⟩, fun h => h.1⟩

end

end Decimal

namespace Formula.Functions

open Decimal

variable {v divisor : Value} {n d r : Decimal}

theorem modulo_eq (hv : v.toNumber = .ok n) (hdivisor : divisor.toNumber = .ok d) (hd : d.isZero = false)
    (hr : n.rem? d = some r) : modulo v divisor =
      if r.value * d.value < 0 then numberOr (r.add? d) else .ok (.number r) := by
  simp only [modulo, hv, hdivisor, hd, hr, orNumberError, bind, Except.bind, opposite_iff hd,
    Bool.false_eq_true, if_false]

/-- The remainder of a division with the sign of the divisor always has this sign and is at most as great.  It
is the modulus exactly if what a smaller divisor leaves is the remainder, and if a smaller number of the
other sign has a decimal for its sum with the divisor. -/
theorem modulo_isModulus_iff (v divisor : Value) (n d : Decimal) (hv : v.toNumber = .ok n)
    (hdivisor : divisor.toNumber = .ok d) (hd : d.value ≠ 0) :
    ∃ m, modulo v divisor = .ok (.number m) ∧ 0 ≤ m.value * d.value ∧ |m.value| ≤ |d.value| ∧
      (IsModulus n.value d.value m.value ↔
        (|d.value| < |n.value| → LeavesExact n d) ∧
        (|n.value| < |d.value| → n.value * d.value < 0 →
          ∃ y : Decimal, y.value = n.value + d.value)) := by
  have hnonzero : d.isZero = false := by rwa [← Bool.not_eq_true, isZero_eq_true_iff]
  obtain ⟨r, hr, hsmall, hleft⟩ := exists_rem? (a := n) hnonzero
  rw [modulo_eq hv hdivisor hnonzero hr]
  by_cases hsign : r.value * d.value < 0
  · obtain ⟨m, hm⟩ := exists_add? (abs_add_le_of_opposite hsmall hsign)
    obtain ⟨hbelow, habove⟩ := bounds_of_add? hsmall hsign hm
    rw [if_pos hsign, hm]
    exact ⟨m, rfl, hbelow, habove, hleft.isModulus_add?_iff hd hsmall hsign hm⟩
  · rw [if_neg hsign]
    exact ⟨r, rfl, not_lt.1 hsign, hsmall.le, hleft.isModulus_iff hd hsmall (not_lt.1 hsign)⟩

/-- The modulus of a negative number by a positive one. -/
theorem modulo_isModulus_minus_three :
    modulo (.number (-3)) (.number 2) = .ok (.number 1) ∧
      IsModulus (-3 : Decimal).value (2 : Decimal).value (1 : Decimal).value := by
  have hone : modulo (.number (-3)) (.number 2) = .ok (.number 1) := by decide +kernel
  obtain ⟨m, hm, -, -, hiff⟩ :=
    modulo_isModulus_iff (.number (-3)) (.number 2) (-3) 2 rfl rfl (value_ne_zero rfl)
  cases hone.symm.trans hm
  have hvalues : (-3 : Decimal).value = -3 ∧ (2 : Decimal).value = 2 :=
    ⟨by rw [value_eq_div (c := -3) (t := 1) rfl rfl]; norm_num,
      by rw [value_eq_div (c := 2) (t := 1) rfl rfl]; norm_num⟩
  refine ⟨hone, hiff.2 ⟨fun _ => leavesExact_of_lt (by decide), fun hless => ?_⟩⟩
  rw [hvalues.1, hvalues.2] at hless
  norm_num at hless

/-- A negative number next to zero gives the divisor itself, and a divisor of three words need not leave the
remainder. -/
theorem modulo_not_modulus :
    (∃ m : Decimal, modulo (.number (-scaled 1 28)) (.number 10) = .ok (.number m) ∧
      ¬ |m.value| < |(10 : Decimal).value|) ∧
    ∃ m : Decimal, modulo (.number 79228162514264337593543890118)
        (.number (scaled 25000000000000000000 20)) = .ok (.number m) ∧
      ¬ IsMultiple (scaled 25000000000000000000 20).value
        ((79228162514264337593543890118 : Decimal).value - m.value) := by
  constructor
  · refine ⟨scaled 10000000000000000000000000000 27, by decide +kernel, ?_⟩
    have hten : (scaled 10000000000000000000000000000 27).value = (10 : Decimal).value :=
      same_iff_value.1 (by decide +kernel)
    rw [hten]
    exact lt_irrefl _
  · refine ⟨scaled 19101606016965672960 20, by decide +kernel, ?_⟩
    rw [value_eq_div (d := scaled 25000000000000000000 20) (c := 25000000000000000000) (t := 10 ^ 20) rfl rfl,
      value_eq_div (d := 79228162514264337593543890118) (c := 79228162514264337593543890118) (t := 1) rfl rfl,
      value_eq_div (d := scaled 19101606016965672960 20) (c := 19101606016965672960) (t := 10 ^ 20) rfl rfl]
    rintro ⟨k, hk⟩
    have hwhole : (79228162514264337593543890118 * 10 ^ 20 - 19101606016965672960 : ℤ) =
        k * 25000000000000000000 := by
      have hscaled : (79228162514264337593543890118 * 10 ^ 20 - 19101606016965672960 : ℚ) =
          k * 25000000000000000000 := by
        push_cast at hk
        linarith
      exact_mod_cast hscaled
    omega

end Formula.Functions

end PaintQuote
