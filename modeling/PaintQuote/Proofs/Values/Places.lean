import PaintQuote.Formula.Functions.Arithmetic
import PaintQuote.Proofs.Decimal.Results
import PaintQuote.Proofs.Decimal.Tens

/-!
# Rounding to places

Rounding to places after the point is done on the digits and is exact.  Rounding to tens, hundreds and so on
divides first, rounds to whole units and multiplies again (`roundTo_of_neg`).  It is exact as well unless the
number slips in between (`Rounding.Slips`), which never happens to a rounding toward zero.
-/

namespace PaintQuote.Formula.Functions

open Sheet Decimal

variable {rule : Rounding} {n : Decimal} {places : Int} {k : Nat}

/-! ## Places after the point -/

theorem tenTo_cast (k : Nat) : (tenTo k : ℚ) = 10 ^ k := Nat.cast_pow 10 k

/-- The unit of the last place. -/
theorem zpow_neg_natCast (k : Nat) : (10 : ℚ) ^ (-(k : ℤ)) = 1 / tenTo k := by
  rw [zpow_neg, zpow_natCast, tenTo_cast, one_div]

theorem roundTo_of_nonneg (rule : Rounding) (n : Decimal) (hk : k ≤ maxScale) :
    ∃ y, roundTo rule n k = some y ∧ rule.Picks (10 ^ (-(k : ℤ))) n.value y.value := by
  refine ⟨n.round k rule, ?_, ?_⟩
  · rw [roundTo, if_pos (Int.natCast_nonneg k), Int.toNat_natCast, Nat.min_eq_left hk]
  · rw [zpow_neg_natCast]
    exact n.round_picks k rule

/-! ## Tens -/

/-- Rounding to tens multiplies the units that the quotient was rounded to. -/
theorem roundTo_of_neg (rule : Rounding) (n : Decimal) (hpos : 0 < k) (hk : k ≤ maxScale) :
    ∃ units unit : Decimal, roundTo rule n (-k) = units.mul? unit ∧ unit.value = tenTo k ∧
      units.value = withMinus n.negative (rule.units n.negative
        (nearestEven (n.coefficient * tenTo maxScale) (tenTo (n.scale + k))) (tenTo maxScale)) := by
  obtain ⟨q, hq, hvalue⟩ := n.div?_tenTo hk
  refine ⟨q.round 0 rule, ofNat (tenTo k), ?_, ?_, ?_⟩
  · rw [roundTo, if_neg (by omega), if_neg (by simp only [maxScale] at hk; omega), Int.natAbs_neg,
      Int.natAbs_natCast, powNat?_ten k hk]
    show (n.div? (ofNat (tenTo k))).bind _ = _
    rw [hq]
    rfl
  · rw [value_of_whole rfl, coefficient_ofNat_tenTo hk]
    rfl
  · have hunits := rule.picks_units n.negative
      (n := nearestEven (n.coefficient * tenTo maxScale) (tenTo (n.scale + k))) (tenTo_pos maxScale) one_pos
    have hround := q.whole_picks rule
    rw [mul_one, mul_one] at hunits
    rw [hvalue] at hround
    rw [round_value]
    exact hround.unique one_pos hunits

/-- A number slips in the digits of its coefficient. -/
theorem slips_iff_slipsAt : rule.Slips (tenTo k) n.value ↔ rule.SlipsAt n.coefficient (n.scale + k) := by
  have hs := tenTo_cast_pos n.scale
  have hlast := tenTo_cast_pos maxScale
  have habs : 2 * |n.value| = 2 * n.coefficient / tenTo n.scale := by
    rw [abs_value, fraction, mul_div_assoc]
  have hunit : tenTo (n.scale + k) = tenTo k * tenTo n.scale := by rw [Nat.add_comm, tenTo_add]
  cases rule with
  | halfAway =>
      have hlow : (tenTo k : ℚ) ≤ 2 * |n.value| + tenTo k / tenTo maxScale ↔
          tenTo maxScale * tenTo (n.scale + k) ≤
            2 * (n.coefficient * tenTo maxScale) + tenTo (n.scale + k) := by
        have hleft : tenTo maxScale * (tenTo k * tenTo n.scale) =
            tenTo k * (tenTo n.scale * tenTo maxScale) := by ac_rfl
        rw [habs, div_add_div _ _ hs.ne' hlast.ne', le_div_iff₀ (mul_pos hs hlast), hunit, hleft,
          ← Nat.mul_assoc 2, Nat.mul_comm (tenTo k) (tenTo n.scale)]
        norm_cast
      have hhigh : 2 * |n.value| < tenTo k ↔ 2 * n.coefficient < tenTo (n.scale + k) := by
        rw [habs, div_lt_iff₀ hs, hunit]
        norm_cast
      exact and_congr hlow hhigh
  | away =>
      have hsmall : 2 * |n.value| ≤ (tenTo k : ℚ) / tenTo maxScale ↔
          2 * (n.coefficient * tenTo maxScale) ≤ tenTo (n.scale + k) := by
        rw [habs, div_le_div_iff₀ hs hlast, hunit, ← Nat.mul_assoc]
        norm_cast
      exact and_congr (not_congr value_eq_zero_iff) hsmall
  | towardZero => exact Iff.rfl
  | up => exact Iff.rfl
  | down => exact Iff.rfl

/-- A rule picks the tens, hundreds and so on that it makes of the digits. -/
theorem picks_tens (rule : Rounding) (n : Decimal) (k : Nat) :
    rule.Picks (tenTo k) n.value
      (withMinus n.negative (rule.units n.negative n.coefficient (tenTo (n.scale + k)) * tenTo k)) := by
  have hunit := tenTo_cast_pos k
  have hvalue : n.value =
      withMinus n.negative ((n.coefficient : ℚ) / (tenTo (n.scale + k) : Nat) * tenTo k) := by
    rw [value_eq_withMinus, fraction, tenTo_add, Nat.cast_mul, ← div_div, div_mul_cancel₀ _ hunit.ne']
  rw [hvalue]
  exact rule.picks_units n.negative (tenTo_pos _) hunit

theorem picks_of_units {y : Decimal} (hscale : y.scale = 0) (hsign : y.negative = n.negative)
    (hunits : y.coefficient = rule.units n.negative n.coefficient (tenTo (n.scale + k)) * tenTo k) :
    rule.Picks (tenTo k) n.value y.value := by
  rw [value_of_whole hscale, hsign, hunits, Nat.cast_mul]
  exact picks_tens rule n k

/-- Rounding to tens is exact if the number of units fits, unless the number slips. -/
theorem roundTo_of_neg_iff (hrule : rule = .halfAway ∨ rule = .away ∨ rule = .towardZero) (hpos : 0 < k)
    (hk : k ≤ maxScale) (hfits : ∃ y : Decimal, rule.Picks (tenTo k) n.value y.value) :
    (∃ y, roundTo rule n (-k) = some y ∧ rule.Picks (tenTo k) n.value y.value) ↔
      ¬ rule.Slips (tenTo k) n.value := by
  have hunit := tenTo_cast_pos k
  obtain ⟨units, unit, hround, hunitValue, hunitsValue⟩ := roundTo_of_neg rule n hpos hk
  obtain ⟨hkept, hslipped⟩ := Rounding.units_twice hrule n.negative n.coefficient_lt (n.scale + k)
  have hpicks := picks_tens rule n k
  generalize rule.units n.negative n.coefficient (tenTo (n.scale + k)) = right at hkept hslipped hpicks
  generalize rule.units n.negative (nearestEven (n.coefficient * tenTo maxScale) (tenTo (n.scale + k)))
    (tenTo maxScale) = found at hkept hslipped hunitsValue
  have hproduct : units.value * unit.value = withMinus n.negative (found * tenTo k) := by
    rw [hunitsValue, hunitValue, withMinus, withMinus, ite_mul, neg_mul]
  rw [slips_iff_slipsAt, hround]
  constructor
  · rintro ⟨y, hy, hpick⟩ hslips
    obtain ⟨hle, hne⟩ := hslipped hslips
    -- At most one unit has a decimal.
    have hlt : found * tenTo k < coefficientLimit := by
      have hmost : tenTo k ≤ tenTo maxScale := Nat.pow_le_pow_right (by decide) hk
      have hlimit : tenTo maxScale < coefficientLimit := by decide
      have := Nat.mul_le_mul_right (tenTo k) hle
      omega
    have hvalue : (⟨n.negative, found * tenTo k, 0, hlt, Nat.zero_le _⟩ : Decimal).value =
        units.value * unit.value := by
      rw [hproduct, value_of_whole rfl, Nat.cast_mul]
    obtain ⟨z, hz, hzvalue⟩ := mul?_exact hvalue
    obtain rfl : y = z := Option.some.inj (hy.symm.trans hz)
    have heq := eq_of_withMinus_eq_withMinus
      ((hproduct.symm.trans (hvalue.symm.trans hzvalue.symm)).trans (hpick.unique hunit hpicks))
    exact hne (by exact_mod_cast mul_right_cancel₀ hunit.ne' heq)
  · intro hkeeps
    obtain ⟨y, hy⟩ := hfits
    have hvalue : y.value = units.value * unit.value := by
      rw [hproduct, hkept hkeeps]
      exact hy.unique hunit hpicks
    obtain ⟨z, hz, hzvalue⟩ := mul?_exact hvalue
    exact ⟨z, hz, hzvalue ▸ hy⟩

/-- Rounding to places is exact if the result has a decimal, unless the number slips left of the point. -/
theorem roundTo_iff (hrule : rule = .halfAway ∨ rule = .away ∨ rule = .towardZero) (hlow : -28 ≤ places)
    (hhigh : places ≤ 28) (hfits : ∃ y : Decimal, rule.Picks (10 ^ (-places)) n.value y.value) :
    (∃ y, roundTo rule n places = some y ∧ rule.Picks (10 ^ (-places)) n.value y.value) ↔
      (places < 0 → ¬ rule.Slips (10 ^ (-places)) n.value) := by
  rcases lt_or_ge places 0 with hneg | hnonneg
  · obtain ⟨k, rfl⟩ : ∃ k : Nat, places = -k := ⟨places.natAbs, by omega⟩
    rw [InvolutiveNeg.neg_neg, zpow_natCast, ← tenTo_cast] at hfits ⊢
    rw [roundTo_of_neg_iff hrule (by omega) (by simp only [maxScale]; omega) hfits]
    exact ⟨fun hkeeps _ => hkeeps, fun hkeeps => hkeeps hneg⟩
  · obtain ⟨k, rfl⟩ := Int.eq_ofNat_of_zero_le hnonneg
    have hexact := roundTo_of_nonneg rule n (k := k) (by simp only [maxScale]; omega)
    exact ⟨fun _ hneg => absurd hnonneg (not_le.2 hneg), fun _ => hexact⟩

/-! ## Functions -/

theorem numberOr_eq_ok_iff {a : Option Decimal} {y : Decimal} :
    numberOr a = .ok (.number y) ↔ a = some y := by
  cases a with
  | none => simp [numberOr]
  | some z => simp [numberOr, Value.number]

/-- Roundings of a number to places from 28 after the point to 28 left of it, the nearest, away from zero or
toward zero, are exact if the exact result has a decimal, unless the number slips where the places are left
of the point.  Cutting off, which may leave the places out, always is. -/
theorem roundings_exact_iff (v : Value) (n : Decimal) (hv : v.toNumber = .ok n) (d : ℤ) (hlow : -28 ≤ d)
    (hhigh : d ≤ 28) :
    (∀ rule : Rounding, rule = .halfAway ∨ rule = .away ∨ rule = .towardZero →
      (∃ y : Decimal, rule.Picks (10 ^ (-d)) n.value y.value) →
      ∀ places, wholeNumber places = .ok d →
        ((∃ y, roundBy rule v places = .ok (.number y) ∧ rule.Picks (10 ^ (-d)) n.value y.value) ↔
          (d < 0 → ¬ rule.Slips (10 ^ (-d)) n.value))) ∧
    ((∃ y : Decimal, Rounding.towardZero.Picks (10 ^ (-d)) n.value y.value) →
      ∀ places, wholeOrDefault places 0 = .ok d →
        ∃ y, truncate v places = .ok (.number y) ∧
          Rounding.towardZero.Picks (10 ^ (-d)) n.value y.value) := by
  constructor
  · intro rule hrule hfits places hplaces
    have hround : roundBy rule v places = numberOr (roundTo rule n d) := by
      simp only [roundBy, hv, hplaces, bind, Except.bind]
    simp only [hround, numberOr_eq_ok_iff]
    exact roundTo_iff hrule hlow hhigh hfits
  · intro hfits places hplaces
    have hround : truncate v places = numberOr (roundTo .towardZero n d) := by
      simp only [truncate, hv, hplaces, bind, Except.bind]
    simp only [hround, numberOr_eq_ok_iff]
    exact (roundTo_iff (Or.inr (Or.inr rfl)) hlow hhigh hfits).2 fun _ hslips => hslips

/-- Twelve hundred and fifty, rounded and cut off to hundreds. -/
theorem roundings_exact_hundreds :
    (∃ y, roundBy .halfAway (.number 1250) (.number (-2)) = .ok (.number y) ∧
      Rounding.halfAway.Picks (10 ^ (-(-2 : ℤ))) (1250 : Decimal).value y.value) ∧
    ∃ y, truncate (.number 1250) (some (.number (-2))) = .ok (.number y) ∧
      Rounding.towardZero.Picks (10 ^ (-(-2 : ℤ))) (1250 : Decimal).value y.value := by
  have hunit : (10 : ℚ) ^ (-(-2 : ℤ)) = tenTo 2 := by
    rw [InvolutiveNeg.neg_neg, tenTo_cast]
    rfl
  obtain ⟨hround, hcut⟩ :=
    roundings_exact_iff (.number 1250) 1250 rfl (-2) (by decide) (by decide)
  have hplaces : wholeNumber (.number (-2)) = .ok (-2) := by decide +kernel
  rw [hunit] at hround hcut ⊢
  refine ⟨(hround .halfAway (Or.inl rfl) ⟨1300, ?_⟩ _ hplaces).2 fun _ => ?_, hcut ⟨1200, ?_⟩ _ hplaces⟩
  · exact picks_of_units rfl rfl (by decide)
  · rw [slips_iff_slipsAt]
    exact fun hslips => absurd hslips.2 (by decide)
  · exact picks_of_units rfl rfl (by decide)

/-- A number just below the middle between nothing and ten is rounded to ten, and the least decimal above
zero is rounded away from zero to nothing. -/
theorem roundings_not_exact :
    (roundBy .halfAway (.number (scaled 49999999999999999999999999999 28)) (.number (-1)) = .ok (.number 10) ∧
      Rounding.halfAway.Picks 10 (scaled 49999999999999999999999999999 28).value (0 : Decimal).value ∧
      ¬ Rounding.halfAway.Picks 10 (scaled 49999999999999999999999999999 28).value (10 : Decimal).value) ∧
    roundBy .away (.number (scaled 1 28)) (.number (-1)) = .ok (.number 0) ∧
      Rounding.away.Picks 10 (scaled 1 28).value (10 : Decimal).value ∧
      ¬ Rounding.away.Picks 10 (scaled 1 28).value (0 : Decimal).value := by
  have hunit : (10 : ℚ) = tenTo 1 := by
    rw [tenTo_cast, pow_one]
  have hne : (10 : Decimal).value ≠ (0 : Decimal).value := by
    rw [Ne, ← same_iff_value]
    decide
  have hnearest : Rounding.halfAway.Picks 10 (scaled 49999999999999999999999999999 28).value
      (0 : Decimal).value := by
    rw [hunit]
    exact picks_of_units rfl rfl (by decide)
  have haway : Rounding.away.Picks 10 (scaled 1 28).value (10 : Decimal).value := by
    rw [hunit]
    exact picks_of_units rfl rfl (by decide)
  refine ⟨⟨by decide +kernel, hnearest, fun hten => ?_⟩, by decide +kernel, haway, fun hzero => ?_⟩
  · exact hne (hten.unique (by norm_num) hnearest)
  · exact hne (haway.unique (by norm_num) hzero)

end PaintQuote.Formula.Functions
