import Mathlib.Tactic.Ring
import PaintQuote.Proofs.Decimal.Rounded

/-!
# Multiples of a unit

What the rounding rules are to pick among the multiples of a unit is said of rational numbers
(`Rounding.Picks`), and a rule can pick only one of them (`Rounding.Picks.unique`).  The rules look at a
magnitude as a fraction and decide whether the whole number below it goes up by one
(`Rounding.units`); that number of units is what they pick (`picks_units`), and so rounding to places picks
among the multiples of a power of ten (`quantize_picks`, `round_picks`).
-/

namespace PaintQuote.Decimal

/-! ## Multiples -/

/-- The number is a whole number of units. -/
def IsMultiple (unit y : ℚ) : Prop := ∃ m : ℤ, y = m * unit

variable {unit x y y' t : ℚ} {rule : Rounding}

theorem IsMultiple.neg (h : IsMultiple unit y) : IsMultiple unit (-y) := by
  obtain ⟨m, rfl⟩ := h
  exact ⟨-m, by rw [Int.cast_neg, neg_mul]⟩

theorem IsMultiple.abs (h : IsMultiple unit y) : IsMultiple unit |y| := by
  rcases abs_choice y with heq | heq
  · rwa [heq]
  · rw [heq]
    exact h.neg

theorem isMultiple_zero (unit : ℚ) : IsMultiple unit 0 := ⟨0, by simp⟩

/-- A multiple less than a unit above another is no greater. -/
theorem IsMultiple.le_of_lt_add (hunit : 0 < unit) (h : IsMultiple unit y) (h' : IsMultiple unit y')
    (hlt : y < y' + unit) : y ≤ y' := by
  obtain ⟨m, rfl⟩ := h
  obtain ⟨m', rfl⟩ := h'
  rw [← add_one_mul] at hlt
  have hm : (m : ℚ) < m' + 1 := lt_of_mul_lt_mul_right hlt hunit.le
  exact mul_le_mul_of_nonneg_right (by exact_mod_cast Int.lt_add_one_iff.1 (by exact_mod_cast hm)) hunit.le

/-- A magnitude with a sign. -/
def withMinus (negative : Bool) (x : ℚ) : ℚ := if negative then -x else x

/-- A rule picks a multiple of the unit for a number: the nearest, where of two nearest the greater in
magnitude, the least that is no smaller in magnitude, the greatest that is no greater in magnitude, the next
above or the next below. -/
def Rounding.Picks (rule : Rounding) (unit x y : ℚ) : Prop :=
  IsMultiple unit y ∧
    match rule with
    | .halfAway =>
        ∀ z, IsMultiple unit z → |x - y| ≤ |x - z| ∧ (|x - z| = |x - y| → |z| ≤ |y|)
    | .away => 0 ≤ x * y ∧ |x| ≤ |y| ∧ ∀ z, IsMultiple unit z → |x| ≤ |z| → |y| ≤ |z|
    | .towardZero => 0 ≤ x * y ∧ |y| ≤ |x| ∧ ∀ z, IsMultiple unit z → |z| ≤ |x| → |z| ≤ |y|
    | .up => x ≤ y ∧ y < x + unit
    | .down => y ≤ x ∧ x < y + unit

namespace Rounding

/-- The rule for the numbers with the other sign. -/
def mirror : Rounding → Rounding
  | .up => .down
  | .down => .up
  | rule => rule

@[simp] theorem mirror_mirror (rule : Rounding) : rule.mirror.mirror = rule := by
  cases rule <;> rfl

namespace Picks

theorem neg (h : rule.mirror.Picks unit x y) : rule.Picks unit (-x) (-y) := by
  obtain ⟨hmultiple, h⟩ := h
  refine ⟨hmultiple.neg, ?_⟩
  cases rule with
  | halfAway =>
      have hdistance : ∀ w, |-x - w| = |x - -w| := fun w => by rw [← abs_neg, neg_sub, sub_neg_eq_add,
        sub_neg_eq_add, add_comm]
      intro z hz
      rw [hdistance, hdistance, InvolutiveNeg.neg_neg, abs_neg y, ← abs_neg z]
      exact h (-z) hz.neg
  | away =>
      simp only [neg_mul_neg, abs_neg]
      exact h
  | towardZero =>
      simp only [neg_mul_neg, abs_neg]
      exact h
  | up => exact ⟨neg_le_neg h.1, by linarith [h.2]⟩
  | down => exact ⟨neg_le_neg h.1, by linarith [h.2]⟩

/-- A number of units is picked for a number of units. -/
theorem scale (hunit : 0 < unit) (h : rule.Picks 1 t y) : rule.Picks unit (t * unit) (y * unit) := by
  obtain ⟨⟨k, hk⟩, h⟩ := h
  have hone : ∀ m : ℤ, IsMultiple 1 m := fun m => ⟨m, (mul_one _).symm⟩
  refine ⟨⟨k, by rw [hk, mul_one]⟩, ?_⟩
  cases rule with
  | halfAway =>
      rintro _ ⟨m, rfl⟩
      obtain ⟨hle, htie⟩ := h m (hone m)
      simp only [← sub_mul, abs_mul, abs_of_pos hunit]
      exact ⟨mul_le_mul_of_nonneg_right hle hunit.le, fun heq =>
        mul_le_mul_of_nonneg_right (htie (mul_right_cancel₀ hunit.ne' heq)) hunit.le⟩
  | away =>
      obtain ⟨hsign, hle, hleast⟩ := h
      refine ⟨by nlinarith [mul_pos hunit hunit], ?_, ?_⟩
      · simp only [abs_mul]
        exact mul_le_mul_of_nonneg_right hle (abs_nonneg _)
      · rintro _ ⟨m, rfl⟩ hm
        simp only [abs_mul, abs_of_pos hunit] at hm ⊢
        exact mul_le_mul_of_nonneg_right (hleast m (hone m) (le_of_mul_le_mul_right hm hunit)) hunit.le
  | towardZero =>
      obtain ⟨hsign, hle, hgreatest⟩ := h
      refine ⟨by nlinarith [mul_pos hunit hunit], ?_, ?_⟩
      · simp only [abs_mul]
        exact mul_le_mul_of_nonneg_right hle (abs_nonneg _)
      · rintro _ ⟨m, rfl⟩ hm
        simp only [abs_mul, abs_of_pos hunit] at hm ⊢
        exact mul_le_mul_of_nonneg_right (hgreatest m (hone m) (le_of_mul_le_mul_right hm hunit)) hunit.le
  | up => exact ⟨mul_le_mul_of_nonneg_right h.1 hunit.le, by nlinarith [h.2]⟩
  | down => exact ⟨mul_le_mul_of_nonneg_right h.1 hunit.le, by nlinarith [h.2]⟩

/-- Two numbers of one magnitude and no opposite signs beside a third are one, unless the third is zero. -/
theorem eq_of_abs_eq (habs : |y| = |y'|) (hy : 0 ≤ x * y) (hy' : 0 ≤ x * y') (hzero : x = 0 → y = 0) :
    y = y' := by
  rcases abs_eq_abs.1 habs with h | h
  · exact h
  · subst h
    have hproduct : x * y' = 0 := by linarith
    rcases mul_eq_zero.1 hproduct with hx | hy
    · have := hzero hx
      linarith
    · rw [hy, neg_zero]

theorem unique (hunit : 0 < unit) (h : rule.Picks unit x y) (h' : rule.Picks unit x y') : y = y' := by
  obtain ⟨hmultiple, h⟩ := h
  obtain ⟨hmultiple', h'⟩ := h'
  cases rule with
  | halfAway =>
      have hnear := le_antisymm (h y' hmultiple').1 (h' y hmultiple).1
      have habs := le_antisymm ((h' y hmultiple).2 hnear) ((h y' hmultiple').2 hnear.symm)
      rcases abs_eq_abs.1 habs with heq | heq
      · exact heq
      · -- Zero is as near as a number and its opposite only if they are zero.
        subst heq
        rcases abs_eq_abs.1 hnear with hx | hx
        · linarith
        · obtain rfl : x = 0 := by linarith
          have hzero := (h' 0 (isMultiple_zero unit)).1
          rw [sub_zero, abs_zero, zero_sub, abs_neg, abs_nonpos_iff] at hzero
          rw [hzero, neg_zero]
  | away =>
      refine eq_of_abs_eq (le_antisymm (h.2.2 y' hmultiple' h'.2.1) (h'.2.2 y hmultiple h.2.1)) h.1 h'.1 ?_
      rintro rfl
      simpa using h.2.2 0 (isMultiple_zero unit) (le_refl _)
  | towardZero =>
      refine eq_of_abs_eq (le_antisymm (h'.2.2 y hmultiple h.2.1) (h.2.2 y' hmultiple' h'.2.1)) h.1 h'.1 ?_
      rintro rfl
      simpa using h.2.1
  | up =>
      exact le_antisymm (hmultiple.le_of_lt_add hunit hmultiple' (by linarith [h.2, h'.1]))
        (hmultiple'.le_of_lt_add hunit hmultiple (by linarith [h.1, h'.2]))
  | down =>
      exact le_antisymm (hmultiple.le_of_lt_add hunit hmultiple' (by linarith [h.1, h'.2]))
        (hmultiple'.le_of_lt_add hunit hmultiple (by linarith [h.2, h'.1]))

end Picks

/-! ## Numbers of units -/

/-- How many units a rule makes of the fraction `n / den` of a number with a sign. -/
def units (rule : Rounding) (negative : Bool) (n den : Nat) : Nat :=
  n / den + (rule.carries negative (n % den) den).toNat

theorem units_mirror (rule : Rounding) (n den : Nat) :
    rule.mirror.units false n den = rule.units true n den := by
  cases rule <;> rfl

section

variable {negative : Bool} {n den : Nat}

/-- What is given up is made good by a carry. -/
theorem units_mul (rule : Rounding) (negative : Bool) (n den : Nat) :
    rule.units negative n den * den + n % den =
      n + if rule.carries negative (n % den) den then den else 0 := by
  have hn := Nat.div_add_mod n den
  rw [Nat.mul_comm] at hn
  unfold units
  rw [Nat.add_mul]
  cases rule.carries negative (n % den) den with
  | false =>
      simp only [Bool.toNat_false, Bool.false_eq_true, if_false]
      omega
  | true =>
      simp only [Bool.toNat_true, if_true]
      omega

theorem units_one (rule : Rounding) (negative : Bool) (n : Nat) : rule.units negative n 1 = n := by
  rw [units, Nat.div_one, Nat.mod_one]
  rfl

theorem away_units_bounds (hden : 0 < den) :
    n ≤ away.units negative n den * den ∧ away.units negative n den * den < n + den := by
  have hunits := away.units_mul negative n den
  have hr := Nat.mod_lt n hden
  by_cases hzero : n % den = 0
  · rw [hzero, if_neg (by simp [carries])] at hunits
    omega
  · rw [if_pos (by simp [carries, hzero])] at hunits
    omega

theorem towardZero_units_bounds (hden : 0 < den) :
    towardZero.units negative n den * den ≤ n ∧ n < towardZero.units negative n den * den + den := by
  have hunits := towardZero.units_mul negative n den
  have hr := Nat.mod_lt n hden
  rw [if_neg (by simp [carries])] at hunits
  omega

theorem halfAway_units_bounds (hden : 0 < den) :
    2 * (halfAway.units negative n den * den) ≤ 2 * n + den ∧
      2 * n < 2 * (halfAway.units negative n den * den) + den := by
  have hunits := halfAway.units_mul negative n den
  have hr := Nat.mod_lt n hden
  by_cases hhalf : den ≤ 2 * (n % den)
  · have hne : n % den ≠ 0 := by omega
    rw [if_pos (by simp [carries, hne, hhalf])] at hunits
    omega
  · rw [if_neg (by simp [carries, hhalf])] at hunits
    omega

/-- The whole number next to a number that is not negative is the nearest, and of two nearest the greater. -/
theorem nearest_of_bounds {k : Nat} (ht : 0 ≤ t) (hlow : 2 * (k : ℚ) ≤ 2 * t + 1) (hhigh : 2 * t < 2 * k + 1)
    (m : ℤ) : |t - k| ≤ |t - m| ∧ (|t - m| = |t - k| → |(m : ℚ)| ≤ |(k : ℚ)|) := by
  have hhalf : |t - k| ≤ 1 / 2 := abs_le.2 ⟨by linarith, by linarith⟩
  rcases lt_trichotomy m k with hlt | rfl | hgt
  · have hm : (m : ℚ) + 1 ≤ k := by exact_mod_cast hlt
    have hdistance : |t - m| = t - m := abs_of_nonneg (by linarith)
    refine ⟨by linarith, fun heq => ?_⟩
    have hneg : -1 < m := by
      have : (-1 : ℚ) < m := by linarith
      exact_mod_cast this
    rw [abs_of_nonneg (by exact_mod_cast (by omega : 0 ≤ m)), Nat.abs_cast]
    linarith
  · exact ⟨le_refl _, fun _ => le_refl _⟩
  · have hm : (k : ℚ) + 1 ≤ m := by exact_mod_cast hgt
    have hdistance : |t - m| = m - t := by rw [abs_sub_comm, abs_of_nonneg (by linarith)]
    exact ⟨by linarith, fun heq => absurd heq (by linarith)⟩

/-- Rules pick the whole number that they make of a fraction. -/
theorem picks_units_one (rule : Rounding) (hden : 0 < den) :
    rule.Picks 1 ((n : ℚ) / den) (rule.units false n den) := by
  have hpos : (0 : ℚ) < den := Nat.cast_pos.2 hden
  have ht : (0 : ℚ) ≤ (n : ℚ) / den := by positivity
  have hk : (0 : ℚ) ≤ (rule.units false n den : ℚ) := Nat.cast_nonneg _
  have hunits : IsMultiple 1 (rule.units false n den) := ⟨rule.units false n den, (mul_one _).symm⟩
  refine ⟨hunits, ?_⟩
  have habove : (n : ℚ) / den ≤ away.units false n den ∧ (away.units false n den : ℚ) < n / den + 1 := by
    obtain ⟨hle, hlt⟩ := @away_units_bounds false n den hden
    rw [div_le_iff₀ hpos, ← div_self hpos.ne', ← add_div, lt_div_iff₀ hpos]
    exact ⟨by exact_mod_cast hle, by exact_mod_cast hlt⟩
  have hbelow : (towardZero.units false n den : ℚ) ≤ n / den ∧
      (n : ℚ) / den < towardZero.units false n den + 1 := by
    obtain ⟨hle, hlt⟩ := @towardZero_units_bounds false n den hden
    rw [le_div_iff₀ hpos, div_lt_iff₀ hpos, add_mul, one_mul]
    exact ⟨by exact_mod_cast hle, by exact_mod_cast hlt⟩
  cases rule with
  | halfAway =>
      obtain ⟨hle, hlt⟩ := @halfAway_units_bounds false n den hden
      rintro _ ⟨m, rfl⟩
      rw [mul_one]
      refine nearest_of_bounds ht ?_ ?_ m
      · rw [← mul_div_assoc, ← div_self hpos.ne', ← add_div, le_div_iff₀ hpos, mul_assoc]
        exact_mod_cast hle
      · rw [← mul_div_assoc, div_lt_iff₀ hpos, add_mul, one_mul, mul_assoc]
        exact_mod_cast hlt
  | away =>
      refine ⟨mul_nonneg ht hk, ?_, fun z hz hle => ?_⟩
      · rw [abs_of_nonneg ht, abs_of_nonneg hk]
        exact habove.1
      · rw [abs_of_nonneg ht] at hle
        rw [abs_of_nonneg hk]
        exact hunits.le_of_lt_add one_pos hz.abs (by linarith [habove.2])
  | towardZero =>
      refine ⟨mul_nonneg ht hk, ?_, fun z hz hle => ?_⟩
      · rw [abs_of_nonneg ht, abs_of_nonneg hk]
        exact hbelow.1
      · rw [abs_of_nonneg ht] at hle
        rw [abs_of_nonneg hk]
        exact hz.abs.le_of_lt_add one_pos hunits (by linarith [hbelow.2])
  | up => exact habove
  | down => exact hbelow

/-- A rule picks the number of units that it makes of a fraction. -/
theorem picks_units (rule : Rounding) (negative : Bool) (hden : 0 < den) (hunit : 0 < unit) :
    rule.Picks unit (withMinus negative ((n : ℚ) / den * unit))
      (withMinus negative (rule.units negative n den * unit)) := by
  cases negative with
  | false => exact (rule.picks_units_one hden).scale hunit
  | true =>
      refine Picks.neg ?_
      rw [← rule.units_mirror n den]
      exact (rule.mirror.picks_units_one hden).scale hunit

end

end Rounding

/-! ## Places -/

theorem value_eq_withMinus (d : Decimal) :
    d.value = withMinus d.negative (fraction d.coefficient d.scale) := by
  unfold withMinus
  cases h : d.negative with
  | false => exact value_of_not_negative h
  | true => exact value_of_negative h

theorem withMinus_zero (negative : Bool) : withMinus negative 0 = 0 := by
  cases negative <;> simp [withMinus]

theorem value_of_sign {d : Decimal} {negative : Bool} (h : d.coefficient = 0 ∨ d.negative = negative) :
    d.value = withMinus negative (fraction d.coefficient d.scale) := by
  rcases h with hzero | rfl
  · rw [value_eq_zero_iff.2 hzero, fraction_eq_zero_iff.2 hzero, withMinus_zero]
  · exact d.value_eq_withMinus

/-- Parts within bounds are those of a decimal, but for the sign of a zero. -/
theorem exists_ofParts? (negative : Bool) {coefficient scale : Nat}
    (hcoefficient : coefficient < coefficientLimit) (hscale : scale ≤ maxScale) : ∃ r, ofParts? negative coefficient scale = some r ∧
      r.value = withMinus negative (fraction coefficient scale) := by
  rw [ofParts?, dif_pos ⟨hcoefficient, hscale⟩]
  refine ⟨_, rfl, value_of_sign ?_⟩
  rcases Nat.eq_zero_or_pos coefficient with hzero | hpos
  · exact Or.inl hzero
  · refine Or.inr ?_
    show (negative && coefficient != 0) = negative
    rw [bne_iff_ne.2 hpos.ne', Bool.and_true]

/-- Rounding to places picks a multiple of the unit of the last place. -/
theorem quantize_picks (d : Decimal) (places : Nat) (rule : Rounding) :
    rule.Picks (1 / tenTo places) d.value (d.quantize places rule).value := by
  have hunit : (0 : ℚ) < 1 / tenTo places := one_div_pos.2 (tenTo_cast_pos places)
  rw [value_eq_withMinus, value_eq_withMinus]
  rcases Nat.le_total d.scale places with hfew | hmany
  · -- A number with fewer places is a multiple already.
    obtain ⟨further, rfl⟩ := Nat.exists_eq_add_of_le hfew
    have hpicks := rule.picks_units d.negative (n := d.coefficient * tenTo further) Nat.one_pos hunit
    have hself : fraction d.coefficient d.scale =
        ((d.coefficient * tenTo further : Nat) : ℚ) * (1 / tenTo (d.scale + further)) := by
      rw [mul_one_div]
      exact (fraction_add _ _ _).symm
    rw [Rounding.units_one, Nat.cast_one, div_one, ← hself] at hpicks
    rwa [quantize_of_le rule hfew]
  · obtain ⟨lost, hlost⟩ := Nat.exists_eq_add_of_le hmany
    have hpicks := rule.picks_units d.negative (n := d.coefficient) (tenTo_pos lost) hunit
    have hvalue : fraction d.coefficient d.scale =
        (d.coefficient : ℚ) / tenTo lost * (1 / tenTo places) := by
      rw [div_mul_div_comm, mul_one, ← Nat.cast_mul, ← tenTo_add, Nat.add_comm, ← hlost]
      rfl
    have hquantize : fraction (d.quantize places rule).coefficient (d.quantize places rule).scale =
        (rule.units d.negative d.coefficient (tenTo lost) : ℚ) * (1 / tenTo places) := by
      have hscale : (d.quantize places rule).scale = places := Nat.min_eq_right hmany
      have hcoefficient : (d.quantize places rule).coefficient =
          rule.units d.negative d.coefficient (tenTo (d.scale - places)) := rfl
      rw [hcoefficient, hscale, hlost, Nat.add_sub_cancel_left, mul_one_div]
      rfl
    rwa [← hvalue, ← hquantize] at hpicks

/-- Rounding to a whole number picks among the whole numbers. -/
theorem whole_picks (d : Decimal) (rule : Rounding) : rule.Picks 1 d.value (d.quantize 0 rule).value := by
  have hpicks := d.quantize_picks 0 rule
  rwa [tenTo_zero, Nat.cast_one, div_one] at hpicks

theorem round_value (d : Decimal) (places : Nat) (rule : Rounding) :
    (d.round places rule).value = (d.quantize places rule).value := by
  unfold round
  split
  next hzero =>
    have hcoefficient : (d.quantize places rule).coefficient = 0 := by
      show d.coefficient / _ + (rule.carries d.negative (d.coefficient % _) _).toNat = 0
      rw [beq_iff_eq.1 hzero, Nat.zero_div, Nat.zero_mod]
      rfl
    rw [value_eq_zero_iff.2 hcoefficient]
    exact value_eq_zero_iff.2 (beq_iff_eq.1 hzero)
  next =>
    refine same_iff_value.1 ((same_iff _ _).2 ⟨rfl, ?_⟩)
    show (d.quantize places rule).coefficient = 0 ∨
      (d.negative && !(d.quantize places rule).isZero) = d.negative
    cases hrounded : (d.quantize places rule).isZero with
    | true => exact Or.inl (beq_iff_eq.1 hrounded)
    | false => exact Or.inr (Bool.and_true _)

/-- So does rounding that writes all places. -/
theorem round_picks (d : Decimal) (places : Nat) (rule : Rounding) :
    rule.Picks (1 / tenTo places) d.value (d.round places rule).value := by
  rw [round_value]
  exact d.quantize_picks places rule

end PaintQuote.Decimal
