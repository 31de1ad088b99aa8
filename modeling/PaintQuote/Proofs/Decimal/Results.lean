import PaintQuote.Proofs.Decimal.Multiples
import PaintQuote.Proofs.Decimal.Operations

/-!
# Results and the numbers they stand for

Sums, products and quotients are the nearest decimals to the exact ones.  So a result that has a decimal is
exact (`Rounds.exact`), and rounding passes no decimal and no whole number (`Respects`): what is no greater
than the exact result is no greater than the rounded one, and what is no less is no less.  On the scale of
the result and on coarser ones this is so because a number of such a scale is a whole number of its units.  A
decimal of a finer scale has a coefficient below the limit, and so it lies below a result that had to give up
digits, and below what that is rounded to.
-/

namespace PaintQuote.Decimal

variable {a b d r : Decimal} {negative : Bool} {num den m k : Nat} {x y : ℚ}

/-! ## Signs -/

theorem value_eq_div {d : Decimal} {c : ℤ} {t : Nat} (hc : d.signed = c) (ht : tenTo d.scale = t) :
    d.value = (c : ℚ) / t := by
  rw [value, hc, ht]

theorem value_ne_zero {d : Decimal} (h : d.isZero = false) : d.value ≠ 0 := by
  intro hzero
  rw [isZero_eq_true_iff.2 hzero] at h
  cases h

theorem negative_iff {d : Decimal} (h : d.isZero = false) : d.negative = true ↔ d.value < 0 := by
  have hpositive : d.negative = false ↔ 0 < d.value := by
    rw [← isPositive_iff, isPositive, h, Bool.not_false, Bool.and_true, Bool.not_eq_true']
  rw [← Bool.not_eq_false, hpositive, not_lt]
  exact ⟨fun hle => lt_of_le_of_ne hle (value_ne_zero h), le_of_lt⟩

theorem abs_withMinus (negative : Bool) (hx : 0 ≤ x) : |withMinus negative x| = x := by
  cases negative with
  | false => exact abs_of_nonneg hx
  | true => exact (abs_neg x).trans (abs_of_nonneg hx)

theorem value_of_whole {d : Decimal} (h : d.scale = 0) : d.value = withMinus d.negative d.coefficient := by
  rw [value_eq_withMinus, h, fraction, tenTo_zero, Nat.cast_one, div_one]

theorem abs_value (d : Decimal) : |d.value| = fraction d.coefficient d.scale := by
  rw [value_eq_withMinus, abs_withMinus _ (fraction_nonneg _ _)]

theorem value_abs (d : Decimal) : d.abs.value = |d.value| := by
  rw [abs_value, value_of_not_negative rfl]
  rfl

theorem abs_value_le_limit (d : Decimal) : |d.value| ≤ fraction (coefficientLimit - 1) 0 := by
  rw [abs_value, fraction_le_iff, tenTo_zero, Nat.mul_one]
  exact Nat.le_trans (Nat.le_sub_one_of_lt d.coefficient_lt) (Nat.le_mul_of_pos_right _ (tenTo_pos _))

theorem withMinus_mul (p q : Bool) (x y : ℚ) :
    withMinus p x * withMinus q y = withMinus (p != q) (x * y) := by
  cases p <;> cases q <;> simp [withMinus]

theorem withMinus_div (p q : Bool) (x y : ℚ) :
    withMinus p x / withMinus q y = withMinus (p != q) (x / y) := by
  cases p <;> cases q <;> simp [withMinus, neg_div, div_neg]

theorem eq_of_withMinus_eq_withMinus {negative : Bool} (h : withMinus negative x = withMinus negative y) :
    x = y := by
  cases negative with
  | false => exact h
  | true => exact neg_injective h

/-- A magnitude that is not zero shows its sign. -/
theorem eq_of_withMinus_eq {p q : Bool} (hx : 0 < x) (h : withMinus p x = withMinus q x) : p = q := by
  have hne : -x ≠ x := by linarith
  cases p with
  | false =>
      cases q with
      | false => rfl
      | true => exact absurd h.symm hne
  | true =>
      cases q with
      | false => exact absurd h hne
      | true => rfl

theorem value_mul (a b : Decimal) : a.value * b.value =
    withMinus (a.negative != b.negative)
      (((a.coefficient * b.coefficient : Nat) : ℚ) / (tenTo (a.scale + b.scale) : Nat)) := by
  rw [value_eq_withMinus, value_eq_withMinus, withMinus_mul, fraction, fraction, div_mul_div_comm,
    tenTo_add, Nat.cast_mul, Nat.cast_mul]

theorem value_div (a b : Decimal) : a.value / b.value =
    withMinus (a.negative != b.negative)
      (((a.coefficient * tenTo b.scale : Nat) : ℚ) / (b.coefficient * tenTo a.scale : Nat)) := by
  rw [value_eq_withMinus, value_eq_withMinus, withMinus_div, fraction, fraction, div_div_div_eq,
    Nat.cast_mul, Nat.cast_mul, mul_comm (tenTo a.scale : ℚ)]

/-! ## Exact results -/

/-- A result that has a decimal is exact. -/
theorem Rounds.exact {result : Option Decimal} (h : Rounds negative num den result) (hden : 0 < den)
    (hd : d.value = withMinus negative ((num : ℚ) / den)) : ∃ r, result = some r ∧ r.value = d.value := by
  have hpos : (0 : ℚ) < den := Nat.cast_pos.2 hden
  have hfraction : fraction d.coefficient d.scale = (num : ℚ) / den := by
    rw [← abs_value, hd, abs_withMinus _ (by positivity)]
  have hcross : d.coefficient * den = num * tenTo d.scale := by
    rw [fraction, div_eq_div_iff (tenTo_cast_pos _).ne' hpos.ne'] at hfraction
    exact_mod_cast hfraction
  have hsign : d.coefficient = 0 ∨ d.negative = negative := by
    refine or_iff_not_imp_left.2 fun hne => ?_
    have hfraction_pos : 0 < fraction d.coefficient d.scale :=
      lt_of_le_of_ne (fraction_nonneg _ _) fun hzero => hne (fraction_eq_zero_iff.1 hzero.symm)
    rw [value_eq_withMinus, ← hfraction] at hd
    exact eq_of_withMinus_eq hfraction_pos hd
  have hsame := h.sameResult (.self hden hcross hsign) hden hden rfl (Or.inr rfl)
  cases hresult : result with
  | none =>
      rw [hresult] at hsame
      cases hsame
  | some r =>
      rw [hresult] at hsame
      cases hsame with
      | some hsame => exact ⟨r, rfl, same_iff_value.1 hsame⟩

/-- A product that has a decimal is this number. -/
theorem mul?_exact (h : d.value = a.value * b.value) : ∃ r, a.mul? b = some r ∧ r.value = d.value :=
  (mul?_rounds a b).exact (tenTo_pos _) (h.trans (value_mul a b))

/-! ## Rounded results -/

section

variable {c s : Nat} (hden : 0 < den)

include hden

theorem fraction_le_div_iff : fraction c s ≤ (num : ℚ) / den ↔ c * den ≤ num * tenTo s := by
  rw [fraction, div_le_div_iff₀ (tenTo_cast_pos s) (Nat.cast_pos.2 hden)]
  norm_cast

theorem div_le_fraction_iff : (num : ℚ) / den ≤ fraction c s ↔ num * tenTo s ≤ c * den := by
  rw [fraction, div_le_div_iff₀ (Nat.cast_pos.2 hden) (tenTo_cast_pos s)]
  norm_cast

variable (h : IsNearest num den m k)

include h

/-- Rounding passes no number of the scale of the result or a coarser one, however large. -/
theorem IsNearest.keeps_of_scale_le (hs : s ≤ k) :
    (fraction c s ≤ (num : ℚ) / den → fraction c s ≤ fraction m k) ∧
      ((num : ℚ) / den ≤ fraction c s → fraction m k ≤ fraction c s) := by
  obtain ⟨further, rfl⟩ := Nat.exists_eq_add_of_le hs
  rw [← fraction_add c s further, fraction_le_div_iff hden, div_le_fraction_iff hden, fraction_le_iff,
    fraction_le_iff, h.rounded]
  exact ⟨fun hle => Nat.mul_le_mul_right _ (le_nearestEven_of_mul_le hden hle),
    fun hle => Nat.mul_le_mul_right _ (nearestEven_le hden hle)⟩

/-- A decimal of a finer scale lies below a result that had no room for a further digit. -/
theorem IsNearest.keeps_of_lt_scale (hd : k < d.scale)
    (hlimit : coefficientLimit ≤ nearestEven (num * tenTo (k + 1)) den) :
    ¬ (num : ℚ) / den ≤ fraction d.coefficient d.scale ∧
      fraction d.coefficient d.scale ≤ fraction m k := by
  have hlarge : 2 * (coefficientLimit * den) ≤ 2 * (num * tenTo k * 10) + den := by
    have hhalf := nearestEven_mul_le (num * tenTo (k + 1)) den
    have hmul := Nat.mul_le_mul_right den hlimit
    rw [tenTo_succ, ← Nat.mul_assoc num] at hhalf hmul
    exact Nat.le_trans (Nat.mul_le_mul_left 2 hmul) hhalf
  have hcoarse : fraction d.coefficient d.scale ≤ fraction (coefficientLimit - 1) (k + 1) := by
    have hc := d.coefficient_lt
    obtain ⟨further, hscale⟩ := Nat.exists_eq_add_of_le (Nat.succ_le_of_lt hd)
    rw [hscale, fraction_add_le_iff]
    exact Nat.le_trans (Nat.le_sub_one_of_lt hc) (Nat.le_mul_of_pos_right _ (tenTo_pos _))
  simp only [coefficientLimit] at hlarge hcoarse
  constructor
  · intro hle
    have hless := (div_le_fraction_iff hden).1 (hle.trans hcoarse)
    rw [tenTo_succ, ← Nat.mul_assoc] at hless
    omega
  · refine hcoarse.trans ?_
    -- The limit rounded to tens is no less than what is below the limit.
    have hround : 7922816251426433759354395034 ≤ m := by
      rw [h.rounded]
      exact le_nearestEven hden (by omega)
    rw [fraction_add_le_iff, tenTo_succ, tenTo_zero]
    omega

/-- Rounding passes no decimal. -/
theorem IsNearest.keeps : Keeps ((num : ℚ) / den) (fraction m k) := by
  have hexact : den ∣ num * tenTo k → fraction m k = (num : ℚ) / den := by
    intro hdvd
    obtain ⟨c, hc⟩ := hdvd
    rw [h.rounded, hc, Nat.mul_comm den c, nearestEven_mul c hden]
    refine le_antisymm ((fraction_le_div_iff hden).2 ?_) ((div_le_fraction_iff hden).2 ?_)
    · exact Nat.le_of_eq (by rw [hc, Nat.mul_comm])
    · exact Nat.le_of_eq (by rw [hc, Nat.mul_comm])
  have hcases : ∀ d : Decimal, fraction m k = (num : ℚ) / den ∨ d.scale ≤ k ∨
      k < d.scale ∧ coefficientLimit ≤ nearestEven (num * tenTo (k + 1)) den := by
    intro d
    rcases h.finest with hdvd | rfl | hlimit
    · exact Or.inl (hexact hdvd)
    · exact Or.inr (Or.inl d.scale_le)
    · exact Or.inr ((Nat.lt_or_ge k d.scale).symm.imp_right fun hlt => ⟨hlt, hlimit⟩)
  refine ⟨fun d hd => ?_, fun d hd => ?_⟩
  · rcases hcases d with heq | hle | ⟨hlt, hlimit⟩
    · rwa [heq]
    · exact (h.keeps_of_scale_le hden hle).1 hd
    · exact (h.keeps_of_lt_scale hden hlt hlimit).2
  · rcases hcases d with heq | hle | ⟨hlt, hlimit⟩
    · rwa [heq]
    · exact (h.keeps_of_scale_le hden hle).2 hd
    · exact absurd hd (h.keeps_of_lt_scale hden hlt hlimit).1

end

/-- A number is not passed on the way from one number to another. -/
def Respects (x y z : ℚ) : Prop := (z ≤ x → z ≤ y) ∧ (x ≤ z → y ≤ z)

/-- A magnitude that is not passed is not passed with a sign. -/
theorem respects_withMinus {z : ℚ} (hx : 0 ≤ x) (hy : 0 ≤ y) (h : Respects x y |z|) (negative : Bool) :
    Respects (withMinus negative x) (withMinus negative y) z := by
  obtain ⟨hbelow, habove⟩ := h
  cases negative with
  | false =>
      rcases le_or_gt 0 z with hz | hz
      · rw [abs_of_nonneg hz] at hbelow habove
        exact ⟨hbelow, habove⟩
      · exact ⟨fun _ => hz.le.trans hy, fun hle => absurd (hx.trans hle) (not_le.2 hz)⟩
  | true =>
      show (z ≤ -x → z ≤ -y) ∧ (-x ≤ z → -y ≤ z)
      rcases le_or_gt z 0 with hz | hz
      · rw [abs_of_nonpos hz] at hbelow habove
        exact ⟨fun hle => le_neg.1 (habove (le_neg.1 hle)), fun hle => neg_le.1 (hbelow (neg_le.1 hle))⟩
      · exact ⟨fun hle => absurd hle (not_le.2 (by linarith)), fun _ => by linarith⟩

section

variable (h : Rounds negative num den (some r)) (hden : 0 < den)

include h hden

theorem Rounds.respects_of_nearest {z : ℚ}
    (hz : ∀ m k, IsNearest num den m k → Respects ((num : ℚ) / den) (fraction m k) |z|) :
    Respects (withMinus negative ((num : ℚ) / den)) r.value z := by
  cases h with
  | nearest hnearest hfraction hsign =>
      rw [value_of_sign hsign, hfraction]
      exact respects_withMinus (by positivity) (fraction_nonneg _ _) (hz _ _ hnearest) negative

/-- A rounded result passes no decimal. -/
theorem Rounds.respects_value (d : Decimal) :
    Respects (withMinus negative ((num : ℚ) / den)) r.value d.value := by
  refine h.respects_of_nearest hden fun m k hnearest => ?_
  rw [abs_value]
  exact ⟨(hnearest.keeps hden).below d, (hnearest.keeps hden).above d⟩

/-- A rounded result passes no whole number. -/
theorem Rounds.respects_whole (m : ℤ) :
    Respects (withMinus negative ((num : ℚ) / den)) r.value m := by
  refine h.respects_of_nearest hden fun n k hnearest => ?_
  have hwhole : |(m : ℚ)| = fraction m.natAbs 0 := by
    rw [fraction, tenTo_zero, Nat.cast_one, div_one, Nat.cast_natAbs, Int.cast_abs]
  rw [hwhole]
  exact hnearest.keeps_of_scale_le hden (Nat.zero_le k)

end

theorem value_add (a b : Decimal) : a.value + b.value =
    withMinus (a.signedAt (max a.scale b.scale) + b.signedAt (max a.scale b.scale) < 0)
      (((a.signedAt (max a.scale b.scale) + b.signedAt (max a.scale b.scale)).natAbs : ℚ) /
        (tenTo (max a.scale b.scale) : Nat)) := by
  rw [← signedAt_div (Nat.le_max_left a.scale b.scale), ← signedAt_div (Nat.le_max_right a.scale b.scale),
    ← add_div, ← Int.cast_add]
  generalize a.signedAt (max a.scale b.scale) + b.signedAt (max a.scale b.scale) = sum
  rw [Nat.cast_natAbs, Int.cast_abs, withMinus]
  by_cases hsum : sum < 0
  · rw [if_pos (decide_eq_true hsum), abs_of_neg (Int.cast_lt_zero.2 hsum), neg_div, InvolutiveNeg.neg_neg]
  · rw [if_neg (by simpa using hsum), abs_of_nonneg (Int.cast_nonneg (not_lt.1 hsum))]

/-- A sum that has a decimal is this number. -/
theorem add?_exact (h : d.value = a.value + b.value) : ∃ r, a.add? b = some r ∧ r.value = d.value :=
  (add?_rounds a b).exact (tenTo_pos _) (h.trans (value_add a b))

/-! ### Multiples -/

theorem IsMultiple.add {unit : ℚ} (h : IsMultiple unit x) (h' : IsMultiple unit y) :
    IsMultiple unit (x + y) := by
  obtain ⟨m, rfl⟩ := h
  obtain ⟨m', rfl⟩ := h'
  exact ⟨m + m', by rw [Int.cast_add, add_mul]⟩

theorem isMultiple_fraction (m : Nat) {s t : Nat} (h : s ≤ t) : IsMultiple (1 / tenTo t) (fraction m s) := by
  obtain ⟨further, rfl⟩ := Nat.exists_eq_add_of_le h
  exact ⟨(m * tenTo further : Nat), by rw [← fraction_add m s further, fraction, mul_one_div, Int.cast_natCast]⟩

/-- What is exact on a scale is rounded to this scale or a coarser one. -/
theorem IsNearest.isMultiple {t : Nat} (hden : 0 < den) (h : IsNearest num den m k)
    (hexact : den ∣ num * tenTo t) : IsMultiple (1 / tenTo t) (fraction m k) := by
  rcases Nat.le_total k t with hle | hle
  · exact isMultiple_fraction m hle
  · obtain ⟨further, rfl⟩ := Nat.exists_eq_add_of_le hle
    rw [h.rounded, nearestEven_of_dvd hden hexact, fraction_add]
    exact isMultiple_fraction _ (Nat.le_refl t)

/-- A sum of multiples of a power of ten is such a multiple, also where it is rounded. -/
theorem add?_isMultiple {t : Nat} (ha : IsMultiple (1 / tenTo t) a.value)
    (hb : IsMultiple (1 / tenTo t) b.value) (h : a.add? b = some r) : IsMultiple (1 / tenTo t) r.value := by
  have hrounds := add?_rounds a b
  have hden := tenTo_pos (max a.scale b.scale)
  obtain ⟨units, hunits⟩ := (ha.add hb).abs
  rw [value_add, abs_withMinus _ (by positivity), mul_one_div] at hunits
  rw [h] at hrounds
  cases hrounds with
  | nearest hnearest hfraction hsign =>
      have hexact : tenTo (max a.scale b.scale) ∣
          (a.signedAt (max a.scale b.scale) + b.signedAt (max a.scale b.scale)).natAbs * tenTo t := by
        rw [div_eq_div_iff (tenTo_cast_pos _).ne' (tenTo_cast_pos _).ne'] at hunits
        generalize (a.signedAt (max a.scale b.scale) + b.signedAt (max a.scale b.scale)).natAbs = n at hunits ⊢
        refine Int.natCast_dvd_natCast.1 ⟨units, ?_⟩
        rw [mul_comm (tenTo _ : ℤ)]
        exact_mod_cast hunits
      rw [value_of_sign hsign, hfraction]
      have hmultiple := hnearest.isMultiple hden hexact
      unfold withMinus
      split
      next => exact hmultiple.neg
      next => exact hmultiple

/-- A sum no greater in magnitude than a decimal is not too large. -/
theorem exists_add? (h : |a.value + b.value| ≤ |d.value|) : ∃ r, a.add? b = some r := by
  have hrounds := add?_rounds a b
  cases hsum : a.add? b with
  | some r => exact ⟨r, rfl⟩
  | none =>
      rw [hsum] at hrounds
      cases hrounds with
      | large hlimit =>
          rw [value_add, abs_withMinus _ (by positivity)] at h
          have hle := h.trans d.abs_value_le_limit
          rw [div_le_fraction_iff (tenTo_pos _), tenTo_zero, Nat.mul_one] at hle
          exact absurd (nearestEven_le (tenTo_pos _) hle)
            (Nat.not_le.2 (Nat.lt_of_lt_of_le (by decide) hlimit))

/-- A sum passes no decimal. -/
theorem add?_respects (h : a.add? b = some r) (d : Decimal) :
    Respects (a.value + b.value) r.value d.value := by
  have hrounds := add?_rounds a b
  rw [h] at hrounds
  rw [value_add]
  exact hrounds.respects_value (tenTo_pos _) d

/-- What is added to a decimal does not make it smaller, unless it is negative. -/
theorem value_le_of_add? (hb : 0 ≤ b.value) (h : a.add? b = some r) : a.value ≤ r.value :=
  (add?_respects h a).1 (le_add_of_nonneg_right hb)

/-- A product passes no decimal. -/
theorem mul?_respects (h : a.mul? b = some r) (d : Decimal) :
    Respects (a.value * b.value) r.value d.value := by
  have hrounds := mul?_rounds a b
  rw [h] at hrounds
  rw [value_mul]
  exact hrounds.respects_value (tenTo_pos _) d

section

variable (hb : b.isZero = false) (h : a.div? b = some r)

include hb h

theorem div?_rounds_to :
    Rounds (a.negative != b.negative) (a.coefficient * tenTo b.scale) (b.coefficient * tenTo a.scale)
      (some r) ∧ 0 < b.coefficient * tenTo a.scale :=
  ⟨h ▸ a.div?_rounds hb,
    Nat.mul_pos (Nat.pos_of_ne_zero (beq_eq_false_iff_ne.1 hb)) (tenTo_pos _)⟩

/-- A quotient passes no decimal. -/
theorem div?_respects (d : Decimal) : Respects (a.value / b.value) r.value d.value := by
  obtain ⟨hrounds, hden⟩ := div?_rounds_to hb h
  rw [value_div]
  exact hrounds.respects_value hden d

/-- A quotient passes no whole number. -/
theorem div?_respects_whole (m : ℤ) : Respects (a.value / b.value) r.value m := by
  obtain ⟨hrounds, hden⟩ := div?_rounds_to hb h
  rw [value_div]
  exact hrounds.respects_whole hden m

end

end PaintQuote.Decimal
