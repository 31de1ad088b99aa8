import PaintQuote.Decimal.Power
import PaintQuote.Proofs.Decimal.Multiples
import PaintQuote.Proofs.Decimal.Operations

/-!
# Quotients by powers of ten

A quotient by a power of ten has the digits of the number with the point moved, and is rounded only where
these go beyond the last place that a decimal has (`div?_tenTo`).  Rounding it to a whole number then rounds
for the second time.  A number that loses digits is less than a unit, so that the second rounding makes it
nothing or one unit, and it is wrong exactly where the first one has passed the point on which the rule
turns (`Rounding.Slips`, `units_twice`).
-/

namespace PaintQuote.Decimal

variable {n den e k : Nat}

/-! ## Rounding to nothing and to the middle -/

theorem nearestEven_eq_zero_iff (hden : 0 < den) : nearestEven n den = 0 ↔ 2 * n ≤ den := by
  constructor
  · intro hzero
    refine Nat.le_of_not_lt fun hlt => ?_
    have := le_nearestEven (k := 1) (n := n) hden (by omega)
    omega
  · intro hle
    have hlt : n < den := by omega
    simp only [nearestEven, Nat.div_eq_of_lt hlt, Nat.mod_eq_of_lt hlt]
    rw [if_neg (by omega)]

/-- A quotient is rounded up to an even number from the middle on, the middle included. -/
theorem even_le_nearestEven_iff (hden : 0 < den) (heven : k % 2 = 0) :
    k ≤ nearestEven n den ↔ 2 * (k * den) ≤ 2 * n + den := by
  constructor
  · intro hle
    have := Nat.mul_le_mul_right den hle
    have := nearestEven_mul_le n den
    omega
  · intro hle
    rcases Nat.lt_or_ge (2 * (k * den)) (2 * n + den) with hlt | hge
    · exact le_nearestEven hden hlt
    · -- In the middle the lower neighbour is odd.
      have hn := Nat.div_add_mod n den
      have hr := Nat.mod_lt n hden
      rw [Nat.mul_comm] at hn
      have hlow : n / den < k := (Nat.div_lt_iff_lt_mul hden).2 (by omega)
      have hhigh : k < n / den + 2 := by
        refine Nat.lt_of_not_le fun hge' => ?_
        have := Nat.mul_le_mul_right den hge'
        rw [Nat.add_mul] at this
        omega
      obtain rfl : k = n / den + 1 := by omega
      rw [Nat.add_mul, Nat.one_mul] at hle hge
      simp only [nearestEven]
      rw [if_pos (by omega)]

/-! ## Quotients -/

/-- The nearest decimal to a coefficient over a power of ten is the nearest of the last scale. -/
theorem IsNearest.fraction_eq {num m j : Nat} (h : IsNearest num (tenTo e) m j)
    (hnum : num < coefficientLimit) :
    fraction m j = fraction (nearestEven (num * tenTo maxScale) (tenTo e)) maxScale := by
  have hexact : tenTo e ∣ num * tenTo j →
      fraction m j = fraction (nearestEven (num * tenTo maxScale) (tenTo e)) maxScale := by
    intro hdvd
    obtain ⟨i, hi⟩ := Nat.exists_eq_add_of_le h.le
    rw [hi, nearestEven_of_dvd (tenTo_pos e) hdvd, ← h.rounded, fraction_add]
  rcases h.finest with hdvd | rfl | hlimit
  · exact hexact hdvd
  · rw [h.rounded]
  · -- A coefficient reaches the limit only if digits are added to it.
    refine hexact (Dvd.dvd.mul_left (Nat.pow_dvd_pow 10 (Nat.le_of_not_lt fun hlt => ?_)) num)
    have hle : nearestEven (num * tenTo (j + 1)) (tenTo e) ≤ num :=
      nearestEven_le (tenTo_pos e) (Nat.mul_le_mul_left _ (Nat.pow_le_pow_right (by decide) hlt))
    omega

theorem powNat?_ten : ∀ k ≤ maxScale, (10 : Decimal).powNat? k = some (ofNat (tenTo k)) := by
  decide +kernel

theorem coefficient_ofNat_tenTo (hk : k ≤ maxScale) : (ofNat (tenTo k)).coefficient = tenTo k := by
  have hle : tenTo k ≤ tenTo maxScale := Nat.pow_le_pow_right (by decide) hk
  have hlimit : tenTo maxScale ≤ coefficientLimit - 1 := by decide
  exact Nat.min_eq_left (Nat.le_trans hle hlimit)

/-- A quotient by a power of ten has as many of the digits as there are places. -/
theorem div?_tenTo (n : Decimal) (hk : k ≤ maxScale) :
    ∃ q, n.div? (ofNat (tenTo k)) = some q ∧
      q.value = withMinus n.negative
        (fraction (nearestEven (n.coefficient * tenTo maxScale) (tenTo (n.scale + k))) maxScale) := by
  have hcoefficient := coefficient_ofNat_tenTo hk
  have hnonzero : (ofNat (tenTo k)).isZero = false := by
    rw [isZero, hcoefficient]
    exact beq_eq_false_iff_ne.2 (tenTo_pos k).ne'
  have hrounds := n.div?_rounds hnonzero
  have hden : (ofNat (tenTo k)).coefficient * tenTo n.scale = tenTo (n.scale + k) := by
    rw [hcoefficient, Nat.add_comm, tenTo_add]
  have hnum : n.coefficient * tenTo (ofNat (tenTo k)).scale = n.coefficient := Nat.mul_one _
  have hsign : (n.negative != (ofNat (tenTo k)).negative) = n.negative := Bool.xor_false _
  rw [hden, hnum, hsign] at hrounds
  cases hq : n.div? (ofNat (tenTo k)) with
  | none =>
      rw [hq] at hrounds
      cases hrounds with
      | large hlimit =>
          have hle : nearestEven n.coefficient (tenTo (n.scale + k)) ≤ n.coefficient :=
            nearestEven_le (tenTo_pos _) (Nat.le_mul_of_pos_right _ (tenTo_pos _))
          have := n.coefficient_lt
          omega
  | some q =>
      rw [hq] at hrounds
      cases hrounds with
      | nearest hnearest hfraction hnegative =>
          refine ⟨q, rfl, ?_⟩
          rw [value_of_sign hnegative, hfraction, hnearest.fraction_eq n.coefficient_lt]

/-! ## Rounding twice -/

namespace Rounding

/-- Where a number of units is rounded the wrong way after it was rounded to the last place: from half a
last place below a half up to a half, which then counts as a half, and from zero to half a last place,
which then counts as nothing. -/
def Slips (rule : Rounding) (unit x : ℚ) : Prop :=
  match rule with
  | .halfAway => unit ≤ 2 * |x| + unit / tenTo maxScale ∧ 2 * |x| < unit
  | .away => x ≠ 0 ∧ 2 * |x| ≤ unit / tenTo maxScale
  | .towardZero => False
  | .up => False
  | .down => False

/-- The same of the fraction `n / 10 ^ e`. -/
def SlipsAt (rule : Rounding) (n e : Nat) : Prop :=
  match rule with
  | .halfAway => tenTo maxScale * tenTo e ≤ 2 * (n * tenTo maxScale) + tenTo e ∧ 2 * n < tenTo e
  | .away => n ≠ 0 ∧ 2 * (n * tenTo maxScale) ≤ tenTo e
  | .towardZero => False
  | .up => False
  | .down => False

theorem units_zeros (rule : Rounding) (negative : Bool) (n den zeros : Nat) :
    rule.units negative (n * tenTo zeros) (den * tenTo zeros) = rule.units negative n den := by
  rw [units, units, Nat.mul_div_mul_right _ _ (tenTo_pos zeros), Nat.mul_mod_mul_right,
    carries_zeros]

theorem units_of_lt (rule : Rounding) (negative : Bool) (h : n < den) :
    rule.units negative n den = (rule.carries negative n den).toNat := by
  rw [units, Nat.div_eq_of_lt h, Nat.mod_eq_of_lt h, Nat.zero_add]

theorem halfAway_carries (negative : Bool) (hden : 0 < den) :
    halfAway.carries negative n den = decide (den ≤ 2 * n) := by
  rw [carries, Bool.eq_iff_iff, Bool.and_eq_true, bne_iff_ne, decide_eq_true_iff]
  omega

theorem away_carries (negative : Bool) : away.carries negative n den = decide (n ≠ 0) := by
  rw [carries, Bool.and_true, Bool.eq_iff_iff, bne_iff_ne, decide_eq_true_iff]

/-- A number whose digits all have a place does not slip. -/
theorem not_slipsAt_of_le (rule : Rounding) (h : e ≤ maxScale) : ¬ rule.SlipsAt n e := by
  have hle : tenTo e ≤ tenTo maxScale := Nat.pow_le_pow_right (by decide) h
  have hpos := tenTo_pos e
  cases rule with
  | halfAway =>
      rintro ⟨hlow, hhigh⟩
      have htwo : 2 ≤ tenTo maxScale := by decide
      cases e with
      | zero =>
          rw [tenTo_zero] at hlow hhigh
          obtain rfl : n = 0 := by omega
          omega
      | succ e =>
          -- Half of ten is a whole number, so that a half is a whole number of last places.
          have heven : 2 * (n + 1) ≤ tenTo (e + 1) := by
            rw [tenTo_succ] at hhigh ⊢
            omega
          have hscaled := Nat.mul_le_mul_right (tenTo maxScale) heven
          rw [Nat.mul_comm (tenTo (e + 1)), Nat.mul_assoc, Nat.add_mul] at hscaled
          omega
  | away =>
      rintro ⟨hne, hsmall⟩
      have := Nat.le_mul_of_pos_left (tenTo maxScale) (Nat.pos_of_ne_zero hne)
      omega
  | _ => exact id

section

variable {rule : Rounding} (hrule : rule = .halfAway ∨ rule = .away ∨ rule = .towardZero) (negative : Bool)

include hrule

/-- Where digits have no place, a number slips exactly if the second rounding decides otherwise. -/
theorem carries_twice_iff (e : Nat) :
    rule.carries negative (nearestEven (n * tenTo maxScale) (tenTo e)) (tenTo maxScale) =
      rule.carries negative n (tenTo e) ↔ ¬ rule.SlipsAt n e := by
  have he := tenTo_pos e
  rcases hrule with rfl | rfl | rfl
  · -- Half of the last scale is even, so that the middle below it is rounded up.
    have hmiddle : tenTo maxScale ≤ 2 * nearestEven (n * tenTo maxScale) (tenTo e) ↔
        tenTo maxScale * tenTo e ≤ 2 * (n * tenTo maxScale) + tenTo e := by
      obtain ⟨half, hhalf, heven⟩ : ∃ half, tenTo maxScale = 2 * half ∧ half % 2 = 0 :=
        ⟨tenTo maxScale / 2, by decide, by decide⟩
      have hiff := even_le_nearestEven_iff (n := n * tenTo maxScale) he heven
      rw [← Nat.mul_assoc, ← hhalf] at hiff
      rw [← hiff]
      omega
    have hhalf : tenTo e ≤ 2 * n →
        tenTo maxScale * tenTo e ≤ 2 * (n * tenTo maxScale) + tenTo e := by
      intro hle
      have hscaled := Nat.mul_le_mul_right (tenTo maxScale) hle
      rw [Nat.mul_comm (tenTo e), Nat.mul_assoc] at hscaled
      omega
    rw [halfAway_carries _ (tenTo_pos _), halfAway_carries _ he, decide_eq_decide, hmiddle, SlipsAt]
    constructor
    · rintro hsame ⟨hlow, hhigh⟩
      have := hsame.1 hlow
      omega
    · intro hkeeps
      exact ⟨fun hlow => Nat.le_of_not_lt fun hhigh => hkeeps ⟨hlow, hhigh⟩, hhalf⟩
  · have hzero := nearestEven_eq_zero_iff (n := n * tenTo maxScale) he
    rw [away_carries, away_carries, decide_eq_decide, Ne, hzero, SlipsAt]
    constructor
    · rintro hsame ⟨hne, hsmall⟩
      exact hsame.2 hne hsmall
    · intro hkeeps
      refine ⟨fun hlarge hn => hlarge ?_, fun hne hsmall => hkeeps ⟨hne, hsmall⟩⟩
      rw [hn, Nat.zero_mul, Nat.mul_zero]
      exact Nat.zero_le _
  · simp [carries, SlipsAt]

/-- Rounding for the second time is rounding at once unless the number slips, and then it makes nothing
or one unit of it, but the wrong one. -/
theorem units_twice (hn : n < coefficientLimit) (e : Nat) :
    (¬ rule.SlipsAt n e →
      rule.units negative (nearestEven (n * tenTo maxScale) (tenTo e)) (tenTo maxScale) =
        rule.units negative n (tenTo e)) ∧
    (rule.SlipsAt n e →
      rule.units negative (nearestEven (n * tenTo maxScale) (tenTo e)) (tenTo maxScale) ≤ 1 ∧
        rule.units negative (nearestEven (n * tenTo maxScale) (tenTo e)) (tenTo maxScale) ≠
          rule.units negative n (tenTo e)) := by
  rcases Nat.lt_or_ge maxScale e with hlong | hshort
  · have hlarge : tenTo (maxScale + 1) ≤ tenTo e := Nat.pow_le_pow_right (by decide) hlong
    have hlimit : coefficientLimit * tenTo maxScale ≤ (tenTo maxScale - 1) * tenTo (maxScale + 1) := by
      decide
    have hless : n < tenTo e := by
      have : coefficientLimit ≤ tenTo (maxScale + 1) := by decide
      omega
    have hrounded : nearestEven (n * tenTo maxScale) (tenTo e) < tenTo maxScale := by
      have hle : nearestEven (n * tenTo maxScale) (tenTo e) ≤ tenTo maxScale - 1 := by
        refine nearestEven_le (tenTo_pos e) (Nat.le_trans (Nat.mul_le_mul_right _ hn.le) ?_)
        exact Nat.le_trans hlimit (Nat.mul_le_mul_left _ hlarge)
      have := tenTo_pos maxScale
      omega
    have hiff := carries_twice_iff (n := n) hrule negative e
    have hinjective : ∀ a b : Bool, a.toNat = b.toNat → a = b := by decide
    rw [rule.units_of_lt negative hrounded, rule.units_of_lt negative hless]
    refine ⟨fun hkeeps => by rw [hiff.2 hkeeps], fun hslips => ⟨Bool.toNat_le _, fun heq => ?_⟩⟩
    exact hiff.1 (hinjective _ _ heq) hslips
  · obtain ⟨further, hfurther⟩ := Nat.exists_eq_add_of_le hshort
    refine ⟨fun _ => ?_, fun hslips => absurd hslips (rule.not_slipsAt_of_le hshort)⟩
    have hexact : n * tenTo maxScale = n * tenTo further * tenTo e := by
      rw [hfurther, Nat.add_comm, tenTo_add, Nat.mul_assoc]
    rw [hexact, nearestEven_mul _ (tenTo_pos e), hfurther, tenTo_add, units_zeros]

end

end Rounding

end PaintQuote.Decimal
