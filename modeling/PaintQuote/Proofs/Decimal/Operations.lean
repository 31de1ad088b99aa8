import PaintQuote.Decimal.Division
import PaintQuote.Proofs.Decimal.Rounded

/-!
# Sums, products and quotients of equal numbers

Each of the operations rounds to the nearest decimal: a sum and a product because they are fitted, a
quotient because long division stops only where no further digit has room, and then knows whether
something remains.  So the results for equal numbers are equal numbers, although their scales and
the digits on the way differ.
-/

namespace PaintQuote.Decimal

/-! ## Sums -/

theorem natAbs_signedAt (d : Decimal) (scale : Nat) :
    (d.signedAt scale).natAbs = d.coefficient * tenTo (scale - d.scale) := by
  rw [signedAt, signed, Int.natAbs_mul, Int.natAbs_natCast]
  cases d.negative <;> simp

theorem mul_lt_zero_iff {x y : Int} (hy : 0 < y) : x * y < 0 ↔ x < 0 := by
  simpa using (Int.mul_lt_mul_right hy : x * y < 0 * y ↔ x < 0)

theorem signedAt_lt_zero_iff {d : Decimal} {scale : Nat} :
    d.signedAt scale < 0 ↔ d.negative = true ∧ d.coefficient ≠ 0 := by
  have hpos : (0 : Int) < tenTo (scale - d.scale) := Int.natCast_pos.2 (tenTo_pos _)
  rw [signedAt, mul_lt_zero_iff hpos, signed]
  cases d.negative <;> simp [Nat.pos_iff_ne_zero]

theorem signedAt_of_isZero {d : Decimal} (h : d.isZero = true) (scale : Nat) :
    d.signedAt scale = 0 := by
  rw [← Int.natAbs_eq_zero, natAbs_signedAt, beq_iff_eq.1 h, Nat.zero_mul]

/-- A sum is the decimal nearest to the exact sum. -/
theorem add?_rounds (a b : Decimal) :
    Rounds (a.signedAt (max a.scale b.scale) + b.signedAt (max a.scale b.scale) < 0)
      (a.signedAt (max a.scale b.scale) + b.signedAt (max a.scale b.scale)).natAbs
      (tenTo (max a.scale b.scale)) (a.add? b) := by
  have hself : ∀ d : Decimal, ∀ scale, d.scale ≤ scale →
      Rounds (d.signedAt scale < 0) (d.signedAt scale).natAbs (tenTo scale) (some d) := by
    intro d scale hle
    refine .self (tenTo_pos _) ?_ ?_
    · rw [natAbs_signedAt, Nat.mul_assoc, ← tenTo_add, Nat.sub_add_cancel hle]
    · refine or_iff_not_imp_left.2 fun hne => ?_
      rw [Bool.eq_iff_iff, decide_eq_true_iff, signedAt_lt_zero_iff]
      exact ⟨fun h => ⟨h, hne⟩, fun h => h.1⟩
  unfold add?
  split
  next hzero =>
    rw [signedAt_of_isZero hzero, Int.zero_add]
    exact hself b _ (Nat.le_max_right _ _)
  next =>
    split
    next hzero =>
      rw [signedAt_of_isZero hzero, Int.add_zero]
      exact hself a _ (Nat.le_max_left _ _)
    next => exact fit?_rounds _ _ _

variable {a b a' b' : Decimal}

/-- Sums of equal numbers are equal. -/
theorem add?_same (ha : a.same a') (hb : b.same b') : SameResult (a.add? b) (a'.add? b') := by
  have hsum := fun x y : Decimal => signedAt_div (Nat.le_max_left x.scale y.scale)
  have hsum' := fun x y : Decimal => signedAt_div (Nat.le_max_right x.scale y.scale)
  have hcross : (a.signedAt (max a.scale b.scale) + b.signedAt (max a.scale b.scale)) *
      tenTo (max a'.scale b'.scale) =
        (a'.signedAt (max a'.scale b'.scale) + b'.signedAt (max a'.scale b'.scale)) *
          (tenTo (max a.scale b.scale) : Int) := by
    have hvalue : ((a.signedAt (max a.scale b.scale) + b.signedAt (max a.scale b.scale) : Int) : ℚ) /
        tenTo (max a.scale b.scale) =
          ((a'.signedAt (max a'.scale b'.scale) + b'.signedAt (max a'.scale b'.scale) : Int) : ℚ) /
            tenTo (max a'.scale b'.scale) := by
      rw [Int.cast_add, Int.cast_add, add_div, add_div, hsum, hsum', hsum, hsum',
        same_iff_value.1 ha, same_iff_value.1 hb]
    rw [div_eq_div_iff (tenTo_cast_pos _).ne' (tenTo_cast_pos _).ne'] at hvalue
    exact_mod_cast hvalue
  have hpos : (0 : Int) < tenTo (max a.scale b.scale) := Int.natCast_pos.2 (tenTo_pos _)
  have hpos' : (0 : Int) < tenTo (max a'.scale b'.scale) := Int.natCast_pos.2 (tenTo_pos _)
  refine (add?_rounds a b).sameResult (add?_rounds a' b') (tenTo_pos _) (tenTo_pos _) ?_ (Or.inr ?_)
  · have := congrArg Int.natAbs hcross
    rwa [Int.natAbs_mul, Int.natAbs_mul, Int.natAbs_natCast, Int.natAbs_natCast] at this
  · rw [Bool.eq_iff_iff, decide_eq_true_iff, decide_eq_true_iff, ← mul_lt_zero_iff hpos',
      hcross, mul_lt_zero_iff hpos]

/-- Differences of equal numbers are equal. -/
theorem sub?_same (ha : a.same a') (hb : b.same b') : SameResult (a.sub? b) (a'.sub? b') := by
  unfold sub?
  rw [← isZero_of_same hb, ← isZero_of_same ha]
  cases b.isZero with
  | false => exact add?_same ha (neg_same hb)
  | true =>
      cases a.isZero with
      | false => exact .some ha
      | true => exact .some hb

/-! ## Products -/

/-- A product is the decimal nearest to the exact product. -/
theorem mul?_rounds (a b : Decimal) :
    Rounds (a.negative != b.negative) (a.coefficient * b.coefficient) (tenTo (a.scale + b.scale))
      (a.mul? b) := by
  unfold mul?
  split
  next hzero =>
    have hproduct : a.coefficient * b.coefficient = 0 := by
      simpa [isZero, Nat.mul_eq_zero] using hzero
    rw [hproduct]
    refine .self (tenTo_pos _) ?_ (Or.inl rfl)
    exact (Nat.zero_mul _).trans (Nat.zero_mul _).symm
  next =>
    simp only
    split
    next hshort =>
      rw [Bool.and_eq_true, isShort, isShort, decide_eq_true_iff, decide_eq_true_iff] at hshort
      split
      next hlong =>
        refine .zero ?_
        have hproduct : a.coefficient * b.coefficient < wordLimit * wordLimit :=
          Nat.mul_lt_mul'' hshort.1 hshort.2
        have hscale : tenTo 48 ≤ tenTo (a.scale + b.scale) :=
          Nat.pow_le_pow_right (by decide) hlong
        have hbound : 2 * (wordLimit * wordLimit * tenTo maxScale) < tenTo 48 := by decide
        have := Nat.mul_lt_mul_of_pos_right hproduct (tenTo_pos maxScale)
        omega
      next => exact fit?_rounds _ _ _
    next => exact (fit?_rounds _ _ _).withSign

/-- Products of equal numbers are equal. -/
theorem mul?_same (ha : a.same a') (hb : b.same b') : SameResult (a.mul? b) (a'.mul? b') := by
  obtain ⟨hcross, hsign⟩ := (same_iff a a').1 ha
  obtain ⟨hcross', hsign'⟩ := (same_iff b b').1 hb
  refine (mul?_rounds a b).sameResult (mul?_rounds a' b') (tenTo_pos _) (tenTo_pos _) ?_ ?_
  · calc a.coefficient * b.coefficient * tenTo (a'.scale + b'.scale)
        = a.coefficient * tenTo a'.scale * (b.coefficient * tenTo b'.scale) := by
          rw [tenTo_add]
          ac_rfl
      _ = a'.coefficient * b'.coefficient * tenTo (a.scale + b.scale) := by
          rw [hcross, hcross', tenTo_add]
          ac_rfl
  · rw [Nat.mul_eq_zero]
    rcases hsign with hzero | hsign
    · exact Or.inl (Or.inl hzero)
    rcases hsign' with hzero | hsign'
    · exact Or.inl (Or.inr hzero)
    · rw [hsign, hsign']
      exact Or.inr rfl

/-! ## Long division -/

theorem limit_le_of_furtherDigits_lt {coefficient most : Nat}
    (h : furtherDigits coefficient most < most) :
    coefficientLimit ≤ coefficient * tenTo (furtherDigits coefficient most + 1) := by
  induction most with
  | zero => cases h
  | succ most ih =>
      rw [furtherDigits] at h ⊢
      split at h
      next => exact absurd h (Nat.lt_irrefl _)
      next hlimit =>
        rw [if_neg hlimit]
        rcases Nat.eq_or_lt_of_le (furtherDigits_le coefficient most) with heq | hlt
        · rw [heq]
          exact Nat.not_lt.1 hlimit
        · exact ih hlt

theorem mul_furtherDigits_lt {coefficient : Nat} (h : coefficient < coefficientLimit) (most : Nat) :
    coefficient * tenTo (furtherDigits coefficient most) < coefficientLimit := by
  induction most with
  | zero => rwa [furtherDigits, tenTo_zero, Nat.mul_one]
  | succ most ih =>
      rw [furtherDigits]
      split
      next hlimit => exact hlimit
      next => exact ih

/-- A digit less is rounded right from the quotient and whether something remains. -/
theorem nearestEven_more {divisor remainder : Nat} (n : Nat) (hr : remainder < divisor) :
    nearestEven (n * divisor + remainder) (divisor * 10) =
      nearestEven (2 * n + (remainder != 0).toNat) 20 := by
  have hn := Nat.div_add_mod n 10
  have ht := Nat.mod_lt n (show 0 < 10 by decide)
  generalize n / 10 = q at hn
  generalize n % 10 = t at hn ht
  have hmore : (remainder != 0).toNat = if remainder = 0 then 0 else 1 := by
    by_cases h : remainder = 0 <;> simp [h]
  have hsmall : t * divisor + remainder < divisor * 10 := by
    have : t * divisor ≤ 9 * divisor := Nat.mul_le_mul_right _ (by omega)
    omega
  have hleft : n * divisor + remainder = q * (divisor * 10) + (t * divisor + remainder) := by
    rw [← hn, Nat.add_mul, Nat.add_assoc]
    ac_rfl
  have hright : 2 * n + (remainder != 0).toNat = q * 20 + (2 * t + (remainder != 0).toNat) := by
    omega
  have hsmall' : 2 * t + (remainder != 0).toNat < 20 := by
    rw [hmore]
    split <;> omega
  have hquotient : ∀ {d r}, r < d → (q * d + r) / d = q ∧ (q * d + r) % d = r := by
    intro d r hr
    rw [Nat.mul_comm, Nat.mul_add_div (by omega), Nat.mul_add_mod, Nat.mod_eq_of_lt hr,
      Nat.div_eq_of_lt hr]
    exact ⟨rfl, rfl⟩
  unfold nearestEven
  rw [hleft, hright, (hquotient hsmall).1, (hquotient hsmall).2, (hquotient hsmall').1,
    (hquotient hsmall').2, hmore]
  -- What decides is the digit given up: below five, five and above.
  refine if_congr ?_ rfl rfl
  rcases Nat.lt_trichotomy t 5 with hlt | rfl | hgt
  · have : t * divisor ≤ 4 * divisor := Nat.mul_le_mul_right _ (by omega)
    split <;> omega
  · split <;> omega
  · have : 6 * divisor ≤ t * divisor := Nat.mul_le_mul_right _ hgt
    split <;> omega

/-- What long division answers for a fraction: the parts of the nearest decimal, or else the fraction
has no decimal; then it may still give a whole number that is too large. -/
inductive Divides (num den : Nat) : Option (Nat × Nat) → Prop where
  /-- The parts of the nearest decimal. -/
  | nearest {m k : Nat} : IsNearest num den m k → Divides num den (some (m, k))
  /-- A whole number that is too large. -/
  | whole {m : Nat} : coefficientLimit ≤ m → coefficientLimit ≤ nearestEven num den →
      Divides num den (some (m, 0))
  /-- No room. -/
  | large : coefficientLimit ≤ nearestEven num den → Divides num den none

/-- The fraction that long division still has to find. -/
def owed (divisor quotient remainder room : Nat) : Nat :=
  (quotient * divisor + remainder) * tenTo room

section LongDivision

variable {divisor quotient remainder room : Nat}

/-- On a scale at hand the fraction is that of the quotient and its remainder. -/
theorem nearestEven_owed {k : Nat} (h : room + k = maxScale) :
    nearestEven (owed divisor quotient remainder room * tenTo k) (divisor * tenTo maxScale) =
      nearestEven (quotient * divisor + remainder) divisor := by
  rw [owed, Nat.mul_assoc, ← tenTo_add, h, nearestEven_scale _ _ (tenTo_pos _)]

theorem nearestEven_owed_finer {k : Nat} (h : room + k = maxScale + 1) :
    nearestEven (owed divisor quotient remainder room * tenTo k) (divisor * tenTo maxScale) =
      nearestEven ((quotient * divisor + remainder) * 10) divisor := by
  rw [owed, Nat.mul_assoc, ← tenTo_add, h, tenTo_succ, Nat.mul_comm _ 10, ← Nat.mul_assoc,
    nearestEven_scale _ _ (tenTo_pos _)]

theorem nearestEven_owed_coarser {k : Nat} (h : room + k + 1 = maxScale) :
    nearestEven (owed divisor quotient remainder room * tenTo k) (divisor * tenTo maxScale) =
      nearestEven (quotient * divisor + remainder) (divisor * 10) := by
  rw [owed, Nat.mul_assoc, ← tenTo_add, ← h, tenTo_succ, Nat.mul_comm (tenTo _) 10, ← Nat.mul_assoc,
    nearestEven_scale _ _ (tenTo_pos _)]

theorem le_nearestEven_of_mul_le {m n d : Nat} (hd : 0 < d) (h : m * d ≤ n) :
    m ≤ nearestEven n d :=
  Nat.le_trans (Nat.le_of_eq (nearestEven_mul m hd).symm) (nearestEven_mono hd h)

/-- A quotient at the limit has no decimal where its scale is not above zero. -/
theorem limit_le_owed (hd : 0 < divisor) (hroom : maxScale ≤ room)
    (hlimit : coefficientLimit ≤ quotient * tenTo (room - maxScale)) :
    coefficientLimit ≤
      nearestEven (owed divisor quotient remainder room) (divisor * tenTo maxScale) := by
  obtain ⟨more, rfl⟩ := Nat.exists_eq_add_of_le hroom
  rw [Nat.add_sub_cancel_left] at hlimit
  refine le_nearestEven_of_mul_le (Nat.mul_pos hd (tenTo_pos _)) ?_
  calc coefficientLimit * (divisor * tenTo maxScale)
      ≤ quotient * tenTo more * (divisor * tenTo maxScale) := Nat.mul_le_mul_right _ hlimit
    _ = quotient * divisor * tenTo (maxScale + more) := by
        rw [tenTo_add]
        ac_rfl
    _ ≤ owed divisor quotient remainder (maxScale + more) :=
        Nat.mul_le_mul_right _ (Nat.le_add_right _ _)

/-- Shortening rounds to the nearest decimal. -/
theorem divides_shorten? (hd : 0 < divisor) (hr : remainder < divisor)
    (hlimit : coefficientLimit ≤ nearestEven (quotient * divisor + remainder) divisor)
    {more : Bool} {coefficient : Nat}
    (hround : nearestEven (2 * coefficient + more.toNat) 20 =
      nearestEven (quotient * divisor + remainder) (divisor * 10))
    (hlt : quotient + 1 ≤ (coefficientLimit - 1) * 10) :
    Divides (owed divisor quotient remainder room) (divisor * tenTo maxScale)
      (shorten? more coefficient room) := by
  unfold shorten?
  split
  next hle =>
    obtain ⟨further, rfl⟩ := Nat.exists_eq_add_of_le hle
    refine .large (Nat.le_trans hlimit ?_)
    rw [owed, Nat.add_comm maxScale, tenTo_add, ← Nat.mul_assoc, nearestEven_scale _ _ (tenTo_pos _)]
    exact nearestEven_mono hd (Nat.le_mul_of_pos_right _ (tenTo_pos _))
  next hgt =>
    obtain ⟨k, hk⟩ : ∃ k, room + k + 1 = maxScale := ⟨maxScale - room - 1, by omega⟩
    obtain rfl : maxScale - room - 1 = k := by omega
    refine .nearest ⟨?_, ?_, by omega, Or.inr (Or.inr ?_)⟩
    · rw [nearestEven_owed_coarser hk, hround]
    · rw [hround]
      refine Nat.lt_of_le_of_lt (nearestEven_le (k := coefficientLimit - 1) (by omega) ?_)
        (by decide)
      calc quotient * divisor + remainder
          ≤ (quotient + 1) * divisor := by
            rw [Nat.add_mul, Nat.one_mul]
            omega
        _ ≤ (coefficientLimit - 1) * 10 * divisor := Nat.mul_le_mul_right _ hlt
        _ = (coefficientLimit - 1) * (divisor * 10) := by ac_rfl
    · rw [nearestEven_owed (by omega)]
      exact hlimit

/-- A block of further digits leaves as much of the fraction to be found. -/
theorem owed_block {block : Nat} (hle : block ≤ room) :
    owed divisor (quotient * tenTo block + remainder * tenTo block / divisor)
      (remainder * tenTo block % divisor) (room - block) = owed divisor quotient remainder room := by
  obtain ⟨rest, rfl⟩ := Nat.exists_eq_add_of_le hle
  have hmod := Nat.div_add_mod (remainder * tenTo block) divisor
  rw [Nat.mul_comm] at hmod
  unfold owed
  rw [Nat.add_sub_cancel_left, Nat.add_mul (quotient * tenTo block), Nat.add_assoc, hmod, tenTo_add,
    Nat.mul_right_comm quotient, ← Nat.add_mul, Nat.mul_assoc]

/-- Long division finds the nearest decimal. -/
theorem longDivision?_divides (hd : 0 < divisor) (hr : remainder < divisor)
    (hq : quotient < coefficientLimit) :
    Divides (owed divisor quotient remainder room) (divisor * tenTo maxScale)
      (longDivision? divisor quotient remainder room) := by
  induction room using Nat.strongRecOn generalizing quotient remainder with
  | ind room ih =>
    rw [longDivision?]
    split
    next hzero =>
      subst hzero
      split
      next hroom =>
        obtain ⟨k, hk⟩ := Nat.exists_eq_add_of_le hroom
        obtain rfl : maxScale - room = k := by omega
        refine .nearest ⟨?_, hq, by omega, Or.inl ?_⟩
        · rw [nearestEven_owed hk.symm, Nat.add_zero, nearestEven_mul _ hd]
        · rw [owed, Nat.mul_assoc, ← tenTo_add, ← hk, Nat.add_zero, Nat.mul_assoc]
          exact Nat.dvd_mul_left _ _
      next hroom =>
        by_cases hfits : quotient * tenTo (room - maxScale) < coefficientLimit
        · obtain ⟨further, rfl⟩ := Nat.exists_eq_add_of_le (Nat.le_of_not_le hroom)
          rw [Nat.add_sub_cancel_left] at hfits ⊢
          have howed : owed divisor quotient 0 (maxScale + further) =
              quotient * tenTo further * (divisor * tenTo maxScale) := by
            rw [owed, tenTo_add, Nat.add_zero]
            ac_rfl
          rw [howed]
          refine .nearest ⟨?_, hfits, Nat.zero_le _, Or.inl ?_⟩
          · rw [tenTo_zero, Nat.mul_one, nearestEven_mul _ (Nat.mul_pos hd (tenTo_pos _))]
          · rw [tenTo_zero, Nat.mul_one]
            exact Nat.dvd_mul_left _ _
        · exact .whole (Nat.not_lt.1 hfits) (limit_le_owed hd (by omega) (Nat.not_lt.1 hfits))
    next hne =>
    generalize hblock : furtherDigits quotient (min 9 room) = block
    have hmost := furtherDigits_le quotient (min 9 room)
    have hdigits := mul_furtherDigits_lt hq (min 9 room)
    have hstop := @limit_le_of_furtherDigits_lt quotient (min 9 room)
    rw [hblock] at hmost hdigits hstop
    have hless : quotient * divisor + remainder < coefficientLimit * divisor := by
      have := Nat.mul_le_mul_right divisor (Nat.succ_le_of_lt hq)
      rw [Nat.succ_mul] at this
      omega
    simp only
    split
    next hnone =>
      have hlimit := hstop (by omega)
      refine .large (limit_le_owed hd (by omega) (Nat.le_trans hlimit ?_))
      exact Nat.mul_le_mul_left _ (Nat.pow_le_pow_right (by decide) (by omega))
    next hroom =>
    split
    next hzero =>
      -- No digit has room: the quotient is rounded here.
      subst hzero
      obtain ⟨k, hk⟩ : ∃ k, room + k = maxScale := ⟨maxScale - room, by omega⟩
      obtain rfl : maxScale - room = k := by omega
      split
      next hfits =>
        refine .nearest ⟨(nearestEven_owed hk).symm, hfits, by omega, ?_⟩
        rcases Nat.eq_zero_or_pos room with rfl | hpos
        · exact Or.inr (Or.inl rfl)
        · refine Or.inr (Or.inr ?_)
          rw [nearestEven_owed_finer (by omega)]
          refine le_nearestEven_of_mul_le hd ?_
          have hlimit := Nat.mul_le_mul_right divisor (hstop (by omega))
          rw [Nat.zero_add, tenTo_succ, tenTo_zero, Nat.one_mul, Nat.mul_right_comm] at hlimit
          exact Nat.le_trans hlimit (Nat.mul_le_mul_right _ (Nat.le_add_right _ _))
      next hlarge =>
        have hlimit : nearestEven (quotient * divisor + remainder) divisor = coefficientLimit := by
          refine Nat.le_antisymm (nearestEven_le hd (Nat.le_of_lt ?_)) (Nat.not_lt.1 hlarge)
          exact hless
        refine divides_shorten? hd hr (Nat.not_lt.1 hlarge) ?_ ?_
        · rw [hlimit, nearestEven_of_limit hd hlimit hless]
          decide
        · simp only [coefficientLimit] at hq ⊢
          omega
    next hpos =>
      have hr' : remainder * tenTo block % divisor < divisor := Nat.mod_lt _ hd
      rw [← owed_block (Nat.le_trans hmost (Nat.min_le_right 9 room))]
      split
      next hfits => exact ih (room - block) (by omega) hr' hfits
      next hlarge =>
        refine divides_shorten? hd hr' ?_ (nearestEven_more _ hr').symm ?_
        · refine le_nearestEven_of_mul_le hd (Nat.le_trans ?_ (Nat.le_add_right _ _))
          exact Nat.mul_le_mul_right _ (Nat.not_lt.1 hlarge)
        · have hdigit : remainder * tenTo block / divisor < tenTo block := by
            rw [Nat.div_lt_iff_lt_mul hd, Nat.mul_comm]
            exact Nat.mul_lt_mul_of_pos_left hr (tenTo_pos _)
          have hblocks : tenTo block ≤ tenTo 9 := Nat.pow_le_pow_right (by decide) (by omega)
          have hnine : tenTo 9 = 1000000000 := by decide
          simp only [coefficientLimit] at hdigits ⊢
          omega

end LongDivision

/-! ## Zeros at the end -/

/-- Parts without some of the zeros at the end of the fraction. -/
structure Trims (parts trimmed : Nat × Nat) : Prop where
  same : fraction trimmed.1 trimmed.2 = fraction parts.1 parts.2
  coefficient_le : trimmed.1 ≤ parts.1
  scale_le : trimmed.2 ≤ parts.2

namespace Trims

theorem refl (parts : Nat × Nat) : Trims parts parts := ⟨rfl, Nat.le_refl _, Nat.le_refl _⟩

theorem trans {p q r : Nat × Nat} (h : Trims p q) (h' : Trims q r) : Trims p r where
  same := h'.same.trans h.same
  coefficient_le := Nat.le_trans h'.coefficient_le h.coefficient_le
  scale_le := Nat.le_trans h'.scale_le h.scale_le

theorem of_mod {coefficient scale length : Nat} (h : coefficient % tenTo length = 0) :
    Trims (coefficient, scale + length) (coefficient / tenTo length, scale) where
  same := by
    show fraction (coefficient / tenTo length) scale = fraction coefficient (scale + length)
    rw [← fraction_add _ scale length, Nat.div_mul_cancel (Nat.dvd_of_mod_eq_zero h)]
  coefficient_le := Nat.div_le_self _ _
  scale_le := Nat.le_add_right _ _

theorem dropBlock (length : Nat) (parts : Nat × Nat) : Trims parts (dropBlock length parts) := by
  unfold Decimal.dropBlock
  split
  next h =>
    obtain ⟨coefficient, scale⟩ := parts
    obtain ⟨rest, rfl⟩ := Nat.exists_eq_add_of_le' h.1
    simp only [Nat.add_sub_cancel]
    exact of_mod h.2
  next => exact refl _

theorem dropEights (coefficient scale : Nat) :
    Trims (coefficient, scale) (dropEights coefficient scale) := by
  fun_induction Decimal.dropEights coefficient scale with
  | case1 coefficient scale h ih => exact (of_mod h.2).trans ih
  | case2 => exact refl _
  | case3 => exact refl _

theorem dropBlocks (parts : Nat × Nat) : Trims parts (dropBlocks parts) :=
  (((dropEights parts.1 parts.2).trans (dropBlock 4 _)).trans (dropBlock 2 _)).trans (dropBlock 1 _)

end Trims

/-! ## Quotients -/

/-- The parts that long division finds make a result, also without zeros at their end. -/
theorem Divides.rounds {negative : Bool} {num den : Nat} {parts? : Option (Nat × Nat)}
    (h : Divides num den parts?) {trim : Nat × Nat → Nat × Nat} (htrim : ∀ p, Trims p (trim p)) :
    Rounds negative num den
      (parts?.bind fun parts => ofParts? negative (trim parts).1 (trim parts).2) := by
  cases h with
  | large hlimit => exact .large hlimit
  | @whole m hlarge hlimit =>
      obtain ⟨hsame, _, hscale⟩ := htrim (m, 0)
      have hzero : (trim (m, 0)).2 = 0 := Nat.le_zero.1 hscale
      have hm : (trim (m, 0)).1 = m := by
        rw [hzero, fraction_eq_iff] at hsame
        exact Nat.eq_of_mul_eq_mul_right (tenTo_pos 0) hsame
      show Rounds _ _ _ (ofParts? negative (trim (m, 0)).1 (trim (m, 0)).2)
      rw [hm, hzero, ofParts?, dif_neg fun hfits => Nat.not_lt.2 hlarge hfits.1]
      exact .large hlimit
  | @nearest m k hnearest =>
      obtain ⟨hsame, hcoefficient, hscale⟩ := htrim (m, k)
      have hc := Nat.lt_of_le_of_lt hcoefficient hnearest.lt
      have hs := Nat.le_trans hscale hnearest.le
      show Rounds _ _ _ (ofParts? negative (trim (m, k)).1 (trim (m, k)).2)
      rw [ofParts?, dif_pos ⟨hc, hs⟩]
      refine .nearest hnearest hsame ?_
      show (trim (m, k)).1 = 0 ∨ (negative && (trim (m, k)).1 != 0) = negative
      by_cases hzero : (trim (m, k)).1 = 0
      · exact Or.inl hzero
      · exact Or.inr (by rw [bne_iff_ne.2 hzero, Bool.and_true])

/-- A quotient is the decimal nearest to the exact quotient. -/
theorem div?_rounds (a : Decimal) {b : Decimal} (hb : b.isZero = false) :
    Rounds (a.negative != b.negative) (a.coefficient * tenTo b.scale)
      (b.coefficient * tenTo a.scale) (a.div? b) := by
  have hpos : 0 < b.coefficient := Nat.pos_of_ne_zero (beq_eq_false_iff_ne.1 hb)
  have hden : 0 < b.coefficient * tenTo a.scale := Nat.mul_pos hpos (tenTo_pos _)
  unfold div?
  rw [hb, if_neg Bool.false_ne_true]
  split
  next hzero =>
    rw [beq_iff_eq.1 hzero, Nat.zero_mul]
    refine .self hden ?_ (Or.inl rfl)
    exact (Nat.zero_mul _).trans (Nat.zero_mul _).symm
  next =>
    simp only
    have hr := Nat.mod_lt a.coefficient hpos
    have hq := Nat.lt_of_le_of_lt (Nat.div_le_self a.coefficient b.coefficient) a.coefficient_lt
    have hdivides := @longDivision?_divides _ _ _ (maxScale + b.scale - a.scale) hpos hr hq
    have howed : owed b.coefficient (a.coefficient / b.coefficient) (a.coefficient % b.coefficient)
        (maxScale + b.scale - a.scale) = a.coefficient * tenTo (maxScale + b.scale - a.scale) := by
      rw [owed, Nat.mul_comm (_ / _), Nat.div_add_mod]
    rw [howed] at hdivides
    refine Rounds.congr (Divides.rounds hdivides fun parts => ?_)
      (Nat.mul_pos hpos (tenTo_pos _)) hden ?_
    · split
      · exact Trims.refl _
      · exact Trims.dropBlocks _
    · have hroom : maxScale + b.scale - a.scale + a.scale = b.scale + maxScale := by
        have := a.scale_le
        omega
      calc a.coefficient * tenTo (maxScale + b.scale - a.scale) * (b.coefficient * tenTo a.scale)
          = a.coefficient * b.coefficient * tenTo (maxScale + b.scale - a.scale + a.scale) := by
            rw [tenTo_add _ a.scale]
            ac_rfl
        _ = a.coefficient * tenTo b.scale * (b.coefficient * tenTo maxScale) := by
            rw [hroom, tenTo_add]
            ac_rfl

/-- Quotients of equal numbers are equal. -/
theorem div?_same {a b a' b' : Decimal} (ha : a.same a') (hb : b.same b') :
    SameResult (a.div? b) (a'.div? b') := by
  have hbzero := isZero_of_same hb
  cases hz : b.isZero with
  | true =>
      rw [div?, div?, ← hbzero, hz]
      exact .none
  | false =>
      have hz' := hbzero ▸ hz
      have hpos : 0 < b.coefficient := Nat.pos_of_ne_zero (beq_eq_false_iff_ne.1 hz)
      have hpos' : 0 < b'.coefficient := Nat.pos_of_ne_zero (beq_eq_false_iff_ne.1 hz')
      obtain ⟨hcross, hsign⟩ := (same_iff a a').1 ha
      obtain ⟨hcross', _⟩ := (same_iff b b').1 hb
      refine (div?_rounds a hz).sameResult (div?_rounds a' hz') (Nat.mul_pos hpos (tenTo_pos _))
        (Nat.mul_pos hpos' (tenTo_pos _)) ?_ ?_
      · calc a.coefficient * tenTo b.scale * (b'.coefficient * tenTo a'.scale)
            = a.coefficient * tenTo a'.scale * (b'.coefficient * tenTo b.scale) := by ac_rfl
          _ = a'.coefficient * tenTo b'.scale * (b.coefficient * tenTo a.scale) := by
              rw [hcross, ← hcross']
              ac_rfl
      · rcases hsign with hzero | hsign
        · exact Or.inl (by rw [hzero, Nat.zero_mul])
        · exact Or.inr (by rw [hsign, negative_of_same hb hz])

end PaintQuote.Decimal
