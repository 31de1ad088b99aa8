import Mathlib.Tactic.Ring
import PaintQuote.Decimal.Power
import PaintQuote.Proofs.Decimal.Operations

/-!
# Powers and roots of equal numbers

Repeated squaring keeps whatever relation products keep (`powerFrom?_rel`), so that powers of equal
numbers are equal as long as each product is a decimal.  The wide numbers of large exponents have no
normal form: `12` and `120 / 10` have different coefficients until these fill the room that there is.
From an exponent of 1024 on they do, unless the base is a power of ten without further digits
(`Wide.pow?_eq`).  Logarithms are taken of normal forms, exponentials of numbers on a grid, and
Newton's iteration uses sums and quotients only.
-/

namespace PaintQuote

namespace Decimal

/-! ## Repeated squaring -/

/-- Two runs of repeated squaring stay related, if products add the degrees of their factors. -/
theorem powerFrom?_rel {α β : Type} {mul? : α → α → Option α} {mul?' : β → β → Option β}
    {Rel : Nat → α → β → Prop}
    (hmul : ∀ m n x y x' y', Rel m x y → Rel n x' y' →
      Option.Rel (Rel (m + n)) (mul? x x') (mul?' y y'))
    {fuel exponent p q : Nat} {product base : α} {product' base' : β}
    (hfuel : exponent < 2 ^ fuel) (hproduct : Rel p product product') (hbase : Rel q base base') :
    Option.Rel (Rel (p + q * exponent)) (powerFrom? mul? fuel product base exponent)
      (powerFrom? mul?' fuel product' base' exponent) := by
  induction fuel generalizing exponent p q product base product' base' with
  | zero =>
      obtain rfl : exponent = 0 := by omega
      exact .some hproduct
  | succ fuel ih =>
      rw [powerFrom?, powerFrom?]
      split
      next hzero =>
        rw [hzero, Nat.mul_zero, Nat.add_zero]
        exact .some hproduct
      have hdegree : p + q * exponent = p + q * (exponent % 2) + (q + q) * (exponent / 2) := by
        have := Nat.div_add_mod exponent 2
        calc p + q * exponent = p + q * (2 * (exponent / 2) + exponent % 2) := by rw [this]
          _ = p + q * (exponent % 2) + (q + q) * (exponent / 2) := by ring
      have hrest : ∀ x y, Rel (p + q * (exponent % 2)) x y → Option.Rel (Rel (p + q * exponent))
          (if exponent / 2 = 0 then some x
            else (mul? base base).bind fun square => powerFrom? mul? fuel x square (exponent / 2))
          (if exponent / 2 = 0 then some y
            else (mul?' base' base').bind fun square =>
              powerFrom? mul?' fuel y square (exponent / 2)) := by
        intro x y hxy
        rw [hdegree]
        split
        next hlast =>
          rw [hlast, Nat.mul_zero, Nat.add_zero]
          exact .some hxy
        next =>
          exact rel_bind (hmul _ _ _ _ _ _ hbase hbase) fun square square' hsquare =>
            ih (by omega) hxy hsquare
      rcases Nat.mod_two_eq_zero_or_one exponent with heven | hodd
      · simp only [heven, Nat.zero_ne_one, if_false]
        exact hrest product product' (by rwa [heven, Nat.mul_zero, Nat.add_zero])
      · simp only [hodd, if_true]
        refine rel_bind (hmul _ _ _ _ _ _ hproduct hbase) fun x y hxy => hrest x y ?_
        rwa [hodd, Nat.mul_one]

/-- Small powers of equal numbers are equal. -/
theorem powNat?_same_of_lt {a b : Decimal} {exponent : Nat} (h : a.same b)
    (hexponent : exponent < wideExponent) :
    SameResult (a.powNat? exponent) (b.powNat? exponent) := by
  unfold powNat?
  split
  next => exact .some h
  next =>
    refine rel_map ?_ fun x y hxy =>
      same_trans (normalize_same x) (same_trans hxy (same_symm (normalize_same y)))
    exact @powerFrom?_rel _ _ _ _ (fun _ (a b : Decimal) => a.same b = true)
      (fun _ _ _ _ _ _ h h' => mul?_same h h') _ _ 0 1 _ _ _ _ Nat.lt_log2_self (same_self 1) h

end Decimal

/-! ## Wide numbers -/

namespace Wide

/-- The second number is the first with further zeros. -/
def Extends (x y : Wide) : Prop := ∃ i, y = ⟨x.coefficient * tenTo i, x.scale + i⟩

theorem Extends.refl (x : Wide) : Extends x x := by
  refine ⟨0, ?_⟩
  rw [tenTo_zero, Nat.mul_one, Int.natCast_zero, Int.add_zero]

theorem Extends.coefficient_le {x y : Wide} (h : Extends x y) : x.coefficient ≤ y.coefficient := by
  obtain ⟨i, rfl⟩ := h
  exact Nat.le_mul_of_pos_right _ (tenTo_pos i)

theorem cut_of_le {x : Wide} (h : coefficientLimit ≤ x.coefficient) :
    x.cut = cut ⟨x.coefficient / 10, x.scale - 1⟩ := by
  rw [cut, if_neg (Nat.not_lt.2 h)]

theorem cut_lt (x : Wide) : x.cut.coefficient < coefficientLimit := by
  induction x using cut.induct with
  | case1 x h => rwa [cut_of_lt h]
  | case2 x h ih => rwa [cut_of_le (Nat.not_lt.1 h)]

/-- Without further zeros, a number that has to be cut is cut to the same digits. -/
theorem cut_eq_of_extends {x y : Wide} (h : Extends x y) (hx : coefficientLimit ≤ x.coefficient) :
    y.cut = x.cut := by
  obtain ⟨i, rfl⟩ := h
  induction i with
  | zero => rw [tenTo_zero, Nat.mul_one, Int.natCast_zero, Int.add_zero]
  | succ i ih =>
      have hle : coefficientLimit ≤ x.coefficient * tenTo (i + 1) :=
        Nat.le_trans hx (Nat.le_mul_of_pos_right _ (tenTo_pos _))
      rw [cut_of_le hle, ← ih]
      have hten : x.coefficient * tenTo (i + 1) / 10 = x.coefficient * tenTo i := by
        rw [tenTo_succ, ← Nat.mul_assoc, Nat.mul_div_cancel _ (by decide)]
      have hscale : x.scale + ((i + 1 : Nat) : Int) - 1 = x.scale + i := by omega
      simp only [hten, hscale]

/-- Cutting keeps all digits that have room, and further zeros as far as they have room. -/
theorem extends_cut {x y : Wide} (h : Extends x y) : Extends x.cut y.cut := by
  rcases Nat.lt_or_ge x.coefficient coefficientLimit with hlt | hge
  · obtain ⟨i, rfl⟩ := h
    rw [cut_of_lt hlt]
    induction i with
    | zero =>
        rw [tenTo_zero, Nat.mul_one, Int.natCast_zero, Int.add_zero, cut_of_lt hlt]
        exact .refl x
    | succ i ih =>
        rcases Nat.lt_or_ge (x.coefficient * tenTo (i + 1)) coefficientLimit with hfits | hlarge
        · rw [cut_of_lt hfits]
          exact ⟨i + 1, rfl⟩
        · have hten : x.coefficient * tenTo (i + 1) / 10 = x.coefficient * tenTo i := by
            rw [tenTo_succ, ← Nat.mul_assoc, Nat.mul_div_cancel _ (by decide)]
          have hscale : x.scale + ((i + 1 : Nat) : Int) - 1 = x.scale + i := by omega
          rw [cut_of_le hlarge]
          simpa only [hten, hscale] using ih
  · rw [cut_eq_of_extends h hge]
    exact .refl _

theorem extends_mul {x y x' y' : Wide} (h : Extends x y) (h' : Extends x' y') :
    Extends ⟨x.coefficient * x'.coefficient, x.scale + x'.scale⟩
      ⟨y.coefficient * y'.coefficient, y.scale + y'.scale⟩ := by
  obtain ⟨i, rfl⟩ := h
  obtain ⟨j, rfl⟩ := h'
  refine ⟨i + j, ?_⟩
  simp only [tenTo_add, Wide.mk.injEq]
  exact ⟨by ac_rfl, by omega⟩

/-! ## Full numbers -/

/-- A number of which the last digit was cut has at least this coefficient. -/
abbrev cutLeast : Nat := coefficientLimit / 10

theorem cutLeast_le_cut {x : Wide} (h : cutLeast ≤ x.coefficient) :
    cutLeast ≤ x.cut.coefficient := by
  induction x using cut.induct with
  | case1 x hlt => rwa [cut_of_lt hlt]
  | case2 x hge ih =>
      rw [cut_of_le (Nat.not_lt.1 hge)]
      exact ih (Nat.div_le_div_right (Nat.not_lt.1 hge))

/-- Two powers of degree `n` of a base that is at least two, given with and without further zeros: they
are one wide number, or nothing of them has been cut. -/
inductive Powers (n : Nat) (x y : Wide) : Prop where
  /-- They are one wide number. -/
  | equal : x = y → min cutLeast (2 ^ n) ≤ x.coefficient → Powers n x y
  /-- They still differ. -/
  | apart : 1 ≤ n → Extends x y → y.coefficient < coefficientLimit →
      min (cutLeast + 1) (2 ^ n) ≤ x.coefficient → Powers n x y

theorem Powers.extends {n : Nat} {x y : Wide} (h : Powers n x y) : Extends x y := by
  cases h with
  | equal h => exact h ▸ .refl x
  | apart _ h => exact h

theorem Powers.of_product {n : Nat} {x y : Wide} (hn : 1 ≤ n) (h : Extends x y)
    (hx : min (cutLeast + 1) (2 ^ n) ≤ x.coefficient) : Powers n x.cut y.cut := by
  rcases Nat.lt_or_ge x.coefficient coefficientLimit with hlt | hge
  · refine .apart hn (extends_cut h) (cut_lt y) ?_
    rwa [cut_of_lt hlt]
  · refine .equal (cut_eq_of_extends h hge).symm (Nat.le_trans (Nat.min_le_left _ _) ?_)
    exact cutLeast_le_cut (Nat.le_trans (Nat.div_le_self _ _) hge)

theorem Powers.least_le {n : Nat} {x y : Wide} (h : Powers n x y) :
    min cutLeast (2 ^ n) ≤ x.coefficient := by
  cases h with
  | equal _ h => exact h
  | apart _ _ _ h => exact Nat.le_trans (by omega) h

theorem min_mul_le {least further u v : Nat} (hleast : 1 ≤ least) (hu : 1 ≤ u)
    (hv : 1 + further ≤ v) :
    min (least + further) (u * v) ≤ min least u * min (least + further) v := by
  rcases Nat.le_total least u with hl | hl <;>
    rcases Nat.le_total (least + further) v with hr | hr
  · rw [Nat.min_eq_left hl, Nat.min_eq_left hr]
    exact Nat.le_trans (Nat.min_le_left _ _) (Nat.le_mul_of_pos_left _ hleast)
  · rw [Nat.min_eq_left hl, Nat.min_eq_right hr]
    have := Nat.mul_le_mul_left least hv
    have := Nat.mul_le_mul_right further hleast
    exact Nat.le_trans (Nat.min_le_left _ _) (by rw [Nat.mul_add] at *; omega)
  · rw [Nat.min_eq_right hl, Nat.min_eq_left hr]
    exact Nat.le_trans (Nat.min_le_left _ _) (Nat.le_mul_of_pos_left _ hu)
  · rw [Nat.min_eq_right hl, Nat.min_eq_right hr]
    exact Nat.min_le_right _ _

theorem Powers.mul {m n : Nat} {x y x' y' : Wide} (h : Powers m x y) (h' : Powers n x' y') :
    Powers (m + n) (x.mul x') (y.mul y') := by
  have hone : ∀ k, 1 ≤ 2 ^ k := Nat.two_pow_pos
  have htwo : ∀ {k : Nat}, 1 ≤ k → 1 + 1 ≤ 2 ^ k := fun hk => Nat.pow_le_pow_right Nat.two_pos hk
  have hextends := extends_mul h.extends h'.extends
  have hleast := Nat.mul_le_mul h.least_le h'.least_le
  cases h' with
  | apart hn _ _ hx' =>
      refine .of_product (by omega) hextends ?_
      rw [Nat.pow_add]
      exact Nat.le_trans (min_mul_le (show 1 ≤ cutLeast by decide) (hone m) (htwo hn))
        (Nat.mul_le_mul h.least_le hx')
  | equal heq' hx' =>
      cases h with
      | apart hm _ _ hx =>
          refine .of_product (by omega) hextends ?_
          rw [Nat.add_comm m n, Nat.pow_add]
          refine Nat.le_trans (min_mul_le (by decide) (hone n) (htwo hm)) ?_
          rw [Nat.mul_comm]
          exact Nat.mul_le_mul hx hx'
      | equal heq hx =>
          subst heq heq'
          refine .equal rfl ?_
          rcases Nat.lt_or_ge (x.coefficient * x'.coefficient) coefficientLimit with hlt | hge
          · rw [Wide.mul, cut_of_lt hlt, Nat.pow_add]
            have hmin := @min_mul_le cutLeast 0 _ _ (by decide) (hone m) (hone n)
            exact Nat.le_trans hmin hleast
          · refine Nat.le_trans (Nat.min_le_left _ _) (cutLeast_le_cut ?_)
            exact Nat.le_trans (Nat.div_le_self _ _) hge

/-- Large powers of a base that is at least two do not show further zeros of the base. -/
theorem pow?_eq {x y : Wide} {exponent : Nat} (h : Extends x y) (hx : 2 ≤ x.coefficient)
    (hy : y.coefficient < coefficientLimit) (hexponent : Decimal.wideExponent ≤ exponent) :
    pow? x exponent = pow? y exponent := by
  have hbase : Powers 1 x y :=
    .apart (Nat.le_refl 1) h hy (Nat.le_trans (Nat.min_le_right _ _) hx)
  have hpowers : Option.Rel (Powers (0 + 1 * exponent)) (pow? x exponent) (pow? y exponent) :=
    Decimal.powerFrom?_rel (fun _ _ _ _ _ _ h h' => .some (h.mul h')) Nat.lt_log2_self
      (.equal rfl (by decide)) hbase
  generalize pow? x exponent = power at hpowers ⊢
  generalize pow? y exponent = power' at hpowers ⊢
  cases hpowers with
  | none => rfl
  | @some x y hpowers =>
      cases hpowers with
      | equal heq => rw [heq]
      | apart _ hextends hlt hleast =>
          obtain ⟨i, rfl⟩ := hextends
          have hfull : cutLeast + 1 ≤ x.coefficient := by
            have hpow : 2 ^ 200 ≤ 2 ^ (0 + 1 * exponent) := by
              refine Nat.pow_le_pow_right (by decide) ?_
              simp only [Decimal.wideExponent] at hexponent
              omega
            rwa [Nat.min_eq_left (Nat.le_trans (by decide) hpow)] at hleast
          cases i with
          | zero => rw [tenTo_zero, Nat.mul_one, Int.natCast_zero, Int.add_zero]
          | succ i =>
              -- Full numbers have no room for a further zero.
              have := Nat.mul_le_mul hfull (tenTo_pos i)
              rw [tenTo_succ, ← Nat.mul_assoc] at hlt
              simp only [cutLeast, coefficientLimit] at *
              omega

/-! ## Powers of one digit -/

/-- Two powers of degree `n` of a base with the coefficient one, given with and without further zeros:
without them the coefficient stays one. -/
structure OnePowers (scale n : Nat) (x y : Wide) : Prop where
  eq : x = ⟨1, (scale * n : Nat)⟩
  zeros : Extends x y
  lt : y.coefficient < coefficientLimit

theorem OnePowers.mul {scale m n : Nat} {x y x' y' : Wide} (h : OnePowers scale m x y)
    (h' : OnePowers scale n x' y') : OnePowers scale (m + n) (x.mul x') (y.mul y') where
  eq := by
    rw [h.eq, h'.eq, Nat.mul_add, Int.natCast_add]
    exact cut_of_lt (show 1 * 1 < coefficientLimit by decide)
  zeros := extends_cut (extends_mul h.zeros h'.zeros)
  lt := cut_lt _

theorem toDecimal?_of_large {negative : Bool} {x : Wide} (h : 100 < x.scale) :
    toDecimal? negative x = some 0 := by
  rw [toDecimal?, if_neg (by omega), if_pos h]

/-- One has no more zeros than there is room for, and is one with each of them. -/
theorem toDecimal?_one (negative : Bool) {zeros : Nat} (h : tenTo zeros < coefficientLimit) :
    Decimal.SameResult (toDecimal? negative ⟨1, 0⟩) (toDecimal? negative ⟨tenTo zeros, zeros⟩) := by
  have hzeros : zeros < 58 := by
    refine Nat.lt_of_not_le fun hle => ?_
    have : tenTo 58 ≤ tenTo zeros := Nat.pow_le_pow_right (by decide) hle
    exact absurd h (Nat.not_lt.2 (Nat.le_trans (by decide) this))
  have hall : ∀ negative : Bool, ∀ zeros < 58, Decimal.SameResult (toDecimal? negative ⟨1, 0⟩)
      (toDecimal? negative ⟨tenTo zeros, zeros⟩) := by
    simp only [Decimal.sameResult_iff_normalize]
    decide +kernel
  exact hall negative zeros hzeros

/-- Large powers of a base with the coefficient one do not show further zeros of the base. -/
theorem toDecimal?_pow?_one (negative : Bool) {scale exponent : Nat} {y : Wide}
    (h : Extends ⟨1, scale⟩ y) (hy : y.coefficient < coefficientLimit)
    (hexponent : Decimal.wideExponent ≤ exponent) :
    Decimal.SameResult ((pow? ⟨1, scale⟩ exponent).bind (toDecimal? negative))
      ((pow? y exponent).bind (toDecimal? negative)) := by
  have hpowers : Option.Rel (OnePowers scale (0 + 1 * exponent)) (pow? ⟨1, scale⟩ exponent)
      (pow? y exponent) :=
    Decimal.powerFrom?_rel (fun _ _ _ _ _ _ h h' => .some (h.mul h')) Nat.lt_log2_self
      ⟨rfl, .refl _, by decide⟩ ⟨by rw [Nat.mul_one], h, hy⟩
  refine Decimal.rel_bind hpowers fun x y hxy => ?_
  obtain ⟨rfl, ⟨i, rfl⟩, hlt⟩ := hxy
  rw [Nat.zero_add, Nat.one_mul]
  cases scale with
  | zero =>
      simp only [Nat.one_mul, Nat.zero_mul, Int.natCast_zero, Int.zero_add] at hlt ⊢
      exact toDecimal?_one negative hlt
  | succ scale =>
      have hlarge : 100 < (scale + 1) * exponent := by
        have := Nat.mul_le_mul_right exponent (Nat.le_add_left 1 scale)
        simp only [Decimal.wideExponent] at hexponent
        omega
      have hscale : (100 : Int) < ((scale + 1) * exponent : Nat) := Int.ofNat_lt.2 hlarge
      have hscale' : (100 : Int) < ((scale + 1) * exponent : Nat) + (i : Int) := by omega
      rw [toDecimal?_of_large hscale, toDecimal?_of_large hscale']
      exact .some (Decimal.same_self 0)

end Wide

namespace Decimal

/-! ## Whole powers -/

theorem powNat?_same {a b : Decimal} (h : a.same b) (hz : a.isZero = false) (exponent : Nat) :
    SameResult (a.powNat? exponent) (b.powNat? exponent) := by
  rcases Nat.lt_or_ge exponent wideExponent with hlt | hge
  · exact powNat?_same_of_lt h hlt
  have hne : exponent ≠ 1 := by
    rintro rfl
    exact absurd hge (by decide)
  have hz' := isZero_of_same h ▸ hz
  revert hz hz'
  refine same_induction (P := fun a b => a.isZero = false → b.isZero = false →
    SameResult (a.powNat? exponent) (b.powNat? exponent)) (fun _ _ h hb ha => (h ha hb).symm) ?_ h
  intro a b hab hsign zeros hs hc hz _
  have hsign := hsign.resolve_left (beq_eq_false_iff_ne.1 hz)
  unfold powNat?
  rw [if_neg hne, if_neg (Nat.not_lt.2 hge), if_neg hne, if_neg (Nat.not_lt.2 hge), hsign]
  refine rel_map ?_ fun x y hxy =>
    same_trans (normalize_same x) (same_trans hxy (same_symm (normalize_same y)))
  have hextends : Wide.Extends ⟨a.coefficient, a.scale⟩ ⟨b.coefficient, b.scale⟩ := by
    refine ⟨zeros, ?_⟩
    rw [hs, hc, Int.natCast_add]
  have hlt : b.coefficient < Wide.coefficientLimit :=
    Nat.lt_trans b.coefficient_lt (by decide)
  rcases Nat.lt_or_ge a.coefficient 2 with hsmall | hlarge
  · have hone : a.coefficient = 1 := by
      have := beq_eq_false_iff_ne.1 hz
      omega
    rw [hone] at hextends ⊢
    exact Wide.toDecimal?_pow?_one _ hextends hlt hge
  · rw [Wide.pow?_eq hextends hlarge hlt hge]
    exact SameResult.refl _

theorem powInt?_same {a b : Decimal} (h : a.same b) (hz : a.isZero = false) (exponent : Int) :
    SameResult (a.powInt? exponent) (b.powInt? exponent) := by
  unfold powInt?
  split
  next => exact powNat?_same h hz _
  next => exact rel_bind (powNat?_same h hz _) fun _ _ hxy => div?_same (same_self 1) hxy

/-! ## Other powers -/

variable {a b a' b' : Decimal}

theorem ln?_of_same (h : a.same b) : a.ln? = b.ln? := by
  have hzero := isZero_of_same h
  unfold ln?
  rw [(same_iff_normalize a b).1 h, ← hzero]
  cases hz : a.isZero with
  | true => simp only [Bool.or_true, if_true]
  | false => rw [negative_of_same h hz]

theorem expAbs?_of_same (h : a.same b) : a.expAbs? = b.expAbs? := by
  refine same_induction (P := fun a b => a.expAbs? = b.expAbs?) (fun _ _ h => h.symm) ?_ h
  intro a b _ _ zeros hs hc
  have hgrid : b.coefficient * gridUnit / tenTo b.scale =
      a.coefficient * gridUnit / tenTo a.scale := by
    rw [hs, hc, Nat.mul_right_comm, div_tenTo_zeros]
  unfold expAbs?
  rw [hgrid]

theorem exp?_same (h : a.same b) : SameResult a.exp? b.exp? := by
  unfold exp?
  rw [expAbs?_of_same h]
  cases hz : a.isZero with
  | false =>
      rw [negative_of_same h hz]
      exact SameResult.refl _
  | true =>
      -- The exponential of zero is one, and so is its reciprocal.
      have hzero : b.expAbs? = (0 : Decimal).expAbs? :=
        expAbs?_of_same (same_of_isZero (isZero_of_same h ▸ hz) rfl)
      have hone : ∀ negative negative' : Bool, SameResult
          (if negative then (0 : Decimal).expAbs?.bind fun power => (1 : Decimal).div? power
            else (0 : Decimal).expAbs?)
          (if negative' then (0 : Decimal).expAbs?.bind fun power => (1 : Decimal).div? power
            else (0 : Decimal).expAbs?) := by
        simp only [sameResult_iff_normalize]
        decide +kernel
      rw [hzero]
      exact hone _ _

theorem powDecimal?_same (ha : a.same a') (hb : b.same b') :
    SameResult (a.powDecimal? b) (a'.powDecimal? b') := by
  have hone : a.same 1 = a'.same 1 := by
    rw [Bool.eq_iff_iff]
    exact ⟨same_trans (same_symm ha), same_trans ha⟩
  unfold powDecimal?
  rw [hone, ln?_of_same ha]
  split
  next => exact SameResult.refl _
  next =>
    cases a'.ln? with
    | none => exact .none
    | some logarithm =>
        show SameResult ((logarithm.mul? b).bind exp?) ((logarithm.mul? b').bind exp?)
        exact rel_bind (mul?_same (same_self logarithm) hb) fun _ _ h => exp?_same h

/-! ## Square roots -/

theorem newtonSqrt?_same (ha : a.same a') {fuel : Nat} (hb : b.same b') :
    SameResult (newtonSqrt? a fuel b) (newtonSqrt? a' fuel b') := by
  induction fuel generalizing b b' with
  | zero => exact .none
  | succ fuel ih =>
      refine rel_bind (div?_same ha hb) fun _ _ hquotient => ?_
      refine rel_bind (add?_same hb hquotient) fun _ _ hsum => ?_
      refine rel_bind (div?_same hsum (same_self 2)) fun x y hxy => ?_
      have hstays : x.same b = y.same b' := by
        rw [Bool.eq_iff_iff]
        exact ⟨fun h => same_trans (same_symm hxy) (same_trans h hb),
          fun h => same_trans hxy (same_trans h (same_symm hb))⟩
      rw [hstays]
      split
      next => exact .some hxy
      next => exact ih hxy

/-- Roots of equal numbers are equal, unless one of them is zero with a minus and the other without. -/
theorem sqrt?_same (h : a.same b) (hsign : a.negative = b.negative) :
    SameResult a.sqrt? b.sqrt? := by
  unfold sqrt?
  rw [hsign, isZero_of_same h]
  split
  next => exact .none
  next =>
    split
    next => exact SameResult.refl _
    next =>
      refine rel_bind (div?_same h (same_self 2)) fun x y hxy => newtonSqrt?_same h ?_
      rw [isZero_of_same hxy]
      split
      · exact h
      · exact hxy

end Decimal

end PaintQuote
