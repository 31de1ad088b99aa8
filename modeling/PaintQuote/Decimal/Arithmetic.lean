import PaintQuote.Decimal.Basic

/-!
# Decimal arithmetic

Sums and products, each computed exactly and then written as a decimal.  A result with too many
digits for the coefficient, or with too many after the point, gives up as many digits as it must and
is rounded to the nearest decimal of that scale, a tie going to the even neighbour.  A result whose
whole part does not fit has no decimal: the operation answers `none`.

The scale of a result is part of its text, so it is fixed here as well: a sum has the larger scale
of its operands and a product the sum of the scales.  So is the sign of a product that is rounded to
zero: it is lost when both factors are short and stays otherwise.
-/

namespace PaintQuote.Decimal

/-! ## Rounding to the bounds -/

/-- The whole number nearest to a quotient, a tie going to the even neighbour. -/
def nearestEven (numerator denominator : Nat) : Nat :=
  let q := numerator / denominator
  let r := numerator % denominator
  if denominator < 2 * r ∨ (2 * r = denominator ∧ q % 2 = 1) then q + 1 else q

/-- How many final digits a coefficient has to lose to come below the limit. -/
def overlong (coefficient : Nat) : Nat :=
  if coefficient < coefficientLimit then 0 else overlong (coefficient / 10) + 1
termination_by coefficient
decreasing_by
  have : 0 < coefficientLimit := by decide
  omega

/-- The decimal for `± coefficient / 10 ^ scale` that keeps as many digits as the bounds allow, where
`rule` rounds a quotient.  Rounding up to the limit itself costs one more digit. -/
def fitBy? (rule : Nat → Nat → Nat) (negative : Bool) (coefficient scale : Nat) : Option Decimal :=
  let lost := max (scale - maxScale) (overlong coefficient)
  if scale < lost then none
  else
    let rounded := rule coefficient (tenTo lost)
    match ofParts? negative rounded (scale - lost) with
    | some d => some d
    | none =>
        if scale = lost then none else ofParts? negative (rule rounded 10) (scale - lost - 1)

/-- The nearest of these decimals, a tie going to the even neighbour. -/
def fit? (negative : Bool) (coefficient scale : Nat) : Option Decimal :=
  fitBy? nearestEven negative coefficient scale

/-! ## Sums and products -/

/-- The sum, at the larger scale.  Zero adds nothing, not even its scale. -/
def add? (a b : Decimal) : Option Decimal :=
  if a.isZero then some b
  else if b.isZero then some a
  else
    let scale := max a.scale b.scale
    let sum := a.signedAt scale + b.signedAt scale
    fit? (sum < 0) sum.natAbs scale

/-- The difference, at the larger scale.  Taking zero away changes nothing. -/
def sub? (a b : Decimal) : Option Decimal :=
  if b.isZero then some (if a.isZero then b else a) else add? a (-b)

/-- Coefficients below this bound multiply in a single word. -/
abbrev wordLimit : Nat := 0x100000000

/-- Whether the coefficient is below that bound. -/
def isShort (d : Decimal) : Bool := decide (d.coefficient < wordLimit)

/-- The product, at the sum of the scales.  Nothing is left of a product of two short numbers with
more than 47 digits after the point. -/
def mul? (a b : Decimal) : Option Decimal :=
  if a.isZero || b.isZero then some 0
  else
    let negative := a.negative != b.negative
    let product := a.coefficient * b.coefficient
    let scale := a.scale + b.scale
    if a.isShort && b.isShort then
      if 47 < scale then some 0 else fit? negative product scale
    else (fit? false product scale).map (withSign negative)

/-! ## Laws of the helpers -/

theorem overlong_of_lt {n : Nat} (h : n < coefficientLimit) : overlong n = 0 := by
  rw [overlong]
  simp [h]

@[simp] theorem nearestEven_one (n : Nat) : nearestEven n 1 = n := by
  simp [nearestEven, Nat.mod_one]

/-- Within bounds nothing is rounded. -/
theorem fit?_of_lt {negative : Bool} {coefficient scale : Nat}
    (hc : coefficient < coefficientLimit) (hs : scale ≤ maxScale) :
    fit? negative coefficient scale = ofParts? negative coefficient scale := by
  have h : max (scale - maxScale) (overlong coefficient) = 0 := by
    rw [overlong_of_lt hc]
    omega
  simp only [fit?, fitBy?, h, tenTo_zero, nearestEven_one, Nat.sub_zero, Nat.not_lt_zero, if_false]
  cases he : ofParts? negative coefficient scale with
  | some d => rfl
  | none =>
      have := ofParts?_isSome negative hc hs
      rw [he] at this
      cases this

example : (scaled 100 2).sub? 1 = some (scaled 0 2) := by decide +kernel
example : (scaled 150 2).mul? (-2) = some (-(scaled 300 2)) := by decide +kernel

end PaintQuote.Decimal
