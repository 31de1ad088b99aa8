import PaintQuote.Decimal.Division
import PaintQuote.Decimal.Exponential
import PaintQuote.Decimal.Rounding

/-!
# Powers and roots of decimals

Whole powers are products, taken by repeated squaring.  Up to an exponent of 1023 each product is a
decimal and rounded as products are; beyond that so many roundings would show, and the products are
wide numbers, which have twice the room and are rounded once at the end.  A negative exponent takes
the reciprocal of the power.  Other powers are the exponential of the exponent times the logarithm,
all three of them decimals.

Square roots are approached by Newton's iteration until two approximations agree.  The iteration is
cut off after a fixed number of steps that it does not reach in practice.
-/

namespace PaintQuote

namespace Decimal

/-! ## Repeated squaring -/

/-- The product of `product` and the power of `base`, with at most `fuel` squarings. -/
def powerFrom? {α : Type} (mul? : α → α → Option α) : Nat → α → α → Nat → Option α
  | 0, product, _, _ => some product
  | fuel + 1, product, base, exponent =>
      if exponent = 0 then some product
      else do
        let product ← if exponent % 2 = 1 then mul? product base else some product
        if exponent / 2 = 0 then some product
        else
          let square ← mul? base base
          powerFrom? mul? fuel product square (exponent / 2)

end Decimal

/-! ## Wide numbers -/

/-- The number `coefficient / 10 ^ scale`, with no bound on its scale. -/
structure Wide where
  /-- The digits. -/
  coefficient : Nat
  /-- The number of digits after the point; below zero, the number of zeros before it. -/
  scale : Int

namespace Wide

/-- The first coefficient that is too large, `2 ^ 192`. -/
abbrev coefficientLimit : Nat := 0x1000000000000000000000000000000000000000000000000

/-- The number without the final digits that its coefficient has no room for. -/
def cut (x : Wide) : Wide :=
  if x.coefficient < coefficientLimit then x else cut ⟨x.coefficient / 10, x.scale - 1⟩
termination_by x.coefficient
decreasing_by
  have : 0 < coefficientLimit := by decide
  omega

theorem cut_of_lt {x : Wide} (h : x.coefficient < coefficientLimit) : x.cut = x := by
  rw [cut]
  simp [h]

/-- The product, as far as there is room for its digits. -/
def mul (a b : Wide) : Wide := cut ⟨a.coefficient * b.coefficient, a.scale + b.scale⟩

/-- The power with a natural exponent. -/
def pow? (base : Wide) (exponent : Nat) : Option Wide :=
  Decimal.powerFrom? (fun a b => some (a.mul b)) (exponent.log2 + 1) ⟨1, 0⟩ base exponent

/-- A quotient by a power of ten, rounded.  Up to 28 digits are given up to the nearest, a tie going to
the even neighbour; more are given up to the number above, unless they are less than a hundredth. -/
def rounded (numerator denominator : Nat) : Nat :=
  if denominator ≤ tenTo Decimal.maxScale then Decimal.nearestEven numerator denominator
  else
    numerator / denominator + (if denominator ≤ 100 * (numerator % denominator) then 1 else 0)

/-- The decimal for a wide number with a sign.  A scale below zero means that all 57 digits or more
stand before the point, and beyond a scale of 100 nothing of a number is left. -/
def toDecimal? (negative : Bool) (x : Wide) : Option Decimal :=
  if x.scale < 0 then none
  else if 100 < x.scale then some 0
  else Decimal.fitBy? rounded negative x.coefficient x.scale.toNat

end Wide

namespace Decimal

/-! ## Whole powers -/

/-- The first exponent of which the power is a product of wide numbers. -/
abbrev wideExponent : Nat := 1024

/-- The power with a natural exponent. -/
def powNat? (base : Decimal) (exponent : Nat) : Option Decimal :=
  if exponent = 1 then some base
  else if exponent < wideExponent then
    (powerFrom? mul? (exponent.log2 + 1) 1 base exponent).map normalize
  else
    let negative := base.negative && exponent % 2 == 1
    ((Wide.pow? ⟨base.coefficient, base.scale⟩ exponent).bind (Wide.toDecimal? negative)).map
      normalize

/-- The power with a whole exponent. -/
def powInt? (base : Decimal) (exponent : Int) : Option Decimal :=
  if 0 ≤ exponent then base.powNat? exponent.toNat
  else (base.powNat? exponent.natAbs).bind fun power => (1 : Decimal).div? power

/-! ## Other powers -/

/-- The power of a positive number with any exponent. -/
def powDecimal? (base exponent : Decimal) : Option Decimal :=
  if base.same 1 then some 1
  else do
    let logarithm ← base.ln?
    let product ← logarithm.mul? exponent
    product.exp?

/-! ## Square root -/

/-- The largest number of Newton steps. -/
def newtonLength : Nat := 1000

/-- Newton's iteration from an approximation, until it stays the same. -/
def newtonSqrt? (x : Decimal) : Nat → Decimal → Option Decimal
  | 0, _ => none
  | fuel + 1, guess => do
      let quotient ← x.div? guess
      let sum ← guess.add? quotient
      let next ← sum.div? 2
      if next.same guess then some next else newtonSqrt? x fuel next

/-- The square root; there is none for a number with a minus, not even for zero. -/
def sqrt? (x : Decimal) : Option Decimal :=
  if x.negative then none
  else if x.isZero then some 0
  else (x.div? 2).bind fun half => newtonSqrt? x newtonLength (if half.isZero then x else half)

example : (2 : Decimal).powNat? 10 = some 1024 := by decide +kernel
example : (2 : Decimal).powInt? (-1) = some (scaled 50 2) := by decide +kernel
example : (2 : Decimal).powNat? 1024 = none := by decide +kernel
example : (-(1 : Decimal)).powNat? 1025 = some (-1) := by decide +kernel
end Decimal

end PaintQuote
