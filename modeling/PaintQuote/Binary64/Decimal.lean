import PaintQuote.Binary64.Text

/-!
# Decimals from binary numbers

Two ways to take a binary number as a decimal.  `Decimal.ofShortest?` reads its shortest text.
`Decimal.ofBinary64?` works on the digits themselves: powers of two become powers of five times
powers of ten, at the cost of final digits where the coefficient would grow too large, and what is
beyond the precision of the binary number is rounded away at the end.
-/

namespace PaintQuote.Decimal

/-- The decimal that the shortest text of a binary number says. -/
def ofShortest? (x : Binary64) : Option Decimal := ofText? x.toText

/-- A coefficient and a power of ten. -/
abbrev Scaled := Nat × Int

/-- Takes `count` factors of two out of `coefficient * 10 ^ power`: an even coefficient is halved, an
odd one is multiplied by five while it has room. -/
def takeTwos : Nat → Scaled → Scaled
  | 0, x => x
  | count + 1, (coefficient, power) =>
      if coefficient % 2 = 0 then takeTwos count (coefficient / 2, power + 1)
      else if coefficient * 5 < coefficientLimit then takeTwos count (coefficient * 5, power)
      else takeTwos count (coefficient / 2, power + 1)

/-- Puts `count` factors of two into `coefficient * 10 ^ power`: the coefficient is doubled while it
has room, and else divided by five.  The power counts what is still to be taken out. -/
def putTwos : Nat → Scaled → Scaled
  | 0, x => x
  | count + 1, (coefficient, power) =>
      if coefficient * 2 < coefficientLimit then putTwos count (coefficient * 2, power - 1)
      else putTwos count (coefficient / 5, power)

/-- A coefficient without its last digit, rounded half up; of a single digit nothing is left. -/
def dropDigit (coefficient : Nat) : Nat :=
  if coefficient < 10 then 0
  else coefficient / 10 + (if 5 ≤ coefficient % 10 then 1 else 0)

/-- Drops `count` final digits one after the other, each time rounding half up. -/
def dropDigits : Nat → Nat → Nat
  | 0, coefficient => coefficient
  | count + 1, coefficient => dropDigits count (dropDigit coefficient)

/-- Drops final digits of the fraction until the coefficient fits the precision of a binary
number. -/
def toPrecision (coefficient : Nat) : Nat → Nat × Nat
  | 0 => (coefficient, 0)
  | scale + 1 =>
      if coefficient < Binary64.leastSignificand then (coefficient, scale + 1)
      else toPrecision (dropDigit coefficient) scale

/-- The decimal for a coefficient times a power of ten. -/
def ofScaled? (negative : Bool) (x : Scaled) : Option Decimal :=
  let coefficient := x.1 * tenTo x.2.toNat
  let scale := (-x.2).toNat
  let coefficient := dropDigits (scale - maxScale) coefficient
  let (coefficient, scale) := toPrecision coefficient (min scale maxScale)
  let (coefficient, scale) := dropZeros coefficient scale
  (ofParts? false coefficient scale).map (withSign negative)

/-- The decimal next to a binary number, to its precision; there is none for a number with a
magnitude of `2 ^ 96` or more, although rounding could bring some of these below the limit. -/
def ofBinary64? (x : Binary64) : Option Decimal :=
  if x.isZero then some (withSign x.negative 0)
  else if coefficientLimit * twoTo 1074 ≤ x.units then none
  else
    let power : Int := x.exponent - 1074
    ofScaled? x.negative
      (if power < 0 then takeTwos power.natAbs (x.significand, power)
        else putTwos power.natAbs (x.significand, power))

example : (Binary64.nearest? true 5 2).bind ofBinary64? = some (-(scaled 25 1)) := by decide +kernel
example : (Binary64.nearest? false (twoTo 96) 1).bind ofBinary64? = none := by decide +kernel
example : (Binary64.nearest? false 1 10).bind ofBinary64? = some (scaled 1 1) := by decide +kernel

end PaintQuote.Decimal
