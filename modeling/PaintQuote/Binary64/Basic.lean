import PaintQuote.Decimal.Arithmetic

/-!
# Binary floating point numbers

The finite numbers of the format with 64 bits: a sign and `significand * 2 ^ exponent` units, where
one unit is `2 ^ -1074`.  Products and quotients are computed exactly and rounded to the nearest
number of the format, a tie going to the even significand; beyond the largest number there is none.
-/

namespace PaintQuote

/-- A finite number `± significand * 2 ^ exponent / 2 ^ 1074`. -/
structure Binary64 where
  /-- Whether the sign is a minus; zero has both signs. -/
  negative : Bool
  /-- The significant digits. -/
  significand : Nat
  /-- The number of binary digits after them, counted from the least unit. -/
  exponent : Nat
deriving DecidableEq, Repr

namespace Binary64

/-- The first significand that is too large, `2 ^ 53`. -/
abbrev significandLimit : Nat := 0x20000000000000

/-- The first significand with all digits, `2 ^ 52`. -/
abbrev leastSignificand : Nat := 0x10000000000000

/-- The largest exponent. -/
abbrev maxExponent : Nat := 2045

/-- The number of units in one. -/
def one : Nat := twoTo 1074

/-- The magnitude in units. -/
def units (x : Binary64) : Nat := x.significand * twoTo x.exponent

/-- Whether the number is zero, with either sign. -/
def isZero (x : Binary64) : Bool := x.significand == 0

/-- The number with other sign. -/
def neg (x : Binary64) : Binary64 := { x with negative := !x.negative }

/-- Zero without a minus. -/
def zero : Binary64 := ⟨false, 0, 0⟩

/-- The number with a rounded significand, which may have grown by a digit. -/
def ofRounded? (negative : Bool) (significand exponent : Nat) : Option Binary64 :=
  if significand < significandLimit then
    if exponent ≤ maxExponent then some ⟨negative, significand, exponent⟩ else none
  else if exponent < maxExponent then some ⟨negative, significand / 2, exponent + 1⟩
  else none

/-- The number nearest to a quotient. -/
def nearest? (negative : Bool) (numerator denominator : Nat) : Option Binary64 :=
  let scaled := numerator * one
  let whole := scaled / denominator
  let exponent := whole.log2 - 52
  ofRounded? negative (Decimal.nearestEven scaled (denominator * twoTo exponent)) exponent

/-- The number nearest to a natural number. -/
def ofNat? (n : Nat) : Option Binary64 := nearest? false n 1

/-- The product. -/
def mul? (x y : Binary64) : Option Binary64 :=
  nearest? (x.negative != y.negative) (x.units * y.units) (one * one)

/-- The quotient by a number other than zero. -/
def div? (x y : Binary64) : Option Binary64 :=
  nearest? (x.negative != y.negative) x.units y.units

example : ofNat? 1 = some ⟨false, 0x10000000000000, 1022⟩ := by decide +kernel
example : nearest? false 1 10 = some ⟨false, 0x1999999999999A, 1018⟩ := by decide +kernel
example : ofNat? (twoTo 1024) = none := by decide +kernel

end Binary64

end PaintQuote
