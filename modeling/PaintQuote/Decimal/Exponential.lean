import PaintQuote.Decimal.Division

/-!
# Logarithm and exponential

The natural logarithm and the exponential, worked out on a fixed grid: a whole number `n` stands for
`n` steps of `10 ^ -100`.  A logarithm takes the doublings out of its argument, so that a number from
one to two is left, and sums the series of the inverse hyperbolic tangent; its terms shrink at least
ninefold.  An exponential takes the doublings out as well, so that its argument is less than one, and
sums its own series.

Every division on the grid loses less than a step, and there are a few hundred of them, so that about
97 places are right, and of an exponential, which may be as large as `2 ^ 96`, still 68.  A decimal
has 28 places at most, and so the results are rounded once.
-/

namespace PaintQuote.Decimal

/-- The number of steps to one. -/
def gridUnit : Nat := tenTo 100

/-! ## Logarithm -/

/-- The number of terms of the series of a logarithm. -/
def artanhLength : Nat := 110

/-- Sums `power / odd + power * square / (odd + 2) + …` on the grid. -/
def artanhSeries (square : Nat) : Nat → Nat → Nat → Nat
  | 0, _, _ => 0
  | terms + 1, power, odd =>
      power / odd + artanhSeries square terms (power * square / gridUnit) (odd + 2)

/-- The inverse hyperbolic tangent of a number that is not above a third. -/
def artanh (x : Nat) : Nat := artanhSeries (x * x / gridUnit) artanhLength x 1

/-- The logarithm of two. -/
def logTwo : Nat := 2 * artanh (gridUnit / 3)

/-- The logarithm of a whole number that is not zero. -/
def logNat (n : Nat) : Nat :=
  let leading := twoTo n.log2
  n.log2 * logTwo + 2 * artanh ((n - leading) * gridUnit / (n + leading))

/-- The decimal for a number on the grid. -/
def ofGrid? (negative : Bool) (x : Nat) : Option Decimal := fit? negative x 100

/-- The natural logarithm of a positive number, worked out from its normal form: the grid is not fine
enough to see that the logarithms for two scales are one number. -/
def ln? (d : Decimal) : Option Decimal :=
  let whole := logNat d.normalize.coefficient
  let shift := d.normalize.scale * logNat 10
  if d.negative || d.isZero then none
  else if shift ≤ whole then ofGrid? false (whole - shift)
  else ofGrid? true (shift - whole)

/-! ## Exponential -/

/-- The number of terms of the series of an exponential. -/
def expLength : Nat := 80

/-- Sums `term + term * x / k + term * x * x / (k * (k + 1)) + …` on the grid. -/
def expSeries (x : Nat) : Nat → Nat → Nat → Nat
  | 0, _, _ => 0
  | terms + 1, term, k => term + expSeries x terms (term * x / gridUnit / k) (k + 1)

/-- The logarithm of the limit of coefficients, rounded up to a whole number. -/
abbrev logLimit : Nat := 67

/-- The exponential of a number without its sign, if it is within bounds. -/
def expAbs? (d : Decimal) : Option Decimal :=
  let x := d.coefficient * gridUnit / tenTo d.scale
  if logLimit * gridUnit < x then none
  else ofGrid? false (twoTo (x / logTwo) * expSeries (x % logTwo) expLength gridUnit 1)

/-- The exponential; below zero it is the reciprocal of one above. -/
def exp? (d : Decimal) : Option Decimal :=
  if d.negative then d.expAbs?.bind fun power => (1 : Decimal).div? power else d.expAbs?

example : (1 : Decimal).ln? = some (scaled 0 28) := by decide +kernel
example : (2 : Decimal).ln? = some (scaled 6931471805599453094172321215 28) := by decide +kernel
example : (1 : Decimal).exp? = some (scaled 27182818284590452353602874714 28) := by decide +kernel

end PaintQuote.Decimal
