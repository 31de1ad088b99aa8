import PaintQuote.Decimal.Basic

/-!
# Rounding decimals

Giving up digits after the point.  A rounding rule decides from the digits given up whether the
last digit kept goes up by one; the rules are those of a spreadsheet.  `quantize` applies a rule and
leaves a number with fewer digits as it is, `round` writes a zero with the wanted number of places,
and `trunc`, `floor` and `ceil` reach whole numbers.  A result keeps the sign of its argument, also
when it is zero; only `round` takes the minus from a number that becomes zero.
-/

namespace PaintQuote.Decimal

/-! ## Rules -/

/-- Which way the digits given up are rounded. -/
inductive Rounding where
  /-- To the nearest neighbour, a tie away from zero. -/
  | halfAway
  /-- Away from zero. -/
  | away
  /-- Toward zero. -/
  | towardZero
  /-- Toward the larger numbers. -/
  | up
  /-- Toward the smaller numbers. -/
  | down
deriving DecidableEq, Repr

/-- Whether the coefficient goes up by one, given the sign and the digits given up out of `unit`. -/
def Rounding.carries (rule : Rounding) (negative : Bool) (given unit : Nat) : Bool :=
  given != 0 &&
    match rule with
    | .halfAway => decide (unit ≤ 2 * given)
    | .away => true
    | .towardZero => false
    | .up => !negative
    | .down => negative

theorem quotient_add_carry_le (rule : Rounding) (negative : Bool) (n unit : Nat) :
    n / unit + (rule.carries negative (n % unit) unit).toNat ≤ n := by
  have hd := Nat.div_add_mod n unit
  cases hc : rule.carries negative (n % unit) unit with
  | false => simpa using Nat.div_le_self n unit
  | true =>
      have hr : n % unit ≠ 0 := by
        intro h
        simp [Rounding.carries, h] at hc
      have hu : unit ≠ 1 := fun h => hr (by rw [h, Nat.mod_one])
      have hm : n / unit ≤ unit * (n / unit) := by
        cases unit with
        | zero => simp
        | succ u => exact Nat.le_mul_of_pos_left _ (Nat.succ_pos u)
      show n / unit + 1 ≤ n
      omega

/-! ## Places -/

/-- The number with at most the given number of places; one with fewer is left as it is. -/
def quantize (d : Decimal) (places : Nat) (rule : Rounding) : Decimal :=
  let unit := tenTo (d.scale - places)
  { negative := d.negative
    coefficient :=
      d.coefficient / unit + (rule.carries d.negative (d.coefficient % unit) unit).toNat
    scale := min d.scale places
    coefficient_lt := Nat.lt_of_le_of_lt (quotient_add_carry_le ..) d.coefficient_lt
    scale_le := Nat.le_trans (Nat.min_le_left _ _) d.scale_le }

/-- The number with at most the given number of places; zero gets all of them.  What becomes zero has
no minus. -/
def round (d : Decimal) (places : Nat) (rule : Rounding) : Decimal :=
  if d.isZero then
    { d with scale := min places maxScale, scale_le := Nat.min_le_right _ _ }
  else
    let rounded := d.quantize places rule
    rounded.withSign (d.negative && !rounded.isZero)

/-- The whole part. -/
def trunc (d : Decimal) : Decimal := d.quantize 0 .towardZero

/-- The greatest whole number that is not above the number. -/
def floor (d : Decimal) : Decimal := d.quantize 0 .down

/-- The least whole number that is not below the number. -/
def ceil (d : Decimal) : Decimal := d.quantize 0 .up

/-- Whether the number is whole. -/
def isWhole (d : Decimal) : Bool := d.coefficient % tenTo d.scale == 0

theorem quantize_of_le {d : Decimal} {places : Nat} (rule : Rounding) (h : d.scale ≤ places) :
    d.quantize places rule = d := by
  have hs : d.scale - places = 0 := by omega
  simp [quantize, hs, Nat.mod_one, Rounding.carries, Nat.min_eq_left h]

/-! ## Machine words -/

/-- The whole part as a signed word of 64 bits, if it fits. -/
def toInt64? (d : Decimal) : Option Int :=
  let whole := d.coefficient / tenTo d.scale
  if d.negative then
    if whole ≤ 0x8000000000000000 then some (-(whole : Int)) else none
  else if whole < 0x8000000000000000 then some whole else none

/-- The whole part as an unsigned word of 64 bits; a minus is refused even before zero. -/
def toNat64? (d : Decimal) : Option Nat :=
  let whole := d.coefficient / tenTo d.scale
  if d.negative then none else if whole < 0x10000000000000000 then some whole else none

example : (scaled 2675 3).round 2 .halfAway = scaled 268 2 := by decide
example : (-(scaled 25 1)).floor = -3 := by decide
example : (-(scaled 5 1)).trunc = -0 := by decide
example : (-(scaled 4 1)).round 0 .halfAway = 0 := by decide
example : (0 : Decimal).round 2 .halfAway = scaled 0 2 := by decide

end PaintQuote.Decimal
