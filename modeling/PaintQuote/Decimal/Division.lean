import PaintQuote.Decimal.Arithmetic

/-!
# Decimal division

A quotient is worked out by long division: first the whole number that one coefficient goes into the
other, then further digits in blocks of nine, or as many as the bounds still allow, until nothing
remains or no digit has room.  In the latter case the last digit is rounded to the nearest, a tie
going to the even neighbour.  A quotient whose whole part does not fit has no decimal.

The scale of a quotient shows how it was found.  A division that leaves nothing at once has the
difference of the scales.  Any other gives up zeros at the end of its last block, but by lengths of
eight, four, two and one, so that it need not come down to the least scale: `360 / 150` is `2.40`.
-/

namespace PaintQuote.Decimal

/-! ## Further digits -/

/-- The largest number of further digits, up to the given one, with which a coefficient stays below
the limit. -/
def furtherDigits (coefficient : Nat) : Nat → Nat
  | 0 => 0
  | most + 1 =>
      if coefficient * tenTo (most + 1) < coefficientLimit then most + 1
      else furtherDigits coefficient most

theorem furtherDigits_le (coefficient most : Nat) : furtherDigits coefficient most ≤ most := by
  induction most with
  | zero => simp [furtherDigits]
  | succ most ih =>
      rw [furtherDigits]
      split
      · exact Nat.le_refl _
      · exact Nat.le_succ_of_le ih

/-- A coefficient that has reached the limit, with one digit less and rounded to the nearest, where
`more` says that the exact number is a little larger.  It needs a digit after the point. -/
def shorten? (more : Bool) (coefficient room : Nat) : Option (Nat × Nat) :=
  if maxScale ≤ room then none
  else some (nearestEven (2 * coefficient + more.toNat) 20, maxScale - room - 1)

/-- The coefficient and scale that long division reaches from the quotient found so far.  It has the
scale `28 - room`, which is negative at first if the divisor has more places. -/
def longDivision? (divisor quotient remainder room : Nat) : Option (Nat × Nat) :=
  if remainder = 0 then
    if room ≤ maxScale then some (quotient, maxScale - room)
    else some (quotient * tenTo (room - maxScale), 0)
  else
    let block := furtherDigits quotient (min 9 room)
    if block < 9 ∧ maxScale + block < room then none
    else if _h : block = 0 then
      let rounded := nearestEven (quotient * divisor + remainder) divisor
      if rounded < coefficientLimit then some (rounded, maxScale - room)
      else shorten? true rounded room
    else
      let left := remainder * tenTo block
      let next := quotient * tenTo block + left / divisor
      if next < coefficientLimit then longDivision? divisor next (left % divisor) (room - block)
      else shorten? (left % divisor != 0) next (room - block)
termination_by room
decreasing_by
  have := furtherDigits_le quotient (min 9 room)
  omega

/-! ## Zeros at the end -/

/-- A coefficient and scale without a block of zeros at the end of the fraction, if it is there. -/
def dropBlock (length : Nat) (parts : Nat × Nat) : Nat × Nat :=
  if length ≤ parts.2 ∧ parts.1 % tenTo length = 0 then
    (parts.1 / tenTo length, parts.2 - length)
  else parts

/-- A coefficient and scale without zeros at the end of the fraction, taken away by eights while the
low word of the coefficient is zero. -/
def dropEights (coefficient : Nat) : Nat → Nat × Nat
  | scale + 8 =>
      if coefficient % wordLimit = 0 ∧ coefficient % tenTo 8 = 0 then
        dropEights (coefficient / tenTo 8) scale
      else (coefficient, scale + 8)
  | scale => (coefficient, scale)

/-- A coefficient and scale without most of the zeros at the end of the fraction: after the eights at
most seven more are taken away. -/
def dropBlocks (parts : Nat × Nat) : Nat × Nat :=
  dropBlock 1 (dropBlock 2 (dropBlock 4 (dropEights parts.1 parts.2)))

/-! ## Quotients -/

/-- The quotient; there is none for a zero divisor. -/
def div? (a b : Decimal) : Option Decimal :=
  if b.isZero then none
  else if a.isZero then some 0
  else
    let quotient := a.coefficient / b.coefficient
    let remainder := a.coefficient % b.coefficient
    let room := maxScale + b.scale - a.scale
    (longDivision? b.coefficient quotient remainder room).bind fun parts =>
      let parts := if remainder = 0 then parts else dropBlocks parts
      ofParts? (a.negative != b.negative) parts.1 parts.2

example : (1 : Decimal).div? 3 = some (scaled 3333333333333333333333333333 28) := by decide +kernel
example : (20 : Decimal).div? 4 = some 5 := by decide +kernel
example : (1 : Decimal).div? (-8) = some (-(scaled 125 3)) := by decide +kernel
example : (360 : Decimal).div? 150 = some (scaled 240 2) := by decide +kernel

end PaintQuote.Decimal
