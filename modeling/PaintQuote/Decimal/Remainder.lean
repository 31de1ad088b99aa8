import PaintQuote.Decimal.Arithmetic

/-!
# Decimal remainders

What division toward zero leaves, with the sign of the dividend.  Both coefficients are brought to
the larger scale, and the remainder has that scale too.  A dividend that is the smaller number is
its own remainder and keeps its own scale.

A divisor of at most two words leaves the exact remainder.  A longer one has three words and is
divided into the dividend digit by digit, where a digit is a word and the divisor is shifted up so
that its leading word is at least half full.  Each digit is guessed from the leading words and set
right by what it leaves.  The guess is held in one word.  It needs more when the part at hand leads
with the same word as the divisor; then its upper half is lost, and what is left in the end need not
be the remainder.  `reduce_eq_mod` says that a guess of one word always leaves the exact remainder.
-/

namespace PaintQuote.Decimal

/-! ## Remainders by long divisors -/

/-- Coefficients below this bound have at most two words. -/
abbrev doubleWordLimit : Nat := 0x10000000000000000

/-- What a divisor of three words leaves of a number of up to four.  The digit guessed is a word; one
that takes too much is set right by adding the divisor until nothing is missing. -/
def reduce (divisor n : Nat) : Nat :=
  let top := n / doubleWordLimit
  let leading := divisor / doubleWordLimit
  let digit := top / leading % wordLimit
  let left := (top - digit * leading) % wordLimit * doubleWordLimit + n % doubleWordLimit
  let taken := digit * (divisor % doubleWordLimit)
  if taken ≤ left then left - taken else (divisor - (taken - left) % divisor) % divisor

/-- What a divisor of three words leaves of a number whose words are taken in from the top. -/
def longRemainder (divisor n : Nat) : Nat :=
  if n = 0 then 0
  else reduce divisor (longRemainder divisor (n / wordLimit) * wordLimit + n % wordLimit)
termination_by n
decreasing_by exact Nat.div_lt_self (Nat.pos_of_ne_zero ‹_›) (by decide)

/-- What a divisor leaves of a whole number.  A long divisor fills its three words for this. -/
def leftOver (divisor n : Nat) : Nat :=
  if divisor < doubleWordLimit then n % divisor
  else
    let unit := twoTo (95 - divisor.log2)
    longRemainder (divisor * unit) (n * unit) / unit

/-! ## The operation -/

/-- What division toward zero leaves, with the sign of the dividend; there is none for a zero
divisor. -/
def rem? (a b : Decimal) : Option Decimal :=
  if b.isZero then none
  else if a.isZero then some 0
  else
    match a.abs.compare b.abs with
    | .lt => some a
    | .eq => some 0
    | .gt =>
        let scale := max a.scale b.scale
        ofParts? a.negative
          (leftOver (b.coefficient * tenTo (scale - b.scale))
            (a.coefficient * tenTo (scale - a.scale)))
          scale

/-! ## Laws -/

/-- What is missing from a multiple of the divisor, taken from the divisor, is the remainder. -/
theorem mod_eq_of_add_eq_mul {n missing divisor q : Nat} (h : n + missing = q * divisor) :
    (divisor - missing % divisor) % divisor = n % divisor := by
  rcases Nat.eq_zero_or_pos divisor with rfl | hd
  · simp at h
    simp [h]
  · have hsum : (n % divisor + missing % divisor) % divisor = 0 := by
      rw [← Nat.add_mod, h, Nat.mul_mod_left]
    have hn := Nat.mod_lt n hd
    have hm := Nat.mod_lt missing hd
    rcases Nat.eq_zero_or_pos (missing % divisor) with h0 | hpos
    · rw [h0] at hsum ⊢
      simp at hsum
      simp [hsum]
    · have hle : divisor ≤ n % divisor + missing % divisor := by
        apply Nat.le_of_not_lt
        intro hlt
        rw [Nat.mod_eq_of_lt hlt] at hsum
        omega
      have hlt : n % divisor + missing % divisor - divisor < divisor := by omega
      rw [Nat.mod_eq_sub_mod hle, Nat.mod_eq_of_lt hlt] at hsum
      rw [Nat.mod_eq_of_lt (by omega)]
      omega

/-- A digit that is guessed in one word leaves the exact remainder. -/
theorem reduce_eq_mod {divisor n : Nat} (hlong : doubleWordLimit ≤ divisor)
    (hthree : divisor < coefficientLimit)
    (hdigit : n / doubleWordLimit / (divisor / doubleWordLimit) < wordLimit) :
    reduce divisor n = n % divisor := by
  have hlead : 0 < divisor / doubleWordLimit := Nat.div_pos hlong (by decide)
  have hword : divisor / doubleWordLimit < wordLimit := by
    apply Nat.div_lt_of_lt_mul
    exact Nat.lt_of_lt_of_le hthree (by decide)
  have hn := Nat.div_add_mod n doubleWordLimit
  have hd := Nat.div_add_mod divisor doubleWordLimit
  have hlow := Nat.mod_lt n (show 0 < doubleWordLimit by decide)
  have htop := Nat.div_add_mod (n / doubleWordLimit) (divisor / doubleWordLimit)
  have hrest := Nat.mod_lt (n / doubleWordLimit) hlead
  unfold reduce
  simp only [Nat.mod_eq_of_lt hdigit]
  generalize hB : doubleWordLimit = B at *
  generalize n / B = top at *
  generalize n % B = low at *
  generalize divisor / B = lead at *
  generalize divisor % B = tail at *
  have hleft : top - top / lead * lead = top % lead := by
    rw [Nat.mul_comm]
    omega
  rw [hleft, Nat.mod_eq_of_lt (Nat.lt_trans hrest hword)]
  generalize top / lead = digit at *
  generalize top % lead = rest at *
  have hbalance : n + digit * tail = rest * B + low + digit * divisor := by
    rw [← hn, ← htop, ← hd, Nat.mul_add B, Nat.mul_add digit, Nat.mul_comm B rest,
      Nat.mul_left_comm B lead digit, Nat.mul_comm digit (B * lead), Nat.mul_right_comm B lead digit,
      Nat.mul_comm lead (B * digit)]
    omega
  have hsmall : rest * B + low < divisor := by
    have : (rest + 1) * B ≤ lead * B := Nat.mul_le_mul_right B hrest
    rw [Nat.add_mul, Nat.one_mul] at this
    rw [Nat.mul_comm] at hd
    omega
  split
  · rename_i hle
    have : n = (rest * B + low - digit * tail) + digit * divisor := by omega
    rw [this, Nat.add_mul_mod_self_right, Nat.mod_eq_of_lt (by omega)]
  · exact mod_eq_of_add_eq_mul (q := digit) (by omega)

example : (-(7 : Decimal)).rem? 2 = some (-1) := by decide +kernel
example : (2 : Decimal).rem? (scaled 500 2) = some 2 := by decide +kernel
example : (10 : Decimal).rem? (scaled 30 1) = some (scaled 10 1) := by decide +kernel
example : (1000 : Decimal).rem? (scaled 25000000000000000000 20) = some (scaled 0 20) := by
  decide +kernel

end PaintQuote.Decimal
