import PaintQuote.Binary64.Basic
import PaintQuote.Decimal.Text

/-!
# The text of a binary number

A binary number is written with the fewest digits that read back as the same number, and of those
the digits nearest to it, in positional notation.  The numbers that read back as `x` are those up to
half way to its neighbours, with the ends if the significand is even.
-/

namespace PaintQuote.Binary64

/-! ## The fewest digits -/

/-- The units are counted in quarters here, so that the half way points are whole. -/
def quarters (x : Binary64) : Nat := 4 * x.units

/-- The half way point to the neighbour below, in quarters; the neighbour is nearer where the
exponent steps down. -/
def lowerEnd (x : Binary64) : Nat :=
  let step := if x.significand = leastSignificand ∧ 0 < x.exponent then 1 else 2
  (4 * x.significand - step) * twoTo x.exponent

/-- The half way point to the neighbour above, in quarters. -/
def upperEnd (x : Binary64) : Nat := (4 * x.significand + 2) * twoTo x.exponent

/-- The place of a decimal number `digits * 10 ^ up / 10 ^ down` in quarters, times `10 ^ down`. -/
def gridPoint (digits up : Nat) : Nat := digits * tenTo up * (4 * one)

/-- Whether the decimal number `digits * 10 ^ up / 10 ^ down` reads back as `x`. -/
def readsBack (x : Binary64) (up down digits : Nat) : Bool :=
  let point := gridPoint digits up
  let low := x.lowerEnd * tenTo down
  let high := x.upperEnd * tenTo down
  if x.significand % 2 = 0 then decide (low ≤ point ∧ point ≤ high)
  else decide (low < point ∧ point < high)

/-- The digits of the point of a decimal grid nearest to `x` that reads back as `x`; of two equally
near points, the greater. -/
def onGrid? (x : Binary64) (up down : Nat) : Option Nat :=
  let value := x.quarters * tenTo down
  let unit := gridPoint 1 up
  let below := value / unit
  let near :=
    if 2 * (value % unit) < unit then [below, below + 1] else [below + 1, below]
  near.find? (x.readsBack up down)

/-- The number of places to the left of the point, for a number that is not below one. -/
def wholePlaces (x : Binary64) : Nat := (Nat.toDigits 10 (x.units / one)).length

/-- The number of zeros between the point and the first digit of a number between zero and one, from
a number already found on. -/
def leadingZeros (x : Binary64) (found : Nat) : Nat → Nat
  | 0 => found
  | bound + 1 =>
      if one ≤ x.units * tenTo (found + 1) then found else leadingZeros x (found + 1) bound

/-- The place of the first digit: one for the units, two for the tens, zero for the tenths. -/
def firstPlace (x : Binary64) : Int :=
  if one ≤ x.units then x.wholePlaces else -(x.leadingZeros 0 400)

/-- The fewest digits that read back, and the power of ten that they are multiplied by, trying from
a number of digits on. -/
def shortestFrom (x : Binary64) (digits : Nat) : Nat → Nat × Int
  | 0 => (0, 0)
  | bound + 1 =>
      let power := x.firstPlace - digits
      match x.onGrid? power.toNat (-power).toNat with
      | some found => (found, power)
      | none => shortestFrom x (digits + 1) bound

/-- The fewest digits that read back, and the power of ten that they are multiplied by. -/
def shortest (x : Binary64) : Nat × Int := if x.isZero then (0, 0) else x.shortestFrom 1 17

/-- The positional notation of digits times a power of ten, without zeros at the end of the
fraction. -/
def positional (digits : Nat) (power : Int) : List Char :=
  if 0 ≤ power then Nat.toDigits 10 digits ++ List.replicate power.toNat '0'
  else
    let (digits, places) := Decimal.dropZeros digits power.natAbs
    let written := Nat.toDigits 10 digits
    let padded := List.replicate (places + 1 - written.length) '0' ++ written
    Decimal.pointed (padded.take (padded.length - places)) (padded.drop (padded.length - places))

/-- The text of a number. -/
def toText (x : Binary64) : String :=
  let (digits, power) := x.shortest
  String.ofList ((if x.negative then ['-'] else []) ++ positional digits power)

example : (nearest? false 1 10).map toText = some "0.1" := by decide +kernel
example : (ofNat? (tenTo 21)).map toText = some "1000000000000000000000" := by decide +kernel

/-! ## Reading -/

/-- The digits of a text before and after the point, and what follows them. -/
def mantissaParts (cs : List Char) : List Char × List Char × List Char :=
  let whole := cs.takeWhile Char.isDigit
  match cs.drop whole.length with
  | '.' :: rest =>
      let fraction := rest.takeWhile Char.isDigit
      (whole, fraction, rest.drop fraction.length)
  | rest => (whole, [], rest)

/-- The exponent written in a text, which may be empty. -/
def readExponent? : List Char → Option Int
  | [] => some 0
  | c :: rest =>
      if c = 'e' ∨ c = 'E' then
        let (negative, digits) :=
          match rest with
          | '-' :: digits => (true, digits)
          | '+' :: digits => (false, digits)
          | digits => (false, digits)
        if digits ≠ [] ∧ digits.all Char.isDigit then
          let n := Decimal.digitsValue digits
          some (if negative then -(n : Int) else n)
        else none
      else none

/-- The number nearest to digits times a power of ten; beyond the largest number there is none. -/
def ofDigits? (negative : Bool) (digits : Nat) (power : Int) : Option Binary64 :=
  let size := (Nat.toDigits 10 digits).length + power
  if digits = 0 ∨ size < -400 then some ⟨negative, 0, 0⟩
  else if 400 < size then none
  else nearest? negative (digits * tenTo power.toNat) (tenTo (-power).toNat)

/-- What a text says of a number with a sign: not a number, none within the format, or a number. -/
inductive Reading where
  /-- The text says no number. -/
  | malformed
  /-- The text says infinity, a number beyond the largest, or no number on purpose. -/
  | special
  /-- The text says a number. -/
  | finite (x : Binary64)
deriving DecidableEq, Repr

/-- Reads a number without a sign. -/
def readUnsigned (negative : Bool) (cs : List Char) : Reading :=
  let lower := String.ofList (cs.map Char.toLower)
  if lower = "inf" ∨ lower = "infinity" ∨ lower = "nan" then .special
  else
    let (whole, fraction, rest) := mantissaParts cs
    if whole.isEmpty && fraction.isEmpty then .malformed
    else
      match readExponent? rest with
      | none => .malformed
      | some exponent =>
          match ofDigits? negative (Decimal.digitsValue (whole ++ fraction))
              (exponent - fraction.length) with
          | some x => .finite x
          | none => .special

/-- Reads a number. -/
def read (s : String) : Reading :=
  match s.toList with
  | '-' :: cs => readUnsigned true cs
  | '+' :: cs => readUnsigned false cs
  | cs => readUnsigned false cs

example : read "-2.5e0" = .finite ⟨true, 0x14000000000000, 1023⟩ := by decide +kernel
example : read "1e400" = .special := by decide +kernel

end Binary64

end PaintQuote
