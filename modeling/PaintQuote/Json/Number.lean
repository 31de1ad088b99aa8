import PaintQuote.Json.Basic
import PaintQuote.Binary64.Text

/-!
# Numbers of JSON texts

A number is read digit by digit into a word of 64 bits.  Digits that no longer fit only count toward
the exponent, and the value is the word times or by a power of ten, rounded as a binary product or
quotient is; a power too large for one step is taken in several.  So a number with very many digits
may come out next to the nearest one.
-/

namespace PaintQuote.Json

/-! ## Digits -/

/-- The first number that does not fit a word. -/
abbrev wordLimit : Nat := 0x10000000000000000

/-- The largest power of ten taken in one step. -/
abbrev largestStep : Nat := 308

/-- The word for leading digits, as many as fit, and the digits that do not. -/
def wordOfDigits (word : Nat) : List Char → Nat × List Char
  | [] => (word, [])
  | c :: rest =>
      let next := word * 10 + (c.toNat - '0'.toNat)
      if next < wordLimit then wordOfDigits next rest else (word, c :: rest)

/-- The parts of a number: its sign, whole part, fraction and exponent. -/
structure NumberParts where
  /-- Whether there is a minus. -/
  negative : Bool
  /-- The digits before the point. -/
  whole : List Char
  /-- The digits after the point, if there is one. -/
  fraction? : Option (List Char)
  /-- The sign and digits of the exponent, if there is one. -/
  exponent? : Option (Bool × List Char)
deriving Repr

/-! ## Values -/

/-- Divides by a power of ten, in steps of at most `1e308`; zero stays. -/
def divideByPower (x : Binary64) (power : Nat) : Option Binary64 :=
  if power ≤ largestStep then
    (Binary64.ofNat? (tenTo power)).bind x.div?
  else if x.isZero then some x
  else do
    let step ← Binary64.ofNat? (tenTo largestStep)
    let y ← x.div? step
    divideByPower y (power - largestStep)
termination_by power
decreasing_by
  have : largestStep = 308 := rfl
  omega

/-- A word times a power of ten. -/
def scaledWord? (negative : Bool) (word : Nat) (power : Int) : Option Binary64 := do
  let x ← Binary64.ofNat? word
  let y ←
    if 0 ≤ power then
      if power.toNat ≤ largestStep then
        (Binary64.ofNat? (tenTo power.toNat)).bind x.mul?
      else if x.isZero then some x
      else none
    else divideByPower x power.natAbs
  some (if negative then y.neg else y)

/-- An exponent that is too large to be counted. -/
abbrev exponentLimit : Nat := 0x80000000

/-- The binary number for a word times a power of ten with a written exponent. -/
def withExponent? (negative : Bool) (word : Nat) (power : Int) (exponent : Bool × List Char) :
    Option Binary64 :=
  let n := Decimal.digitsValue exponent.2
  if exponentLimit ≤ n then
    if word ≠ 0 ∧ exponent.1 = false then none else some ⟨negative, 0, 0⟩
  else scaledWord? negative word (if exponent.1 then power - n else power + n)

/-- The word and the power of ten for the digits of a number.  Digits of the whole part that did not
fit raise the power, and digits of the fraction that did lower it. -/
def wordAndPower (whole fraction : List Char) : Nat × Int :=
  let (word, beyond) := wordOfDigits 0 whole
  let (word, rest) := wordOfDigits word fraction
  (word, (beyond.length : Int) - (fraction.length - rest.length : Nat))

/-- The value of a number; one that is too large cannot be read. -/
def ofNumber (p : NumberParts) : Json :=
  let (word, beyond) := wordOfDigits 0 p.whole
  match p.fraction?, p.exponent? with
  | none, none =>
      if beyond.isEmpty ∧ p.negative = false then integer word
      else if beyond.isEmpty ∧ word ≠ 0 ∧ word ≤ 0x8000000000000000 then integer (-(word : Int))
      else
        match scaledWord? p.negative word beyond.length with
        | some x => real x
        | none => unreadable
  | fraction?, exponent? =>
      let (word, power) := wordAndPower p.whole (fraction?.getD [])
      let x? :=
        match exponent? with
        | some exponent => withExponent? p.negative word power exponent
        | none => scaledWord? p.negative word power
      match x? with
      | some x => real x
      | none => unreadable

end PaintQuote.Json
