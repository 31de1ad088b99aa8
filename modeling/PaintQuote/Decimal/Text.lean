import PaintQuote.Decimal.Division
import PaintQuote.Decimal.Rounding
import PaintQuote.Text.Blank
import PaintQuote.Text.Cut

/-!
# The text of a decimal

A decimal is written with its sign, its whole part and the digits of its scale, so that `1.50` and
`1.5` look different.  `toFixed` writes a magnitude with a wanted number of places.

Reading accepts the plain form, with an optional sign, digits, at most one point and underscores
after the first digit, and the form with an exponent.  A fraction that is too long is rounded half
up at the first digit that has no room, and only digits and underscores may follow; a whole part
that is too long is refused.  With an exponent the point is moved, within 28 places either way.
`readNumeric?` reads what a person may type for a number: it allows blanks and percent signs.
-/

namespace PaintQuote.Decimal

open Text

/-! ## Writing -/

/-- The digits of the whole part and of the fraction. -/
def digitParts (d : Decimal) : List Char × List Char :=
  let digits := Nat.toDigits 10 d.coefficient
  let padded := List.replicate (d.scale + 1 - digits.length) '0' ++ digits
  (padded.take (padded.length - d.scale), padded.drop (padded.length - d.scale))

/-- A whole part and a fraction with a point between them, if there is a fraction. -/
def pointed (whole fraction : List Char) : List Char :=
  if fraction.isEmpty then whole else whole ++ '.' :: fraction

/-- The text of a decimal, at its own scale. -/
def toText (d : Decimal) : String :=
  let parts := d.digitParts
  String.ofList ((if d.negative then ['-'] else []) ++ pointed parts.1 parts.2)

/-- The magnitude with the given number of places; further digits are left out. -/
def toFixed (d : Decimal) (places : Nat) : List Char × List Char :=
  let parts := d.digitParts
  (parts.1, (parts.2 ++ List.replicate (places - parts.2.length) '0').take places)

/-- The text of the number, whatever its scale. -/
def toPlain (d : Decimal) : String := d.normalize.toText

/-! ## Reading the plain form -/

/-- The value of a digit. -/
def digitValue? (c : Char) : Option Nat := if c.isDigit then some (c.toNat - '0'.toNat) else none

/-- A coefficient below this bound takes any further digit within a word of 64 bits. -/
abbrev shortLimit : Nat := 1844674407370954906

/-- Whether the coefficient was still short when its last digit came. -/
def lastWasShort (coefficient : Nat) : Bool := decide (coefficient / 10 < shortLimit)

/-- The digit that decides how digits without room are rounded.  Underscores before it are skipped,
but after a short coefficient an underscore stands for zero. -/
def decidingDigit? (coefficient : Nat) (cs : List Char) : Option Nat :=
  if cs.all fun c => c.isDigit || c == '_' then
    let digits := if lastWasShort coefficient then cs else cs.dropWhile (· == '_')
    some ((digits.head?.bind digitValue?).getD 0)
  else none

/-- The decimal for digits that leave no room, rounded half up by the characters that follow. -/
def roundOff? (negative : Bool) (coefficient scale : Nat) (rest : List Char) : Option Decimal :=
  (decidingDigit? coefficient rest).bind fun digit =>
    if digit < 5 then ofParts? negative coefficient scale
    else if coefficient + 1 < coefficientLimit then ofParts? negative (coefficient + 1) scale
    else if scale = 0 then none
    else ofParts? negative ((coefficient + 5) / 10) (scale - 1)

/-- What a reader has seen of the plain form. -/
structure PlainState where
  /-- The digits so far. -/
  coefficient : Nat := 0
  /-- The number of digits after the point. -/
  scale : Nat := 0
  /-- Whether the point has been seen. -/
  point : Bool := false
  /-- Whether a digit has been seen. -/
  digits : Bool := false

/-- Reads the rest of the plain form. -/
def readPlainFrom? (negative : Bool) (state : PlainState) : List Char → Option Decimal
  | [] => if state.digits then ofParts? negative state.coefficient state.scale else none
  | c :: rest =>
      if state.point && state.scale == maxScale then
        roundOff? negative state.coefficient state.scale (c :: rest)
      else
        match digitValue? c with
        | some digit =>
            let next := state.coefficient * 10 + digit
            if coefficientLimit ≤ next then
              if state.point then roundOff? negative state.coefficient state.scale (c :: rest)
              else none
            else
              readPlainFrom? negative
                { state with
                  coefficient := next
                  scale := if state.point then state.scale + 1 else 0
                  digits := true } rest
        | none =>
            if c = '.' ∧ state.point = false then
              readPlainFrom? negative { state with point := true } rest
            else if c = '_' ∧ state.digits = true then readPlainFrom? negative state rest
            else none

/-- Reads the plain form. -/
def readPlain? : List Char → Option Decimal
  | '-' :: rest => readPlainFrom? true {} rest
  | '+' :: rest => readPlainFrom? false {} rest
  | cs => readPlainFrom? false {} cs

/-! ## Reading the form with an exponent -/

/-- The value of a run of digits. -/
def digitsValue (cs : List Char) : Nat :=
  cs.foldl (fun n c => n * 10 + (c.toNat - '0'.toNat)) 0

/-- An unsigned word of 32 bits, with an optional plus. -/
def readWord? (cs : List Char) : Option Nat :=
  let digits := (afterLead? ['+'] cs).getD cs
  if digits ≠ [] ∧ digits.all Char.isDigit ∧ digitsValue digits < wordLimit then
    some (digitsValue digits)
  else none

/-- An exponent: whether it is negative, and its magnitude. -/
def readExponent? : List Char → Option (Bool × Nat)
  | '-' :: rest => (readWord? rest).map (true, ·)
  | cs => (readWord? cs).map (false, ·)

/-- The parts before and after the mark of an exponent. -/
def cutExponent? : List Char → Option (List Char × List Char)
  | [] => none
  | c :: rest =>
      if c = 'e' ∨ c = 'E' then some ([], rest)
      else (cutExponent? rest).map fun p => (c :: p.1, p.2)

/-- The number with its point moved to the left, unless that takes more than 28 places. -/
def shiftDown? (d : Decimal) (places : Nat) : Option Decimal :=
  if h : d.scale + places ≤ maxScale then some { d with scale := d.scale + places, scale_le := h }
  else none

/-- The number with its point moved to the left, rounded half up so that 28 places suffice. -/
def shiftDownRounded? (d : Decimal) (places : Nat) : Option Decimal :=
  if maxScale < places then none
  else (d.quantize (maxScale - places) .halfAway).shiftDown? places

/-- The number times a power of ten; the factor is taken in steps that fit a word. -/
def timesPowerOfTen? (d : Decimal) (power : Nat) : Option Decimal :=
  if power ≤ 19 then d.mul? (ofNat (tenTo power))
  else (d.mul? (ofNat (tenTo 19))).bind (·.mul? (ofNat (tenTo (power - 19))))

/-- The number with its point moved to the right. -/
def shiftUp? (d : Decimal) (places : Nat) : Option Decimal :=
  if places ≤ d.scale then
    some { d with scale := d.scale - places, scale_le := Nat.le_trans (Nat.sub_le _ _) d.scale_le }
  else if maxScale < places then none
  else (d.timesPowerOfTen? places).map normalize

/-- Reads the form with an exponent, given how the point moves to the left. -/
def readWithExponent? (down : Decimal → Nat → Option Decimal) (cs : List Char) :
    Option Decimal := do
  let (base, exponent) ← cutExponent? cs
  let d ← readPlain? base
  let (negative, places) ← readExponent? exponent
  if negative then down d places else d.shiftUp? places

/-- Reads the form with an exponent; the exponent must not cost digits. -/
def readScientific? (cs : List Char) : Option Decimal := readWithExponent? shiftDown? cs

/-- Reads either form; an exponent that leaves no room rounds the number first. -/
def read? (cs : List Char) : Option Decimal :=
  (readPlain? cs).or (readWithExponent? shiftDownRounded? cs)

/-- Reads a number with neither blanks nor any other mark around it. -/
def ofText? (s : String) : Option Decimal := read? s.toList

/-! ## Numeric text -/

/-- Reads numeric text with fewer percent signs than `fuel`. -/
def readNumericFrom? : Nat → List Char → Option Decimal
  | 0, _ => none
  | fuel + 1, cs =>
      let body := trim cs
      if body.isEmpty then none
      else
        match beforeEnd? '%' body with
        | some rest => (readNumericFrom? fuel rest).bind (·.div? 100)
        | none => read? body

/-- Numeric text as typed in a cell: a number between blanks, or such a text and a percent sign,
which divides by a hundred. -/
def readNumeric? (cs : List Char) : Option Decimal := readNumericFrom? (cs.length + 1) cs

example : (scaled 150 2).toText = "1.50" := by decide +kernel
example : ofText? "-.5" = some (-(scaled 5 1)) := by decide +kernel
example : ofText? "1.25e3" = some 1250 := by decide +kernel
example : ofText? "1_000" = some 1000 := by decide +kernel
example : ofText? "_1" = none := by decide +kernel
example : readNumeric? " 50 %".toList = some (scaled 50 2) := by decide +kernel

end PaintQuote.Decimal
