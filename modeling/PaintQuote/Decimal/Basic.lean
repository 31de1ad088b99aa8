/-!
# Decimal numbers

The numbers of a sheet.  A decimal is a sign, a coefficient below `2 ^ 96` and a scale of at most
28, and stands for `± coefficient / 10 ^ scale`; the bounds are part of the type.  One number has
several decimals (`1.5` and `1.50`), and zero has two signs.  `compare` looks at the number alone,
and `normalize` picks the decimal of least scale: two decimals are the same number exactly when they
normalize alike, which is what makes the normal form fit to be a key.
-/

namespace PaintQuote

/-! ## Powers of two and ten -/

/-- A power of ten. -/
def tenTo (n : Nat) : Nat := Nat.pow 10 n

/-- A power of two. -/
def twoTo (n : Nat) : Nat := Nat.pow 2 n

@[simp] theorem tenTo_zero : tenTo 0 = 1 := rfl

theorem tenTo_succ (n : Nat) : tenTo (n + 1) = tenTo n * 10 := rfl

theorem tenTo_pos (n : Nat) : 0 < tenTo n := Nat.pow_pos (by decide)

theorem tenTo_add (m n : Nat) : tenTo (m + n) = tenTo m * tenTo n := Nat.pow_add 10 m n

@[simp] theorem twoTo_zero : twoTo 0 = 1 := rfl

theorem twoTo_pos (n : Nat) : 0 < twoTo n := Nat.pow_pos (by decide)

theorem twoTo_add (m n : Nat) : twoTo (m + n) = twoTo m * twoTo n := Nat.pow_add 2 m n

/-! ## Decimals -/

/-- The first coefficient that is too large, `2 ^ 96`. -/
abbrev Decimal.coefficientLimit : Nat := 0x1000000000000000000000000

/-- The largest scale. -/
abbrev Decimal.maxScale : Nat := 28

/-- The decimal number `± coefficient / 10 ^ scale`. -/
structure Decimal where
  /-- Whether the sign is a minus; zero has both signs. -/
  negative : Bool
  /-- The digits, without the point. -/
  coefficient : Nat
  /-- The number of digits after the point. -/
  scale : Nat
  coefficient_lt : coefficient < Decimal.coefficientLimit
  scale_le : scale ≤ Decimal.maxScale
deriving DecidableEq, Repr

namespace Decimal

/-! ## Construction -/

/-- The decimal with the given parts, if they are within bounds.  A zero made this way has no
minus. -/
def ofParts? (negative : Bool) (coefficient scale : Nat) : Option Decimal :=
  if h : coefficient < coefficientLimit ∧ scale ≤ maxScale then
    some ⟨negative && coefficient != 0, coefficient, scale, h.1, h.2⟩
  else none

/-- The decimal `coefficient / 10 ^ scale` for parts that are visibly within bounds. -/
def scaled (coefficient scale : Nat) (hc : coefficient < coefficientLimit := by decide)
    (hs : scale ≤ maxScale := by decide) : Decimal :=
  ⟨false, coefficient, scale, hc, hs⟩

/-- A whole number; beyond the largest decimal, the largest decimal. -/
def ofNat (n : Nat) : Decimal :=
  ⟨false, min n (coefficientLimit - 1), 0,
    Nat.lt_of_le_of_lt (Nat.min_le_right _ _) (by decide), Nat.zero_le _⟩

/-- A whole number with a sign. -/
def ofInt (n : Int) : Decimal := { ofNat n.natAbs with negative := n < 0 }

instance (n : Nat) : OfNat Decimal n := ⟨ofNat n⟩

instance : Inhabited Decimal := ⟨0⟩

theorem ofParts?_isSome (negative : Bool) {coefficient scale : Nat}
    (hc : coefficient < coefficientLimit) (hs : scale ≤ maxScale) :
    (ofParts? negative coefficient scale).isSome := by
  simp [ofParts?, hc, hs]

/-! ## Sign -/

/-- Whether the number is zero, with either sign. -/
def isZero (d : Decimal) : Bool := d.coefficient == 0

/-- The number with the other sign; zero changes its sign too. -/
def neg (d : Decimal) : Decimal := { d with negative := !d.negative }

/-- The number without its sign. -/
def abs (d : Decimal) : Decimal := { d with negative := false }

/-- The number with the given sign, which zero takes too. -/
def withSign (negative : Bool) (d : Decimal) : Decimal := { d with negative := negative }

instance : Neg Decimal := ⟨neg⟩

@[simp] theorem neg_neg (d : Decimal) : - -d = d := by
  show neg (neg d) = d
  simp [neg]

/-! ## Order -/

/-- The coefficient with the sign. -/
def signed (d : Decimal) : Int := if d.negative then -(d.coefficient : Int) else d.coefficient

/-- The signed coefficient that the number has at a scale no smaller than its own. -/
def signedAt (d : Decimal) (scale : Nat) : Int := d.signed * tenTo (scale - d.scale)

/-- The order of two numbers, whatever their scales and signs of zero. -/
def compare (a b : Decimal) : Ordering :=
  Ord.compare (a.signed * tenTo b.scale) (b.signed * tenTo a.scale)

/-- Whether two decimals are one number. -/
def same (a b : Decimal) : Bool := a.compare b == .eq

/-- Whether the first number is smaller. -/
def less (a b : Decimal) : Bool := a.compare b == .lt

/-- Whether the number is greater than zero. -/
def isPositive (d : Decimal) : Bool := !d.negative && !d.isZero

@[simp] theorem compare_self (d : Decimal) : d.compare d = .eq := by
  simp [compare]

@[simp] theorem same_self (d : Decimal) : d.same d := by simp [same]

/-! ## Normal form -/

/-- A coefficient and scale without the zeros at the end of the fraction. -/
def dropZeros (coefficient : Nat) : Nat → Nat × Nat
  | 0 => (coefficient, 0)
  | scale + 1 =>
      if coefficient % 10 = 0 then dropZeros (coefficient / 10) scale
      else (coefficient, scale + 1)

theorem dropZeros_le (coefficient scale : Nat) :
    (dropZeros coefficient scale).1 ≤ coefficient ∧ (dropZeros coefficient scale).2 ≤ scale := by
  induction scale generalizing coefficient with
  | zero => simp [dropZeros]
  | succ scale ih =>
      rw [dropZeros]
      split
      · obtain ⟨h₁, h₂⟩ := ih (coefficient / 10)
        exact ⟨Nat.le_trans h₁ (Nat.div_le_self _ _), Nat.le_succ_of_le h₂⟩
      · exact ⟨Nat.le_refl _, Nat.le_refl _⟩

/-- The decimal of least scale for the same number, where zero is plain `0`. -/
def normalize (d : Decimal) : Decimal :=
  if d.isZero then 0
  else
    ⟨d.negative, (dropZeros d.coefficient d.scale).1, (dropZeros d.coefficient d.scale).2,
      Nat.lt_of_le_of_lt (dropZeros_le _ _).1 d.coefficient_lt,
      Nat.le_trans (dropZeros_le _ _).2 d.scale_le⟩

example : (scaled 1500 3).normalize = scaled 15 1 := by decide
example : (-(0 : Decimal)).normalize = 0 := by decide
example : (scaled 150 2).same (scaled 15 1) = true := by decide

end Decimal

end PaintQuote
