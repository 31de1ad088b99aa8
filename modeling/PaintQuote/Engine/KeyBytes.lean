import PaintQuote.Engine.CacheKey

/-!
# The bytes of a cache key

A key is made known to others by a hash of bytes.  The bytes are the text of the formula and the parts one
after the other, and nothing ends them: a text stands behind its length, other numbers have a fixed width,
and a tag says what follows.  Numbers have their lowest byte first.

A key keeps the same parts as numbers of any size (`CacheKey.ofParts`).  The two spellings tell the same
keys apart as long as every number has room in its bytes (`Fits`).
-/

namespace PaintQuote.Engine.CacheKey

open Sheet

/-! ## Bytes -/

/-- The lowest bytes of a number, the lowest one first. -/
def littleEndian : (width : Nat) → Nat → List UInt8
  | 0, _ => []
  | width + 1, n => UInt8.ofNat n :: littleEndian width (n / 256)

@[simp] theorem length_littleEndian (width n : Nat) : (littleEndian width n).length = width := by
  induction width generalizing n with
  | zero => rfl
  | succ width ih => rw [littleEndian, List.length_cons, ih]

/-- A text behind its length, which has eight bytes. -/
def textBytes (s : String) : List UInt8 := littleEndian 8 s.utf8ByteSize ++ s.toByteArray.data.toList

/-- An address, with four bytes for the row and two for the column. -/
def addressBytes (a : Address) : List UInt8 := littleEndian 4 a.row ++ littleEndian 2 a.column

/-- A cell. -/
def cellBytes (k : CellKey) : List UInt8 := textBytes k.sheet.text ++ addressBytes k.address

/-- The scale and the sign of a number in one word, with the sign as its highest bit. -/
def numberFlags (n : Decimal) : Nat := n.scale * twoTo 16 + n.negative.toNat * twoTo 31

/-- A number in normal form, with four bytes for its scale and sign and twelve for its coefficient. -/
def numberBytes (n : Decimal) : List UInt8 :=
  littleEndian 4 (numberFlags n.normalize) ++ littleEndian 12 n.normalize.coefficient

/-- A value behind the tag of its kind. -/
def valueBytes : CellValue → List UInt8
  | .empty => [0]
  | .boolean b => [1, if b then 1 else 0]
  | .number n => 2 :: numberBytes n
  | .text s => 3 :: textBytes s
  | .error e => [4, UInt8.ofNat e.code]

/-- What a name stands for, behind the tag of its kind. -/
def targetBytes : Option Target → List UInt8
  | none => [0]
  | some (.cell key) => 1 :: cellBytes key
  | some (.range sheet area) =>
      2 :: (textBytes sheet.text ++ (addressBytes area.start ++ addressBytes area.stop))
  | some (.constant value) => 3 :: valueBytes value

/-- A part behind the tag of its kind, which is the letter `N` for a name and `D` for a cell. -/
def partBytes : Part → List UInt8
  | .name name target? => 0x4E :: (textBytes (Text.asciiUpper name) ++ targetBytes target?)
  | .dependency cell value => 0x44 :: (cellBytes cell ++ valueBytes value)

/-- The bytes for a formula and the parts that it reads, in order, behind the letter `F`. -/
def bytes (formula : String) (parts : List Part) : List UInt8 :=
  0x46 :: (textBytes formula ++ parts.flatMap partBytes)

/-! ## What has room -/

/-- Whether the length of a text has room in eight bytes. -/
def TextFits (s : String) : Prop := s.utf8ByteSize < twoTo 64

instance (s : String) : Decidable (TextFits s) := inferInstanceAs (Decidable (_ < _))

/-- Whether an address has room in its bytes. -/
def AddressFits (a : Address) : Prop := a.row < twoTo 32 ∧ a.column < twoTo 16

instance (a : Address) : Decidable (AddressFits a) := inferInstanceAs (Decidable (_ ∧ _))

/-- Whether a cell has room in its bytes. -/
def CellFits (k : CellKey) : Prop := TextFits k.sheet.text ∧ AddressFits k.address

instance (k : CellKey) : Decidable (CellFits k) := inferInstanceAs (Decidable (_ ∧ _))

/-- Whether a value has room in its bytes. -/
def ValueFits : CellValue → Prop
  | .text s => TextFits s
  | _ => True

instance : DecidablePred ValueFits
  | .text s => inferInstanceAs (Decidable (TextFits s))
  | .empty | .boolean _ | .number _ | .error _ => inferInstanceAs (Decidable True)

/-- Whether what a name stands for has room in its bytes. -/
def TargetFits : Option Target → Prop
  | none => True
  | some (.cell key) => CellFits key
  | some (.range sheet area) => TextFits sheet.text ∧ AddressFits area.start ∧ AddressFits area.stop
  | some (.constant value) => ValueFits value

instance : DecidablePred TargetFits
  | none => inferInstanceAs (Decidable True)
  | some (.cell key) => inferInstanceAs (Decidable (CellFits key))
  | some (.range sheet area) =>
      inferInstanceAs (Decidable (TextFits sheet.text ∧ AddressFits area.start ∧ AddressFits area.stop))
  | some (.constant value) => inferInstanceAs (Decidable (ValueFits value))

/-- Whether a part has room in its bytes. -/
def PartFits : Part → Prop
  | .name name target? => TextFits name ∧ TargetFits target?
  | .dependency cell value => CellFits cell ∧ ValueFits value

instance : DecidablePred PartFits
  | .name name target? => inferInstanceAs (Decidable (TextFits name ∧ TargetFits target?))
  | .dependency cell value => inferInstanceAs (Decidable (CellFits cell ∧ ValueFits value))

/-- Whether a formula and the parts that it reads have room in their bytes. -/
def Fits (formula : String) (parts : List Part) : Prop := TextFits formula ∧ ∀ p ∈ parts, PartFits p

instance (formula : String) (parts : List Part) : Decidable (Fits formula parts) :=
  inferInstanceAs (Decidable (_ ∧ _))

example : bytes "A" [.dependency ⟨⟨"S"⟩, ⟨258, 1⟩⟩ (.boolean true)] =
    [0x46, 1, 0, 0, 0, 0, 0, 0, 0, 0x41, 0x44, 1, 0, 0, 0, 0, 0, 0, 0, 0x53, 2, 1, 0, 0, 1, 0, 1, 1] := by
  decide +kernel

end PaintQuote.Engine.CacheKey
