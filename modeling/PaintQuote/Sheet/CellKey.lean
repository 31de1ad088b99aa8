import PaintQuote.Sheet.Address
import PaintQuote.Sheet.SheetName

/-!
# Cell keys

The identity of a cell in a workbook: its sheet and its address, written `ROOM!B2`.  Keys are
ordered by sheet, then by row, then by column, so that maps over cells list them in this order.
-/

namespace PaintQuote.Sheet

open Text

/-- A cell of a workbook. -/
structure CellKey where
  /-- The sheet of the cell. -/
  sheet : SheetName
  /-- The place on the sheet. -/
  address : Address
deriving DecidableEq, Repr

namespace CellKey

/-! ## Order -/

/-- The order of keys: by sheet, then by row, then by column. -/
def order : CellKey → CellKey → Ordering :=
  compareLex (compareOn fun k => k.sheet.text)
    (compareLex (compareOn fun k => k.address.row) (compareOn fun k => k.address.column))

theorem eq_of_order {a b : CellKey} (h : order a b = .eq) : a = b := by
  simp only [order, compareLex, compareOn, Ordering.then_eq_eq,
    Std.LawfulEqOrd.compare_eq_iff_eq] at h
  obtain ⟨hs, hr, hc⟩ := h
  obtain ⟨⟨s⟩, ⟨r, c⟩⟩ := a
  obtain ⟨⟨s'⟩, ⟨r', c'⟩⟩ := b
  simp_all

instance : Std.TransCmp order := by
  unfold order
  infer_instance

instance : Std.LawfulEqCmp order where
  eq_of_compare := eq_of_order

instance : Ord CellKey := ⟨order⟩

instance : Std.TransOrd CellKey := inferInstanceAs (Std.TransCmp order)

instance : Std.LawfulEqOrd CellKey := inferInstanceAs (Std.LawfulEqCmp order)

/-! ## Text -/

/-- The text of a key. -/
def toText (k : CellKey) : String := String.ofList (k.sheet.chars ++ '!' :: k.address.chars)

/-- The sheet in front of the mark of a reference, with its quotes undoubled if it has any. -/
def sheetOfChars (cs : List Char) : Except ReferenceError SheetName :=
  match between? '\'' cs with
  | some quoted => SheetName.ofChars (undouble '\'' quoted)
  | none => SheetName.ofChars cs

/-- The key written in a text that names its sheet. -/
def ofChars (cs : List Char) : Except ReferenceError CellKey :=
  let body := trim cs
  match cutLast? '!' body with
  | none => .error (.address (.noSheet (String.ofList body)))
  | some (sheet, address) => do
      let sheet ← sheetOfChars sheet
      let address ← Address.ofChars address
      .ok ⟨sheet, address⟩

/-- The key written in a text that names its sheet. -/
def ofText (s : String) : Except ReferenceError CellKey := ofChars s.toList

/-- The key written in a text that may leave its sheet to the context. -/
def ofTextOn (sheet : SheetName) (s : String) : Except ReferenceError CellKey :=
  if s.toList.contains '!' then ofText s
  else (Address.ofText s).map fun address => ⟨sheet, address⟩

example : (ofText "'Room 2'!$b$3").toOption.map toText = some "'ROOM 2'!B3" := by decide +kernel
example : (ofText "B3").toOption = none := by decide +kernel

end CellKey

end PaintQuote.Sheet
