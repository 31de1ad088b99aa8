import PaintQuote.Sheet.Workbook
import Std.Data.HashMap

/-!
# Workbooks sheet by sheet

A workbook can be kept as its worksheets, each with the contents of its own cells.  A worksheet stores
contents only for cells that are not empty, so writing nothing takes a cell out of it, and the cell has
changed if it was in it.  Reading and writing look up the worksheet first; a worksheet that is not there
has no cells, and is added at the end by the first write to it.
-/

namespace PaintQuote.Sheet

instance : Hashable Address := ⟨fun a => mixHash (hash a.row) (hash a.column)⟩

/-- A sheet with the contents of those of its cells that have any. -/
structure Worksheet where
  /-- The sheet. -/
  name : SheetName
  /-- The contents of its cells. -/
  cells : Std.HashMap Address Content := {}

namespace Worksheet

/-- Writes a cell of the sheet, and says whether its content changed. -/
def set (s : Worksheet) (address : Address) (content : Content) : Worksheet × Bool :=
  if content.isEmpty then ({ s with cells := s.cells.erase address }, s.cells.contains address)
  else if s.cells[address]?.any (·.agrees content) then (s, false)
  else ({ s with cells := s.cells.insert address content }, true)

/-- Writes a cell of the first worksheet for its sheet, or of a new one at the end. -/
def setIn (key : CellKey) (content : Content) : List Worksheet → List Worksheet × Bool
  | [] =>
      let (s, changed) := ({ name := key.sheet } : Worksheet).set key.address content
      ([s], changed)
  | s :: rest =>
      if s.name = key.sheet then
        let (s, changed) := s.set key.address content
        (s :: rest, changed)
      else
        let (rest, changed) := setIn key content rest
        (s :: rest, changed)

/-- What is stored for a cell in the first worksheet for its sheet. -/
def storedIn? (key : CellKey) (worksheets : List Worksheet) : Option Content :=
  (worksheets.find? (·.name = key.sheet)).bind (·.cells[key.address]?)

end Worksheet

/-- A workbook sheet by sheet. -/
structure Book where
  /-- The worksheets, oldest first. -/
  worksheets : List Worksheet := []
  /-- The defined names. -/
  names : NameTable := {}

namespace Book

/-- Writes a cell, and says whether its content changed. -/
def set (b : Book) (key : CellKey) (content : Content) : Book × Bool :=
  let (worksheets, changed) := Worksheet.setIn key content b.worksheets
  ({ b with worksheets }, changed)

/-- Writes cells in turn, and lists the keys of the writes that changed something. -/
def load (b : Book) : List (CellKey × Content) → Book × List CellKey
  | [] => (b, [])
  | (key, content) :: rest =>
      let (b, changed) := b.set key content
      let (b, keys) := b.load rest
      (b, if changed then key :: keys else keys)

/-- Defines a name. -/
def defineName (b : Book) (name : DefinedName) : Except ReferenceError Book :=
  (b.names.define name).map fun names => { b with names }

end Book

end PaintQuote.Sheet
