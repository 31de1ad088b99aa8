import PaintQuote.Estimate.Rates
import PaintQuote.Sheet.Content
import PaintQuote.Sheet.DefinedName

/-!
# The sheets of an estimate

An estimate is made on three sheets.  `RATES` holds the constants, which formulas reach by name;
`ROOM` holds a room in column B and the formulas that measure and price it in columns D and F; and
`PROJECT` holds a row for each room and, in column J, the formulas that sum the rooms up.  This
module lists what is written to each sheet, cell by cell, and the names.

Everything is written as tables: rows of contents, placed from a first cell to the right and down.
-/

namespace PaintQuote.Estimate

open Sheet

/-- A cell and what is written to it. -/
abbrev Entry := CellKey × Content

/-- A room on the project sheet. -/
structure ProjectRow where
  /-- The name of the room. -/
  name : String
  /-- The area to be painted. -/
  area : CellValue
  /-- The paint needed. -/
  gallons : CellValue
  /-- The hours needed. -/
  hours : CellValue
  /-- The prices. -/
  price : Tiers CellValue
deriving DecidableEq, Repr

namespace Layout

/-! ## Cells -/

/-- The sheet of a room. -/
def roomSheet : SheetName := ⟨"ROOM"⟩

/-- The sheet of the rates. -/
def ratesSheet : SheetName := ⟨"RATES"⟩

/-- The sheet of a project. -/
def projectSheet : SheetName := ⟨"PROJECT"⟩

/-- The cell in a column, given by its letter, and a row, counted from one. -/
def place (column : Char) (row : Nat) : Address := ⟨row - 1, column.toNat - 'A'.toNat⟩

/-- A text. -/
def text (s : String) : Content := .literal (.text s)

/-- A number. -/
def number (n : Decimal) : Content := .literal (.number n)

/-- A count. -/
def count (n : UInt32) : Content := number (.ofNat n.toNat)

/-- A logical value. -/
def flag (b : Bool) : Content := .literal (.boolean b)

/-- The entries of a row, from a cell to the right. -/
def row (sheet : SheetName) (start : Address) (contents : List Content) : List Entry :=
  contents.zipIdx.map fun c => (⟨sheet, ⟨start.row, start.column + c.2⟩⟩, c.1)

/-- The entries of rows, from a cell down. -/
def table (sheet : SheetName) (start : Address) (rows : List (List Content)) : List Entry :=
  rows.zipIdx.flatMap fun r => row sheet ⟨start.row + r.2, start.column⟩ r.1

/-- The entries of single cells, one below the other. -/
def column (sheet : SheetName) (start : Address) (contents : List Content) : List Entry :=
  table sheet start (contents.map ([·]))

/-! ## Rates -/

/-- The single rates and their names. -/
def namedRates (r : Rates) : List (String × Decimal) :=
  [("DOOR_AREA", r.doorArea),
    ("WINDOW_AREA", r.windowArea),
    ("PRODUCTIVITY", r.areaPerHour),
    ("OPENING_HOURS", r.hoursPerOpening),
    ("TRIM_SPEED", r.trimPerHour),
    ("TRIM_RATE", r.trimPrice),
    ("MATERIAL_RATE", r.materialPrice),
    ("PREP_FEE", r.preparation),
    ("MARKUP", r.markup),
    ("MIN_CHARGE", r.roomMinimum),
    ("PROJECT_MINIMUM", r.projectMinimum)]

/-- The row of the prices of labor. -/
def laborRow : Nat := 14

/-- The sheet of rates. -/
def rateEntries (r : Rates) : List Entry :=
  table ratesSheet (place 'A' 2) ((namedRates r).map fun n => [text (Text.lower n.1), number n.2])
    ++ row ratesSheet (place 'A' laborRow) (text "tier_labor" :: r.labor.toList.map number)
    ++ table ratesSheet (place 'D' 1) ([text "condition", text "multiplier"]
      :: r.conditions.map fun c => [text c.condition.name, number c.multiplier])
    ++ table ratesSheet (place 'G' 1) (
      [text "paint", text "coverage", text "good", text "better", text "best"]
      :: r.paints.map fun p =>
        text p.paint.name :: number p.coverage :: p.price.toList.map number)
    ++ table ratesSheet (place 'M' 1) ([text "min_rooms", text "discount"]
      :: r.sortedDiscounts.map fun d => [count d.rooms, number d.discount])

/-- The rows of a table below its heading; a table without rows stands for one that is empty.  Rows
past the end of the sheet cannot be named. -/
def tableTarget (first last : Char) (rows : Nat) : Except ReferenceError Target :=
  let area := Range.between (place first 2) (place last (max rows 1 + 1))
  if area.stop.row < rowLimit then .ok (.range ratesSheet area)
  else .error (.range area.toText (.row area.stop.row (rowLimit - 1)))

/-- The names of the single rates, from the second row down. -/
def singleNames (r : Rates) : List DefinedName :=
  (namedRates r).zipIdx.map fun n => ⟨n.1.1, .cell ⟨ratesSheet, place 'B' (n.2 + 2)⟩⟩

/-- The names under which formulas reach the rates. -/
def rateNames (r : Rates) : Except ReferenceError (List DefinedName) := do
  let conditions ← tableTarget 'D' 'E' r.conditions.length
  let paints ← tableTarget 'G' 'K' r.paints.length
  let discounts ← tableTarget 'M' 'N' r.discounts.length
  let labor := Range.between (place 'B' laborRow) (place 'D' laborRow)
  .ok (singleNames r ++
    [⟨"TIER_LABOR", .range ratesSheet labor⟩,
      ⟨"CONDITION_TABLE", conditions⟩,
      ⟨"PAINT_TABLE", paints⟩,
      ⟨"DISCOUNTS", discounts⟩])

/-! ## Rooms -/

/-- What is known of a room. -/
def roomContents (r : Room) : List Content :=
  [text r.name, number r.length, number r.width, number r.height, count r.doors, count r.windows,
    text r.condition.name, text r.paint.name, count r.coats, flag r.ceiling, flag r.trim]

/-- The formulas that measure a room.  The first says whether the room can be measured at all. -/
def measures : List String :=
  ["=AND(B2>0,B3>0,B4>0,B9>=1)",
    "=IF(D1,2*(B2+B3),NA())",
    "=D2*B4",
    "=B5*DOOR_AREA+B6*WINDOW_AREA",
    "=MAX(0,D3-D4)",
    "=IF(D1,IF(B10,B2*B3,0),NA())",
    "=IF(B11,D2,0)",
    "=D5+D6",
    "=VLOOKUP(B8,PAINT_TABLE,2,FALSE)",
    "=CEILING(D8*B9/D9,1)",
    "=VLOOKUP(B7,CONDITION_TABLE,2,FALSE)",
    "=ROUND((D8*B9/PRODUCTIVITY+(B5+B6)*OPENING_HOURS+D7/TRIM_SPEED)*D11,2)"]

/-- The formula that prices a room in the tier with the given place among the prices of labor and
the given column of the table of paints. -/
def priceFormula (labor paint : String) : String :=
  "=ROUND(MAX(MIN_CHARGE,(D8*INDEX(TIER_LABOR," ++ labor ++ ")*D11+D10*VLOOKUP(B8,PAINT_TABLE,"
    ++ paint ++ ",FALSE)+D8*MATERIAL_RATE+D7*TRIM_RATE+PREP_FEE)*(1+MARKUP)),2)"

/-- The formulas that price a room. -/
def priceFormulas : Tiers String :=
  ⟨priceFormula "1" "3", priceFormula "2" "4", priceFormula "3" "5"⟩

/-- The sheet of a room. -/
def roomEntries (r : Room) : List Entry :=
  column roomSheet (place 'B' 1) (roomContents r)
    ++ column roomSheet (place 'D' 1) (measures.map .formula)
    ++ column roomSheet (place 'E' 2) (Tiers.names.toList.map text)
    ++ column roomSheet (place 'F' 2) (priceFormulas.toList.map .formula)

/-! ## Projects -/

/-- The cells of the rooms in a column of the project sheet, for a number of rooms. -/
def roomCells (rooms : Nat) (letter : String) : String :=
  letter ++ "2:" ++ letter ++ toString (max rooms 1 + 1)

/-- The formula that prices a project from the prices of its rooms. -/
def projectPrice (rooms : Nat) (letter : String) : String :=
  "=ROUND(MAX(PROJECT_MINIMUM,SUM(" ++ roomCells rooms letter ++ ")*(1-J6)),2)"

/-- The formulas that sum a number of rooms up. -/
def totals (rooms : Nat) : List String :=
  ["=SUM(" ++ roomCells rooms "B" ++ ")",
    "=SUM(" ++ roomCells rooms "C" ++ ")",
    "=SUM(" ++ roomCells rooms "D" ++ ")",
    "=COUNTA(" ++ roomCells rooms "A" ++ ")",
    "=VLOOKUP(J5,DISCOUNTS,2,TRUE)",
    projectPrice rooms "E",
    projectPrice rooms "F",
    projectPrice rooms "G"]

/-- The contents of a row of the project sheet. -/
def rowContents (r : ProjectRow) : List Content :=
  text r.name :: .literal r.area :: .literal r.gallons :: .literal r.hours
    :: r.price.toList.map .literal

/-- The sheet of a project. -/
def projectEntries (rows : List ProjectRow) : List Entry :=
  table projectSheet (place 'A' 1)
      (["room", "area", "gallons", "hours", "good", "better", "best"].map text
        :: rows.map rowContents)
    ++ column projectSheet (place 'J' 2) ((totals rows.length).map .formula)

end Layout

end PaintQuote.Estimate
