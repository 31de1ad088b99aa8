import PaintQuote.Estimate.Tiers
import PaintQuote.Sheet.CellKey
import PaintQuote.Sheet.ErrorValue

/-!
# Results

What an estimate says of a room and of a project.  An output without a number is missing, and a
failure explains it; the other outputs are there all the same.
-/

namespace PaintQuote.Estimate

open Sheet

/-- Why an output has no number. -/
structure CellFailure where
  /-- The name of the room, unless the output belongs to the project. -/
  room? : Option String
  /-- The cell of the output. -/
  cell : CellKey
  /-- The output. -/
  output : String
  /-- The error in the cell. -/
  error : ErrorValue
  /-- What explains the error. -/
  reason : String
deriving DecidableEq, Repr

/-- What an output cell gave. -/
abbrev Reading := Except CellFailure Decimal

/-- The estimate of a room. -/
structure RoomEstimate where
  /-- The name of the room. -/
  room : String
  /-- The length of the walls. -/
  perimeter : Option Decimal
  /-- The area of the walls with their openings. -/
  grossWallArea : Option Decimal
  /-- The area of the openings. -/
  openingArea : Option Decimal
  /-- The area of the walls without their openings. -/
  wallArea : Option Decimal
  /-- The area of the ceiling, if it is painted. -/
  ceilingArea : Option Decimal
  /-- The length of the trim, if it is painted. -/
  trimLength : Option Decimal
  /-- The area to be painted. -/
  paintableArea : Option Decimal
  /-- The paint needed. -/
  gallons : Option Decimal
  /-- The hours needed. -/
  laborHours : Option Decimal
  /-- The prices, which rise from tier to tier. -/
  pricing : Option (Tiers Decimal)
  /-- Whether the prices had to be changed to make them rise. -/
  isAdjusted : Bool
  /-- Why outputs are missing, in the order of the outputs. -/
  failures : List CellFailure
deriving DecidableEq, Repr

/-- The sums over the rooms of a project. -/
structure ProjectTotals where
  /-- The number of rooms. -/
  rooms : Nat
  /-- The area to be painted. -/
  paintableArea : Option Decimal
  /-- The paint needed. -/
  gallons : Option Decimal
  /-- The hours needed. -/
  laborHours : Option Decimal
  /-- The part that is taken off the price. -/
  discount : Option Decimal
deriving DecidableEq, Repr

/-- The estimate of a project. -/
structure ProjectEstimate where
  /-- The estimates of the rooms. -/
  rooms : List RoomEstimate
  /-- The sums over the rooms. -/
  totals : ProjectTotals
  /-- The prices, which rise from tier to tier. -/
  pricing : Option (Tiers Decimal)
  /-- Whether the prices had to be changed to make them rise. -/
  isAdjusted : Bool
  /-- Why outputs are missing: those of the rooms, and then those of the project. -/
  failures : List CellFailure
deriving DecidableEq, Repr

end PaintQuote.Estimate
