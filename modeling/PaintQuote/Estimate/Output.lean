import PaintQuote.Estimate.Layout

/-!
# The outputs of an estimate

What is read off the sheets when they have been evaluated, and the cells in which it stands.
-/

namespace PaintQuote.Estimate

open Sheet

/-! ## Rooms -/

/-- What is read off the sheet of a room. -/
inductive RoomOutput where
  | perimeter | grossWallArea | openingArea | wallArea | ceilingArea | trimLength | paintableArea
  | gallons | laborHours | good | better | best
deriving DecidableEq, Repr

namespace RoomOutput

/-- All outputs, in the order in which they are read. -/
def all : List RoomOutput :=
  [perimeter, grossWallArea, openingArea, wallArea, ceilingArea, trimLength, paintableArea, gallons,
    laborHours, good, better, best]

theorem mem_all (o : RoomOutput) : o ∈ all := by cases o <;> decide

/-- The name of an output. -/
def name : RoomOutput → String
  | perimeter => "perimeter"
  | grossWallArea => "gross_wall_area"
  | openingArea => "opening_area"
  | wallArea => "wall_area"
  | ceilingArea => "ceiling_area"
  | trimLength => "trim_length"
  | paintableArea => "paintable_area"
  | gallons => "gallons"
  | laborHours => "labor_hours"
  | good => "good"
  | better => "better"
  | best => "best"

/-- The place of an output on its sheet. -/
def address : RoomOutput → Address
  | perimeter => Layout.place 'D' 2
  | grossWallArea => Layout.place 'D' 3
  | openingArea => Layout.place 'D' 4
  | wallArea => Layout.place 'D' 5
  | ceilingArea => Layout.place 'D' 6
  | trimLength => Layout.place 'D' 7
  | paintableArea => Layout.place 'D' 8
  | gallons => Layout.place 'D' 10
  | laborHours => Layout.place 'D' 12
  | good => Layout.place 'F' 2
  | better => Layout.place 'F' 3
  | best => Layout.place 'F' 4

/-- The cell of an output. -/
def key (o : RoomOutput) : CellKey := ⟨Layout.roomSheet, o.address⟩

/-- How a failure speaks of an output. -/
def label (o : RoomOutput) : String := o.name

end RoomOutput

/-! ## Projects -/

/-- What is read off the sheet of a project. -/
inductive ProjectOutput where
  | paintableArea | gallons | laborHours | discount | good | better | best
deriving DecidableEq, Repr

namespace ProjectOutput

/-- All outputs, in the order in which they are read. -/
def all : List ProjectOutput :=
  [paintableArea, gallons, laborHours, discount, good, better, best]

theorem mem_all (o : ProjectOutput) : o ∈ all := by cases o <;> decide

/-- The name of an output. -/
def name : ProjectOutput → String
  | paintableArea => "paintable_area"
  | gallons => "gallons"
  | laborHours => "labor_hours"
  | discount => "discount"
  | good => "good"
  | better => "better"
  | best => "best"

/-- The place of an output on its sheet. -/
def address : ProjectOutput → Address
  | paintableArea => Layout.place 'J' 2
  | gallons => Layout.place 'J' 3
  | laborHours => Layout.place 'J' 4
  | discount => Layout.place 'J' 6
  | good => Layout.place 'J' 7
  | better => Layout.place 'J' 8
  | best => Layout.place 'J' 9

/-- The cell of an output. -/
def key (o : ProjectOutput) : CellKey := ⟨Layout.projectSheet, o.address⟩

/-- How a failure speaks of an output; the sums over rooms are totals. -/
def label (o : ProjectOutput) : String :=
  match o with
  | paintableArea | gallons | laborHours => "total_" ++ o.name
  | _ => o.name

end ProjectOutput

end PaintQuote.Estimate
