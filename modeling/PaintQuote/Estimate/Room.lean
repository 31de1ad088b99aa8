import PaintQuote.Decimal.Basic

/-!
# Rooms

What is known of a room before it is priced: its measurements, its openings, the state of its walls
and the paint that is wanted.
-/

namespace PaintQuote.Estimate

/-! ## Walls and paints -/

/-- The state of the walls. -/
inductive SurfaceCondition where
  | good | fair | poor
deriving DecidableEq, Repr

namespace SurfaceCondition

/-- All conditions. -/
def all : List SurfaceCondition := [good, fair, poor]

/-- The name of a condition. -/
def name : SurfaceCondition → String
  | good => "good"
  | fair => "fair"
  | poor => "poor"

/-- The condition with the given name. -/
def ofName? (s : String) : Option SurfaceCondition := all.find? fun c => c.name == s

theorem mem_all (c : SurfaceCondition) : c ∈ all := by cases c <;> decide

end SurfaceCondition

/-- A kind of paint. -/
inductive PaintType where
  | flat | eggshell | satin | semiGloss
deriving DecidableEq, Repr

namespace PaintType

/-- All kinds. -/
def all : List PaintType := [flat, eggshell, satin, semiGloss]

/-- The name of a kind. -/
def name : PaintType → String
  | flat => "flat"
  | eggshell => "eggshell"
  | satin => "satin"
  | semiGloss => "semi-gloss"

/-- The kind with the given name. -/
def ofName? (s : String) : Option PaintType := all.find? fun p => p.name == s

theorem mem_all (p : PaintType) : p ∈ all := by cases p <;> decide

end PaintType

/-! ## Rooms -/

/-- A room to be painted. -/
structure Room where
  /-- How the room is called. -/
  name : String
  /-- The length in feet. -/
  length : Decimal
  /-- The width in feet. -/
  width : Decimal
  /-- The height in feet. -/
  height : Decimal
  /-- The number of doors. -/
  doors : UInt32 := 0
  /-- The number of windows. -/
  windows : UInt32 := 0
  /-- The state of the walls. -/
  condition : SurfaceCondition := .good
  /-- The paint that is wanted. -/
  paint : PaintType := .eggshell
  /-- The number of coats. -/
  coats : UInt32 := 2
  /-- Whether the ceiling is painted too. -/
  ceiling : Bool := false
  /-- Whether the trim is painted too. -/
  trim : Bool := false
deriving DecidableEq, Repr

end PaintQuote.Estimate
