import PaintQuote.Estimate.Room
import PaintQuote.Estimate.Tiers

/-!
# Rates and options

The constants from which prices are made, and how the estimator works.  `fault?` says what is wrong
with them, if anything: every paint and every condition needs its rate, what is divided by has to be
positive, and there has to be a discount, be it nothing, for a single room.
-/

namespace PaintQuote.Estimate

/-! ## Rates -/

/-- How much more work walls in a condition are. -/
structure ConditionRate where
  /-- The condition. -/
  condition : SurfaceCondition
  /-- The factor on labor. -/
  multiplier : Decimal
deriving DecidableEq, Repr

/-- What a paint covers and costs. -/
structure PaintRate where
  /-- The paint. -/
  paint : PaintType
  /-- The area that a gallon covers, in square feet. -/
  coverage : Decimal
  /-- The price of a gallon. -/
  price : Tiers Decimal
deriving DecidableEq, Repr

/-- The discount for a number of rooms. -/
structure RoomDiscount where
  /-- The least number of rooms. -/
  rooms : UInt32
  /-- The part of the price that is taken off. -/
  discount : Decimal
deriving DecidableEq, Repr

/-- The constants from which prices are made. -/
structure Rates where
  /-- The area of a door in square feet. -/
  doorArea : Decimal
  /-- The area of a window in square feet. -/
  windowArea : Decimal
  /-- The area painted in an hour, in square feet. -/
  areaPerHour : Decimal
  /-- The hours that an opening costs. -/
  hoursPerOpening : Decimal
  /-- The length of trim painted in an hour, in feet. -/
  trimPerHour : Decimal
  /-- The price of a foot of trim. -/
  trimPrice : Decimal
  /-- The price of other material for a square foot. -/
  materialPrice : Decimal
  /-- The price of preparing a room. -/
  preparation : Decimal
  /-- The part that is added to the price of a room. -/
  markup : Decimal
  /-- The least price of a room. -/
  roomMinimum : Decimal
  /-- The least price of a project. -/
  projectMinimum : Decimal
  /-- The step between tiers whose prices would otherwise not rise. -/
  tierStep : Decimal
  /-- The price of labor for a square foot. -/
  labor : Tiers Decimal
  /-- The rates for conditions. -/
  conditions : List ConditionRate
  /-- The rates for paints. -/
  paints : List PaintRate
  /-- The discounts for several rooms. -/
  discounts : List RoomDiscount
deriving DecidableEq, Repr

/-- The usual rates. -/
def Rates.usual : Rates where
  doorArea := 21
  windowArea := 15
  areaPerHour := 150
  hoursPerOpening := Decimal.scaled 25 2
  trimPerHour := 40
  trimPrice := Decimal.scaled 15 1
  materialPrice := Decimal.scaled 12 1
  preparation := 150
  markup := Decimal.scaled 10 2
  roomMinimum := 350
  projectMinimum := 500
  tierStep := 25
  labor := ⟨Decimal.scaled 25 1, Decimal.scaled 35 1, 5⟩
  conditions := [⟨.good, 1⟩, ⟨.fair, Decimal.scaled 115 2⟩, ⟨.poor, Decimal.scaled 135 2⟩]
  paints :=
    [⟨.flat, 400, ⟨22, 32, 45⟩⟩, ⟨.eggshell, 350, ⟨28, 38, 52⟩⟩, ⟨.satin, 350, ⟨30, 42, 58⟩⟩,
      ⟨.semiGloss, 325, ⟨34, 46, 64⟩⟩]
  discounts :=
    [⟨1, Decimal.scaled 0 2⟩, ⟨3, Decimal.scaled 5 2⟩, ⟨5, Decimal.scaled 8 2⟩,
      ⟨8, Decimal.scaled 10 2⟩]

/-! ## Options -/

/-- How the estimator works. -/
structure Options where
  /-- Whether results of formulas are kept for further estimates. -/
  keepsResults : Bool
  /-- The largest number of results that are kept. -/
  capacity : Nat
  /-- The constants from which prices are made. -/
  rates : Rates
deriving DecidableEq, Repr

/-- The usual options. -/
def Options.usual : Options := ⟨true, 4096, .usual⟩

/-- The usual options for an estimator that keeps no results. -/
def Options.forgetful : Options := { Options.usual with keepsResults := false }

/-! ## Faults -/

/-- What is wrong with rates or options. -/
inductive OptionsFault where
  /-- No room for the results that are to be kept. -/
  | noCapacity
  /-- A paint without a rate. -/
  | noPaint (paint : PaintType)
  /-- A paint with several rates. -/
  | paintRepeated (paint : PaintType)
  /-- A paint that covers nothing. -/
  | noCoverage (paint : PaintType)
  /-- A condition without a rate. -/
  | noCondition (condition : SurfaceCondition)
  /-- A rate that has to be positive and is not. -/
  | notPositive (rate : String)
  /-- No discount for a single room. -/
  | noDiscount
deriving DecidableEq, Repr

/-- The wording of a fault. -/
def OptionsFault.message : OptionsFault → String
  | noCapacity => "cache_capacity must be positive when the cache is enabled"
  | noPaint paint => "no paint product for " ++ paint.name
  | paintRepeated paint => "paint product " ++ paint.name ++ " listed more than once"
  | noCoverage paint => "paint product " ++ paint.name ++ " has non-positive coverage"
  | noCondition condition => "no multiplier for " ++ condition.name ++ " surfaces"
  | notPositive rate => rate ++ " must be positive"
  | noDiscount => "multi_room_discounts must start at one room"

namespace Rates

/-- The discounts by rising number of rooms; those for one number keep their order. -/
def sortedDiscounts (r : Rates) : List RoomDiscount :=
  r.discounts.mergeSort fun a b => a.rooms ≤ b.rooms

/-- What is wrong with the rates for a paint. -/
def paintFault? (r : Rates) (paint : PaintType) : Option OptionsFault :=
  match (r.paints.filter fun p => p.paint = paint).length with
  | 0 => some (.noPaint paint)
  | 1 => none
  | _ => some (.paintRepeated paint)

/-- What is wrong with the coverage of the paints. -/
def coverageFault? (r : Rates) : Option OptionsFault :=
  (r.paints.find? fun p => !p.coverage.isPositive).map fun p => .noCoverage p.paint

/-- What is wrong with the rates for a condition. -/
def conditionFault? (r : Rates) (condition : SurfaceCondition) : Option OptionsFault :=
  if r.conditions.any fun c => c.condition = condition then none else some (.noCondition condition)

/-- What is wrong with a rate that has to be positive. -/
def positiveFault? (name : String) (rate : Decimal) : Option OptionsFault :=
  if rate.isPositive then none else some (.notPositive name)

/-- What is wrong with the discounts. -/
def discountFault? (r : Rates) : Option OptionsFault :=
  if r.discounts.any fun d => d.rooms ≤ 1 then none else some .noDiscount

/-- The first fault of the rates. -/
def fault? (r : Rates) : Option OptionsFault :=
  (PaintType.all.findSome? r.paintFault?).or <|
    r.coverageFault?.or <|
      (SurfaceCondition.all.findSome? r.conditionFault?).or <|
        (positiveFault? "productivity_sqft_per_hour" r.areaPerHour).or <|
          (positiveFault? "trim_feet_per_hour" r.trimPerHour).or <|
            (positiveFault? "min_tier_step" r.tierStep).or r.discountFault?

example : usual.fault? = none := by decide +kernel
example : { usual with tierStep := 0 }.fault? = some (.notPositive "min_tier_step") := by
  decide +kernel

end Rates

namespace Options

/-- The first fault of the options. -/
def fault? (o : Options) : Option OptionsFault :=
  if o.keepsResults && o.capacity == 0 then some .noCapacity else o.rates.fault?

end Options

end PaintQuote.Estimate
