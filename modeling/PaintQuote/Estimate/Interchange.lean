import PaintQuote.Estimate.Result
import PaintQuote.Estimate.Rates
import PaintQuote.Json.Record

/-!
# Interchange of estimates

Rooms and options from JSON, and options, rooms and estimates as JSON.  A room has to have a name
and its three measurements; everything else that is left out of a room or of options is as usual.
Numbers are written as texts, at their own scale.
-/

namespace PaintQuote.Estimate

open Json

/-! ## Reading -/

/-- A room. -/
def Room.ofJson? (j : Json) : Option Room := do
  let r ← j.record? ["name", "length_ft", "width_ft", "height_ft", "doors", "windows",
    "surface_condition", "paint_type", "coats", "include_ceiling", "include_trim"]
  let name ← r.field? string? "name"
  let length ← r.field? Decimal.ofJson? "length_ft"
  let width ← r.field? Decimal.ofJson? "width_ft"
  let height ← r.field? Decimal.ofJson? "height_ft"
  let usual : Room := { name, length, width, height }
  let doors ← r.fieldOr? word? usual.doors "doors"
  let windows ← r.fieldOr? word? usual.windows "windows"
  let condition ← r.fieldOr? (choice? SurfaceCondition.ofName?) usual.condition "surface_condition"
  let paint ← r.fieldOr? (choice? PaintType.ofName?) usual.paint "paint_type"
  let coats ← r.fieldOr? word? usual.coats "coats"
  let ceiling ← r.fieldOr? boolean? usual.ceiling "include_ceiling"
  let trim ← r.fieldOr? boolean? usual.trim "include_trim"
  some { usual with doors, windows, condition, paint, coats, ceiling, trim }

/-- Numbers for the tiers, from a record that has them among its fields. -/
def Tiers.ofRecord? (r : Record) : Option (Tiers Decimal) := do
  let good ← r.field? Decimal.ofJson? "good"
  let better ← r.field? Decimal.ofJson? "better"
  let best ← r.field? Decimal.ofJson? "best"
  some ⟨good, better, best⟩

/-- Numbers for the tiers. -/
def Tiers.ofJson? (j : Json) : Option (Tiers Decimal) :=
  (j.record? names.toList).bind ofRecord?

/-- The rate for a condition. -/
def ConditionRate.ofJson? (j : Json) : Option ConditionRate := do
  let r ← j.record? ["condition", "multiplier"]
  let condition ← r.field? (choice? SurfaceCondition.ofName?) "condition"
  let multiplier ← r.field? Decimal.ofJson? "multiplier"
  some ⟨condition, multiplier⟩

/-- The rate for a paint. -/
def PaintRate.ofJson? (j : Json) : Option PaintRate := do
  let r ← j.record? (["paint_type", "coverage_sqft"] ++ Tiers.names.toList)
  let paint ← r.field? (choice? PaintType.ofName?) "paint_type"
  let coverage ← r.field? Decimal.ofJson? "coverage_sqft"
  let price ← Tiers.ofRecord? r
  some ⟨paint, coverage, price⟩

/-- The discount for a number of rooms. -/
def RoomDiscount.ofJson? (j : Json) : Option RoomDiscount := do
  let r ← j.record? ["min_rooms", "discount"]
  let rooms ← r.field? word? "min_rooms"
  let discount ← r.field? Decimal.ofJson? "discount"
  some ⟨rooms, discount⟩

/-- The rates. -/
def Rates.ofJson? (j : Json) : Option Rates := do
  let r ← j.record? ["door_area", "window_area", "productivity_sqft_per_hour", "hours_per_opening",
    "trim_feet_per_hour", "trim_rate", "material_rate", "prep_fee", "markup", "minimum_charge",
    "project_minimum", "min_tier_step", "tiers", "conditions", "paints", "multi_room_discounts"]
  let doorArea ← r.fieldOr? Decimal.ofJson? usual.doorArea "door_area"
  let windowArea ← r.fieldOr? Decimal.ofJson? usual.windowArea "window_area"
  let areaPerHour ← r.fieldOr? Decimal.ofJson? usual.areaPerHour "productivity_sqft_per_hour"
  let hoursPerOpening ← r.fieldOr? Decimal.ofJson? usual.hoursPerOpening "hours_per_opening"
  let trimPerHour ← r.fieldOr? Decimal.ofJson? usual.trimPerHour "trim_feet_per_hour"
  let trimPrice ← r.fieldOr? Decimal.ofJson? usual.trimPrice "trim_rate"
  let materialPrice ← r.fieldOr? Decimal.ofJson? usual.materialPrice "material_rate"
  let preparation ← r.fieldOr? Decimal.ofJson? usual.preparation "prep_fee"
  let markup ← r.fieldOr? Decimal.ofJson? usual.markup "markup"
  let roomMinimum ← r.fieldOr? Decimal.ofJson? usual.roomMinimum "minimum_charge"
  let projectMinimum ← r.fieldOr? Decimal.ofJson? usual.projectMinimum "project_minimum"
  let tierStep ← r.fieldOr? Decimal.ofJson? usual.tierStep "min_tier_step"
  let labor ← r.fieldOr? Tiers.ofJson? usual.labor "tiers"
  let conditions ← r.fieldOr? (list? ConditionRate.ofJson?) usual.conditions "conditions"
  let paints ← r.fieldOr? (list? PaintRate.ofJson?) usual.paints "paints"
  let discounts ← r.fieldOr? (list? RoomDiscount.ofJson?) usual.discounts "multi_room_discounts"
  some { doorArea, windowArea, areaPerHour, hoursPerOpening, trimPerHour, trimPrice, materialPrice,
         preparation, markup, roomMinimum, projectMinimum, tierStep, labor, conditions, paints,
         discounts }

/-- The options. -/
def Options.ofJson? (j : Json) : Option Options := do
  let r ← j.record? ["enable_cache", "cache_capacity", "rates"]
  let keepsResults ← r.fieldOr? boolean? usual.keepsResults "enable_cache"
  let capacity ← r.fieldOr? (below? UInt64.size) usual.capacity "cache_capacity"
  let rates ← r.fieldOr? Rates.ofJson? usual.rates "rates"
  some { keepsResults, capacity, rates }

/-! ## Writing -/

/-- A number. -/
def numberJson (n : Decimal) : Json := string n.toText

/-- A number that may be missing. -/
def numberOrNull (n? : Option Decimal) : Json := ofOption numberJson n?

/-- A count. -/
def countJson (n : UInt32) : Json := natural n.toNat

/-- A room. -/
def Room.toJson (r : Room) : Json :=
  object [("name", string r.name), ("length_ft", numberJson r.length),
    ("width_ft", numberJson r.width), ("height_ft", numberJson r.height),
    ("doors", countJson r.doors), ("windows", countJson r.windows),
    ("surface_condition", string r.condition.name), ("paint_type", string r.paint.name),
    ("coats", countJson r.coats), ("include_ceiling", boolean r.ceiling),
    ("include_trim", boolean r.trim)]

/-- The members for the tiers. -/
def Tiers.members (t : Tiers Decimal) : List (String × Json) :=
  [("good", numberJson t.good), ("better", numberJson t.better), ("best", numberJson t.best)]

/-- Numbers for the tiers. -/
def Tiers.toJson (t : Tiers Decimal) : Json := object t.members

/-- The rate for a condition. -/
def ConditionRate.toJson (r : ConditionRate) : Json :=
  object [("condition", string r.condition.name), ("multiplier", numberJson r.multiplier)]

/-- The rate for a paint. -/
def PaintRate.toJson (r : PaintRate) : Json :=
  object (("paint_type", string r.paint.name) :: ("coverage_sqft", numberJson r.coverage)
    :: r.price.members)

/-- The discount for a number of rooms. -/
def RoomDiscount.toJson (d : RoomDiscount) : Json :=
  object [("min_rooms", countJson d.rooms), ("discount", numberJson d.discount)]

/-- The rates. -/
def Rates.toJson (r : Rates) : Json :=
  object [("door_area", numberJson r.doorArea), ("window_area", numberJson r.windowArea),
    ("productivity_sqft_per_hour", numberJson r.areaPerHour),
    ("hours_per_opening", numberJson r.hoursPerOpening),
    ("trim_feet_per_hour", numberJson r.trimPerHour), ("trim_rate", numberJson r.trimPrice),
    ("material_rate", numberJson r.materialPrice), ("prep_fee", numberJson r.preparation),
    ("markup", numberJson r.markup), ("minimum_charge", numberJson r.roomMinimum),
    ("project_minimum", numberJson r.projectMinimum), ("min_tier_step", numberJson r.tierStep),
    ("tiers", r.labor.toJson), ("conditions", array (r.conditions.map (·.toJson))),
    ("paints", array (r.paints.map (·.toJson))),
    ("multi_room_discounts", array (r.discounts.map (·.toJson)))]

/-- The options. -/
def Options.toJson (o : Options) : Json :=
  object [("enable_cache", boolean o.keepsResults), ("cache_capacity", natural o.capacity),
    ("rates", o.rates.toJson)]

/-- Why an output is missing. -/
def CellFailure.toJson (f : CellFailure) : Json :=
  object ((f.room?.map fun room => ("room", string room)).toList
    ++ [("cell", string f.cell.toText), ("output", string f.output),
      ("error", string f.error.literal), ("reason", string f.reason)])

/-- The estimate of a room. -/
def RoomEstimate.toJson (e : RoomEstimate) : Json :=
  object [("room", string e.room), ("perimeter", numberOrNull e.perimeter),
    ("gross_wall_area", numberOrNull e.grossWallArea),
    ("opening_area", numberOrNull e.openingArea), ("wall_area", numberOrNull e.wallArea),
    ("ceiling_area", numberOrNull e.ceilingArea), ("trim_length", numberOrNull e.trimLength),
    ("paintable_area", numberOrNull e.paintableArea), ("gallons", numberOrNull e.gallons),
    ("labor_hours", numberOrNull e.laborHours), ("pricing", ofOption Tiers.toJson e.pricing),
    ("tier_adjusted", boolean e.isAdjusted), ("failures", array (e.failures.map (·.toJson)))]

/-- The sums over the rooms of a project. -/
def ProjectTotals.toJson (t : ProjectTotals) : Json :=
  object [("room_count", natural t.rooms), ("paintable_area", numberOrNull t.paintableArea),
    ("gallons", numberOrNull t.gallons), ("labor_hours", numberOrNull t.laborHours),
    ("discount", numberOrNull t.discount)]

/-- The estimate of a project. -/
def ProjectEstimate.toJson (e : ProjectEstimate) : Json :=
  object [("rooms", array (e.rooms.map (·.toJson))), ("totals", e.totals.toJson),
    ("pricing", ofOption Tiers.toJson e.pricing), ("tier_adjusted", boolean e.isAdjusted),
    ("failures", array (e.failures.map (·.toJson)))]

end PaintQuote.Estimate
