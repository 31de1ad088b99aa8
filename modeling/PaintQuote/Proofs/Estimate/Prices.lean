import PaintQuote.Proofs.Estimate.Measures

/-!
# Prices of rooms

The three prices of a room that can be measured are computed directly as well: the wages, the paint, the
material and the trim, with the preparation and the markup, but no less than the least price, to two places
(`Room.price?`).  The sheet of a room comes to them (`Page.value_prices`).  This takes rates with at most
twelve conditions, since a thirteenth one is written over the highest price of labor.
-/

namespace PaintQuote

open Sheet Formula Engine Estimate

namespace Estimate

/-! ## Direct computation -/

namespace Room

section

variable (rates : Rates) (paint : PaintRate) (condition : ConditionRate) (wage gallon : Decimal) (r : Room)

/-- The wages for the walls. -/
def wages? : Option Decimal := do
  let area ← r.paintableArea? rates
  let plain ← area.mul? wage
  plain.mul? condition.multiplier

/-- The price of the paint. -/
def paintCost? : Option Decimal := do
  let gallons ← r.writtenGallons? rates paint
  gallons.mul? gallon

/-- The price of other material. -/
def materialCost? : Option Decimal := do
  let area ← r.paintableArea? rates
  area.mul? rates.materialPrice

/-- The price of the trim. -/
def trimCost? : Option Decimal := do
  let length ← r.trimLength?
  length.mul? rates.trimPrice

/-- What a room costs before the markup. -/
def cost? : Option Decimal := do
  let wages ← r.wages? rates condition wage
  let paint ← r.paintCost? rates paint gallon
  let painted ← wages.add? paint
  let material ← r.materialCost? rates
  let supplied ← painted.add? material
  let trim ← r.trimCost? rates
  let trimmed ← supplied.add? trim
  trimmed.add? rates.preparation

/-- The price of a room in a tier, with the price of labor and of a gallon of paint there. -/
def price? : Option Decimal := do
  let cost ← r.cost? rates paint condition wage gallon
  let factor ← (1 : Decimal).add? rates.markup
  let price ← cost.mul? factor
  some ((if price.less rates.roomMinimum then rates.roomMinimum else price).round 2 .halfAway)

end

/-- The prices of a room in all tiers. -/
def prices (rates : Rates) (paint : PaintRate) (condition : ConditionRate) (r : Room) :
    Tiers (Option Decimal) :=
  ⟨r.price? rates paint condition rates.labor.good paint.price.good,
    r.price? rates paint condition rates.labor.better paint.price.better,
    r.price? rates paint condition rates.labor.best paint.price.best⟩

end Room

/-! ## The sheet -/

/-- The outputs that show the prices of a room. -/
def RoomOutput.prices : Tiers RoomOutput := ⟨.good, .better, .best⟩

namespace Page

variable {rates : Rates} {base : Engine} (hbase : ratesEngine rates = .ok base) {r : Room}
include hbase

omit hbase in
theorem price_mem_entries {i : Nat} {t : String} (ht : Layout.priceFormulas.toList[i]? = some t) :
    (⟨Layout.roomSheet, ⟨1 + i, 5⟩⟩, .formula t) ∈ (room r).entries := by
  refine Layout.mem_roomEntries.2 ⟨_, List.mem_cons_of_mem _
    (List.mem_cons_of_mem _ (List.mem_cons_of_mem _ List.mem_cons_self)), ?_⟩
  exact Layout.mem_column.2 ⟨i, by simp [Layout.place], by rw [List.getElem?_map, ht]; rfl⟩

/-- The cell of a price comes to what its formula gives. -/
theorem value_of_tierExpr {i : Nat} {e : Expr} (he : Layout.tierExprs[i]? = some e) {v : CellValue}
    (hv : v ≠ .empty) (hgives : e.Gives ((room r).context base) (.scalar v)) :
    (room r).value base ⟨Layout.roomSheet, ⟨1 + i, 5⟩⟩ = v := by
  obtain ⟨t, ht, hx⟩ := exists_getElem?_of_forall₂ Layout.ofText_tierFormulas.flip he
  exact value_of_gives hbase (price_mem_entries ht) hx hv hgives

variable (hr : r.Measurable) (hvalid : rates.fault? = none) (hconditions : rates.conditions.length ≤ 12)

include hconditions in
/-- The table of the prices of labor gives the price in a tier. -/
theorem gives_labor {i : Nat} {wage : Decimal} (hwage : rates.labor.toList[i]? = some wage) :
    (Expr.call "INDEX" [.name "TIER_LABOR", Layout.countExpr (i + 1)]).GivesNumber
      ((room r).context base) (some wage) := by
  have htable : (Expr.name "TIER_LABOR").Gives ((room r).context base)
      (.array [rates.labor.toList.map .number]) :=
    gives_name hbase (by decide)
      (((holds_of_ratesEngine hbase).2.readName_labor_iff Layout.roomSheet).2 hconditions)
  have hindex : Functions.index (.array [rates.labor.toList.map .number]) (.number (.ofNat (i + 1))) none =
      .ok (.number wage) := by
    match i, hwage with
    | 0, hwage => cases hwage; rfl
    | 1, hwage => cases hwage; rfl
    | 2, hwage => cases hwage; rfl
  exact .call rfl rfl rfl (.cons htable (.cons (.literal _) .nil)) (congrArg settled hindex)

variable {paint : PaintRate} {condition : ConditionRate} (hpaint : rates.paintRate? r.paint = some paint)
  (hcondition : rates.conditionRate? r.condition = some condition)
include hr hvalid hconditions hpaint hcondition

/-- The cell of a price comes to what is computed directly. -/
theorem value_tierPrice {i : Nat} {wage gallon : Decimal}
    (he : Layout.tierExprs[i]? = some (Layout.tierExpr (i + 1) (i + 3)))
    (hwage : rates.labor.toList[i]? = some wage) (hgallon : paint.price.toList[i]? = some gallon) :
    (room r).value base ⟨Layout.roomSheet, ⟨1 + i, 5⟩⟩ =
      .checked (r.price? rates paint condition wage gallon) := by
  have hmaterialPrice : (Expr.name "MATERIAL_RATE").GivesNumber ((room r).context base)
      (some rates.materialPrice) := gives_rate hbase hvalid (by simp [Layout.namedRates])
  have htrimPrice : (Expr.name "TRIM_RATE").GivesNumber ((room r).context base) (some rates.trimPrice) :=
    gives_rate hbase hvalid (by simp [Layout.namedRates])
  have hpreparation : (Expr.name "PREP_FEE").GivesNumber ((room r).context base) (some rates.preparation) :=
    gives_rate hbase hvalid (by simp [Layout.namedRates])
  have hmarkup : (Expr.name "MARKUP").GivesNumber ((room r).context base) (some rates.markup) :=
    gives_rate hbase hvalid (by simp [Layout.namedRates])
  have hminimum : (Expr.name "MIN_CHARGE").GivesNumber ((room r).context base) (some rates.roomMinimum) :=
    gives_rate hbase hvalid (by simp [Layout.namedRates])
  have harea := (gives_paintableArea hbase hr hvalid).2
  have hmultiplier := (measure_number hbase (i := 10) rfl (gives_multiplier hbase hvalid hcondition)).2
  have hwages := ((harea.multiply (gives_labor hbase hconditions hwage)).multiply hmultiplier).of_eq
    (show _ = r.wages? rates condition wage by
      simp only [Room.wages?, Option.bind_eq_bind, Option.bind_some, Option.bind_assoc])
  have hpaintCost := (gives_gallons hbase hr hvalid hpaint).2.multiply
    (gives_paint hbase hvalid hpaint (j := i + 1) hgallon)
  have hmaterial := harea.multiply hmaterialPrice
  have htrim := (gives_trimLength hbase hr).2.multiply htrimPrice
  have hcost := ((((hwages.add hpaintCost).add hmaterial).add htrim).add hpreparation).of_eq
    (show _ = r.cost? rates paint condition wage gallon by
      simp only [Room.cost?, Room.paintCost?, Room.materialCost?, Room.trimCost?, Option.bind_eq_bind,
        Option.bind_some, Option.bind_assoc])
  have hgives := (hminimum.greatest (hcost.multiply ((Expr.GivesNumber.literal 1).add hmarkup))).round
  refine value_of_tierExpr hbase he (CellValue.checked_ne_empty _) (hgives.of_eq ?_)
  simp only [Room.price?, Functions.greater_eq, Option.bind_eq_bind, Option.bind_some, Option.bind_assoc,
    Option.map_eq_bind, Function.comp_def]

/-- The cells of the prices come to what is computed directly. -/
theorem value_prices : Tiers.Rel (fun price? o =>
    (room r).value base (RoomOutput.key o) = .checked price?)
    (r.prices rates paint condition) RoomOutput.prices :=
  { good := value_tierPrice hbase hr hvalid hconditions hpaint hcondition (i := 0) rfl rfl rfl
    better := value_tierPrice hbase hr hvalid hconditions hpaint hcondition (i := 1) rfl rfl rfl
    best := value_tierPrice hbase hr hvalid hconditions hpaint hcondition (i := 2) rfl rfl rfl }

end Page

/-- Without a cache, the prices that are read off the sheet of a room are put in order. -/
theorem quoted_freshReadings {rates : Rates} {base : Engine} (hbase : ratesEngine rates = .ok base) {r : Room}
    (hr : r.Measurable) (hvalid : rates.fault? = none) (hconditions : rates.conditions.length ≤ 12)
    {paint : PaintRate} {condition : ConditionRate} (hpaint : rates.paintRate? r.paint = some paint)
    (hcondition : rates.conditionRate? r.condition = some condition) :
    quoted rates (RoomEstimate.prices (freshReadings base r)) =
      (r.prices rates paint condition).all?.map (·.inOrder rates.tierStep) := by
  have hread : ∀ {o : RoomOutput} {price? : Option Decimal},
      (Page.room r).value base o.key = .checked price? → (freshReadings base r o).number? = price? := by
    intro o price? h
    rw [freshReadings_eq (bare_of_ratesEngine hbase)]
    exact (Reading.ofOutcome_checked h _ _ _).1
  obtain ⟨hgood, hbetter, hbest⟩ := Page.value_prices hbase hr hvalid hconditions hpaint hcondition
  have hnumbers : (RoomEstimate.prices (freshReadings base r)).map Reading.number? =
      r.prices rates paint condition :=
    (Tiers.mk.injEq ..).mpr ⟨hread hgood, hread hbetter, hread hbest⟩
  rw [quoted, hnumbers]

end Estimate

end PaintQuote
