import PaintQuote.Proofs.Estimate.Amounts
import PaintQuote.Proofs.Estimate.RoomSheet

/-!
# Measurements

The nine measurements of a room that can be measured are computed directly from what is known of the
room and from the rates, with every sum, difference, product and quotient checked (`Room.measurement?`).
The sheet of a room comes to the same (`Page.value_measurement`), and so does every estimate, with or
without a cache and whatever was asked before (`replies_measured`).  A measurement is missing exactly if a
check fails, and then the failure that explains it is the error of numbers.
-/

namespace PaintQuote

open Sheet Formula Engine Estimate

namespace Estimate

/-! ## Direct computation -/

namespace Room

/-- A room that can be measured. -/
structure Measurable (r : Room) : Prop where
  length : r.length.isPositive = true
  width : r.width.isPositive = true
  height : r.height.isPositive = true
  coats : 1 ≤ r.coats

theorem measurable_iff {r : Room} : r.Measurable ↔
    (r.length.isPositive && (r.width.isPositive &&
      (r.height.isPositive && decide (1 ≤ r.coats)))) = true := by
  simp only [Bool.and_eq_true, decide_eq_true_eq]
  exact ⟨fun ⟨hl, hw, hh, hc⟩ => ⟨hl, hw, hh, hc⟩, fun ⟨hl, hw, hh, hc⟩ => ⟨hl, hw, hh, hc⟩⟩

instance (r : Room) : Decidable r.Measurable := decidable_of_iff' _ measurable_iff

section

variable (rates : Rates) (r : Room)

/-- A count as a number. -/
def counted (n : UInt32) : Decimal := .ofNat n.toNat

/-- The length of the walls. -/
def perimeter? : Option Decimal := do
  let sides ← r.length.add? r.width
  (2 : Decimal).mul? sides

/-- The area of the walls with their openings. -/
def grossWallArea? : Option Decimal := do
  let perimeter ← r.perimeter?
  perimeter.mul? r.height

/-- The area of the openings. -/
def openingArea? : Option Decimal := do
  let doors ← (counted r.doors).mul? rates.doorArea
  let windows ← (counted r.windows).mul? rates.windowArea
  doors.add? windows

/-- The area of the walls without their openings, but no less than nothing. -/
def wallArea? : Option Decimal := do
  let gross ← r.grossWallArea?
  let openings ← r.openingArea? rates
  let rest ← gross.sub? openings
  some (if rest.less 0 then 0 else rest)

/-- The area of the ceiling, if it is painted. -/
def ceilingArea? : Option Decimal := if r.ceiling then r.length.mul? r.width else some 0

/-- The length of the trim, if it is painted. -/
def trimLength? : Option Decimal := if r.trim then r.perimeter? else some 0

/-- The area to be painted. -/
def paintableArea? : Option Decimal := do
  let walls ← r.wallArea? rates
  let ceiling ← r.ceilingArea?
  walls.add? ceiling

/-- The area of all coats. -/
def coatedArea? : Option Decimal := do
  let area ← r.paintableArea? rates
  area.mul? (counted r.coats)

/-- The whole gallons of a paint that are needed. -/
def gallons? (paint : PaintRate) : Option Decimal := do
  let coated ← r.coatedArea? rates
  let gallons ← coated.div? paint.coverage
  some gallons.ceil

/-- The gallons in the form in which a multiple of one is written. -/
def writtenGallons? (paint : PaintRate) : Option Decimal := do
  let coated ← r.coatedArea? rates
  let gallons ← coated.div? paint.coverage
  let ones ← gallons.div? 1
  ones.ceil.mul? 1

/-- The hours that walls, openings and trim take in good condition. -/
def plainHours? : Option Decimal := do
  let coated ← r.coatedArea? rates
  let walls ← coated.div? rates.areaPerHour
  let count ← (counted r.doors).add? (counted r.windows)
  let openings ← count.mul? rates.hoursPerOpening
  let sum ← walls.add? openings
  let length ← r.trimLength?
  let trim ← length.div? rates.trimPerHour
  sum.add? trim

/-- The hours needed in a condition, to two places. -/
def laborHours? (condition : ConditionRate) : Option Decimal := do
  let plain ← r.plainHours? rates
  let hours ← plain.mul? condition.multiplier
  some (hours.round 2 .halfAway)

end

end Room

/-- What is measured of a room. -/
inductive Measurement where
  | perimeter | grossWallArea | openingArea | wallArea | ceilingArea | trimLength | paintableArea
  | gallons | laborHours
deriving DecidableEq, Repr

/-- The output that shows a measurement. -/
def Measurement.output : Measurement → RoomOutput
  | perimeter => .perimeter
  | grossWallArea => .grossWallArea
  | openingArea => .openingArea
  | wallArea => .wallArea
  | ceilingArea => .ceilingArea
  | trimLength => .trimLength
  | paintableArea => .paintableArea
  | gallons => .gallons
  | laborHours => .laborHours

/-- A measurement of a room, computed directly. -/
def Room.measurement? (rates : Rates) (paint : PaintRate) (condition : ConditionRate) (r : Room) :
    Measurement → Option Decimal
  | .perimeter => r.perimeter?
  | .grossWallArea => r.grossWallArea?
  | .openingArea => r.openingArea? rates
  | .wallArea => r.wallArea? rates
  | .ceilingArea => r.ceilingArea?
  | .trimLength => r.trimLength?
  | .paintableArea => r.paintableArea? rates
  | .gallons => r.gallons? rates paint
  | .laborHours => r.laborHours? rates condition

/-- A measurement in an estimate. -/
def RoomEstimate.measurement? (e : RoomEstimate) : Measurement → Option Decimal
  | .perimeter => e.perimeter
  | .grossWallArea => e.grossWallArea
  | .openingArea => e.openingArea
  | .wallArea => e.wallArea
  | .ceilingArea => e.ceilingArea
  | .trimLength => e.trimLength
  | .paintableArea => e.paintableArea
  | .gallons => e.gallons
  | .laborHours => e.laborHours

/-! ## The sheet -/

namespace Page

variable {rates : Rates} {base : Engine} (hbase : ratesEngine rates = .ok base) {r : Room}
include hbase

/-- A reference to a number in column B gives it. -/
theorem givesNumber_given {i : Nat} {n : Decimal}
    (h : (Layout.roomContents r)[i]? = some (Layout.number n)) :
    (Layout.cellExpr 'B' (i + 1)).GivesNumber ((room r).context base) (some n) :=
  gives_given hbase h

/-- A cell in column D comes to the checked number that its formula gives, and so do references to it. -/
theorem measure_number {i : Nat} {e : Expr} (he : Layout.measureExprs[i]? = some e)
    {n? : Option Decimal} (hgives : e.GivesNumber ((room r).context base) n?) :
    (room r).value base ⟨Layout.roomSheet, ⟨i, 3⟩⟩ = .checked n? ∧
      (Layout.cellExpr 'D' (i + 1)).GivesNumber ((room r).context base) n? := by
  have hvalue := measure_value hbase he (CellValue.checked_ne_empty n?) hgives
  exact ⟨hvalue, gives_measure hvalue⟩

/-- The first formula finds whether a room can be measured. -/
theorem gives_isMeasurable :
    (Layout.cellExpr 'D' 1).Gives ((room r).context base) (.scalar (.boolean (decide r.Measurable))) := by
  have hpositive : ∀ n : Decimal,
      settled (BinaryOperator.greater.apply (.number n) (.number 0)) = .boolean n.isPositive := by
    intro n
    show Value.boolean (BinaryOperator.greater.holds (n.compare 0)) = _
    cases hn : n.isPositive with
    | true =>
        rw [Decimal.isPositive_iff_compare.1 hn]
        rfl
    | false =>
        have hne : n.compare 0 ≠ .gt := fun h => by
          rw [Decimal.isPositive_iff_compare.2 h] at hn
          cases hn
        cases h : n.compare 0 with
        | gt => exact absurd h hne
        | _ => rfl
  have hcoats : settled (BinaryOperator.greaterEqual.apply (.number (Room.counted r.coats)) (.number 1)) =
      .boolean (decide (1 ≤ r.coats)) := by
    have hlimit : r.coats.toNat < Decimal.coefficientLimit :=
      Nat.lt_trans r.coats.toNat_lt (by decide)
    have horder : (Room.counted r.coats).compare 1 = compare r.coats.toNat 1 :=
      Decimal.compare_ofNat hlimit (by decide)
    have hdecide : decide (1 ≤ r.coats) = decide (1 ≤ r.coats.toNat) :=
      decide_eq_decide.2 UInt32.le_iff_toNat_le
    show Value.boolean (BinaryOperator.greaterEqual.holds ((Room.counted r.coats).compare 1)) = _
    rw [horder, hdecide]
    rcases Nat.lt_or_ge r.coats.toNat 1 with hlt | hge
    · rw [Nat.compare_eq_lt.2 hlt, decide_eq_false (Nat.not_le.2 hlt)]
      rfl
    · rw [decide_eq_true hge]
      cases h : compare r.coats.toNat 1 with
      | lt => exact absurd (Nat.compare_eq_lt.1 h) (Nat.not_lt.2 hge)
      | _ => rfl
  have hzero : (Layout.countExpr 0).Gives ((room r).context base) (.number 0) := .literal _
  have hone : (Layout.countExpr 1).Gives ((room r).context base) (.number 1) := .literal _
  have hall : ∀ a b c d : Bool, settled (Functions.conjunction
      [.boolean a, .boolean b, .boolean c, .boolean d]) = .boolean (a && (b && (c && d))) := by
    decide
  have hdecide : decide r.Measurable = (r.length.isPositive && (r.width.isPositive &&
      (r.height.isPositive && decide (1 ≤ r.coats)))) := by
    rw [Bool.eq_iff_iff, decide_eq_true_eq]
    exact Room.measurable_iff
  rw [hdecide]
  refine gives_measure (measure_value hbase (i := 0) rfl nofun ?_)
  exact .call rfl rfl rfl
    (.cons (.binary (gives_given hbase rfl) hzero (hpositive r.length))
      (.cons (.binary (gives_given hbase rfl) hzero (hpositive r.width))
        (.cons (.binary (gives_given hbase rfl) hzero (hpositive r.height))
          (.cons (.binary (gives_given hbase rfl) hone hcoats) .nil)))) (hall _ _ _ _)

variable (hr : r.Measurable)

section

include hr

theorem gives_measurable :
    (Layout.cellExpr 'D' 1).Gives ((room r).context base) (.scalar (.boolean true)) := by
  have hgives := gives_isMeasurable hbase (r := r)
  rwa [decide_eq_true hr] at hgives

theorem gives_perimeter : (room r).value base RoomOutput.perimeter.key = .checked r.perimeter? ∧
    (Layout.cellExpr 'D' 2).GivesNumber ((room r).context base) r.perimeter? := by
  refine measure_number hbase (i := 1) rfl ?_
  exact .choice (gives_measurable hbase hr) (b := true) rfl
    ((Expr.GivesNumber.literal 2).multiply
      ((givesNumber_given hbase rfl).add (givesNumber_given hbase rfl)))

theorem gives_grossWallArea : (room r).value base RoomOutput.grossWallArea.key = .checked r.grossWallArea? ∧
    (Layout.cellExpr 'D' 3).GivesNumber ((room r).context base) r.grossWallArea? := by
  refine measure_number hbase (i := 2) rfl ?_
  exact (gives_perimeter hbase hr).2.multiply (givesNumber_given hbase rfl)

theorem gives_ceilingArea : (room r).value base RoomOutput.ceilingArea.key = .checked r.ceilingArea? ∧
    (Layout.cellExpr 'D' 6).GivesNumber ((room r).context base) r.ceilingArea? := by
  have hceiling : (Layout.cellExpr 'B' 10).Gives ((room r).context base) (.boolean r.ceiling) :=
    gives_given hbase rfl
  refine measure_number hbase (i := 5) rfl ?_
  refine .choice (gives_measurable hbase hr) (b := true) rfl (.choice hceiling rfl ?_)
  rw [Room.ceilingArea?]
  split
  next => exact (givesNumber_given hbase rfl).multiply (givesNumber_given hbase rfl)
  next => exact Expr.GivesNumber.literal 0

theorem gives_trimLength : (room r).value base RoomOutput.trimLength.key = .checked r.trimLength? ∧
    (Layout.cellExpr 'D' 7).GivesNumber ((room r).context base) r.trimLength? := by
  have htrim : (Layout.cellExpr 'B' 11).Gives ((room r).context base) (.boolean r.trim) :=
    gives_given hbase rfl
  refine measure_number hbase (i := 6) rfl ?_
  refine .choice htrim rfl ?_
  rw [Room.trimLength?]
  split
  next => exact (gives_perimeter hbase hr).2
  next => exact Expr.GivesNumber.literal 0

end

variable (hvalid : rates.fault? = none)
include hvalid

omit hr in
theorem gives_openingArea :
    (room r).value base RoomOutput.openingArea.key = .checked (r.openingArea? rates) ∧
      (Layout.cellExpr 'D' 4).GivesNumber ((room r).context base) (r.openingArea? rates) := by
  have hdoorArea : (Expr.name "DOOR_AREA").GivesNumber ((room r).context base) (some rates.doorArea) :=
    gives_rate hbase hvalid (by simp [Layout.namedRates])
  have hwindowArea : (Expr.name "WINDOW_AREA").GivesNumber ((room r).context base) (some rates.windowArea) :=
    gives_rate hbase hvalid (by simp [Layout.namedRates])
  have hgives := ((givesNumber_given (i := 4) hbase rfl).multiply hdoorArea).add
    ((givesNumber_given (i := 5) hbase rfl).multiply hwindowArea)
  exact measure_number hbase (i := 3) rfl (hgives.of_eq rfl)

include hr

theorem gives_wallArea :
    (room r).value base RoomOutput.wallArea.key = .checked (r.wallArea? rates) ∧
      (Layout.cellExpr 'D' 5).GivesNumber ((room r).context base) (r.wallArea? rates) := by
  refine measure_number hbase (i := 4) rfl (.of_eq ((Expr.GivesNumber.literal 0).greatest
    ((gives_grossWallArea hbase hr).2.subtract (gives_openingArea hbase hvalid).2)) ?_)
  simp only [Room.wallArea?, Functions.greater_eq, Option.bind_eq_bind, Option.bind_some, Option.bind_assoc]

theorem gives_paintableArea :
    (room r).value base RoomOutput.paintableArea.key = .checked (r.paintableArea? rates) ∧
      (Layout.cellExpr 'D' 8).GivesNumber ((room r).context base) (r.paintableArea? rates) := by
  refine measure_number hbase (i := 7) rfl ?_
  exact (gives_wallArea hbase hr hvalid).2.add (gives_ceilingArea hbase hr).2

theorem gives_coatedArea :
    (Expr.binary .multiply (Layout.cellExpr 'D' 8) (Layout.cellExpr 'B' 9)).GivesNumber
      ((room r).context base) (r.coatedArea? rates) :=
  (gives_paintableArea hbase hr hvalid).2.multiply (givesNumber_given hbase rfl)

theorem gives_gallons {paint : PaintRate} (hpaint : rates.paintRate? r.paint = some paint) :
    (room r).value base RoomOutput.gallons.key = .checked (r.writtenGallons? rates paint) ∧
      (Layout.cellExpr 'D' 10).GivesNumber ((room r).context base) (r.writtenGallons? rates paint) := by
  have hcoverage := (measure_number hbase (i := 8) rfl (gives_paint hbase hvalid hpaint (j := 0) rfl)).2
  have hzero : ∀ n ∈ some paint.coverage, n.isZero = false := by
    rintro _ ⟨⟩
    exact Decimal.isZero_of_isPositive
      (Rates.coverage_isPositive hvalid (List.mem_of_find?_eq_some hpaint))
  have hgives := ((gives_coatedArea hbase hr hvalid).divide hcoverage hzero).ceiling
  refine measure_number hbase (i := 9) rfl (hgives.of_eq ?_)
  simp only [Room.writtenGallons?, Option.bind_eq_bind, Option.bind_some, Option.bind_assoc]

/-- The gallons are rounded up to a multiple of one, which may change the form of the number. -/
theorem value_gallons {paint : PaintRate} (hpaint : rates.paintRate? r.paint = some paint) :
    ∃ n?, (room r).value base RoomOutput.gallons.key = .checked n? ∧
      Decimal.SameResult n? (r.gallons? rates paint) := by
  refine ⟨_, (gives_gallons hbase hr hvalid hpaint).1, ?_⟩
  simp only [Room.gallons?, Room.writtenGallons?, Option.bind_eq_bind]
  cases r.coatedArea? rates with
  | none => exact .none
  | some coated =>
      simp only [Option.bind_some]
      cases coated.div? paint.coverage with
      | none => exact .none
      | some gallons => exact Decimal.snap_one gallons

theorem value_laborHours {condition : ConditionRate}
    (hcondition : rates.conditionRate? r.condition = some condition) :
    (room r).value base RoomOutput.laborHours.key = .checked (r.laborHours? rates condition) := by
  have hmultiplier := (measure_number hbase (i := 10) rfl (gives_multiplier hbase hvalid hcondition)).2
  have hareaPerHour : (Expr.name "PRODUCTIVITY").GivesNumber ((room r).context base)
      (some rates.areaPerHour) := gives_rate hbase hvalid (by simp [Layout.namedRates])
  have hperOpening : (Expr.name "OPENING_HOURS").GivesNumber ((room r).context base)
      (some rates.hoursPerOpening) := gives_rate hbase hvalid (by simp [Layout.namedRates])
  have htrimPerHour : (Expr.name "TRIM_SPEED").GivesNumber ((room r).context base)
      (some rates.trimPerHour) := gives_rate hbase hvalid (by simp [Layout.namedRates])
  have hwalls := (gives_coatedArea hbase hr hvalid).divide hareaPerHour (by
    rintro _ ⟨⟩
    exact Decimal.isZero_of_isPositive (Rates.areaPerHour_isPositive hvalid))
  have htrim := (gives_trimLength hbase hr).2.divide htrimPerHour (by
    rintro _ ⟨⟩
    exact Decimal.isZero_of_isPositive (Rates.trimPerHour_isPositive hvalid))
  have hopenings := ((givesNumber_given (i := 4) hbase rfl).add
    (givesNumber_given (i := 5) hbase rfl)).multiply hperOpening
  have hgives := (((hwalls.add hopenings).add htrim).multiply hmultiplier).round
  refine (measure_number hbase (i := 11) rfl (hgives.of_eq ?_)).1
  simp only [Room.laborHours?, Room.plainHours?, Room.counted, Option.bind_eq_bind, Option.bind_some,
    Option.bind_assoc, Option.map_eq_bind, Function.comp_def]

variable {paint : PaintRate} {condition : ConditionRate}

/-- The cells of the measurements come to what is computed directly. -/
theorem value_measurement (hpaint : rates.paintRate? r.paint = some paint)
    (hcondition : rates.conditionRate? r.condition = some condition) (m : Measurement) :
    ∃ n?, (room r).value base m.output.key = .checked n? ∧
      Decimal.SameResult n? (r.measurement? rates paint condition m) := by
  cases m with
  | perimeter => exact ⟨_, (gives_perimeter hbase hr).1, .refl _⟩
  | grossWallArea => exact ⟨_, (gives_grossWallArea hbase hr).1, .refl _⟩
  | openingArea => exact ⟨_, (gives_openingArea hbase hvalid).1, .refl _⟩
  | wallArea => exact ⟨_, (gives_wallArea hbase hr hvalid).1, .refl _⟩
  | ceilingArea => exact ⟨_, (gives_ceilingArea hbase hr).1, .refl _⟩
  | trimLength => exact ⟨_, (gives_trimLength hbase hr).1, .refl _⟩
  | paintableArea => exact ⟨_, (gives_paintableArea hbase hr hvalid).1, .refl _⟩
  | gallons => exact value_gallons hbase hr hvalid hpaint
  | laborHours => exact ⟨_, value_laborHours hbase hr hvalid hcondition, .refl _⟩

end Page

/-! ## Estimates -/

/-- An estimate has the measurements of a room that are computed directly.  One that is missing fails
with the error of numbers. -/
def RoomEstimate.Measures (rates : Rates) (r : Room) (e : RoomEstimate) : Prop :=
  ∃ paint condition, rates.paintRate? r.paint = some paint ∧
    rates.conditionRate? r.condition = some condition ∧
    ∀ m : Measurement,
      Decimal.SameResult (e.measurement? m) (r.measurement? rates paint condition m) ∧
      (r.measurement? rates paint condition m = none ↔ ∃ f ∈ e.failures, f.output = m.output.label) ∧
      ∀ f ∈ e.failures, f.output = m.output.label → f.error = .number

theorem RoomEstimate.Like.measurement? {e e' : RoomEstimate} (h : e.Like e') (m : Measurement) :
    Decimal.SameResult (e.measurement? m) (e'.measurement? m) := by
  cases m with
  | perimeter => exact h.perimeter
  | grossWallArea => exact h.grossWallArea
  | openingArea => exact h.openingArea
  | wallArea => exact h.wallArea
  | ceilingArea => exact h.ceilingArea
  | trimLength => exact h.trimLength
  | paintableArea => exact h.paintableArea
  | gallons => exact h.gallons
  | laborHours => exact h.laborHours

theorem RoomEstimate.Measures.of_like {rates : Rates} {r : Room} {e e' : RoomEstimate} (h : e.Like e')
    (hmeasures : e'.Measures rates r) : e.Measures rates r := by
  obtain ⟨paint, condition, hpaint, hcondition, hall⟩ := hmeasures
  refine ⟨paint, condition, hpaint, hcondition, fun m => ?_⟩
  obtain ⟨hresult, hfailure, herror⟩ := hall m
  rw [h.failures]
  exact ⟨(h.measurement? m).trans hresult, hfailure, herror⟩

theorem measurement?_freshRoom (rates : Rates) (base : Engine) (r : Room) (m : Measurement) :
    (freshRoom rates base r).measurement? m = (freshReadings base r m.output).number? := by
  cases m <;> rfl

/-- What is read off a cell that comes to a checked number. -/
theorem Reading.ofOutcome_checked {o : Outcome} {n? : Option Decimal} (h : o.value = .checked n?)
    (room? : Option String) (output : String) (cell : CellKey) :
    (ofOutcome o room? output cell).number? = n? ∧
      ∀ f, (ofOutcome o room? output cell).failure? = some f → f.error = .number := by
  rw [ofOutcome, h]
  cases n? with
  | none =>
      refine ⟨rfl, ?_⟩
      rintro _ ⟨⟩
      rfl
  | some n =>
      refine ⟨rfl, ?_⟩
      rintro _ ⟨⟩

section

variable {rates : Rates} {base : Engine} (hbase : ratesEngine rates = .ok base)
include hbase

/-- Without a cache, an estimate has the measurements that are computed directly. -/
theorem freshRoom_measures (hvalid : rates.fault? = none) {r : Room} (hr : r.Measurable) :
    (freshRoom rates base r).Measures rates r := by
  obtain ⟨paint, hpaint⟩ := Rates.exists_paintRate hvalid r.paint
  obtain ⟨condition, hcondition⟩ := Rates.exists_conditionRate hvalid r.condition
  refine ⟨paint, condition, hpaint, hcondition, fun m => ?_⟩
  obtain ⟨n?, hvalue, hsame⟩ := Page.value_measurement hbase hr hvalid hpaint hcondition m
  have hread := freshReadings_eq (bare_of_ratesEngine hbase) r m.output
  obtain ⟨hnumber, herror⟩ := Reading.ofOutcome_checked hvalue (some r.name) m.output.label m.output.key
  rw [← hread] at hnumber herror
  have hmeasurement : (freshRoom rates base r).measurement? m = n? := by
    rw [measurement?_freshRoom, hnumber]
  have hnone : r.measurement? rates paint condition m = none ↔ n? = none := by
    generalize r.measurement? rates paint condition m = direct at hsame
    cases hsame <;> simp
  refine ⟨hmeasurement ▸ hsame, ?_, fun f hf hlabel =>
    herror f ((mem_failures_freshRoom rates base).1 ⟨hf, hlabel⟩)⟩
  rw [hnone, ← hnumber, ← Reading.failure?_isSome_iff, Option.isSome_iff_exists]
  exact exists_congr fun f => (mem_failures_freshRoom rates base).symm

end

/-- A reply has the measurements that are computed directly of every room that can be measured.  There is
no reply for a project without rooms, or if the rates do not fit on their sheet. -/
def Inquiry.Measured (rates : Rates) : Inquiry → Reply → Prop
  | room r, .room e => r.Measurable → e.Measures rates r
  | project rooms, .project e =>
      List.Forall₂ (fun r (e : RoomEstimate) => r.Measurable → e.Measures rates r) rooms e.rooms
  | project rooms, .failed error => rooms = [] ∧ error = .noRooms ∨ ¬ rates.Fits
  | room _, .failed _ => ¬ rates.Fits
  | _, _ => False

/-- Whatever an estimator was asked before, with or without a cache, its replies have the measurements that
are computed directly. -/
theorem replies_measured {options : Options} {est : Estimator} (h : Estimator.ofOptions options = .ok est)
    (inquiries : List Inquiry) :
    List.Forall₂ (Inquiry.Measured options.rates) inquiries (est.replies inquiries) := by
  have hvalid := Estimator.fault?_of_ofOptions h
  refine Estimator.replies_have h ?fresh ?like ?refused inquiries
  case fresh =>
    intro base hbase i
    cases i with
    | room r => exact fun hr => freshRoom_measures hbase hvalid hr
    | project rooms =>
        cases rooms with
        | nil => exact Or.inl ⟨rfl, rfl⟩
        | cons r rooms =>
            exact List.forall₂_map_right_iff.2
              (List.forall₂_same.2 fun r _ hr => freshRoom_measures hbase hvalid hr)
  case like =>
    intro i r r' hlike hmeasured
    cases hlike with
    | failed error => exact hmeasured
    | room hlike =>
        cases i with
        | room r => exact fun hr => .of_like hlike (hmeasured hr)
        | project rooms => exact hmeasured
    | project hlike =>
        cases i with
        | room r => exact hmeasured
        | project rooms =>
            exact forall₂_trans hmeasured hlike.rooms fun _ _ _ hmeasures hlike hr =>
              .of_like hlike (hmeasures hr)
  case refused =>
    intro hunfit i error
    cases i with
    | room r => exact hunfit
    | project rooms => exact Or.inr hunfit

/-- The usual estimator measures the hall: its walls are 44 feet long, and two coats take three gallons
and 5.28 hours. -/
theorem replies_measured_hall :
    Estimator.ofOptions { Options.usual with keepsResults := true } = .ok (.usual true) ∧
    Room.hall.Measurable ∧
    ∃ e, (Estimator.usual true).replies [.room .hall] = [.room e] ∧ e.Measures .usual .hall ∧
      Decimal.SameResult e.perimeter (some 44) ∧ Decimal.SameResult e.gallons (some 3) ∧
      Decimal.SameResult e.laborHours (some (Decimal.scaled 528 2)) := by
  have hhall : Room.hall.Measurable := ⟨by decide, by decide, by decide, by decide⟩
  refine ⟨Estimator.ofOptions_usual true, hhall, ?_⟩
  have hmeasured := replies_measured (Estimator.ofOptions_usual true) [.room .hall]
  generalize (Estimator.usual true).replies [.room .hall] = replies at hmeasured ⊢
  obtain - | @⟨_, reply, _, _, hreply, hnil⟩ := hmeasured
  cases hnil
  cases reply with
  | project e => cases hreply
  | failed error => exact absurd (by decide) hreply
  | room e =>
      have hmeasures := hreply hhall
      refine ⟨e, rfl, hmeasures, ?_⟩
      obtain ⟨paint, condition, hpaint, hcondition, hall⟩ := hmeasures
      have hfound : Rates.usual.paintRate? Room.hall.paint = some ⟨.eggshell, 350, ⟨28, 38, 52⟩⟩ ∧
          Rates.usual.conditionRate? Room.hall.condition = some ⟨.good, 1⟩ := by decide +kernel
      cases hfound.1.symm.trans hpaint
      cases hfound.2.symm.trans hcondition
      have hdirect : Room.hall.perimeter? = some 44 ∧
          Room.hall.gallons? .usual ⟨.eggshell, 350, ⟨28, 38, 52⟩⟩ = some 3 ∧
          Room.hall.laborHours? .usual ⟨.good, 1⟩ = some (Decimal.scaled 528 2) := by decide +kernel
      refine ⟨?_, ?_, ?_⟩
      · exact hdirect.1 ▸ (hall .perimeter).1
      · exact hdirect.2.1 ▸ (hall .gallons).1
      · exact hdirect.2.2 ▸ (hall .laborHours).1

end Estimate

end PaintQuote
