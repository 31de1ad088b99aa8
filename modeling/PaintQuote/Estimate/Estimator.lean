import PaintQuote.Engine.Basic
import PaintQuote.Estimate.Output
import PaintQuote.Estimate.Result

/-!
# The estimator

An estimate writes the rates and a room to the sheets of a new engine, has the outputs evaluated and
reads them off.  A project does so for each of its rooms, then writes what it read to the project
sheet and has that evaluated.  The prices on the project sheet are the quoted ones, after they were
made to rise.

An estimator may keep results of formulas; what it keeps is handed from one estimate to the next.
-/

namespace PaintQuote.Estimate

open Sheet Engine

/-- Why there is no estimate. -/
inductive EstimateError where
  /-- A project without rooms. -/
  | noRooms
  /-- Options with a fault. -/
  | options (fault : OptionsFault)
  /-- Rates that do not fit on their sheet. -/
  | reference (e : ReferenceError)
deriving DecidableEq, Repr

/-- The wording of an error. -/
def EstimateError.message : EstimateError → String
  | noRooms => "No rooms supplied"
  | options fault => "Invalid configuration: " ++ fault.message
  | reference e => e.message

/-! ## Sheets -/

/-- An engine with the rates. -/
def ratesEngine (rates : Rates) : Except ReferenceError Engine := do
  let names ← Layout.rateNames rates
  names.foldlM Engine.defineName (Engine.empty.load (Layout.rateEntries rates))

/-- An engine with the rates and a room. -/
def roomEngine (rates : Rates) (room : Room) : Except ReferenceError Engine :=
  (ratesEngine rates).map fun e => e.load (Layout.roomEntries room)

/-- An engine with the rates and the rows of a project. -/
def projectEngine (rates : Rates) (rows : List ProjectRow) : Except ReferenceError Engine :=
  (ratesEngine rates).map fun e => e.load (Layout.projectEntries rows)

/-! ## Readings -/

namespace Reading

/-- What explains that a cell shows a value that is no number. -/
def reason (issue? : Option Formula.FormulaError) (v : CellValue) : String :=
  match issue?, v.error? with
  | some issue, _ => issue.message
  | none, some e => "evaluated to " ++ e.literal
  | none, none => "expected a number, got " ++ v.kind

/-- What a cell gave. -/
def ofReport (r : Report) (room? : Option String) (output : String) (cell : CellKey) : Reading :=
  match (r.values.get? cell).getD .empty with
  | .number n => .ok n
  | v => .error ⟨room?, cell, output, v.error?.getD .value, reason (r.issues.get? cell) v⟩

/-- The number that was read. -/
def number? (r : Reading) : Option Decimal := r.toOption

/-- Why no number was read. -/
def failure? : Reading → Option CellFailure
  | .ok _ => none
  | .error f => some f

/-- What was read as the value of a cell. -/
def value : Reading → CellValue
  | .ok n => .number n
  | .error f => .error f.error

end Reading

/-- The quoted prices for prices that were read, and whether they had to be changed. -/
def quoted (rates : Rates) (prices : Tiers Reading) : Option (Tiers Decimal × Bool) :=
  (prices.map Reading.number?).all?.map (·.inOrder rates.tierStep)

/-! ## Rooms -/

namespace RoomEstimate

/-- The prices among the outputs of a room. -/
def prices (read : RoomOutput → Reading) : Tiers Reading := ⟨read .good, read .better, read .best⟩

/-- The estimate of a room from its outputs. -/
def ofReadings (rates : Rates) (name : String) (read : RoomOutput → Reading) : RoomEstimate where
  room := name
  perimeter := (read .perimeter).number?
  grossWallArea := (read .grossWallArea).number?
  openingArea := (read .openingArea).number?
  wallArea := (read .wallArea).number?
  ceilingArea := (read .ceilingArea).number?
  trimLength := (read .trimLength).number?
  paintableArea := (read .paintableArea).number?
  gallons := (read .gallons).number?
  laborHours := (read .laborHours).number?
  pricing := (quoted rates (prices read)).map (·.1)
  isAdjusted := ((quoted rates (prices read)).map (·.2)).getD false
  failures := RoomOutput.all.filterMap fun o => (read o).failure?

/-- The prices of a room on the project sheet: the quoted ones, or what was read. -/
def rowPrices (rates : Rates) (read : RoomOutput → Reading) : Tiers CellValue :=
  match quoted rates (prices read) with
  | some (price, _) => price.map .number
  | none => (prices read).map Reading.value

/-- The row of a room on the project sheet. -/
def rowOfReadings (rates : Rates) (name : String) (read : RoomOutput → Reading) : ProjectRow where
  name := name
  area := (read .paintableArea).value
  gallons := (read .gallons).value
  hours := (read .laborHours).value
  price := rowPrices rates read

end RoomEstimate

/-- What was read off the sheet of a room. -/
def readRoom (rates : Rates) (cache : Option ResultCache) (room : Room) :
    Except ReferenceError ((RoomOutput → Reading) × Option ResultCache) :=
  (roomEngine rates room).map fun e =>
    let (report, _, cache) := e.evaluateAll cache (RoomOutput.all.map (·.key))
    (fun o => .ofReport report (some room.name) o.label o.key, cache)

/-- What was read off the sheets of rooms, with the names of the rooms. -/
def readRooms (rates : Rates) : Option ResultCache → List Room →
    Except ReferenceError (List (String × (RoomOutput → Reading)) × Option ResultCache)
  | cache, [] => .ok ([], cache)
  | cache, room :: rooms => do
      let (read, cache) ← readRoom rates cache room
      let (reads, cache) ← readRooms rates cache rooms
      .ok ((room.name, read) :: reads, cache)

/-! ## Projects -/

namespace ProjectEstimate

/-- The prices among the outputs of a project. -/
def prices (read : ProjectOutput → Reading) : Tiers Reading :=
  ⟨read .good, read .better, read .best⟩

/-- The sums over rooms from the outputs of a project. -/
def totalsOfReadings (rooms : Nat) (read : ProjectOutput → Reading) : ProjectTotals where
  rooms := rooms
  paintableArea := (read .paintableArea).number?
  gallons := (read .gallons).number?
  laborHours := (read .laborHours).number?
  discount := (read .discount).number?

/-- The estimate of a project from the estimates of its rooms and its outputs. -/
def ofReadings (rates : Rates) (rooms : List RoomEstimate) (read : ProjectOutput → Reading) :
    ProjectEstimate where
  rooms := rooms
  totals := totalsOfReadings rooms.length read
  pricing := (quoted rates (prices read)).map (·.1)
  isAdjusted := ((quoted rates (prices read)).map (·.2)).getD false
  failures :=
    rooms.flatMap (·.failures) ++ ProjectOutput.all.filterMap fun o => (read o).failure?

end ProjectEstimate

/-- What was read off the sheet of a project. -/
def readProject (rates : Rates) (cache : Option ResultCache) (rows : List ProjectRow) :
    Except ReferenceError ((ProjectOutput → Reading) × Option ResultCache) :=
  (projectEngine rates rows).map fun e =>
    let (report, _, cache) := e.evaluateAll cache (ProjectOutput.all.map (·.key))
    (fun o => .ofReport report none o.label o.key, cache)

/-! ## The estimator -/

/-- Makes estimates. -/
structure Estimator where
  /-- How the estimator works. -/
  options : Options
  /-- The results of formulas that are kept, unless none are. -/
  cache : Option ResultCache

namespace Estimator

/-- The estimator with the given options. -/
def ofOptions (options : Options) : Except EstimateError Estimator :=
  match options.fault? with
  | some fault => .error (.options fault)
  | none => .ok ⟨options, if options.keepsResults then some (.empty options.capacity) else none⟩

/-- The estimator with the given rates that keeps results in the given cache, whatever else the
options say. -/
def withCache (options : Options) (cache : ResultCache) : Except EstimateError Estimator :=
  match options.rates.fault? with
  | some fault => .error (.options fault)
  | none => .ok ⟨options, some cache⟩

/-- The estimate of a room. -/
def room (e : Estimator) (room : Room) : Except EstimateError (RoomEstimate × Estimator) := do
  let rates := e.options.rates
  let (read, cache) ← (readRoom rates e.cache room).mapError EstimateError.reference
  .ok (.ofReadings rates room.name read, { e with cache })

/-- The estimate of a project. -/
def project (e : Estimator) (rooms : List Room) :
    Except EstimateError (ProjectEstimate × Estimator) := do
  if rooms.isEmpty then .error .noRooms
  let rates := e.options.rates
  let (reads, cache) ← (readRooms rates e.cache rooms).mapError EstimateError.reference
  let rows := reads.map fun r => RoomEstimate.rowOfReadings rates r.1 r.2
  let (read, cache) ← (readProject rates cache rows).mapError EstimateError.reference
  let estimates := reads.map fun r => RoomEstimate.ofReadings rates r.1 r.2
  .ok (.ofReadings rates estimates read, { e with cache })

end Estimator

end PaintQuote.Estimate
