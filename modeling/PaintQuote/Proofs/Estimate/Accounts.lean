import PaintQuote.Proofs.Estimate.Totals
import PaintQuote.Proofs.Estimate.Unmeasurable

/-!
# What is said of every output

The sheet of a room and that of a project have a cell for every output.  If it comes to a number, this number
is read and the output has no failure; and if not, there is no number and one failure, which names the room,
the output, the cell and its error (`Accounts`).  The failures stand in the order of the outputs, and prices
are quoted exactly if none of them has failed (`Readout.Accounted`).

An estimate has the numbers that are read, and the failures of a project are those of its rooms before those
of its own outputs (`RoomEstimate.Accounted`, `ProjectEstimate.Accounted`).  This is so in all replies
(`replies_accounted`).
-/

namespace PaintQuote

open Sheet Formula Engine Estimate

namespace Estimate

/-! ## Outputs -/

/-- What explains that the cell of an output comes to no number. -/
def explanation (room? : Option String) (output : String) (cell : CellKey) (o : Outcome) : CellFailure :=
  ⟨room?, cell, output, o.value.error?.getD .value, Reading.reason o.issue? o.value⟩

/-- A number and failures account for an output whose cell has an outcome: the number to which it comes and
no failure, or no number and one failure, which explains why there is none. -/
inductive Accounts (room? : Option String) (output : String) (cell : CellKey) (o : Outcome) :
    Option Decimal → List CellFailure → Prop where
  /-- The cell comes to a number. -/
  | number {n : Decimal} : o.value = .number n → Accounts room? output cell o (some n) []
  /-- The cell comes to something else. -/
  | failure : (∀ n, o.value ≠ .number n) →
      Accounts room? output cell o none [explanation room? output cell o]

namespace Accounts

/-- What is read off a cell accounts for its output. -/
theorem ofOutcome (room? : Option String) (output : String) (cell : CellKey) (o : Outcome) :
    Accounts room? output cell o (Reading.ofOutcome o room? output cell).number?
      (Reading.ofOutcome o room? output cell).failure?.toList := by
  obtain ⟨v, issue?⟩ := o
  cases v with
  | number n => exact .number rfl
  | _ => exact .failure nofun

variable {room? : Option String} {output : String} {cell : CellKey} {o : Outcome} {n? : Option Decimal}
  {fs : List CellFailure} (h : Accounts room? output cell o n? fs)
include h

theorem isSome_iff : n?.isSome ↔ fs = [] := by
  cases h <;> simp

/-- An output whose cell has an error has one failure, with this error. -/
theorem of_error {error : ErrorValue} (herror : o.value = .error error) :
    n? = none ∧ ∃ f, fs = [f] ∧ f.room? = room? ∧ f.cell = cell ∧ f.error = error := by
  cases h with
  | number hn => cases herror.symm.trans hn
  | failure _ =>
      refine ⟨rfl, _, rfl, rfl, rfl, ?_⟩
      rw [explanation, herror]
      rfl

end Accounts

/-! ## Prices -/

theorem Tiers.isSome_all? {α : Type} (t : Tiers (Option α)) :
    t.all?.isSome ↔ ∀ a? ∈ t.toList, a?.isSome := by
  obtain ⟨good, better, best⟩ := t
  cases good <;> cases better <;> cases best <;> simp [all?, toList]

theorem Tiers.toList_map {α β : Type} (f : α → β) (t : Tiers α) : (t.map f).toList = t.toList.map f := rfl

/-- Quoted prices are the prices of all tiers, put in order.  There are none if one of these is missing. -/
def Quotes (rates : Rates) (prices : Tiers (Option Decimal)) (quote? : Option (Tiers Decimal)) : Prop :=
  Option.Rel (Tiers.Rel Tiers.SamePrice) quote? (prices.all?.map fun t => (t.inOrder rates.tierStep).1)

namespace Quotes

variable {rates : Rates} {quote? quote?' : Option (Tiers Decimal)} {prices : Tiers (Option Decimal)}

theorem of_quoted (rates : Rates) (prices : Tiers Reading) :
    Quotes rates (prices.map Reading.number?) ((quoted rates prices).map (·.1)) := by
  rw [quoted, Option.map_map]
  exact samePricing_iff_normalize.2 rfl

theorem of_like (hlike : Option.Rel (Tiers.Rel Tiers.SamePrice) quote? quote?')
    (h : Quotes rates prices quote?') : Quotes rates prices quote? :=
  samePricing_iff_normalize.2
    ((samePricing_iff_normalize.1 hlike).trans (samePricing_iff_normalize.1 h))

theorem isSome_iff (h : Quotes rates prices quote?) :
    quote?.isSome ↔ ∀ price? ∈ prices.toList, price?.isSome := by
  rw [← Tiers.isSome_all?]
  unfold Quotes at h
  generalize prices.all? = all at h
  cases all <;> cases h <;> exact Iff.rfl

end Quotes

/-! ## Sheets -/

namespace Readout

variable {Output : Type} (readout : Readout Output) (prices : Tiers Output) (rates : Rates)
  (room? : Option String) (outcome : CellKey → Outcome)

/-- Numbers and failures account for all outputs of a sheet whose cells have outcomes. -/
structure Accounted (number? : Output → Option Decimal) (pricing : Option (Tiers Decimal))
    (failures : List CellFailure) : Prop where
  output : ∀ o, Accounts room? (readout.label o) (readout.key o) (outcome (readout.key o)) (number? o)
    (failures.filter (·.output == readout.label o))
  order : (failures.map (·.output)).Sublist (readout.all.map readout.label)
  room : ∀ f ∈ failures, f.room? = room?
  quotes : Quotes rates (prices.map number?) pricing
  pricing_iff : pricing.isSome ↔ ∀ o ∈ prices.toList, failures.filter (·.output == readout.label o) = []

/-- Failures are named for their outputs, so they stand in the order of these. -/
theorem map_output_failures :
    ((readout.failures room? outcome).map (·.output)).Sublist (readout.all.map readout.label) := by
  rw [failures]
  generalize readout.all = os
  induction os with
  | nil => exact .slnil
  | cons o os ih =>
      rw [List.filterMap_cons]
      cases hf : (readout.read room? outcome o).failure? with
      | none => exact ih.cons _
      | some f =>
          rw [List.map_cons, List.map_cons, (Reading.names_of_failure? hf).2]
          exact ih.cons_cons _

/-- What is read off the cells accounts for all outputs. -/
theorem accounted :
    readout.Accounted prices rates room? outcome (fun o => (readout.read room? outcome o).number?)
      ((quoted rates (prices.map (readout.read room? outcome))).map (·.1))
      (readout.failures room? outcome) := by
  have houtput : ∀ o, Accounts room? (readout.label o) (readout.key o) (outcome (readout.key o))
      (readout.read room? outcome o).number?
      ((readout.failures room? outcome).filter (·.output == readout.label o)) := by
    intro o
    rw [filter_failures]
    exact .ofOutcome _ _ _ _
  have hquotes := Quotes.of_quoted rates (prices.map (readout.read room? outcome))
  refine ⟨houtput, readout.map_output_failures room? outcome, fun _ => readout.room?_of_mem_failures, hquotes, ?_⟩
  rw [hquotes.isSome_iff, Tiers.toList_map, Tiers.toList_map, List.forall_mem_map, List.forall_mem_map]
  exact forall₂_congr fun o _ => (houtput o).isSome_iff

variable {readout prices rates room? outcome}

/-- Prices of another form are quoted for the same numbers. -/
theorem Accounted.of_like {number? : Output → Option Decimal} {pricing pricing' : Option (Tiers Decimal)}
    {failures : List CellFailure} (hpricing : Option.Rel (Tiers.Rel Tiers.SamePrice) pricing pricing')
    (h : readout.Accounted prices rates room? outcome number? pricing' failures) :
    readout.Accounted prices rates room? outcome number? pricing failures where
  output := h.output
  order := h.order
  room := h.room
  quotes := h.quotes.of_like hpricing
  pricing_iff := by
    rw [← h.pricing_iff]
    cases hpricing <;> exact Iff.rfl

end Readout

/-! ## Estimates -/

/-- The estimate of a room accounts for all outputs on its sheet. -/
def RoomEstimate.Accounted (rates : Rates) (r : Room) (e : RoomEstimate) : Prop :=
  ∃ base number?, ratesEngine rates = .ok base ∧
    RoomOutput.readout.Accounted RoomOutput.prices rates (some r.name) ((Page.room r).outcome base) number?
      e.pricing e.failures ∧
    ∀ m, Decimal.SameResult (e.measurement? m) (number? m.output)

/-- The estimate of a project accounts for all outputs on its sheet, which has the rows of its rooms, and its
failures are those of the rooms and then its own. -/
def ProjectEstimate.Accounted (rates : Rates) (rooms : List Room) (e : ProjectEstimate) : Prop :=
  ∃ base number? own, ratesEngine rates = .ok base ∧ e.failures = e.rooms.flatMap (·.failures) ++ own ∧
    ProjectOutput.readout.Accounted ProjectOutput.prices rates none
      ((Page.project (freshRows rates base rooms)).outcome base) number? e.pricing own ∧
    (∀ t, Decimal.SameResult (e.totals.total? t) (number? t.output)) ∧
    Decimal.SameResult e.totals.discount (number? .discount)

theorem RoomEstimate.Accounted.of_like {rates : Rates} {r : Room} {e e' : RoomEstimate} (h : e.Like e')
    (haccounted : e'.Accounted rates r) : e.Accounted rates r := by
  obtain ⟨base, number?, hbase, hread, hnumbers⟩ := haccounted
  refine ⟨base, number?, hbase, ?_, fun m => (h.measurement? m).trans (hnumbers m)⟩
  rw [h.failures]
  exact hread.of_like h.pricing

theorem ProjectEstimate.Accounted.of_like {rates : Rates} {rooms : List Room} {e e' : ProjectEstimate}
    (h : e.Like e') (haccounted : e'.Accounted rates rooms) : e.Accounted rates rooms := by
  obtain ⟨base, number?, own, hbase, hfailures, hread, hnumbers, hdiscount⟩ := haccounted
  refine ⟨base, number?, own, hbase, ?_, hread.of_like h.pricing, fun t => (h.total? t).trans (hnumbers t),
    h.totals.discount.trans hdiscount⟩
  have hrooms : e.rooms.map (·.failures) = e'.rooms.map (·.failures) :=
    map_eq_map_iff_forall₂.2 (h.rooms.imp fun _ _ hroom => hroom.failures)
  rw [h.failures, hfailures, List.flatMap_def, List.flatMap_def, hrooms]

/-- The estimate of a room from what is read off its cells accounts for all outputs. -/
theorem RoomEstimate.accounted_ofReadings (rates : Rates) (name : String) {outcome : CellKey → Outcome}
    {read : RoomOutput → Reading} (hread : read = RoomOutput.readout.read (some name) outcome) :
    RoomOutput.readout.Accounted RoomOutput.prices rates (some name) outcome (fun o => (read o).number?)
      (ofReadings rates name read).pricing (ofReadings rates name read).failures := by
  subst hread
  exact RoomOutput.readout.accounted RoomOutput.prices rates (some name) outcome

/-- The estimate of a project from what is read off its cells accounts for all outputs besides those of its
rooms. -/
theorem ProjectEstimate.accounted_ofReadings (rates : Rates) (rooms : List RoomEstimate)
    {outcome : CellKey → Outcome} {read : ProjectOutput → Reading}
    (hread : read = ProjectOutput.readout.read none outcome) :
    ProjectOutput.readout.Accounted ProjectOutput.prices rates none outcome (fun o => (read o).number?)
      (ofReadings rates rooms read).pricing (ProjectOutput.all.filterMap fun o => (read o).failure?) := by
  subst hread
  exact ProjectOutput.readout.accounted ProjectOutput.prices rates none outcome

section

variable {rates : Rates} {base : Engine} (hbase : ratesEngine rates = .ok base)
include hbase

/-- Without a cache, the estimate of a room accounts for all outputs. -/
theorem freshRoom_accounted (r : Room) : (freshRoom rates base r).Accounted rates r := by
  have hread : freshReadings base r =
      RoomOutput.readout.read (some r.name) ((Page.room r).outcome base) :=
    funext (freshReadings_eq (bare_of_ratesEngine hbase) r)
  refine ⟨base, fun o => (freshReadings base r o).number?, hbase, ?_, fun m => ?_⟩
  · exact RoomEstimate.accounted_ofReadings rates r.name hread
  · rw [measurement?_freshRoom]
    exact .refl _

/-- Without a cache, the estimate of a project accounts for all outputs. -/
theorem freshProject_accounted (rooms : List Room) :
    (freshProject rates base rooms).Accounted rates rooms := by
  have hread : projectReadings ((freshPage rates base rooms).evaluated base) =
      ProjectOutput.readout.read none ((Page.project (freshRows rates base rooms)).outcome base) :=
    funext (projectReadings_eq (bare_of_ratesEngine hbase) (freshRows rates base rooms))
  refine ⟨base, fun o => (projectReadings ((freshPage rates base rooms).evaluated base) o).number?, _, hbase,
    rfl, ?_, fun t => ?_, .refl _⟩
  · exact ProjectEstimate.accounted_ofReadings rates _ hread
  · rw [total?_freshProject]
    exact .refl _

end

/-- Whatever an estimator was asked before, with or without a cache, its estimates account for all outputs of
every room and every project. -/
theorem replies_accounted {options : Options} {est : Estimator} (h : Estimator.ofOptions options = .ok est)
    (inquiries : List Inquiry) :
    List.Forall₂ (Inquiry.Estimated options.rates (fun r e => e.Accounted options.rates r)
      fun rooms e => e.Accounted options.rates rooms) inquiries (est.replies inquiries) :=
  Estimator.replies_estimated h (fun _ hbase r => freshRoom_accounted hbase r)
    (fun _ _ _ hlike haccounted => haccounted.of_like hlike)
    (fun _ hbase rooms _ => freshProject_accounted hbase rooms)
    (fun _ _ _ hlike haccounted => haccounted.of_like hlike) inquiries

/-- A hall that is painted without a coat. -/
def Room.bareHall : Room := { Room.hall with coats := 0 }

/-- The usual estimator has no perimeter for a hall that is painted without a coat and one failure that says
so, and it accounts for the hall in a project as well. -/
theorem replies_accounted_bareHall :
    Estimator.ofOptions { Options.usual with keepsResults := true } = .ok (.usual true) ∧
    ∃ e e', (Estimator.usual true).replies [.room .bareHall, .project [.hall, .bareHall]] =
        [.room e, .project e'] ∧
      e.Accounted .usual .bareHall ∧ e'.Accounted .usual [.hall, .bareHall] ∧ e.perimeter = none ∧
      ∃ f, e.failures.filter (·.output == "perimeter") = [f] ∧ f.room? = some "hall" ∧
        f.cell = RoomOutput.perimeter.key ∧ f.error = .notAvailable := by
  refine ⟨Estimator.ofOptions_usual true, ?_⟩
  have haccounted := replies_accounted (Estimator.ofOptions_usual true)
    [.room .bareHall, .project [.hall, .bareHall]]
  generalize (Estimator.usual true).replies [.room .bareHall, .project [.hall, .bareHall]] = replies
    at haccounted ⊢
  obtain - | @⟨_, reply, _, _, hreply, - | @⟨_, reply', _, _, hreply', hnil⟩⟩ := haccounted
  cases hnil
  cases reply with
  | project e => cases hreply
  | failed error => exact absurd (by decide) hreply
  | room e =>
      cases reply' with
      | room e' => cases hreply'
      | failed error =>
          rcases hreply' with ⟨hrooms, -⟩ | hunfit
          · cases hrooms
          · exact absurd (by decide) hunfit
      | project e' =>
          refine ⟨e, e', rfl, hreply, hreply'.2, ?_⟩
          obtain ⟨base, number?, hbase, hread, hnumbers⟩ := hreply
          have hvalue : ((Page.room .bareHall).outcome base RoomOutput.perimeter.key).value =
              .error .notAvailable := (Page.fails_perimeter hbase (by decide)).1
          obtain ⟨hnone, hfailure⟩ := (hread.output .perimeter).of_error hvalue
          have hperimeter : Decimal.SameResult e.perimeter (number? .perimeter) := hnumbers .perimeter
          rw [hnone] at hperimeter
          generalize e.perimeter = perimeter? at hperimeter ⊢
          cases hperimeter
          exact ⟨rfl, hfailure⟩

end Estimate

end PaintQuote
