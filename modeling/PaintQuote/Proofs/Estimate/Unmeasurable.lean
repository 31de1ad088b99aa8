import PaintQuote.Proofs.Decimal.Value
import PaintQuote.Proofs.Estimate.Prices
import PaintQuote.Proofs.Evaluation.Steps

/-!
# Rooms that cannot be measured

The first formula of a room asks whether the room can be measured.  If it cannot, nothing that follows from
its measurements is available: operators fail as the operand does that is farthest to the left
(`Expr.Fails.of_leftmost`), and in the formulas of a room that is one that follows from a measurement.  Only
the openings are measured all the same, and a trim that is not painted has no length (`Room.unmeasured`,
`Page.value_of_not_measurable`).  So such a room has no prices, whatever the rates are
(`replies_unmeasured`).
-/

namespace PaintQuote

open Sheet Formula Engine Estimate

/-! ## Formulas that fail -/

namespace Formula.Expr

/-- Every tree has a value in every context. -/
theorem exists_gives (c : Context) (e : Expr) : ∃ v, e.Gives c v :=
  ⟨(evaluate c e).value, fun log => by rw [evaluate_appends c e log]⟩

/-- The operand that is farthest to the left. -/
def leftmost : Expr → Expr
  | .binary _ left _ => left.leftmost
  | e => e

/-- A tree has an error as its value. -/
abbrev Fails (c : Context) (e : Expr) (error : ErrorValue) : Prop := e.Gives c (.scalar (.error error))

namespace Fails

variable {c : Context} {error : ErrorValue}

/-- Operators fail as the operand does that is farthest to the left, whatever the others come to. -/
theorem of_leftmost : ∀ {e : Expr}, e.leftmost.Fails c error → e.Fails c error
  | .binary o left right, h => by
      obtain ⟨w, hright⟩ := exists_gives c right
      exact .binary (of_leftmost h) hright rfl
  | .literal _, h | .cell _, h | .range _, h | .name _, h | .array _, h | .negate _, h | .percent _, h
  | .call _ _, h => h

variable {x : Expr} (hx : x.Fails c error)
include hx

theorem greatest {y : Expr} {n : Decimal} (hy : y.GivesNumber c (some n)) :
    (Expr.call "MAX" [y, x]).Fails c error :=
  .call rfl rfl rfl (.cons hy (.cons hx .nil)) rfl

theorem round : (Expr.call "ROUND" [x, .literal (.number 2)]).Fails c error :=
  .call rfl rfl rfl (.cons hx (.cons (Gives.literal _) .nil)) rfl

theorem ceiling : (Expr.call "CEILING" [x, .literal (.number 1)]).Fails c error :=
  .call rfl rfl rfl (.cons hx (.cons (Gives.literal _) .nil)) rfl

end Fails

end Formula.Expr

namespace Estimate

/-! ## Rooms -/

namespace Room

/-- A room without length, width or height, or that is painted without a coat. -/
def Unusable (r : Room) : Prop :=
  r.length.value ≤ 0 ∨ r.width.value ≤ 0 ∨ r.height.value ≤ 0 ∨ r.coats = 0

theorem Unusable.not_measurable {r : Room} (h : r.Unusable) : ¬ r.Measurable := by
  rintro ⟨hlength, hwidth, hheight, hcoats⟩
  rcases h with h | h | h | h
  · exact absurd (Decimal.isPositive_iff.1 hlength) (not_lt.2 h)
  · exact absurd (Decimal.isPositive_iff.1 hwidth) (not_lt.2 h)
  · exact absurd (Decimal.isPositive_iff.1 hheight) (not_lt.2 h)
  · rw [h] at hcoats
    exact absurd hcoats (by decide)

/-- What the outputs of a room come to that cannot be measured. -/
def unmeasured (rates : Rates) (r : Room) : RoomOutput → Amount
  | .openingArea => .checked (r.openingArea? rates)
  | .trimLength => if r.trim then .error .notAvailable else .ok 0
  | _ => .error .notAvailable

end Room

/-! ## The sheet -/

namespace Page

section

variable {rates : Rates} {base : Engine} (hbase : ratesEngine rates = .ok base) {r : Room}
include hbase

/-- A cell in column D fails as its formula does, and so do references to it. -/
theorem measure_fails {i : Nat} {e : Expr} (he : Layout.measureExprs[i]? = some e) {error : ErrorValue}
    (hfails : e.Fails ((room r).context base) error) :
    (room r).value base ⟨Layout.roomSheet, ⟨i, 3⟩⟩ = .error error ∧
      (Layout.cellExpr 'D' (i + 1)).Fails ((room r).context base) error := by
  have hvalue := measure_value hbase he (v := .error error) nofun hfails
  exact ⟨hvalue, gives_measure hvalue⟩

variable (hr : ¬ r.Measurable)
include hr

/-- What is chosen for a room that can be measured is not available for another one. -/
theorem choice_fails (e : Expr) :
    (Expr.call "IF" [Layout.cellExpr 'D' 1, e, .call "NA" []]).Fails ((room r).context base)
      .notAvailable := by
  have hmeasurable := gives_isMeasurable hbase (r := r)
  rw [decide_eq_false hr] at hmeasurable
  exact .choice hmeasurable (b := false) rfl (.call rfl rfl rfl .nil rfl)

theorem fails_perimeter : (room r).value base RoomOutput.perimeter.key = .error .notAvailable ∧
    (Layout.cellExpr 'D' 2).Fails ((room r).context base) .notAvailable :=
  measure_fails hbase (i := 1) rfl (choice_fails hbase hr _)

theorem fails_grossWallArea : (room r).value base RoomOutput.grossWallArea.key = .error .notAvailable ∧
    (Layout.cellExpr 'D' 3).Fails ((room r).context base) .notAvailable :=
  measure_fails hbase (i := 2) rfl (.of_leftmost (fails_perimeter hbase hr).2)

theorem fails_wallArea : (room r).value base RoomOutput.wallArea.key = .error .notAvailable ∧
    (Layout.cellExpr 'D' 5).Fails ((room r).context base) .notAvailable := by
  have hrest : (Expr.binary .subtract (Layout.cellExpr 'D' 3) (Layout.cellExpr 'D' 4)).Fails
      ((room r).context base) .notAvailable := .of_leftmost (fails_grossWallArea hbase hr).2
  exact measure_fails hbase (i := 4) rfl (hrest.greatest (Expr.GivesNumber.literal 0))

theorem fails_ceilingArea : (room r).value base RoomOutput.ceilingArea.key = .error .notAvailable :=
  (measure_fails hbase (i := 5) rfl (choice_fails hbase hr _)).1

theorem value_trimLength_of_not_measurable : (room r).value base RoomOutput.trimLength.key =
    (r.unmeasured rates .trimLength).value := by
  have htrim : (Layout.cellExpr 'B' 11).Gives ((room r).context base) (.boolean r.trim) :=
    gives_given hbase rfl
  rw [Room.unmeasured]
  cases h : r.trim with
  | true =>
      rw [h] at htrim
      exact (measure_fails hbase (i := 6) rfl (.choice htrim rfl (fails_perimeter hbase hr).2)).1
  | false =>
      rw [h] at htrim
      exact (measure_number hbase (i := 6) rfl (.choice htrim rfl (Expr.GivesNumber.literal 0))).1

theorem fails_paintableArea : (room r).value base RoomOutput.paintableArea.key = .error .notAvailable ∧
    (Layout.cellExpr 'D' 8).Fails ((room r).context base) .notAvailable :=
  measure_fails hbase (i := 7) rfl (.of_leftmost (fails_wallArea hbase hr).2)

theorem fails_gallons : (room r).value base RoomOutput.gallons.key = .error .notAvailable :=
  (measure_fails hbase (i := 9) rfl (.ceiling (.of_leftmost (fails_paintableArea hbase hr).2))).1

theorem fails_laborHours : (room r).value base RoomOutput.laborHours.key = .error .notAvailable :=
  (measure_fails hbase (i := 11) rfl (.round (.of_leftmost (fails_paintableArea hbase hr).2))).1

variable (hvalid : rates.fault? = none)
include hvalid

/-- The cell of a price fails, since the wages on the left of its sum follow from the area. -/
theorem fails_price {i labor paint : Nat} (he : Layout.tierExprs[i]? = some (Layout.tierExpr labor paint)) :
    (room r).value base ⟨Layout.roomSheet, ⟨1 + i, 5⟩⟩ = .error .notAvailable := by
  have hminimum : (Expr.name "MIN_CHARGE").GivesNumber ((room r).context base) (some rates.roomMinimum) :=
    gives_rate hbase hvalid (by simp [Layout.namedRates])
  have hempty : CellValue.error .notAvailable ≠ .empty := fun h => CellValue.noConfusion h
  refine value_of_tierExpr hbase he hempty (Expr.Fails.round (.greatest (.of_leftmost ?_) hminimum))
  exact (fails_paintableArea hbase hr).2

/-- What the cells of a room come to that cannot be measured. -/
theorem value_of_not_measurable (o : RoomOutput) :
    (room r).value base o.key = (r.unmeasured rates o).value := by
  cases o with
  | perimeter => exact (fails_perimeter hbase hr).1
  | grossWallArea => exact (fails_grossWallArea hbase hr).1
  | openingArea =>
      exact (gives_openingArea hbase hvalid).1.trans (Amount.value_checked _).symm
  | wallArea => exact (fails_wallArea hbase hr).1
  | ceilingArea => exact fails_ceilingArea hbase hr
  | trimLength => exact value_trimLength_of_not_measurable hbase hr
  | paintableArea => exact (fails_paintableArea hbase hr).1
  | gallons => exact fails_gallons hbase hr
  | laborHours => exact fails_laborHours hbase hr
  | good => exact fails_price hbase hr hvalid (i := 0) rfl
  | better => exact fails_price hbase hr hvalid (i := 1) rfl
  | best => exact fails_price hbase hr hvalid (i := 2) rfl

end

end Page

/-! ## Estimates -/

/-- An estimate has no prices, the measurements of a room that cannot be measured, and the errors of its
other outputs in their order. -/
structure RoomEstimate.Unmeasured (rates : Rates) (r : Room) (e : RoomEstimate) : Prop where
  pricing : e.pricing = none
  measurement : ∀ m : Measurement,
    Decimal.SameResult (e.measurement? m) (r.unmeasured rates m.output).toOption
  failures : e.failures.map (fun f => (f.room?, f.cell, f.output, f.error)) =
    RoomOutput.all.filterMap fun o =>
      (r.unmeasured rates o).error?.map fun error => (some r.name, o.key, o.label, error)

theorem RoomEstimate.Unmeasured.of_like {rates : Rates} {r : Room} {e e' : RoomEstimate} (h : e.Like e')
    (hunmeasured : e'.Unmeasured rates r) : e.Unmeasured rates r where
  pricing := by
    have hpricing := h.pricing
    rw [hunmeasured.pricing] at hpricing
    generalize e.pricing = pricing at hpricing ⊢
    cases hpricing
    rfl
  measurement m := (h.measurement? m).trans (hunmeasured.measurement m)
  failures := h.failures ▸ hunmeasured.failures

/-- Without a cache, a room that cannot be measured has an estimate without prices. -/
theorem freshRoom_unmeasured {rates : Rates} {base : Engine} (hbase : ratesEngine rates = .ok base)
    (hvalid : rates.fault? = none) {r : Room} (hr : ¬ r.Measurable) :
    (freshRoom rates base r).Unmeasured rates r := by
  have hvalue : ∀ o : RoomOutput, ((Page.room r).outcome base o.key).value = (r.unmeasured rates o).value :=
    Page.value_of_not_measurable hbase hr hvalid
  have hread := freshReadings_eq (bare_of_ratesEngine hbase) r
  have hnumber : ∀ o, (freshReadings base r o).number? = (r.unmeasured rates o).toOption := by
    intro o
    rw [Reading.number?_eq_amount, hread, Reading.amount_ofOutcome (hvalue o)]
  refine ⟨?pricing, fun m => ?measurement, ?failures⟩
  case pricing =>
    have hgood : (freshReadings base r .good).number? = none := hnumber .good
    show (quoted rates (RoomEstimate.prices (freshReadings base r))).map (·.1) = none
    rw [quoted, RoomEstimate.prices, Tiers.map, hgood]
    rfl
  case measurement =>
    rw [measurement?_freshRoom, hnumber]
    exact .refl _
  case failures =>
    show (RoomOutput.all.filterMap fun o => (freshReadings base r o).failure?).map _ = _
    rw [List.map_filterMap]
    refine List.filterMap_congr fun o _ => ?_
    rw [hread]
    exact Reading.failure?_ofOutcome (hvalue o) _ _ _

/-- Whatever an estimator was asked before, with or without a cache, its estimates of unusable rooms have no
prices, and everything but the openings and a trim that is not painted is not available. -/
theorem replies_unmeasured {options : Options} {est : Estimator} (h : Estimator.ofOptions options = .ok est)
    (inquiries : List Inquiry) :
    List.Forall₂ (Inquiry.Estimated options.rates
      (fun r e => r.Unusable → e.Unmeasured options.rates r) fun _ _ => True)
      inquiries (est.replies inquiries) := by
  have hvalid := Estimator.fault?_of_ofOptions h
  refine Estimator.replies_estimated h ?room ?roomLike (fun _ _ _ _ => trivial) (fun _ _ _ _ _ => trivial)
    inquiries
  case room =>
    intro base hbase r hr
    exact freshRoom_unmeasured hbase hvalid hr.not_measurable
  case roomLike =>
    intro r e e' hlike hunmeasured hr
    exact (hunmeasured hr).of_like hlike

/-- A room without a floor. -/
def Room.gap : Room := { name := "gap", length := 0, width := 10, height := 9, doors := 1 }

/-- The usual estimator finds the door of a room without a floor, that it has no trim to paint, and
nothing else. -/
theorem replies_unmeasured_gap :
    Estimator.ofOptions { Options.usual with keepsResults := true } = .ok (.usual true) ∧
    Room.gap.Unusable ∧
    ∃ e, (Estimator.usual true).replies [.room .gap] = [.room e] ∧ e.Unmeasured .usual .gap ∧
      e.pricing = none ∧ Decimal.SameResult e.openingArea (some 21) ∧
      Decimal.SameResult e.trimLength (some 0) ∧
      e.failures.map (·.output) = ["perimeter", "gross_wall_area", "wall_area", "ceiling_area",
        "paintable_area", "gallons", "labor_hours", "good", "better", "best"] ∧
      ∀ f ∈ e.failures, f.error = .notAvailable := by
  have hgap : Room.gap.Unusable := Or.inl (Decimal.value_eq_zero_iff.2 rfl).le
  refine ⟨Estimator.ofOptions_usual true, hgap, ?_⟩
  have hunmeasured := replies_unmeasured (Estimator.ofOptions_usual true) [.room .gap]
  generalize (Estimator.usual true).replies [.room .gap] = replies at hunmeasured ⊢
  obtain - | @⟨_, reply, _, _, hreply, hnil⟩ := hunmeasured
  cases hnil
  cases reply with
  | project e => cases hreply
  | failed error => exact absurd (by decide) hreply
  | room e =>
      have h : e.Unmeasured .usual .gap := hreply hgap
      have hopenings : Room.gap.openingArea? .usual = some 21 := by decide +kernel
      have hexpected : ∀ summaries, summaries = (RoomOutput.all.filterMap fun o =>
          (Room.gap.unmeasured .usual o).error?.map fun error => (some "gap", o.key, o.label, error)) →
          summaries.map (·.2.2.1) = ["perimeter", "gross_wall_area", "wall_area", "ceiling_area",
            "paintable_area", "gallons", "labor_hours", "good", "better", "best"] ∧
          ∀ s ∈ summaries, s.2.2.2 = ErrorValue.notAvailable := by
        rintro _ rfl
        decide +kernel
      obtain ⟨hlabels, herrors⟩ := hexpected _ h.failures
      rw [List.map_map] at hlabels
      have hdoor : Decimal.SameResult e.openingArea
          (Amount.checked (Room.gap.openingArea? .usual)).toOption := h.measurement .openingArea
      rw [hopenings] at hdoor
      exact ⟨e, rfl, h, h.pricing, hdoor, h.measurement .trimLength, hlabels,
        fun f hf => herrors _ (List.mem_map_of_mem hf)⟩

end Estimate

end PaintQuote
