import PaintQuote.Estimate.Estimator
import PaintQuote.Proofs.Cache.Forms
import PaintQuote.Proofs.Decimal.Operations
import PaintQuote.Proofs.Engine.Requests

/-!
# Estimates up to the form of numbers

Two estimates are *like* when they are equal but for the form of their numbers: the same outputs are
missing for the same reasons, and the prices were changed in both or in none.  Readings that are like
give like estimates (`RoomEstimate.Like.ofReadings`, `ProjectEstimate.Like.ofReadings`), since prices are
put in order by what they are worth (`Tiers.inOrder_rel`).
-/

namespace PaintQuote.Estimate

open Sheet Engine

/-! ## Tiers -/

namespace Tiers

/-- The members of two tiers are related. -/
structure Rel {α β : Type} (R : α → β → Prop) (t : Tiers α) (t' : Tiers β) : Prop where
  good : R t.good t'.good
  better : R t.better t'.better
  best : R t.best t'.best

/-- Two prices are worth the same. -/
abbrev SamePrice (a b : Decimal) : Prop := a.same b = true

variable {t t' : Tiers Decimal}

theorem Rel.map {α β γ δ : Type} {R : α → β → Prop} {S : γ → δ → Prop} {f : α → γ} {g : β → δ}
    {t : Tiers α} {t' : Tiers β} (h : Rel R t t') (hfg : ∀ a b, R a b → S (f a) (g b)) :
    Rel S (t.map f) (t'.map g) := ⟨hfg _ _ h.good, hfg _ _ h.better, hfg _ _ h.best⟩

theorem Rel.toList {α β : Type} {R : α → β → Prop} {t : Tiers α} {t' : Tiers β} (h : Rel R t t') :
    List.Forall₂ R t.toList t'.toList := .cons h.good (.cons h.better (.cons h.best .nil))

theorem Rel.all? {α β : Type} {R : α → β → Prop} {t : Tiers (Option α)} {t' : Tiers (Option β)}
    (h : Rel (Option.Rel R) t t') : Option.Rel (Rel R) t.all? t'.all? := by
  obtain ⟨good, better, best⟩ := t
  obtain ⟨good', better', best'⟩ := t'
  obtain ⟨hgood, hbetter, hbest⟩ := h
  cases hgood with
  | none => exact .none
  | some hgood =>
      cases hbetter with
      | none => exact .none
      | some hbetter =>
          cases hbest with
          | none => exact .none
          | some hbest => exact .some ⟨hgood, hbetter, hbest⟩

/-! ### Order -/

theorem less_of_same {a a' b b' : Decimal} (ha : SamePrice a a') (hb : SamePrice b b') :
    a.less b = a'.less b' := by
  rw [Decimal.less, Decimal.less, Decimal.compare_of_same ha hb]

theorem lowerFirst_same {a a' b b' : Decimal} (ha : SamePrice a a') (hb : SamePrice b b') :
    SamePrice (lowerFirst a b).1 (lowerFirst a' b').1 ∧
      SamePrice (lowerFirst a b).2 (lowerFirst a' b').2 := by
  rw [lowerFirst, lowerFirst, less_of_same hb ha]
  split
  next => exact ⟨hb, ha⟩
  next => exact ⟨ha, hb⟩

theorem sorted_rel (h : Rel SamePrice t t') : Rel SamePrice t.sorted t'.sorted := by
  have hfirst := lowerFirst_same h.good h.better
  have hlast := lowerFirst_same hfirst.2 h.best
  have hagain := lowerFirst_same hfirst.1 hlast.1
  exact ⟨hagain.1, hagain.2, hlast.2⟩

theorem above_same (step : Decimal) {lower lower' price price' : Decimal}
    (hlower : SamePrice lower lower') (hprice : SamePrice price price') :
    SamePrice (above lower step price) (above lower' step price') := by
  rw [above, above, less_of_same hlower hprice]
  split
  next => exact hprice
  next =>
    have hsum := Decimal.add?_same hlower step.same_self
    generalize lower.add? step = sum at hsum ⊢
    generalize lower'.add? step = sum' at hsum ⊢
    cases hsum with
    | none => exact hprice
    | some hsum => exact hsum

theorem separated_rel (step : Decimal) (h : Rel SamePrice t t') :
    Rel SamePrice (t.separated step) (t'.separated step) := by
  have hbetter := above_same step h.good h.better
  exact ⟨h.good, hbetter, above_same step hbetter h.best⟩

/-- Prices are put in order by what they are worth. -/
theorem inOrder_rel (step : Decimal) (h : Rel SamePrice t t') :
    Rel SamePrice (t.inOrder step).1 (t'.inOrder step).1 ∧
      (t.inOrder step).2 = (t'.inOrder step).2 := by
  have hascending : t.isAscending = t'.isAscending := by
    rw [isAscending, isAscending, less_of_same h.good h.better, less_of_same h.better h.best]
  rw [inOrder, inOrder, hascending]
  split
  next => exact ⟨h, rfl⟩
  next => exact ⟨separated_rel step (sorted_rel h), rfl⟩

end Tiers

/-! ## Readings -/

namespace Reading

/-- Two readings are equal but for the form of a number. -/
inductive Like : Reading → Reading → Prop where
  /-- Two forms of one number. -/
  | number {m n : Decimal} : m.same n = true → Like (.ok m) (.ok n)
  /-- One failure. -/
  | failure (f : CellFailure) : Like (.error f) (.error f)

/-- What the outcome of a cell is as a reading. -/
def ofOutcome (o : Outcome) (room? : Option String) (output : String) (cell : CellKey) : Reading :=
  match o.value with
  | .number n => .ok n
  | v => .error ⟨room?, cell, output, v.error?.getD .value, reason o.issue? v⟩

/-- A reading off a report is the outcome that the engine shows. -/
theorem ofReport_eq (e : Engine) {keys : List CellKey} {cell : CellKey} (h : cell ∈ keys)
    (room? : Option String) (output : String) :
    ofReport (keys.foldl e.addToReport {}) room? output cell =
      ofOutcome (e.shown cell) room? output cell := by
  obtain ⟨hvalues, hissues⟩ := foldl_addToReport e keys {} cell
  have hissue : (keys.foldl e.addToReport {}).issues.get? cell = e.issue? cell := by
    rw [hissues]
    cases e.issue? cell with
    | none => exact ite_self _
    | some issue => exact if_pos ⟨h, rfl⟩
  rw [ofReport, hvalues, if_pos h, hissue, Option.getD_some, ← shown_value, ← shown_issue?]
  rfl

theorem Like.ofOutcome {o o' : Outcome} (h : o.Like o') (room? : Option String) (output : String)
    (cell : CellKey) : Like (ofOutcome o room? output cell) (ofOutcome o' room? output cell) := by
  obtain ⟨v, issue⟩ := o
  obtain ⟨v', issue'⟩ := o'
  obtain ⟨hvalue, rfl⟩ := h
  cases hvalue with
  | number h => exact .number h
  | refl =>
      cases v with
      | number n => exact .number n.same_self
      | _ => exact .failure _

namespace Like

variable {r r' : Reading}

theorem number? (h : r.Like r') : Decimal.SameResult r.number? r'.number? := by
  cases h with
  | number h => exact .some h
  | failure f => exact .none

theorem failure?_eq (h : r.Like r') : r.failure? = r'.failure? := by
  cases h <;> rfl

theorem value (h : r.Like r') : r.value.Like r'.value := by
  cases h with
  | number h => exact .number h
  | failure f => exact .refl _

end Like

end Reading

/-- Quotes of like prices are worth the same, and were changed alike. -/
def SameQuote (q q' : Tiers Decimal × Bool) : Prop :=
  Tiers.Rel Tiers.SamePrice q.1 q'.1 ∧ q.2 = q'.2

theorem quoted_rel (rates : Rates) {prices prices' : Tiers Reading}
    (h : Tiers.Rel Reading.Like prices prices') :
    Option.Rel SameQuote (quoted rates prices) (quoted rates prices') := by
  have hnumbers := (h.map (S := Decimal.SameResult) fun _ _ => Reading.Like.number?).all?
  rw [quoted, quoted]
  generalize (prices.map Reading.number?).all? = t at hnumbers ⊢
  generalize (prices'.map Reading.number?).all? = t' at hnumbers ⊢
  cases hnumbers with
  | none => exact .none
  | some h => exact .some (Tiers.inOrder_rel rates.tierStep h)

/-! ## Estimates -/

/-- Two estimates of a room are equal but for the form of their numbers. -/
structure RoomEstimate.Like (e e' : RoomEstimate) : Prop where
  room : e.room = e'.room
  perimeter : Decimal.SameResult e.perimeter e'.perimeter
  grossWallArea : Decimal.SameResult e.grossWallArea e'.grossWallArea
  openingArea : Decimal.SameResult e.openingArea e'.openingArea
  wallArea : Decimal.SameResult e.wallArea e'.wallArea
  ceilingArea : Decimal.SameResult e.ceilingArea e'.ceilingArea
  trimLength : Decimal.SameResult e.trimLength e'.trimLength
  paintableArea : Decimal.SameResult e.paintableArea e'.paintableArea
  gallons : Decimal.SameResult e.gallons e'.gallons
  laborHours : Decimal.SameResult e.laborHours e'.laborHours
  pricing : Option.Rel (Tiers.Rel Tiers.SamePrice) e.pricing e'.pricing
  isAdjusted : e.isAdjusted = e'.isAdjusted
  failures : e.failures = e'.failures

/-- Two sums over rooms are equal but for the form of their numbers. -/
structure ProjectTotals.Like (t t' : ProjectTotals) : Prop where
  rooms : t.rooms = t'.rooms
  paintableArea : Decimal.SameResult t.paintableArea t'.paintableArea
  gallons : Decimal.SameResult t.gallons t'.gallons
  laborHours : Decimal.SameResult t.laborHours t'.laborHours
  discount : Decimal.SameResult t.discount t'.discount

/-- Two estimates of a project are equal but for the form of their numbers. -/
structure ProjectEstimate.Like (e e' : ProjectEstimate) : Prop where
  rooms : List.Forall₂ RoomEstimate.Like e.rooms e'.rooms
  totals : e.totals.Like e'.totals
  pricing : Option.Rel (Tiers.Rel Tiers.SamePrice) e.pricing e'.pricing
  isAdjusted : e.isAdjusted = e'.isAdjusted
  failures : e.failures = e'.failures

/-- Two rows of a project are equal but for the form of their numbers. -/
structure ProjectRow.Like (r r' : ProjectRow) : Prop where
  name : r.name = r'.name
  area : r.area.Like r'.area
  gallons : r.gallons.Like r'.gallons
  hours : r.hours.Like r'.hours
  price : Tiers.Rel CellValue.Like r.price r'.price

section

variable (rates : Rates)

theorem pricing_rel {q? q?' : Option (Tiers Decimal × Bool)} (h : Option.Rel SameQuote q? q?') :
    Option.Rel (Tiers.Rel Tiers.SamePrice) (q?.map (·.1)) (q?'.map (·.1)) ∧
      (q?.map (·.2)).getD false = (q?'.map (·.2)).getD false := by
  cases h with
  | none => exact ⟨.none, rfl⟩
  | some h => exact ⟨.some h.1, h.2⟩

theorem failures_eq {α : Type} {read read' : α → Reading} (h : ∀ o, (read o).Like (read' o))
    (outputs : List α) : (outputs.filterMap fun o => (read o).failure?) =
      outputs.filterMap fun o => (read' o).failure? :=
  List.filterMap_congr fun o _ => (h o).failure?_eq

section

variable {read read' : RoomOutput → Reading} (h : ∀ o, (read o).Like (read' o))
include h

theorem RoomEstimate.prices_rel : Tiers.Rel Reading.Like (prices read) (prices read') :=
  ⟨h .good, h .better, h .best⟩

theorem RoomEstimate.Like.ofReadings (name : String) :
    (ofReadings rates name read).Like (ofReadings rates name read') := by
  obtain ⟨hpricing, hadjusted⟩ := pricing_rel (quoted_rel rates (prices_rel h))
  exact
    { room := rfl
      perimeter := (h .perimeter).number?
      grossWallArea := (h .grossWallArea).number?
      openingArea := (h .openingArea).number?
      wallArea := (h .wallArea).number?
      ceilingArea := (h .ceilingArea).number?
      trimLength := (h .trimLength).number?
      paintableArea := (h .paintableArea).number?
      gallons := (h .gallons).number?
      laborHours := (h .laborHours).number?
      pricing := hpricing
      isAdjusted := hadjusted
      failures := failures_eq h _ }

theorem ProjectRow.Like.ofReadings (name : String) :
    (RoomEstimate.rowOfReadings rates name read).Like
      (RoomEstimate.rowOfReadings rates name read') := by
  have hprices : Tiers.Rel CellValue.Like (RoomEstimate.rowPrices rates read)
      (RoomEstimate.rowPrices rates read') := by
    have hquoted := quoted_rel rates (RoomEstimate.prices_rel h)
    unfold RoomEstimate.rowPrices
    generalize quoted rates (RoomEstimate.prices read) = q at hquoted ⊢
    generalize quoted rates (RoomEstimate.prices read') = q' at hquoted ⊢
    cases hquoted with
    | none => exact (RoomEstimate.prices_rel h).map fun _ _ => Reading.Like.value
    | some hquoted => exact hquoted.1.map fun _ _ => CellValue.Like.number
  exact ⟨rfl, (h .paintableArea).value, (h .gallons).value, (h .laborHours).value, hprices⟩

end

theorem RoomEstimate.Like.flatMap_failures {rooms rooms' : List RoomEstimate}
    (h : List.Forall₂ RoomEstimate.Like rooms rooms') :
    rooms.flatMap (·.failures) = rooms'.flatMap (·.failures) := by
  induction h with
  | nil => rfl
  | cons hroom _ ih => rw [List.flatMap_cons, List.flatMap_cons, hroom.failures, ih]

theorem ProjectEstimate.Like.ofReadings {rooms rooms' : List RoomEstimate}
    (hrooms : List.Forall₂ RoomEstimate.Like rooms rooms') {read read' : ProjectOutput → Reading}
    (h : ∀ o, (read o).Like (read' o)) :
    (ofReadings rates rooms read).Like (ofReadings rates rooms' read') := by
  have hprices : Tiers.Rel Reading.Like (prices read) (prices read') := ⟨h .good, h .better, h .best⟩
  obtain ⟨hpricing, hadjusted⟩ := pricing_rel (quoted_rel rates hprices)
  have htotals : (totalsOfReadings rooms.length read).Like (totalsOfReadings rooms'.length read') :=
    ⟨hrooms.length_eq, (h .paintableArea).number?, (h .gallons).number?, (h .laborHours).number?,
      (h .discount).number?⟩
  exact ⟨hrooms, htotals, hpricing, hadjusted,
    congrArg₂ (· ++ ·) (RoomEstimate.Like.flatMap_failures hrooms) (failures_eq h _)⟩

end

end PaintQuote.Estimate
