import PaintQuote.Estimate.Estimator
import PaintQuote.Proofs.Estimate.Tiers

/-!
# Quoted prices

Whatever an estimator quotes, for a room or for a project, are prices that were read off a sheet and
made to rise by the step of the rates.  Rates without a fault have a positive step, so all quoted
prices are ordered as `Tiers.InOrder` says (`quotes_inOrder`).  They do not always rise: a step may be
lost on a price with as many digits as a decimal has, and it may be too large for the highest prices
(`prices_not_separated`).
-/

namespace PaintQuote.Estimate

/-! ## Rates -/

theorem Rates.isPositive_of_positiveFault? {name : String} {rate : Decimal}
    (h : positiveFault? name rate = none) : rate.isPositive = true := by
  unfold positiveFault? at h
  split at h
  next hpositive => exact hpositive
  next => cases h

theorem Rates.tierStep_isPositive {r : Rates} (h : r.fault? = none) :
    r.tierStep.isPositive = true := by
  simp only [fault?, Option.or_eq_none_iff] at h
  obtain ⟨-, -, -, -, -, hstep, -⟩ := h
  exact isPositive_of_positiveFault? hstep

/-! ## Readings -/

/-- The quoted prices, if there are any, are the ones that were read, made to rise. -/
def QuotedInOrder (rates : Rates) (prices : Tiers Reading) (quote? : Option (Tiers Decimal)) :
    Prop :=
  ∀ p ∈ quote?, ∃ t : Tiers Decimal, prices = t.map .ok ∧ p = (t.inOrder rates.tierStep).1 ∧
    Tiers.InOrder rates.tierStep t p

theorem Reading.number?_eq_some {r : Reading} {n : Decimal} : r.number? = some n ↔ r = .ok n := by
  cases r with
  | ok m => simp [number?, Except.toOption]
  | error f => simp [number?, Except.toOption]

theorem Tiers.all?_map_number? {prices : Tiers Reading} {t : Tiers Decimal}
    (h : (prices.map Reading.number?).all? = some t) : prices = t.map .ok := by
  obtain ⟨good, better, best⟩ := prices
  simp only [map, all?, Option.bind_eq_bind, Option.bind_eq_some_iff,
    Reading.number?_eq_some] at h
  obtain ⟨_, rfl, _, rfl, _, rfl, h⟩ := h
  cases h
  rfl

theorem quoted_inOrder {rates : Rates} (h : rates.fault? = none) (prices : Tiers Reading) :
    QuotedInOrder rates prices ((quoted rates prices).map (·.1)) := by
  intro p hp
  rw [quoted, Option.map_map, Option.mem_def, Option.map_eq_some_iff] at hp
  obtain ⟨t, ht, rfl⟩ := hp
  exact ⟨t, Tiers.all?_map_number? ht, rfl, Tiers.inOrder_spec t (Rates.tierStep_isPositive h)⟩

/-! ## Estimates -/

theorem bind_mapError_eq_ok {ε ε' α β : Type} {x : Except ε α} {f : ε → ε'}
    {g : α → Except ε' β} {b : β} :
    (x.mapError f >>= g) = .ok b ↔ ∃ a, x = .ok a ∧ g a = .ok b := by
  cases x with
  | ok a => simp [Except.mapError, bind, Except.bind]
  | error e => simp [Except.mapError, bind, Except.bind]

theorem Estimator.room_eq_ok {e e' : Estimator} {room : Room} {est : RoomEstimate}
    (h : e.room room = .ok (est, e')) :
    ∃ read cache, readRoom e.options.rates e.cache room = .ok (read, cache) ∧
      est = .ofReadings e.options.rates room.name read := by
  unfold Estimator.room at h
  obtain ⟨⟨read, cache⟩, hread, h⟩ := bind_mapError_eq_ok.1 h
  cases h
  exact ⟨read, cache, hread, rfl⟩

theorem Estimator.project_eq_ok {e e' : Estimator} {rooms : List Room} {est : ProjectEstimate}
    (h : e.project rooms = .ok (est, e')) :
    ∃ reads cache read cache', readRooms e.options.rates e.cache rooms = .ok (reads, cache) ∧
      readProject e.options.rates cache
          (reads.map fun r => RoomEstimate.rowOfReadings e.options.rates r.1 r.2) =
        .ok (read, cache') ∧
      est = .ofReadings e.options.rates
        (reads.map fun r => RoomEstimate.ofReadings e.options.rates r.1 r.2) read := by
  unfold Estimator.project at h
  cases hempty : rooms.isEmpty with
  | true =>
      rw [hempty] at h
      cases h
  | false =>
      rw [hempty] at h
      obtain ⟨⟨reads, cache⟩, hreads, h⟩ := bind_mapError_eq_ok.1 h
      obtain ⟨⟨read, cache'⟩, hread, h⟩ := bind_mapError_eq_ok.1 h
      cases h
      exact ⟨reads, cache, read, cache', hreads, hread, rfl⟩

/-- There are readings of any rooms if the rates fit on their sheet. -/
theorem exists_readRooms {rates : Rates} (h : ∃ engine, ratesEngine rates = .ok engine) :
    ∀ (rooms : List Room) (cache : Option Engine.ResultCache),
      ∃ r, readRooms rates cache rooms = .ok r
  | [], cache => ⟨_, rfl⟩
  | room :: rooms, cache => by
      obtain ⟨engine, hengine⟩ := h
      obtain ⟨⟨read, cache'⟩, hread⟩ : ∃ r, readRoom rates cache room = .ok r :=
        ⟨_, by rw [readRoom, roomEngine, hengine]; rfl⟩
      obtain ⟨⟨reads, cache''⟩, hreads⟩ := exists_readRooms ⟨engine, hengine⟩ rooms cache'
      refine ⟨((room.name, read) :: reads, cache''), ?_⟩
      rw [readRooms, hread]
      simp only [bind, Except.bind, hreads]

/-- There is an estimate of any room if the rates fit on their sheet. -/
theorem Estimator.exists_room (e : Estimator) {engine : Engine}
    (h : ratesEngine e.options.rates = .ok engine) (room : Room) :
    ∃ est e', e.room room = .ok (est, e') := by
  obtain ⟨⟨read, cache⟩, hread⟩ : ∃ r, readRoom e.options.rates e.cache room = .ok r :=
    ⟨_, by rw [readRoom, roomEngine, h]; rfl⟩
  exact ⟨_, _, by rw [Estimator.room, hread]; rfl⟩

/-- There is an estimate of any project with rooms if the rates fit on their sheet. -/
theorem Estimator.exists_project (e : Estimator) {engine : Engine}
    (h : ratesEngine e.options.rates = .ok engine) {rooms : List Room} (hrooms : rooms ≠ []) :
    ∃ est e', e.project rooms = .ok (est, e') := by
  obtain ⟨⟨reads, cache⟩, hreads⟩ := exists_readRooms ⟨engine, h⟩ rooms e.cache
  obtain ⟨⟨read, cache'⟩, hread⟩ : ∃ r, readProject e.options.rates cache
      (reads.map fun r => RoomEstimate.rowOfReadings e.options.rates r.1 r.2) = .ok r :=
    ⟨_, by rw [readProject, projectEngine, h]; rfl⟩
  refine ⟨.ofReadings e.options.rates
    (reads.map fun r => RoomEstimate.ofReadings e.options.rates r.1 r.2) read,
    { e with cache := cache' }, ?_⟩
  rw [Estimator.project, if_neg (by simpa using hrooms)]
  simp only [Except.mapError, bind, Except.bind, hreads, hread]

/-! ## All prices -/

namespace Estimator

/-- The quoted prices of a room are those read off its sheet, in order. -/
def RoomInOrder (e : Estimator) (room : Room) (est : RoomEstimate) : Prop :=
  ∃ read cache, readRoom e.options.rates e.cache room = .ok (read, cache) ∧
    QuotedInOrder e.options.rates (RoomEstimate.prices read) est.pricing

/-- The quoted prices of a project and those of its rooms are the ones read off their sheets, in
order. -/
def ProjectInOrder (e : Estimator) (rooms : List Room) (est : ProjectEstimate) : Prop :=
  ∃ reads cache read cache', readRooms e.options.rates e.cache rooms = .ok (reads, cache) ∧
    readProject e.options.rates cache
        (reads.map fun r => RoomEstimate.rowOfReadings e.options.rates r.1 r.2) =
      .ok (read, cache') ∧
    List.Forall₂
      (fun r est => QuotedInOrder e.options.rates (RoomEstimate.prices r.2) est.pricing)
      reads est.rooms ∧
    QuotedInOrder e.options.rates (ProjectEstimate.prices read) est.pricing

end Estimator

/-- Prices that are made to rise by a positive step are ordered as `Tiers.InOrder` says, and so are
all prices that an estimator quotes whose rates have no fault: those of a room, those of the rooms of
a project, and those of a project. -/
theorem quotes_inOrder :
    (∀ (step : Decimal) (t : Tiers Decimal), step.isPositive = true →
      Tiers.InOrder step t (t.inOrder step).1) ∧
    ∀ e : Estimator, e.options.rates.fault? = none →
      (∀ room est e', e.room room = .ok (est, e') → e.RoomInOrder room est) ∧
      ∀ rooms est e', e.project rooms = .ok (est, e') → e.ProjectInOrder rooms est := by
  refine ⟨fun step t hstep => Tiers.inOrder_spec t hstep, fun e hrates => ⟨?room, ?project⟩⟩
  case room =>
    intro room est e' h
    obtain ⟨read, cache, hread, rfl⟩ := Estimator.room_eq_ok h
    exact ⟨read, cache, hread, quoted_inOrder hrates _⟩
  case project =>
    intro rooms est e' h
    obtain ⟨reads, cache, read, cache', hreads, hread, rfl⟩ := Estimator.project_eq_ok h
    refine ⟨reads, cache, read, cache', hreads, hread, ?_, quoted_inOrder hrates _⟩
    refine List.forall₂_map_right_iff.2 (List.forall₂_same.2 fun r _ => ?_)
    exact quoted_inOrder hrates _

/-- Three prices so high that a cent is lost on them do not rise although no sum is too large; and a
middle price may be raised beyond a top price that cannot be raised itself. -/
theorem prices_not_separated :
    ((Decimal.scaled 1 2).isPositive = true ∧
      (∀ r ∈ Tiers.raises (Decimal.scaled 1 2) ⟨10000000000000000000000000000,
        10000000000000000000000000000, 10000000000000000000000000000⟩, ¬ r.Overflows) ∧
      ((⟨10000000000000000000000000000, 10000000000000000000000000000,
        10000000000000000000000000000⟩ : Tiers Decimal).inOrder
          (Decimal.scaled 1 2)).1.isAscending = false) ∧
    (25 : Decimal).isPositive = true ∧
      (⟨79228162514264337593543950305, 79228162514264337593543950305,
        79228162514264337593543950325⟩ : Tiers Decimal).inOrder 25 =
      (⟨79228162514264337593543950305, 79228162514264337593543950330,
        79228162514264337593543950325⟩, true) := by
  decide +kernel

/-- The usual rates with one discount. -/
def Rates.oneDiscount : Rates := { Rates.usual with discounts := [⟨1, 0⟩] }

theorem Rates.sortedDiscounts_oneDiscount : oneDiscount.sortedDiscounts = [⟨1, 0⟩] :=
  List.mergeSort_singleton _

/-- An estimator that keeps no results. -/
def Estimator.oneDiscount : Estimator := ⟨{ Options.forgetful with rates := .oneDiscount }, none⟩

/-- A room so small that all of its prices are the least price. -/
def Room.closet : Room := { name := "closet", length := 1, width := 1, height := 1 }

/-- The rates with one discount fit on their sheet. -/
theorem Rates.exists_engine_oneDiscount : ∃ engine, ratesEngine oneDiscount = .ok engine := by
  have hsome : (ratesEngine oneDiscount).toOption.isSome = true := by
    simp only [ratesEngine, Layout.rateEntries, sortedDiscounts_oneDiscount]
    decide +kernel
  cases h : ratesEngine oneDiscount with
  | ok engine => exact ⟨engine, rfl⟩
  | error error =>
      rw [h] at hsome
      cases hsome

/-- Prices of 350 are quoted in order, and so are the prices of the closet, for itself and as a
project. -/
theorem closet_inOrder :
    Tiers.InOrder 25 ⟨350, 350, 350⟩ ((⟨350, 350, 350⟩ : Tiers Decimal).inOrder 25).1 ∧
    quoted .oneDiscount ⟨.ok 350, .ok 350, .ok 350⟩ = some (⟨350, 375, 400⟩, true) ∧
    (∃ est e', Estimator.oneDiscount.room .closet = .ok (est, e') ∧
      Estimator.oneDiscount.RoomInOrder .closet est) ∧
    ∃ est e', Estimator.oneDiscount.project [.closet] = .ok (est, e') ∧
      Estimator.oneDiscount.ProjectInOrder [.closet] est := by
  have hfault : Estimator.oneDiscount.options.rates.fault? = none := by decide +kernel
  obtain ⟨hroom, hproject⟩ := quotes_inOrder.2 Estimator.oneDiscount hfault
  obtain ⟨engine, hengine⟩ := Rates.exists_engine_oneDiscount
  obtain ⟨est, e', hest⟩ := Estimator.oneDiscount.exists_room hengine .closet
  obtain ⟨est', e'', hest'⟩ :=
    Estimator.oneDiscount.exists_project hengine (List.cons_ne_nil Room.closet [])
  exact ⟨quotes_inOrder.1 25 ⟨350, 350, 350⟩ (by decide), by decide +kernel,
    ⟨est, e', hest, hroom _ _ _ hest⟩, est', e'', hest', hproject _ _ _ hest'⟩

end PaintQuote.Estimate
