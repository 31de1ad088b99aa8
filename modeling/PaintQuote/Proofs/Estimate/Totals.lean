import PaintQuote.Proofs.Estimate.Amounts
import PaintQuote.Proofs.Estimate.Measures
import PaintQuote.Proofs.Estimate.ProjectSheet

/-!
# Totals

A project has the sums over its rooms of what is painted, needed and worked: each is the sum of the
numbers of the rooms from the first one on, or else the error of the first room without a number
(`ProjectEstimate.Totalled`).  If all rooms have prices, the prices of the project are computed from the
quoted prices of the rooms, and then put in order (`ProjectEstimate.Priced`).  This is so for every project
whose rooms have rows on the sheet, with or without a cache and whatever was asked before
(`replies_totalled`).  The discount is always the one for the number of rooms, whether or not they have
numbers (`replies_discounted`).
-/

namespace PaintQuote

open Sheet Formula Engine Estimate

namespace Estimate

/-! ## Totals -/

/-- What is summed up over the rooms of a project. -/
inductive Total where
  | paintableArea | gallons | laborHours
deriving DecidableEq, Repr

namespace Total

/-- What is summed up of a room. -/
def measurement : Total → Measurement
  | paintableArea => .paintableArea
  | gallons => .gallons
  | laborHours => .laborHours

/-- The output that shows a total. -/
def output : Total → ProjectOutput
  | paintableArea => .paintableArea
  | gallons => .gallons
  | laborHours => .laborHours

end Total

/-- The amount of a measurement in an estimate. -/
def RoomEstimate.amount? (e : RoomEstimate) (m : Measurement) : Option Amount :=
  amountOf? (e.measurement? m) (e.failures.filter (·.output == m.output.label))

/-- A total in the totals of a project. -/
def ProjectTotals.total? (totals : ProjectTotals) : Total → Option Decimal
  | .paintableArea => totals.paintableArea
  | .gallons => totals.gallons
  | .laborHours => totals.laborHours

/-- The prices of a project before they are put in order, for the quoted prices of its rooms. -/
def projectPrices (rates : Rates) (discount : Decimal) (quotes : List (Tiers Decimal)) :
    Tiers (Option Decimal) :=
  ⟨projectPrice? rates discount (quotes.map (·.good)), projectPrice? rates discount (quotes.map (·.better)),
    projectPrice? rates discount (quotes.map (·.best))⟩

/-- The outputs that show the prices of a project. -/
def ProjectOutput.prices : Tiers ProjectOutput := ⟨.good, .better, .best⟩

namespace ProjectEstimate

/-- Every total is the sum of the amounts of the rooms. -/
def Totalled (e : ProjectEstimate) : Prop :=
  ∀ t : Total, ∃ amounts total,
    List.Forall₂ (fun (r : RoomEstimate) a => r.amount? t.measurement = some a) e.rooms amounts ∧
    amountOf? (e.totals.total? t) (e.failuresOf t.output) = some total ∧ total.Same (.sum amounts)

/-- The prices of a project are the given ones, put in order, unless one of them is missing.  Such a one
fails with the error of numbers. -/
structure Priced (rates : Rates) (prices : Tiers (Option Decimal)) (e : ProjectEstimate) : Prop where
  pricing : Option.Rel (Tiers.Rel Tiers.SamePrice) e.pricing
    (prices.all?.map fun t => (t.inOrder rates.tierStep).1)
  isAdjusted : e.isAdjusted = (prices.all?.map fun t => (t.inOrder rates.tierStep).2).getD false
  failures : Tiers.Rel (fun price? o => amountOf? price? (e.failuresOf o) = some (.checked price?)) prices
    ProjectOutput.prices

/-- A project has a discount, and prices for the quoted prices of its rooms if all of them have some. -/
def Quoted (rates : Rates) (e : ProjectEstimate) : Prop :=
  ∃ discount, amountOf? e.totals.discount (e.failuresOf .discount) = some (.ok discount) ∧
    ∀ quotes, e.rooms.map (·.pricing) = quotes.map some → e.Priced rates (projectPrices rates discount quotes)

end ProjectEstimate

/-! ## Without a cache -/

/-- The total of cells with amounts is the sum of the amounts. -/
theorem cellTotal_values (amounts : List Amount) :
    Functions.cellTotal (amounts.map Amount.value) = (Amount.sum amounts).value := by
  rw [Functions.cellTotal, Amount.cellNumbers_values, Amount.sum]
  cases (amounts.mapM id : Except ErrorValue (List Decimal)) with
  | error e => rfl
  | ok ns => exact (Amount.value_checked _).symm

theorem amount?_freshRoom (rates : Rates) (base : Engine) (r : Room) (m : Measurement) :
    (freshRoom rates base r).amount? m = some (freshReadings base r m.output).amount := by
  rw [RoomEstimate.amount?, measurement?_freshRoom, filter_failures_freshRoom, Reading.amountOf?_reading]

/-- What the row of a room has of a total. -/
def ProjectRow.share (row : ProjectRow) : Total → CellValue
  | .paintableArea => row.area
  | .gallons => row.gallons
  | .laborHours => row.hours

/-- The row of a room with a quote has its prices. -/
theorem price_rowOfReadings {rates : Rates} {name : String} {read : RoomOutput → Reading}
    {quote : Tiers Decimal} (h : (RoomEstimate.ofReadings rates name read).pricing = some quote) :
    (RoomEstimate.rowOfReadings rates name read).price = quote.map .number := by
  obtain ⟨⟨_, _⟩, hquoted, rfl⟩ := Option.map_eq_some_iff.1 h
  show RoomEstimate.rowPrices rates read = _
  rw [RoomEstimate.rowPrices, hquoted]

section

variable {rates : Rates} {base : Engine} (hbase : ratesEngine rates = .ok base) (rooms : List Room)

/-- The rows of a project without a cache. -/
def freshRows (rates : Rates) (base : Engine) (rooms : List Room) : List ProjectRow :=
  rooms.map fun r => RoomEstimate.rowOfReadings rates r.name (freshReadings base r)

theorem length_freshRows : (freshRows rates base rooms).length = rooms.length := List.length_map _

theorem freshRows_ne_nil {rooms : List Room} (hrooms : rooms ≠ []) : freshRows rates base rooms ≠ [] :=
  fun h => hrooms (List.map_eq_nil_iff.1 h)

theorem total?_freshProject (rates : Rates) (base : Engine) (rooms : List Room) (t : Total) :
    (freshProject rates base rooms).totals.total? t =
      (projectReadings ((freshPage rates base rooms).evaluated base) t.output).number? := by
  cases t <;> rfl

include hbase

/-- The amount that is read off a cell of a project. -/
theorem amount_projectReadings {o : ProjectOutput} {a : Amount}
    (h : (Page.project (freshRows rates base rooms)).value base o.key = a.value) :
    (projectReadings ((freshPage rates base rooms).evaluated base) o).amount = a := by
  have hread := projectReadings_eq (bare_of_ratesEngine hbase) (freshRows rates base rooms) o
  exact (congrArg Reading.amount hread).trans (Reading.amount_ofOutcome h none o.label o.key)

/-- The amount of an output of a project is that of its cell. -/
theorem amountOf?_freshProject {o : ProjectOutput} {a : Amount}
    (h : (Page.project (freshRows rates base rooms)).value base o.key = a.value) :
    amountOf? (projectReadings ((freshPage rates base rooms).evaluated base) o).number?
      ((freshProject rates base rooms).failuresOf o) = some a := by
  rw [failuresOf_freshProject, Reading.amountOf?_reading, amount_projectReadings hbase rooms h]

/-- A project has the prices of its cells, put in order. -/
theorem freshProject_priced {prices : Tiers (Option Decimal)}
    (h : Tiers.Rel (fun price? o =>
      (Page.project (freshRows rates base rooms)).value base (ProjectOutput.key o) = .checked price?)
      prices ProjectOutput.prices) : (freshProject rates base rooms).Priced rates prices := by
  have hnumber : ∀ {o : ProjectOutput} {price? : Option Decimal},
      (Page.project (freshRows rates base rooms)).value base o.key = .checked price? →
      (projectReadings ((freshPage rates base rooms).evaluated base) o).number? = price? := by
    intro o price? h
    rw [← Amount.value_checked] at h
    exact Reading.number?_of_amount (amount_projectReadings hbase rooms h)
  have hfailures : ∀ {o : ProjectOutput} {price? : Option Decimal},
      (Page.project (freshRows rates base rooms)).value base o.key = .checked price? →
      amountOf? price? ((freshProject rates base rooms).failuresOf o) = some (.checked price?) := by
    intro o price? h
    have hamount := amountOf?_freshProject hbase rooms (h.trans (Amount.value_checked price?).symm)
    rwa [hnumber h] at hamount
  have hprices : (ProjectEstimate.prices
      (projectReadings ((freshPage rates base rooms).evaluated base))).map Reading.number? = prices :=
    (Tiers.mk.injEq ..).mpr ⟨hnumber h.good, hnumber h.better, hnumber h.best⟩
  have hquoted : quoted rates (ProjectEstimate.prices
      (projectReadings ((freshPage rates base rooms).evaluated base))) =
      prices.all?.map (·.inOrder rates.tierStep) := by
    rw [quoted, hprices]
  refine ⟨?_, ?_, ⟨hfailures h.good, hfailures h.better, hfailures h.best⟩⟩
  · show Option.Rel _ ((quoted rates _).map (·.1)) _
    rw [hquoted, Option.map_map]
    exact samePricing_iff_normalize.2 rfl
  · show ((quoted rates _).map (·.2)).getD false = _
    rw [hquoted, Option.map_map]
    rfl

variable {rooms} (hrooms : rooms ≠ []) (hfit : rooms.length < rowLimit)
include hrooms hfit

/-- The cell of a total has the sum of the amounts of the rooms. -/
theorem value_total (t : Total) :
    (Page.project (freshRows rates base rooms)).value base t.output.key =
      (Amount.sum (rooms.map fun r => (freshReadings base r t.measurement.output).amount)).value := by
  have hshares : (freshRows rates base rooms).map (·.share t) =
      (rooms.map fun r => (freshReadings base r t.measurement.output).amount).map Amount.value := by
    rw [freshRows, List.map_map, List.map_map]
    refine List.map_congr_left fun r _ => ?_
    simp only [Function.comp_apply, Reading.value_amount]
    cases t <;> rfl
  have hfit' : (freshRows rates base rooms).length < rowLimit := (length_freshRows rooms).symm ▸ hfit
  have hrows : freshRows rates base rooms ≠ [] := freshRows_ne_nil hrooms
  rw [← cellTotal_values, ← hshares]
  cases t with
  | paintableArea =>
      exact Page.value_of_totalExpr hbase hfit' (i := 0) rfl (Functions.cellTotal_ne_empty _)
        (Page.gives_total hbase hrows _ fun _ _ => rfl)
  | gallons =>
      exact Page.value_of_totalExpr hbase hfit' (i := 1) rfl (Functions.cellTotal_ne_empty _)
        (Page.gives_total hbase hrows _ fun _ _ => rfl)
  | laborHours =>
      exact Page.value_of_totalExpr hbase hfit' (i := 2) rfl (Functions.cellTotal_ne_empty _)
        (Page.gives_total hbase hrows _ fun _ _ => rfl)

theorem freshProject_totalled : (freshProject rates base rooms).Totalled := by
  intro t
  refine ⟨rooms.map fun r => (freshReadings base r t.measurement.output).amount, _, ?_, ?_,
    .of_eq Decimal.same_self rfl⟩
  · refine List.forall₂_map_left_iff.2 (List.forall₂_map_right_iff.2 (List.forall₂_same.2 fun r _ => ?_))
    exact amount?_freshRoom rates base r _
  · rw [total?_freshProject]
    exact amountOf?_freshProject hbase rooms (value_total hbase hrooms hfit t)

variable (hvalid : rates.fault? = none)
include hvalid

/-- The cells of the prices have what is computed from the quoted prices of the rooms. -/
theorem value_projectPrices {discount : Decimal}
    (hd : (Page.project (freshRows rates base rooms)).value base ProjectOutput.discount.key =
      .number discount)
    {quotes : List (Tiers Decimal)}
    (hquotes : rooms.map (fun r => (freshRoom rates base r).pricing) = quotes.map some) :
    Tiers.Rel (fun price? o =>
      (Page.project (freshRows rates base rooms)).value base (ProjectOutput.key o) = .checked price?)
      (projectPrices rates discount quotes) ProjectOutput.prices := by
  have hfit' : (freshRows rates base rooms).length < rowLimit := (length_freshRows rooms).symm ▸ hfit
  have hrows : freshRows rates base rooms ≠ [] := freshRows_ne_nil hrooms
  have hprice : (freshRows rates base rooms).map (·.price) = quotes.map (Tiers.map .number) := by
    rw [freshRows, List.map_map]
    have hall := map_eq_map_iff_forall₂.1 hquotes
    exact map_eq_map_iff_forall₂.2 (hall.imp fun r quote h => price_rowOfReadings h)
  have hcolumn : ∀ tier : {α : Type} → Tiers α → α,
      (∀ t : Tiers Decimal, tier (t.map CellValue.number) = .number (tier t)) →
      (freshRows rates base rooms).map (fun row => tier row.price) =
        (quotes.map fun t => tier t).map .number := by
    intro tier htier
    have hmap := congrArg (List.map fun t : Tiers CellValue => tier t) hprice
    rw [List.map_map, List.map_map] at hmap
    rw [List.map_map]
    refine hmap.trans (List.map_congr_left fun t _ => htier t)
  exact
    { good := Page.value_price hbase hfit' hrows hvalid hd (i := 5) (j := 4) rfl (·.price.good)
        (fun _ _ => rfl) (hcolumn (·.good) fun _ => rfl)
      better := Page.value_price hbase hfit' hrows hvalid hd (i := 6) (j := 5) rfl (·.price.better)
        (fun _ _ => rfl) (hcolumn (·.better) fun _ => rfl)
      best := Page.value_price hbase hfit' hrows hvalid hd (i := 7) (j := 6) rfl (·.price.best)
        (fun _ _ => rfl) (hcolumn (·.best) fun _ => rfl) }

theorem freshProject_quoted : (freshProject rates base rooms).Quoted rates := by
  have hfit' : (freshRows rates base rooms).length < rowLimit := (length_freshRows rooms).symm ▸ hfit
  have hrows : freshRows rates base rooms ≠ [] := freshRows_ne_nil hrooms
  obtain ⟨d, -, hd⟩ := Page.exists_discount hbase hfit' hrows hvalid
  refine ⟨d.discount, amountOf?_freshProject hbase rooms (a := .ok d.discount) hd, fun quotes hquotes => ?_⟩
  rw [freshProject, ProjectEstimate.ofReadings, List.map_map] at hquotes
  exact freshProject_priced hbase rooms (value_projectPrices hbase hrooms hfit hvalid hd hquotes)

end

/-! ## With a cache -/

theorem projectPrice?_same (rates : Rates) {d d' : Decimal} (hd : d.same d' = true)
    {prices prices' : List Decimal} (h : List.Forall₂ SameNumber prices prices') :
    Decimal.SameResult (projectPrice? rates d prices) (projectPrice? rates d' prices') := by
  refine Decimal.rel_bind (sumOf_same h) fun sum sum' hsum => ?_
  refine Decimal.rel_bind (Decimal.sub?_same (Decimal.same_self 1) hd) fun part part' hpart => ?_
  refine Decimal.rel_bind (Decimal.mul?_same hsum hpart) fun price price' hprice => .some ?_
  rw [Tiers.less_of_same hprice (Decimal.same_self rates.projectMinimum)]
  split
  next => exact Decimal.same_self _
  next => exact Decimal.round_same hprice 2 .halfAway

theorem projectPrices_rel (rates : Rates) {d d' : Decimal} (hd : d.same d' = true)
    {quotes quotes' : List (Tiers Decimal)}
    (h : List.Forall₂ (Tiers.Rel Tiers.SamePrice) quotes quotes') :
    Tiers.Rel Decimal.SameResult (projectPrices rates d quotes) (projectPrices rates d' quotes') := by
  have hcolumn : ∀ tier : Tiers Decimal → Decimal,
      (∀ t t', Tiers.Rel Tiers.SamePrice t t' → SameNumber (tier t) (tier t')) →
      List.Forall₂ SameNumber (quotes.map tier) (quotes'.map tier) := fun tier htier =>
    List.forall₂_map_left_iff.2 (List.forall₂_map_right_iff.2 (h.imp htier))
  exact ⟨projectPrice?_same rates hd (hcolumn (·.good) fun _ _ => (·.good)),
    projectPrice?_same rates hd (hcolumn (·.better) fun _ _ => (·.better)),
    projectPrice?_same rates hd (hcolumn (·.best) fun _ _ => (·.best))⟩

namespace RoomEstimate.Like

variable {e e' : RoomEstimate}

theorem amount? (h : e.Like e') (m : Measurement) : Option.Rel Amount.Same (e.amount? m) (e'.amount? m) := by
  rw [RoomEstimate.amount?, RoomEstimate.amount?, h.failures]
  exact amountOf?_rel (h.measurement? m) _

theorem map_room {es es' : List RoomEstimate} (h : List.Forall₂ RoomEstimate.Like es es') :
    es.map (·.room) = es'.map (·.room) :=
  map_eq_map_iff_forall₂.2 (h.imp fun _ _ hroom => hroom.room)

end RoomEstimate.Like

theorem rel_flip {α β : Type} {R : α → β → Prop} {a? : Option α} {b? : Option β} (h : Option.Rel R a? b?) :
    Option.Rel (fun b a => R a b) b? a? := by
  cases h with
  | none => exact .none
  | some h => exact .some h

/-- What related members of two lists have is there in both or in neither. -/
theorem exists_forall₂_of_rel {α β γ : Type} {R : β → γ → Prop} {S : α → α → Prop} {f : α → Option β}
    {g : α → Option γ} (hfg : ∀ a a', S a a' → Option.Rel R (f a) (g a')) {as as' : List α}
    (h : List.Forall₂ S as as') : ∀ {cs : List γ}, List.Forall₂ (fun a c => g a = some c) as' cs →
      ∃ bs, List.Forall₂ (fun a b => f a = some b) as bs ∧ List.Forall₂ R bs cs := by
  induction h with
  | nil =>
      intro cs h
      cases h
      exact ⟨[], .nil, .nil⟩
  | @cons a a' _ _ haa' _ ih =>
      intro cs h
      obtain - | ⟨hc, h⟩ := h
      obtain ⟨bs, hbs, hrel⟩ := ih h
      have hb := hfg a a' haa'
      rw [hc] at hb
      generalize hfa : f a = b? at hb
      cases hb with
      | some hb => exact ⟨_ :: bs, .cons hfa hbs, .cons hb hrel⟩

theorem ProjectEstimate.Like.failuresOf {e e' : ProjectEstimate} (h : e.Like e') (o : ProjectOutput) :
    e.failuresOf o = e'.failuresOf o := by
  rw [ProjectEstimate.failuresOf, h.failures, ProjectEstimate.failuresOf]

theorem ProjectEstimate.Like.total? {e e' : ProjectEstimate} (h : e.Like e') (t : Total) :
    Decimal.SameResult (e.totals.total? t) (e'.totals.total? t) := by
  cases t with
  | paintableArea => exact h.totals.paintableArea
  | gallons => exact h.totals.gallons
  | laborHours => exact h.totals.laborHours

namespace ProjectEstimate

variable {e e' : ProjectEstimate} (h : e.Like e')
include h

theorem Totalled.of_like (htotalled : e'.Totalled) : e.Totalled := by
  intro t
  obtain ⟨amounts', total', hamounts', htotal', hsum'⟩ := htotalled t
  obtain ⟨amounts, hamounts, hsame⟩ := exists_forall₂_of_rel (f := (·.amount? t.measurement))
    (fun _ _ hroom => hroom.amount? t.measurement) h.rooms hamounts'
  have hamount := amountOf?_rel (h.total? t) (e.failuresOf t.output)
  rw [h.failuresOf, htotal', ← h.failuresOf] at hamount
  generalize amountOf? (e.totals.total? t) (e.failuresOf t.output) = total? at hamount
  cases hamount with
  | some hamount =>
      exact ⟨amounts, _, hamounts, rfl, (hamount.trans hsum').trans (Amount.sum_same hsame).symm⟩

theorem Priced.of_like {rates : Rates} {prices prices' : Tiers (Option Decimal)}
    (hprices : Tiers.Rel Decimal.SameResult prices prices') (hpriced : e'.Priced rates prices') :
    e.Priced rates prices := by
  have horder : Option.Rel SameQuote (prices.all?.map (·.inOrder rates.tierStep))
      (prices'.all?.map (·.inOrder rates.tierStep)) := by
    have hall := hprices.all?
    generalize prices.all? = all at hall ⊢
    generalize prices'.all? = all' at hall ⊢
    cases hall with
    | none => exact .none
    | some hall => exact .some (Tiers.inOrder_rel rates.tierStep hall)
  obtain ⟨hpricing, hadjusted⟩ := pricing_rel horder
  rw [Option.map_map, Option.map_map] at hpricing hadjusted
  have hfailures : ∀ {price? price?' : Option Decimal} {o : ProjectOutput},
      Decimal.SameResult price? price?' → amountOf? price?' (e'.failuresOf o) = some (.checked price?') →
      amountOf? price? (e.failuresOf o) = some (.checked price?) := by
    intro price? price?' o hsame h'
    rw [h.failuresOf]
    cases hsame with
    | none => exact h'
    | some hsame =>
        cases hfs : e'.failuresOf o with
        | nil => rfl
        | cons f fs =>
            rw [hfs] at h'
            cases h'
  refine ⟨?_, ?_, ?_⟩
  · rw [samePricing_iff_normalize] at hpricing ⊢
    exact (samePricing_iff_normalize.1 h.pricing).trans
      ((samePricing_iff_normalize.1 hpriced.pricing).trans hpricing.symm)
  · exact h.isAdjusted.trans (hpriced.isAdjusted.trans hadjusted.symm)
  · exact ⟨hfailures hprices.good hpriced.failures.good, hfailures hprices.better hpriced.failures.better,
      hfailures hprices.best hpriced.failures.best⟩

theorem Quoted.of_like {rates : Rates} (hquoted : e'.Quoted rates) : e.Quoted rates := by
  obtain ⟨d', hd', hprices⟩ := hquoted
  have hamount := amountOf?_rel h.totals.discount (e.failuresOf .discount)
  rw [h.failuresOf, hd', ← h.failuresOf] at hamount
  unfold Quoted
  generalize amountOf? e.totals.discount (e.failuresOf .discount) = discount? at hamount ⊢
  cases hamount with
  | some hamount =>
      cases hamount with
      | ok hsame =>
          refine ⟨_, rfl, fun quotes hquotes => ?_⟩
          have hall := map_eq_map_iff_forall₂.1 hquotes
          obtain ⟨quotes', hall', hrel⟩ := exists_forall₂_of_rel (R := fun q q' => Tiers.Rel Tiers.SamePrice q' q)
            (f := (·.pricing)) (S := fun (r : RoomEstimate) r' => r'.Like r)
            (fun _ _ hroom => rel_flip hroom.pricing) h.rooms.flip hall
          have hquotes' := map_eq_map_iff_forall₂.2 hall'
          exact (hprices quotes' hquotes').of_like h (projectPrices_rel rates hsame hrel.flip)

end ProjectEstimate

/-! ## All estimators -/

/-- A reply has the totals and the prices of a project whose rooms have rows on the sheet.  There is no
reply for a project without rooms, or if the rates do not fit on their sheet. -/
def Inquiry.Totalled (rates : Rates) : Inquiry → Reply → Prop
  | project rooms, .project e => e.rooms.map (·.room) = rooms.map (·.name) ∧
      (rooms.length < rowLimit → e.Totalled ∧ e.Quoted rates)
  | project rooms, .failed error => rooms = [] ∧ error = .noRooms ∨ ¬ rates.Fits
  | project _, .room _ => False
  | room _, _ => True

/-- Whatever an estimator was asked before, with or without a cache, the totals of a project are the sums of
the numbers of its rooms, and its prices are computed from their quoted prices. -/
theorem replies_totalled {options : Options} {est : Estimator} (h : Estimator.ofOptions options = .ok est)
    (inquiries : List Inquiry) :
    List.Forall₂ (Inquiry.Totalled options.rates) inquiries (est.replies inquiries) := by
  have hvalid := Estimator.fault?_of_ofOptions h
  refine Estimator.replies_have h ?fresh ?like ?refused inquiries
  case fresh =>
    intro base hbase i
    cases i with
    | room r => trivial
    | project rooms =>
        cases rooms with
        | nil => exact Or.inl ⟨rfl, rfl⟩
        | cons r rooms =>
            refine ⟨List.map_map .., fun hfit => ⟨?_, ?_⟩⟩
            · exact freshProject_totalled hbase (List.cons_ne_nil r rooms) hfit
            · exact freshProject_quoted hbase (List.cons_ne_nil r rooms) hfit hvalid
  case like =>
    intro i r r' hlike htotalled
    cases i with
    | room r => trivial
    | project rooms =>
        cases hlike with
        | failed error => exact htotalled
        | room hlike => exact htotalled
        | project hlike =>
            obtain ⟨hnames, hfits⟩ := htotalled
            exact ⟨(RoomEstimate.Like.map_room hlike.rooms).trans hnames, fun hfit =>
              ⟨(hfits hfit).1.of_like hlike, (hfits hfit).2.of_like hlike⟩⟩
  case refused =>
    intro hunfit i error
    cases i with
    | room r => trivial
    | project rooms => exact Or.inr hunfit

/-- The usual estimator replies to a project of two halls with their names, its totals and its prices. -/
theorem replies_totalled_halls :
    Estimator.ofOptions { Options.usual with keepsResults := true } = .ok (.usual true) ∧
    ∃ e, (Estimator.usual true).replies [.project [.hall, .fineHall]] = [.project e] ∧
      e.rooms.map (·.room) = ["hall", "hall"] ∧ e.Totalled ∧ e.Quoted .usual := by
  refine ⟨Estimator.ofOptions_usual true, ?_⟩
  have htotalled := replies_totalled (Estimator.ofOptions_usual true) [.project [.hall, .fineHall]]
  generalize (Estimator.usual true).replies [.project [.hall, .fineHall]] = replies at htotalled ⊢
  obtain - | @⟨_, reply, _, _, hreply, hnil⟩ := htotalled
  cases hnil
  cases reply with
  | room e => cases hreply
  | failed error =>
      rcases hreply with ⟨hrooms, -⟩ | hunfit
      · cases hrooms
      · exact absurd (by decide) hunfit
  | project e => exact ⟨e, rfl, hreply.1, (hreply.2 (by decide)).1, (hreply.2 (by decide)).2⟩

/-! ## Discounts -/

/-- A project has the discount for the number of its rooms. -/
def ProjectEstimate.Discounted (rates : Rates) (rooms : List Room) (e : ProjectEstimate) : Prop :=
  ∃ d, rates.IsDiscountFor rooms.length d ∧ Decimal.SameResult e.totals.discount (some d.discount) ∧
    e.failuresOf .discount = []

theorem ProjectEstimate.Discounted.of_like {rates : Rates} {rooms : List Room} {e e' : ProjectEstimate}
    (h : e.Like e') (hdiscounted : e'.Discounted rates rooms) : e.Discounted rates rooms := by
  obtain ⟨d, hd, hdiscount, hfailures⟩ := hdiscounted
  exact ⟨d, hd, h.totals.discount.trans hdiscount, (h.failuresOf .discount).trans hfailures⟩

/-- Without a cache, a project has the discount for the number of its rooms. -/
theorem freshProject_discounted {rates : Rates} {base : Engine} (hbase : ratesEngine rates = .ok base)
    (hvalid : rates.fault? = none) {rooms : List Room} (hrooms : rooms ≠ [])
    (hfit : rooms.length < rowLimit) : (freshProject rates base rooms).Discounted rates rooms := by
  have hfit' : (freshRows rates base rooms).length < rowLimit := (length_freshRows rooms).symm ▸ hfit
  obtain ⟨d, hd, hvalue⟩ := Page.exists_discount hbase hfit' (freshRows_ne_nil hrooms) hvalid
  rw [length_freshRows] at hd
  obtain ⟨hnumber, hfailures⟩ :=
    amountOf?_eq_ok.1 (amountOf?_freshProject hbase rooms (a := .ok d.discount) hvalue)
  exact ⟨d, hd, hnumber ▸ .refl _, hfailures⟩

/-- Whatever an estimator was asked before, with or without a cache, a project whose rooms have rows on the
sheet has the discount for the number of its rooms, whatever their names are and whether or not they can be
measured. -/
theorem replies_discounted {options : Options} {est : Estimator} (h : Estimator.ofOptions options = .ok est)
    (inquiries : List Inquiry) :
    List.Forall₂ (Inquiry.Estimated options.rates (fun _ _ => True)
      fun rooms e => rooms.length < rowLimit → e.Discounted options.rates rooms)
      inquiries (est.replies inquiries) := by
  have hvalid := Estimator.fault?_of_ofOptions h
  refine Estimator.replies_estimated h (fun _ _ _ => trivial) (fun _ _ _ _ _ => trivial) ?project
    ?projectLike inquiries
  case project =>
    intro base hbase rooms hrooms hfit
    exact freshProject_discounted hbase hvalid hrooms hfit
  case projectLike =>
    intro rooms e e' hlike hdiscounted hfit
    exact (hdiscounted hfit).of_like hlike

/-- The usual rates with their discounts listed backwards, behind a discount of nothing for three rooms. -/
def Rates.disordered : Rates :=
  { Rates.usual with discounts := ⟨3, 0⟩ :: Rates.usual.discounts.reverse }

/-- Four rooms, one of them painted without a coat, have the last discount that is listed for three. -/
theorem replies_discounted_four :
    ∃ est e, Estimator.ofOptions { Options.forgetful with rates := .disordered } = .ok est ∧
      est.replies [.project [.hall, { Room.hall with coats := 0 }, .fineHall, .hall]] = [.project e] ∧
      e.Discounted .disordered [.hall, { Room.hall with coats := 0 }, .fineHall, .hall] ∧
      Decimal.SameResult e.totals.discount (some (Decimal.scaled 5 2)) := by
  have hfault : { Options.forgetful with rates := .disordered }.fault? = none := by decide +kernel
  obtain ⟨est, base, hoptions, -, hreplies⟩ := Estimator.exists_replies rfl hfault (by decide)
    [.project [.hall, { Room.hall with coats := 0 }, .fineHall, .hall]]
  have hdiscounted := replies_discounted hoptions
    [.project [.hall, { Room.hall with coats := 0 }, .fineHall, .hall]]
  rw [hreplies] at hdiscounted
  obtain - | ⟨⟨-, hdiscounted⟩, -⟩ := hdiscounted
  obtain ⟨d, hd, hdiscount, hfailures⟩ := hdiscounted (by decide)
  have hfour : Rates.disordered.IsDiscountFor 4 ⟨3, Decimal.scaled 5 2⟩ :=
    ⟨by decide +kernel, by decide, by decide +kernel⟩
  obtain rfl := hd.unique hfour
  exact ⟨est, _, hoptions, hreplies, ⟨_, hd, hdiscount, hfailures⟩, hdiscount⟩

end Estimate

end PaintQuote
