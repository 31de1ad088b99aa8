import PaintQuote.Proofs.Estimate.Prices
import PaintQuote.Proofs.Estimate.Tiers
import PaintQuote.Proofs.Estimate.Totals

/-!
# Prices in whole cents

All prices on the sheets are rounded to two places, those of a room and those of a project, whatever the
number of its rooms (`freshRoom_inCents`, `freshProject_inCents`).  Prices that are out of order are raised
after that, by a step that need not be a number of cents.  So a quote is in whole cents exactly if every sum
is to which one of its prices was raised (`Tiers.inOrder_inCents_iff`, `replies_inCents`).
-/

namespace PaintQuote

open Sheet Formula Engine Estimate

/-! ## Cents -/

/-- A number of whole cents. -/
def Decimal.IsCents (d : Decimal) : Prop := Decimal.IsMultiple (1 / 100) d.value

namespace Decimal.IsCents

variable {a b r : Decimal}

theorem iff_tenTo : a.IsCents ↔ IsMultiple (1 / tenTo 2) a.value := by
  rw [IsCents, show ((tenTo 2 : Nat) : ℚ) = 100 from by norm_num [tenTo]]

theorem of_same (h : a.same b = true) (hb : b.IsCents) : a.IsCents := by
  rwa [IsCents, same_iff_value.1 h]

/-- What is rounded to two places is a number of cents. -/
theorem round (a : Decimal) (rule : Rounding) : (a.round 2 rule).IsCents :=
  iff_tenTo.2 (a.round_picks 2 rule).1

/-- A sum of cents is a number of cents, also where it is rounded. -/
theorem add (ha : a.IsCents) (hb : b.IsCents) (h : a.add? b = some r) : r.IsCents :=
  iff_tenTo.2 (add?_isMultiple (iff_tenTo.1 ha) (iff_tenTo.1 hb) h)

end Decimal.IsCents

/-- An expression rounds to two places. -/
def Formula.Expr.Rounds (e : Expr) : Prop := ∃ x, e = .call "ROUND" [x, .literal (.number 2)]

/-- What is rounded to two places comes to a number of cents, if it comes to a number. -/
theorem Formula.Expr.Rounds.isCents {c : Context} {e : Expr} (hrounds : e.Rounds) {n : Decimal}
    (h : (Engine.outcomeOf c e).value = .number n) : n.IsCents := by
  obtain ⟨x, rfl⟩ := hrounds
  have hvalue : (evaluateAlone c (.call "ROUND" [x, .literal (.number 2)])).1 =
      settled (Functions.roundBy .halfAway (evaluateAlone c x).1 (.number 2)) := by
    show ((Logged.sparing (callFunction "ROUND" [evaluate c x, pure (.number 2)])).run []).1 = _
    rw [Logged.sparing_fst]
    exact settle_fst _ _
  rw [outcomeOf_value, hvalue] at h
  generalize (evaluateAlone c x).1 = v at h
  unfold Functions.roundBy at h
  cases hv : v.toNumber with
  | error e =>
      rw [hv] at h
      cases h
  | ok m =>
      rw [hv] at h
      have hn : n = m.round 2 .halfAway := (CellValue.number.inj h).symm
      rw [hn]
      exact .round m .halfAway

namespace Estimate

/-! ## Prices in order -/

namespace Tiers

/-- All prices are in whole cents. -/
structure InCents (t : Tiers Decimal) : Prop where
  good : t.good.IsCents
  better : t.better.IsCents
  best : t.best.IsCents

variable {t t' : Tiers Decimal} {step lower price a b : Decimal}

theorem InCents.of_rel (h : Rel SamePrice t t') (ht : t'.InCents) : t.InCents :=
  ⟨.of_same h.good ht.good, .of_same h.better ht.better, .of_same h.best ht.best⟩

theorem inCents_congr (h : Rel SamePrice t t') : t.InCents ↔ t'.InCents :=
  ⟨.of_rel ⟨Decimal.same_symm h.good, Decimal.same_symm h.better, Decimal.same_symm h.best⟩, .of_rel h⟩

theorem lowerFirst_isCents (ha : a.IsCents) (hb : b.IsCents) :
    (lowerFirst a b).1.IsCents ∧ (lowerFirst a b).2.IsCents := by
  unfold lowerFirst
  split
  next => exact ⟨hb, ha⟩
  next => exact ⟨ha, hb⟩

theorem InCents.sorted (h : t.InCents) : t.sorted.InCents := by
  have hfirst := lowerFirst_isCents h.good h.better
  have hlast := lowerFirst_isCents hfirst.2 h.best
  have hagain := lowerFirst_isCents hfirst.1 hlast.1
  exact ⟨hagain.1, hagain.2, hlast.2⟩

/-- A price is in whole cents after a raise exactly if the sum is, where there is one. -/
theorem above_isCents_iff (hprice : price.IsCents) : (above lower step price).IsCents ↔
    ∀ r ∈ raiseAbove lower step price, ∀ sum ∈ r.sum?, sum.IsCents := by
  rcases above_cases lower step price with ⟨-, hraise, habove⟩ | ⟨-, sum, -, hraise, habove⟩ |
    ⟨-, hraise, habove⟩
  · simp [hraise, habove, hprice]
  · simp [hraise, habove]
  · simp [hraise, habove, hprice]

theorem above_isCents (hlower : lower.IsCents) (hstep : step.IsCents) (hprice : price.IsCents) :
    (above lower step price).IsCents := by
  rcases above_cases lower step price with ⟨-, -, habove⟩ | ⟨-, sum, hsum, -, habove⟩ | ⟨-, -, habove⟩
  · rwa [habove]
  · rw [habove]
    exact hlower.add hstep hsum
  · rwa [habove]

/-- Prices in whole cents stay in whole cents when they are put in order exactly if every sum is to which one
of them is raised. -/
theorem inOrder_inCents_iff (h : t.InCents) :
    (t.inOrder step).1.InCents ↔ ∀ r ∈ t.raises step, ∀ sum ∈ r.sum?, sum.IsCents := by
  cases hascending : t.isAscending with
  | true =>
      rw [inOrder, raises, if_pos hascending, if_pos hascending]
      exact iff_of_true h fun _ hr => absurd hr List.not_mem_nil
  | false =>
      have hsorted := h.sorted
      rw [inOrder, raises, if_neg (by simp [hascending]), if_neg (by simp [hascending]),
        List.forall_mem_append, ← above_isCents_iff hsorted.better, ← above_isCents_iff hsorted.best]
      exact ⟨fun hcents => ⟨hcents.better, hcents.best⟩, fun h => ⟨hsorted.good, h.1, h.2⟩⟩

/-- They do if the step is in whole cents. -/
theorem InCents.inOrder (h : t.InCents) (hstep : step.IsCents) : (t.inOrder step).1.InCents := by
  unfold Tiers.inOrder
  split
  next => exact h
  next =>
    have hsorted := h.sorted
    have hbetter := above_isCents hsorted.good hstep hsorted.better
    exact ⟨hsorted.good, hbetter, above_isCents hbetter hstep hsorted.best⟩

end Tiers

/-- The quoted prices, if there are any, are prices in whole cents that were put in order, and whether they
had to be changed for that is known.  They are in whole cents exactly if every sum is to which one of them was
raised, and in any case if they were not changed or the step is in whole cents. -/
def QuotedInCents (step : Decimal) (quote? : Option (Tiers Decimal)) (isAdjusted : Bool) : Prop :=
  ∀ p ∈ quote?, ∃ t : Tiers Decimal, t.InCents ∧
    Tiers.Rel Tiers.SamePrice p (t.inOrder step).1 ∧ isAdjusted = (t.inOrder step).2 ∧
    (p.InCents ↔ ∀ r ∈ t.raises step, ∀ sum ∈ r.sum?, sum.IsCents) ∧
    (isAdjusted = false ∨ step.IsCents → p.InCents)

theorem QuotedInCents.of_rel {step : Decimal} {quote? quote?' : Option (Tiers Decimal)} {isAdjusted : Bool}
    (h : Option.Rel (Tiers.Rel Tiers.SamePrice) quote? quote?')
    (hquoted : QuotedInCents step quote?' isAdjusted) : QuotedInCents step quote? isAdjusted := by
  intro p hp
  cases h with
  | none => cases hp
  | some hrel =>
      cases hp
      obtain ⟨t, ht, horder, hadjusted, hiff, hcents⟩ := hquoted _ rfl
      have hcongr := Tiers.inCents_congr hrel
      refine ⟨t, ht, ⟨Decimal.same_trans hrel.good horder.good, Decimal.same_trans hrel.better horder.better,
        Decimal.same_trans hrel.best horder.best⟩, hadjusted, hcongr.trans hiff, fun h => hcongr.2 (hcents h)⟩

/-- A quote from readings in whole cents. -/
theorem quoted_inCents (rates : Rates) {prices : Tiers Reading}
    (h : ∀ r ∈ prices.toList, ∀ n, r = .ok n → n.IsCents) :
    QuotedInCents rates.tierStep ((quoted rates prices).map (·.1))
      (((quoted rates prices).map (·.2)).getD false) := by
  intro p hp
  rw [quoted, Option.map_map, Option.mem_def, Option.map_eq_some_iff] at hp
  obtain ⟨t, ht, rfl⟩ := hp
  have ht' : t.InCents := by
    have hprices := Tiers.all?_map_number? ht
    subst hprices
    simp only [Tiers.toList, Tiers.map, List.forall_mem_cons] at h
    exact ⟨h.1 _ rfl, h.2.1 _ rfl, h.2.2.1 _ rfl⟩
  have hadjusted : ((quoted rates prices).map (·.2)).getD false = (t.inOrder rates.tierStep).2 := by
    rw [quoted, ht]
    rfl
  rw [hadjusted]
  refine ⟨t, ht', ⟨Decimal.same_self _, Decimal.same_self _, Decimal.same_self _⟩, rfl,
    Tiers.inOrder_inCents_iff ht', ?_⟩
  rintro (hkept | hstep)
  · cases hascending : t.isAscending with
    | true => rwa [Function.comp_apply, Tiers.inOrder, if_pos hascending]
    | false =>
        rw [Tiers.inOrder, if_neg (by simp [hascending])] at hkept
        cases hkept
  · exact ht'.inOrder hstep

/-! ## The sheets -/

namespace Page

variable {rates : Rates} {base : Engine} (hbase : ratesEngine rates = .ok base) {page : Page}
include hbase

/-- A cell whose formula rounds to two places, if it can be read, comes to a number of cents, if it comes to
a number. -/
theorem isCents_of_rounds {k : CellKey} {t : String} (h : (k, .formula t) ∈ page.entries)
    (hrounds : ∀ e, Expr.ofText t = .ok e → e.Rounds) {n : Decimal} (hn : page.value base k = .number n) :
    n.IsCents := by
  cases hx : Expr.ofText t with
  | error error =>
      rw [value, outcome_of_malformed (bare_of_ratesEngine hbase) h hx] at hn
      cases hn
  | ok e =>
      rw [value, outcome_of_formula hbase h hx] at hn
      exact (hrounds e hx).isCents hn

theorem isCents_of_roomPrice {r : Room} {i : Nat} {e : Expr} (he : Layout.tierExprs[i]? = some e)
    {n : Decimal} (hn : (room r).value base ⟨Layout.roomSheet, ⟨1 + i, 5⟩⟩ = .number n) : n.IsCents := by
  obtain ⟨t, ht, hx⟩ := exists_getElem?_of_forall₂ Layout.ofText_tierFormulas.flip he
  refine isCents_of_rounds hbase (price_mem_entries ht) (fun e' hx' => ?_) hn
  obtain rfl := Except.ok.inj (hx.symm.trans hx')
  have hmem := List.mem_of_getElem? he
  simp only [Layout.tierExprs, List.mem_cons, List.not_mem_nil, or_false] at hmem
  rcases hmem with rfl | rfl | rfl <;> exact ⟨_, rfl⟩

/-- This takes no rows for the rooms: a formula that names a row beyond the sheet cannot be read. -/
theorem isCents_of_projectPrice {rows : List ProjectRow} {i j : Nat}
    (he : (Layout.totalExprs rows.length)[i]? = some (Layout.priceExpr rows.length j)) {n : Decimal}
    (hn : (project rows).value base ⟨Layout.projectSheet, ⟨1 + i, 9⟩⟩ = .number n) : n.IsCents := by
  obtain ⟨t, ht, htree⟩ := exists_getElem?_of_forall₂ (Layout.eq_of_ofText_totals rows.length).flip he
  refine isCents_of_rounds hbase (List.mem_append_right _ ?_) (fun e' hx' => ⟨_, htree e' hx'⟩) hn
  exact Layout.mem_column.2 ⟨i, rfl, by rw [List.getElem?_map, ht]; rfl⟩

end Page

/-- A number that is read off an outcome is its value. -/
theorem Reading.value_of_ofOutcome {o : Outcome} {room? : Option String} {output : String} {cell : CellKey}
    {n : Decimal} (h : ofOutcome o room? output cell = .ok n) : o.value = .number n := by
  unfold ofOutcome at h
  split at h
  next hvalue => rw [hvalue, Except.ok.inj h]
  next => cases h

section

variable {rates : Rates} {base : Engine} (hbase : ratesEngine rates = .ok base)
include hbase

theorem freshRoom_inCents (r : Room) :
    QuotedInCents rates.tierStep (freshRoom rates base r).pricing (freshRoom rates base r).isAdjusted := by
  refine quoted_inCents rates fun reading hmem n hn => ?_
  have hvalue : ∀ o : RoomOutput, freshReadings base r o = .ok n →
      (Page.room r).value base o.key = .number n := by
    intro o h
    rw [freshReadings_eq (bare_of_ratesEngine hbase)] at h
    exact Reading.value_of_ofOutcome h
  simp only [RoomEstimate.prices, Tiers.toList, List.mem_cons, List.not_mem_nil, or_false] at hmem
  rcases hmem with rfl | rfl | rfl
  · exact Page.isCents_of_roomPrice hbase (i := 0) rfl (hvalue .good hn)
  · exact Page.isCents_of_roomPrice hbase (i := 1) rfl (hvalue .better hn)
  · exact Page.isCents_of_roomPrice hbase (i := 2) rfl (hvalue .best hn)

theorem freshProject_inCents (rooms : List Room) :
    QuotedInCents rates.tierStep (freshProject rates base rooms).pricing
      (freshProject rates base rooms).isAdjusted := by
  refine quoted_inCents rates fun reading hmem n hn => ?_
  have hvalue : ∀ o : ProjectOutput, projectReadings ((freshPage rates base rooms).evaluated base) o = .ok n →
      (Page.project (freshRows rates base rooms)).value base o.key = .number n := by
    intro o h
    have hread := projectReadings_eq (bare_of_ratesEngine hbase) (freshRows rates base rooms) o
    exact Reading.value_of_ofOutcome (hread.symm.trans h)
  simp only [ProjectEstimate.prices, Tiers.toList, List.mem_cons, List.not_mem_nil, or_false] at hmem
  rcases hmem with rfl | rfl | rfl
  · exact Page.isCents_of_projectPrice hbase (i := 5) (j := 4) rfl (hvalue .good hn)
  · exact Page.isCents_of_projectPrice hbase (i := 6) (j := 5) rfl (hvalue .better hn)
  · exact Page.isCents_of_projectPrice hbase (i := 7) (j := 6) rfl (hvalue .best hn)

end

/-! ## All estimators -/

/-- Whatever an estimator was asked before, with or without a cache, the prices of rooms and projects in its
replies are in whole cents exactly if every sum is to which one of them was raised. -/
theorem replies_inCents {options : Options} {est : Estimator} (h : Estimator.ofOptions options = .ok est)
    (inquiries : List Inquiry) :
    List.Forall₂ (Inquiry.Answered
      (fun _ e => QuotedInCents options.rates.tierStep e.pricing e.isAdjusted)
      (fun _ e => QuotedInCents options.rates.tierStep e.pricing e.isAdjusted)) inquiries
      (est.replies inquiries) := by
  refine Estimator.replies_answered h (fun base hbase r => freshRoom_inCents hbase r) ?_
    (fun base hbase rooms => freshProject_inCents hbase rooms) ?_ inquiries
  · intro _ e e' hlike hquoted
    rw [hlike.isAdjusted]
    exact .of_rel hlike.pricing hquoted
  · intro _ e e' hlike hquoted
    rw [hlike.isAdjusted]
    exact .of_rel hlike.pricing hquoted

/-- The usual options, for an estimator that keeps no results, with a given step between prices. -/
def Options.stepping (step : Decimal) : Options :=
  { Options.forgetful with rates := { Rates.usual with tierStep := step } }

/-- The prices of the closet are 350 in all tiers before they are put in order. -/
theorem replies_closet (step : Decimal) (hfault : (Options.stepping step).fault? = none)
    (hprices : (Room.closet.prices (Options.stepping step).rates ⟨.eggshell, 350, ⟨28, 38, 52⟩⟩
      ⟨.good, 1⟩).all? = some ⟨350, 350, 350⟩) :
    ∃ est e, Estimator.ofOptions (.stepping step) = .ok est ∧
      est.replies [.room .closet] = [.room e] ∧
      e.pricing = some ((⟨350, 350, 350⟩ : Tiers Decimal).inOrder step).1 := by
  have hfits : (Options.stepping step).rates.Fits := show Rates.usual.Fits by decide
  have hpaint : (Options.stepping step).rates.paintRate? Room.closet.paint =
      some ⟨.eggshell, 350, ⟨28, 38, 52⟩⟩ := rfl
  have hcondition : (Options.stepping step).rates.conditionRate? Room.closet.condition =
      some ⟨.good, 1⟩ := rfl
  obtain ⟨est, base, hoptions, hbase, hreplies⟩ :=
    Estimator.exists_replies rfl hfault hfits [.room .closet]
  have hquoted := quoted_freshReadings hbase (r := .closet) (by decide)
    (Estimator.fault?_of_ofOptions hoptions) (show 3 ≤ 12 by decide) hpaint hcondition
  rw [hprices] at hquoted
  refine ⟨est, _, hoptions, hreplies, ?_⟩
  show (quoted _ _).map (·.1) = _
  rw [hquoted]
  rfl

/-- With a step of 25, the closet has prices of 350, 375 and 400. -/
theorem replies_inCents_closet :
    ∃ est e p, Estimator.ofOptions (.stepping 25) = .ok est ∧ est.replies [.room .closet] = [.room e] ∧
      QuotedInCents 25 e.pricing e.isAdjusted ∧ e.pricing = some p ∧ p.InCents ∧ p = ⟨350, 375, 400⟩ := by
  obtain ⟨est, e, hoptions, hreplies, hpricing⟩ :=
    replies_closet 25 (by decide +kernel) (by decide +kernel)
  have hcents := replies_inCents hoptions [.room .closet]
  rw [hreplies] at hcents
  obtain - | ⟨hcents, -⟩ := hcents
  have hstep : (25 : Decimal).IsCents := by
    have hvalue : (25 : Decimal).value = 25 := Decimal.value_of_whole rfl
    exact ⟨2500, by rw [hvalue]; norm_num⟩
  obtain ⟨t, -, -, -, -, hinCents⟩ := hcents _ hpricing
  refine ⟨est, e, _, hoptions, hreplies, hcents, hpricing, hinCents (Or.inr hstep), by decide +kernel⟩

/-- With a step of half a cent, the better price of the closet is 350.005. -/
theorem pricing_not_inCents :
    ∃ est e p, Estimator.ofOptions (.stepping (Decimal.scaled 5 3)) = .ok est ∧
      est.replies [.room .closet] = [.room e] ∧ e.pricing = some p ∧
      p.better = Decimal.scaled 350005 3 ∧ ¬ p.better.IsCents := by
  obtain ⟨est, e, hoptions, hreplies, hpricing⟩ :=
    replies_closet (Decimal.scaled 5 3) (by decide +kernel) (by decide +kernel)
  refine ⟨est, e, _, hoptions, hreplies, hpricing, by decide +kernel, ?_⟩
  rintro ⟨m, hm⟩
  rw [show ((⟨350, 350, 350⟩ : Tiers Decimal).inOrder (Decimal.scaled 5 3)).1.better =
      Decimal.scaled 350005 3 by decide +kernel,
    Decimal.value_eq_div (c := 350005) (t := 10 ^ 3) rfl (by decide)] at hm
  have hcents : (350005 : ℚ) = (10 * m : ℤ) := by
    push_cast
    linarith
  have htens : (350005 : ℤ) = 10 * m := by exact_mod_cast hcents
  omega

end Estimate

end PaintQuote
