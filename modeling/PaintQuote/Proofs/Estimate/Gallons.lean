import PaintQuote.Proofs.Estimate.Unmeasurable
import PaintQuote.Proofs.Values.Snapped

/-!
# Gallons

The paint that is quoted for a room is to suffice for all coats, and a gallon less is not (`Suffices`).  The
area of all coats is divided by the area that a gallon covers and rounded up to whole gallons, but the product
and the quotient were rounded to a decimal before.  So the gallons are right exactly if the whole numbers
below the rounded quotient are those below the exact one.  Where the product is exact, there is never a gallon
too much, and one too few only if the quotient strays (`RoundedUp`, `replies_supplied`).  A room that cannot
be measured has no gallons (`gallons_of_not_measurable`).
-/

namespace PaintQuote

open Sheet Formula Engine Estimate

theorem Decimal.SameResult.eq_none {a? b? : Option Decimal} (h : SameResult a? b?) (hb : b? = none) :
    a? = none := by
  subst hb
  cases h
  rfl

theorem Decimal.SameResult.exists_some {a : Decimal} {b? : Option Decimal} (h : SameResult (some a) b?) :
    ∃ b, b? = some b ∧ a.same b = true := by
  cases h with
  | some h => exact ⟨_, rfl, h⟩

/-! ## Whole numbers -/

/-- The next whole number is told by the whole numbers that are less. -/
theorem Decimal.picks_up_iff {x : ℚ} {m : ℤ} :
    Rounding.up.Picks 1 x m ↔ ∀ k : ℤ, (k : ℚ) < x ↔ k < m := by
  constructor
  · rintro ⟨-, hle, hlt⟩ k
    constructor
    · intro hk
      exact_mod_cast hk.trans_le hle
    · intro hk
      have hsucc : (k : ℚ) + 1 ≤ m := by exact_mod_cast hk
      linarith
  · intro h
    have hself := (h m).not.2 (lt_irrefl m)
    have hpred := (h (m - 1)).2 (sub_one_lt m)
    push_cast at hpred
    exact ⟨⟨m, (mul_one _).symm⟩, not_lt.1 hself, by linarith⟩

namespace Estimate

/-- Gallons of a paint suffice for an area: they are whole, cover the area, and one less does not. -/
structure Suffices (coverage area gallons : ℚ) : Prop where
  whole : ∃ k : ℤ, gallons = k
  enough : area ≤ gallons * coverage
  least : gallons = 0 ∨ (gallons - 1) * coverage < area

/-- The gallons that suffice are the next whole number to the quotient. -/
theorem suffices_iff_picks {coverage area gallons : ℚ} (hcoverage : 0 < coverage) (harea : 0 ≤ area) :
    Suffices coverage area gallons ↔ Decimal.Rounding.up.Picks 1 (area / coverage) gallons := by
  constructor
  · rintro ⟨⟨k, hk⟩, henough, hleast⟩
    refine ⟨⟨k, by rw [hk, mul_one]⟩, (div_le_iff₀ hcoverage).2 henough, ?_⟩
    rcases hleast with hzero | hless
    · rw [hzero]
      have hquotient : 0 ≤ area / coverage := div_nonneg harea hcoverage.le
      linarith
    · have hquotient := (lt_div_iff₀ hcoverage).2 hless
      linarith
  · rintro ⟨⟨k, hk⟩, henough, hless⟩
    refine ⟨⟨k, by rw [hk, mul_one]⟩, (div_le_iff₀ hcoverage).1 henough, Or.inr ?_⟩
    exact (lt_div_iff₀ hcoverage).1 (by linarith)

/-- What rounding makes of gallons for an area.  They were rounded up from the quotient of the area of all
coats, which may be rounded itself, by what a gallon covers. -/
structure RoundedUp (coverage coated q gallons : Decimal) (area : ℚ) : Prop where
  whole : ∃ k : ℤ, gallons.value = k
  suffices_iff : Suffices coverage.value area gallons.value ↔
    ∀ k : ℤ, (k : ℚ) < area / coverage.value ↔ (k : ℚ) < q.value
  least_of_exact : coated.value = area → (gallons.value - 1) * coverage.value < area
  enough_iff_of_exact : coated.value = area →
    (area ≤ gallons.value * coverage.value ↔ ¬ Decimal.Strays .up coated coverage)

section

variable {coverage coated q gallons : Decimal} {area : ℚ} (hcoverage : coverage.isPositive = true)
  (hq : coated.div? coverage = some q) (hpicks : Decimal.Rounding.up.Picks 1 q.value gallons.value)
include hcoverage hq hpicks

/-- Rounding a quotient passes no whole number, so that what is rounded up from it is not too large. -/
theorem pred_lt_quotient : gallons.value - 1 < coated.value / coverage.value := by
  obtain ⟨⟨m, hm⟩, -, hlt⟩ := hpicks
  rw [mul_one] at hm
  rw [hm] at hlt ⊢
  by_contra hle
  have hpasses := (Decimal.div?_respects_whole (Decimal.isZero_of_isPositive hcoverage) hq (m - 1)).2
  push_cast at hpasses
  linarith [hpasses (not_lt.1 hle)]

/-- What is rounded up is too small only if the quotient was rounded to a whole number below it. -/
theorem quotient_le_iff_not_strays :
    coated.value / coverage.value ≤ gallons.value ↔ ¬ Decimal.Strays .up coated coverage := by
  obtain ⟨⟨m, hm⟩, hle, hlt⟩ := hpicks
  rw [mul_one] at hm
  rw [hm] at hle hlt ⊢
  constructor
  · rintro henough ⟨q', hq', k, hk, hless⟩
    obtain rfl : q = q' := Option.some.inj (hq.symm.trans hq')
    rw [hk] at hle hlt
    have hkm : (m : ℚ) ≤ k := by
      have hsucc : m < k + 1 := by exact_mod_cast hlt
      exact_mod_cast Int.lt_add_one_iff.1 hsucc
    linarith
  · intro hkeeps
    by_contra hless
    have hpasses := (Decimal.div?_respects_whole (Decimal.isZero_of_isPositive hcoverage) hq m).1
    exact hkeeps ⟨q, hq, m, le_antisymm hle (hpasses (not_le.1 hless).le), not_le.1 hless⟩

theorem roundedUp_of_picks (harea : 0 ≤ area) : RoundedUp coverage coated q gallons area := by
  have hpos : 0 < coverage.value := Decimal.isPositive_iff.1 hcoverage
  obtain ⟨m, hm⟩ := hpicks.1
  rw [mul_one] at hm
  refine ⟨⟨m, hm⟩, ?_, ?_, ?_⟩
  · rw [suffices_iff_picks hpos harea, hm, Decimal.picks_up_iff]
    rw [hm] at hpicks
    exact forall_congr' fun k => by rw [Decimal.picks_up_iff.1 hpicks k]
  · rintro rfl
    exact (lt_div_iff₀ hpos).1 (pred_lt_quotient hcoverage hq hpicks)
  · rintro rfl
    rw [← div_le_iff₀ hpos]
    exact quotient_le_iff_not_strays hcoverage hq hpicks

end

/-! ## Rooms -/

namespace Room

variable {rates : Rates} {r : Room}

/-- The area to be painted is not negative. -/
theorem paintableArea_nonneg (hr : r.Measurable) {a : Decimal} (h : r.paintableArea? rates = some a) :
    0 ≤ a.value := by
  simp only [paintableArea?, Option.bind_eq_bind, Option.bind_eq_some_iff] at h
  obtain ⟨walls, hwalls, ceiling, hceiling, hsum⟩ := h
  have hwalls_nonneg : 0 ≤ walls.value := by
    simp only [wallArea?, Option.bind_eq_bind, Option.bind_eq_some_iff] at hwalls
    obtain ⟨-, -, -, -, rest, -, hrest⟩ := hwalls
    obtain rfl := Option.some.inj hrest
    split
    next => exact Decimal.value_eq_zero_iff.2 rfl |>.ge
    next hless =>
      have hle := Decimal.less_eq_false_iff.1 (Bool.not_eq_true _ ▸ hless)
      exact (Decimal.value_eq_zero_iff.2 rfl).ge.trans hle
  have hceiling_nonneg : 0 ≤ ceiling.value := by
    unfold ceilingArea? at hceiling
    split at hceiling
    next =>
      have hproduct : 0 ≤ r.length.value * r.width.value :=
        mul_nonneg (Decimal.isPositive_iff.1 hr.length).le (Decimal.isPositive_iff.1 hr.width).le
      have hpasses := (Decimal.mul?_respects hceiling 0).1
      rw [Decimal.value_eq_zero_iff.2 rfl] at hpasses
      exact hpasses hproduct
    next =>
      obtain rfl := Option.some.inj hceiling
      exact (Decimal.value_eq_zero_iff.2 rfl).ge
  exact hwalls_nonneg.trans (Decimal.value_le_of_add? hceiling_nonneg hsum)

end Room

/-! ## Estimates -/

/-- The gallons in an estimate are rounded up for the area in it. -/
def RoomEstimate.Supplied (rates : Rates) (r : Room) (e : RoomEstimate) : Prop :=
  ∀ gallons ∈ e.gallons, ∀ area ∈ e.paintableArea,
    ∃ paint coated q, rates.paintRate? r.paint = some paint ∧
      area.mul? (Room.counted r.coats) = some coated ∧ coated.div? paint.coverage = some q ∧
      RoundedUp paint.coverage coated q gallons (area.value * r.coats.toNat)

section

variable {rates : Rates} {r : Room} {e : RoomEstimate} {paint : PaintRate}

theorem RoomEstimate.Measures.gallons (h : e.Measures rates r)
    (hpaint : rates.paintRate? r.paint = some paint) :
    Decimal.SameResult e.gallons (r.gallons? rates paint) := by
  obtain ⟨paint', _, hpaint', -, hmeasures⟩ := h
  cases hpaint.symm.trans hpaint'
  exact (hmeasures .gallons).1

theorem RoomEstimate.Measures.paintableArea (h : e.Measures rates r) :
    Decimal.SameResult e.paintableArea (r.paintableArea? rates) := by
  obtain ⟨_, _, -, -, hmeasures⟩ := h
  exact (hmeasures .paintableArea).1

variable (hvalid : rates.fault? = none)
include hvalid

theorem RoomEstimate.Measures.supplied (hr : r.Measurable) (h : e.Measures rates r) : e.Supplied rates r := by
  intro gallons hgallons area harea
  obtain ⟨paint, hpaint⟩ := Rates.exists_paintRate hvalid r.paint
  obtain ⟨gallons', hgallons', hsameGallons⟩ := (hgallons ▸ h.gallons hpaint).exists_some
  obtain ⟨area', harea', hsameArea⟩ := (harea ▸ h.paintableArea).exists_some
  simp only [Room.gallons?, Room.coatedArea?, harea', Option.bind_eq_bind, Option.bind_some,
    Option.bind_eq_some_iff] at hgallons'
  obtain ⟨coated', hcoated', q', hq', hceil⟩ := hgallons'
  -- The estimate may have the area in another form than the one that the gallons were computed from.
  have hproduct := Decimal.mul?_same hsameArea (Decimal.same_self (Room.counted r.coats))
  rw [hcoated'] at hproduct
  obtain ⟨coated, hcoated, hsameCoated⟩ := hproduct.symm.exists_some
  have hquotient := Decimal.div?_same hsameCoated (Decimal.same_self paint.coverage)
  rw [hq'] at hquotient
  obtain ⟨q, hq, hsame⟩ := hquotient.exists_some
  have hpicks : Decimal.Rounding.up.Picks 1 q.value gallons.value := by
    rw [Decimal.same_iff_value.1 hsameGallons, ← Option.some.inj hceil, ← Decimal.same_iff_value.1 hsame]
    exact q'.whole_picks .up
  have hnonneg : 0 ≤ area.value * r.coats.toNat := by
    rw [Decimal.same_iff_value.1 hsameArea]
    exact mul_nonneg (Room.paintableArea_nonneg hr harea') (Nat.cast_nonneg _)
  exact ⟨paint, coated, q, hpaint, hcoated, hq, roundedUp_of_picks
    (Rates.coverage_isPositive hvalid (List.mem_of_find?_eq_some hpaint)) hq hpicks hnonneg⟩

/-- Without a cache, a room that cannot be measured has no gallons. -/
theorem gallons_of_not_measurable {base : Engine} (hbase : ratesEngine rates = .ok base)
    (hr : ¬ r.Measurable) : (freshRoom rates base r).gallons = none :=
  ((freshRoom_unmeasured hbase hvalid hr).measurement .gallons).eq_none rfl

end

/-- Whatever an estimator was asked before, with or without a cache, the gallons in its replies are whole, and
they suffice exactly if rounding the quotient leaves the whole numbers below it. -/
theorem replies_supplied {options : Options} {est : Estimator} (h : Estimator.ofOptions options = .ok est)
    (inquiries : List Inquiry) :
    List.Forall₂ (Inquiry.Answered (RoomEstimate.Supplied options.rates) fun _ _ => True) inquiries
      (est.replies inquiries) := by
  have hvalid := Estimator.fault?_of_ofOptions h
  -- What is carried over to other forms is what was measured.
  have hmeasured := Estimator.replies_answered h
    (P := fun r e => (r.Measurable → e.Measures options.rates r) ∧ (¬ r.Measurable → e.gallons = none))
    (fun base hbase r => ⟨freshRoom_measures hbase hvalid, gallons_of_not_measurable hvalid hbase⟩)
    (fun r e e' hlike ⟨hmeasures, hnone⟩ =>
      ⟨fun hr => .of_like hlike (hmeasures hr), fun hr => hlike.gallons.eq_none (hnone hr)⟩)
    (Q := fun _ _ => True) (fun _ _ _ => trivial) (fun _ _ _ _ _ => trivial) inquiries
  refine hmeasured.imp fun i reply => Inquiry.Answered.imp (fun r e ⟨hmeasures, hnone⟩ => ?_) fun _ _ h => h
  by_cases hr : r.Measurable
  · exact (hmeasures hr).supplied hvalid hr
  · intro gallons hgallons
    rw [hnone hr] at hgallons
    cases hgallons

/-- The usual estimator quotes three gallons for two coats on the 396 square feet of the hall. -/
theorem replies_supplied_hall :
    Estimator.ofOptions { Options.usual with keepsResults := false } = .ok (.usual false) ∧
    ∃ e, (Estimator.usual false).replies [.room .hall] = [.room e] ∧ e.Supplied .usual .hall ∧
      ∃ gallons area, e.gallons = some gallons ∧ e.paintableArea = some area ∧
        Suffices 350 (area.value * 2) gallons.value := by
  have hoptions := Estimator.ofOptions_usual false
  obtain ⟨base, hbase, -⟩ := ratesEngine_eq_ok (r := .usual) (by decide)
  have hreplies : (Estimator.usual false).replies [.room .hall] = [.room (freshRoom .usual base .hall)] :=
    Settles.replies hbase _ rfl (.none _)
  have hsupplied := replies_supplied hoptions [.room .hall]
  rw [hreplies] at hsupplied
  obtain - | ⟨hsupplied, -⟩ := hsupplied
  refine ⟨hoptions, _, hreplies, hsupplied, ?_⟩
  have hpaint : Rates.usual.paintRate? Room.hall.paint = some ⟨.eggshell, 350, ⟨28, 38, 52⟩⟩ := by
    decide +kernel
  have hcomputed : Room.hall.gallons? .usual ⟨.eggshell, 350, ⟨28, 38, 52⟩⟩ = some 3 ∧
      Room.hall.paintableArea? .usual = some 396 := by decide +kernel
  have hmeasures := freshRoom_measures hbase (Estimator.fault?_of_ofOptions hoptions) (r := .hall) (by decide)
  have hgallons := hmeasures.gallons hpaint
  have harea := hmeasures.paintableArea
  rw [hcomputed.1] at hgallons
  rw [hcomputed.2] at harea
  obtain ⟨gallons, hgallons, hsameGallons⟩ := hgallons.symm.exists_some
  obtain ⟨area, harea, hsameArea⟩ := harea.symm.exists_some
  have hvalues : (3 : Decimal).value = 3 ∧ (396 : Decimal).value = 396 :=
    ⟨Decimal.value_of_whole rfl, Decimal.value_of_whole rfl⟩
  refine ⟨gallons, area, hgallons, harea, ?_⟩
  rw [← Decimal.same_iff_value.1 hsameGallons, ← Decimal.same_iff_value.1 hsameArea, hvalues.1, hvalues.2]
  exact ⟨⟨3, by norm_num⟩, by norm_num, Or.inr (by norm_num)⟩

/-- The usual options, for an estimator that keeps no results, with paints of which a gallon covers a given
area. -/
def Options.covering (coverage : Decimal) : Options :=
  { Options.forgetful with
    rates := { Rates.usual with paints := Rates.usual.paints.map fun p => { p with coverage } } }

theorem quarter_lt_limit : 25 < Decimal.coefficientLimit := by decide

theorem two_le_maxScale : 2 ≤ Decimal.maxScale := by decide

/-- A quarter of a foot. -/
def Room.quarter : Decimal := Decimal.scaled 25 2 quarter_lt_limit two_le_maxScale

/-- A room with walls that are a foot long. -/
def Room.slit (height : Decimal) (coats : UInt32) : Room :=
  { name := "slit", length := quarter, width := quarter, height, coats }

/-- The estimate of such a room has what is computed directly. -/
theorem replies_slit (coverage height g : Decimal) (coats : UInt32)
    (hfault : (Options.covering coverage).fault? = none) (hr : (Room.slit height coats).Measurable)
    (hgallons : (Room.slit height coats).gallons? (Options.covering coverage).rates
      ⟨.eggshell, coverage, ⟨28, 38, 52⟩⟩ = some g)
    (harea : (Room.slit height coats).paintableArea? (Options.covering coverage).rates = some height) :
    ∃ est e gallons area, Estimator.ofOptions (.covering coverage) = .ok est ∧
      est.replies [.room (.slit height coats)] = [.room e] ∧ e.gallons = some gallons ∧
      e.paintableArea = some area ∧ gallons.value = g.value ∧ area.value = height.value := by
  have hfits : (Options.covering coverage).rates.Fits := show Rates.usual.Fits by decide
  have hpaint : (Options.covering coverage).rates.paintRate? (Room.slit height coats).paint =
      some ⟨.eggshell, coverage, ⟨28, 38, 52⟩⟩ := rfl
  obtain ⟨est, base, hoptions, hbase, hreplies⟩ :=
    Estimator.exists_replies rfl hfault hfits [.room (.slit height coats)]
  have hmeasures := freshRoom_measures hbase (Estimator.fault?_of_ofOptions hoptions) hr
  have hmeasuredGallons := hmeasures.gallons hpaint
  have hmeasuredArea := hmeasures.paintableArea
  rw [hgallons] at hmeasuredGallons
  rw [harea] at hmeasuredArea
  obtain ⟨gallons, hgallons, hsameGallons⟩ := hmeasuredGallons.symm.exists_some
  obtain ⟨area, harea, hsameArea⟩ := hmeasuredArea.symm.exists_some
  exact ⟨est, _, gallons, area, hoptions, hreplies, hgallons, harea,
    (Decimal.same_iff_value.1 hsameGallons).symm, (Decimal.same_iff_value.1 hsameArea).symm⟩

/-- One gallon is quoted for slightly more than a gallon covers, and four for the area that three cover. -/
theorem gallons_not_supplied :
    (∃ est e gallons area, Estimator.ofOptions (.covering 3) = .ok est ∧
      est.replies [.room (.slit (Decimal.scaled 30000000000000000000000000001 28) 1)] = [.room e] ∧
      e.gallons = some gallons ∧ e.paintableArea = some area ∧
      ¬ area.value * 1 ≤ gallons.value * 3) ∧
    ∃ est e gallons area,
      Estimator.ofOptions (.covering (Decimal.scaled 70000000000000000000000000002 28)) = .ok est ∧
      est.replies [.room (.slit (Decimal.scaled 70000000000000000000000000002 28) 3)] = [.room e] ∧
      e.gallons = some gallons ∧ e.paintableArea = some area ∧ gallons.value ≠ 0 ∧
      ¬ (gallons.value - 1) * (Decimal.scaled 70000000000000000000000000002 28).value < area.value * 3 := by
  have hvalues : (1 : Decimal).value = 1 ∧ (4 : Decimal).value = 4 :=
    ⟨Decimal.value_of_whole rfl, Decimal.value_of_whole rfl⟩
  constructor
  · obtain ⟨est, e, gallons, area, hoptions, hreplies, hgallons, harea, hone, hheight⟩ :=
      replies_slit 3 (Decimal.scaled 30000000000000000000000000001 28) 1 1 (by decide +kernel)
        (by decide) (by decide +kernel) (by decide +kernel)
    refine ⟨est, e, gallons, area, hoptions, hreplies, hgallons, harea, ?_⟩
    rw [hone, hheight, hvalues.1,
      Decimal.value_eq_div (c := 30000000000000000000000000001) (t := 10 ^ 28) rfl (by decide)]
    norm_num
  · obtain ⟨est, e, gallons, area, hoptions, hreplies, hgallons, harea, hfour, hheight⟩ :=
      replies_slit (Decimal.scaled 70000000000000000000000000002 28)
        (Decimal.scaled 70000000000000000000000000002 28) 4 3
        (by decide +kernel) (by decide) (by decide +kernel) (by decide +kernel)
    refine ⟨est, e, gallons, area, hoptions, hreplies, hgallons, harea, ?_⟩
    rw [hfour, hheight, hvalues.2]
    exact ⟨by norm_num, by linarith⟩

end Estimate

end PaintQuote
