import PaintQuote.Proofs.Estimate.Quotes

/-!
# Rates without a fault

Rates without a fault have a rate for every paint and every condition, divide by positive numbers only,
and have a discount for a single room.
-/

namespace PaintQuote.Estimate.Rates

variable {r : Rates} (h : r.fault? = none)

/-! ## Tables -/

/-- The rate for a paint. -/
def paintRate? (r : Rates) (paint : PaintType) : Option PaintRate := r.paints.find? fun p => p.paint = paint

/-- The rate for a condition, the first of several. -/
def conditionRate? (r : Rates) (condition : SurfaceCondition) : Option ConditionRate :=
  r.conditions.find? fun c => c.condition = condition

include h

theorem exists_paintRate (paint : PaintType) : ∃ p, r.paintRate? paint = some p := by
  simp only [fault?, Option.or_eq_none_iff] at h
  have hpaint := List.findSome?_eq_none_iff.1 h.1 paint paint.mem_all
  refine Option.isSome_iff_exists.1 (List.find?_isSome.2 ?_)
  unfold paintFault? at hpaint
  have hne : (r.paints.filter fun p => p.paint = paint) ≠ [] := by
    intro hnil
    rw [hnil] at hpaint
    cases hpaint
  obtain ⟨p, hp⟩ := List.exists_mem_of_ne_nil _ hne
  exact ⟨p, (List.mem_filter.1 hp).1, (List.mem_filter.1 hp).2⟩

theorem exists_conditionRate (condition : SurfaceCondition) :
    ∃ c, r.conditionRate? condition = some c := by
  simp only [fault?, Option.or_eq_none_iff] at h
  have hcondition := List.findSome?_eq_none_iff.1 h.2.2.1 condition condition.mem_all
  refine Option.isSome_iff_exists.1 (List.find?_isSome.2 ?_)
  unfold conditionFault? at hcondition
  split at hcondition
  next hany => exact List.any_eq_true.1 hany
  next => cases hcondition

theorem exists_discount : ∃ d ∈ r.discounts, d.rooms ≤ 1 := by
  simp only [fault?, Option.or_eq_none_iff] at h
  obtain ⟨-, -, -, -, -, -, hdiscount⟩ := h
  unfold discountFault? at hdiscount
  split at hdiscount
  next hany =>
    obtain ⟨d, hd, hrooms⟩ := List.any_eq_true.1 hany
    exact ⟨d, hd, of_decide_eq_true hrooms⟩
  next => cases hdiscount

/-! ## Divisors -/

theorem coverage_isPositive {p : PaintRate} (hp : p ∈ r.paints) : p.coverage.isPositive = true := by
  simp only [fault?, Option.or_eq_none_iff] at h
  have hcoverage := List.find?_eq_none.1 (Option.map_eq_none_iff.1 h.2.1) p hp
  simpa using hcoverage

theorem areaPerHour_isPositive : r.areaPerHour.isPositive = true := by
  simp only [fault?, Option.or_eq_none_iff] at h
  exact isPositive_of_positiveFault? h.2.2.2.1

theorem trimPerHour_isPositive : r.trimPerHour.isPositive = true := by
  simp only [fault?, Option.or_eq_none_iff] at h
  exact isPositive_of_positiveFault? h.2.2.2.2.1

end PaintQuote.Estimate.Rates
