import PaintQuote.Estimate.Tiers
import PaintQuote.Proofs.Decimal.Results

/-!
# Prices in order

`Tiers.inOrder` raises a price that is no higher than the tier below it to a step above that tier.
The raise may fail, because the sum is too large, and it may come to nothing, because the sum is
rounded back to the price it started from.  The prices rise from tier to tier exactly when neither
happens (`InOrder.rising`).  A raise never lowers a price, so the prices are never out of order as
long as no sum is too large (`InOrder.better_le_best`), and the first price is never above the others.
What remains is a middle price that was raised beyond the top price, which then could not be raised
itself (`InOrder.best_lt_better`).
-/

namespace PaintQuote.Estimate.Tiers

/-! ## Sorting -/

theorem lowerFirst_le (a b : Decimal) : (lowerFirst a b).1.value ≤ (lowerFirst a b).2.value := by
  unfold lowerFirst
  split
  next h => exact (Decimal.less_iff.1 h).le
  next h => exact Decimal.less_eq_false_iff.1 (Bool.not_eq_true _ ▸ h)

theorem lowerFirst_le_of_le {a b c : Decimal} (ha : a.value ≤ c.value) (hb : b.value ≤ c.value) :
    (lowerFirst a b).2.value ≤ c.value := by
  unfold lowerFirst
  split
  · exact ha
  · exact hb

theorem le_lowerFirst (a b : Decimal) : a.value ≤ (lowerFirst a b).2.value := by
  unfold lowerFirst
  split
  next => exact le_refl _
  next h => exact Decimal.less_eq_false_iff.1 (Bool.not_eq_true _ ▸ h)

theorem sorted_good_le (t : Tiers Decimal) : t.sorted.good.value ≤ t.sorted.better.value :=
  lowerFirst_le _ _

theorem sorted_better_le (t : Tiers Decimal) : t.sorted.better.value ≤ t.sorted.best.value :=
  lowerFirst_le_of_le ((lowerFirst_le _ _).trans (le_lowerFirst _ _)) (lowerFirst_le _ _)

/-! ## Raises -/

/-- The raise of a price: the tier below it, and a step above that, unless that is too large. -/
structure Raise where
  /-- The tier below. -/
  lower : Decimal
  /-- A step above it. -/
  sum? : Option Decimal
deriving DecidableEq, Repr

/-- The sum is too large. -/
def Raise.Overflows (r : Raise) : Prop := r.sum? = none

instance (r : Raise) : Decidable r.Overflows := inferInstanceAs (Decidable (r.sum? = none))

/-- The sum is rounded back to the tier below. -/
def Raise.ComesToNothing (r : Raise) : Prop := ∃ sum, r.sum? = some sum ∧ sum.same r.lower = true

/-- The raises of a price above a lower tier: one, or none if the price is above that tier. -/
def raiseAbove (lower step price : Decimal) : List Raise :=
  if lower.less price then [] else [⟨lower, lower.add? step⟩]

/-- The raises that put prices in order. -/
def raises (step : Decimal) (t : Tiers Decimal) : List Raise :=
  if t.isAscending then []
  else
    raiseAbove t.sorted.good step t.sorted.better ++
      raiseAbove (above t.sorted.good step t.sorted.better) step t.sorted.best

section Above

variable {lower step price : Decimal}

theorem above_cases (lower step price : Decimal) :
    (lower.value < price.value ∧ raiseAbove lower step price = [] ∧
        above lower step price = price) ∨
      (price.value ≤ lower.value ∧ ∃ sum, lower.add? step = some sum ∧
        raiseAbove lower step price = [⟨lower, some sum⟩] ∧ above lower step price = sum) ∨
      (price.value ≤ lower.value ∧ raiseAbove lower step price = [⟨lower, none⟩] ∧
        above lower step price = price) := by
  unfold raiseAbove above
  cases h : lower.less price with
  | true => exact Or.inl ⟨Decimal.less_iff.1 h, rfl, rfl⟩
  | false =>
      have hle := Decimal.less_eq_false_iff.1 h
      cases hsum : lower.add? step with
      | some sum => exact Or.inr (Or.inl ⟨hle, sum, rfl, rfl, rfl⟩)
      | none => exact Or.inr (Or.inr ⟨hle, rfl, rfl⟩)

theorem lt_above_iff (hstep : 0 ≤ step.value) :
    lower.value < (above lower step price).value ↔
      ∀ r ∈ raiseAbove lower step price, ¬ r.Overflows ∧ ¬ r.ComesToNothing := by
  rcases above_cases lower step price with ⟨hlt, hraise, habove⟩ | ⟨-, sum, hsum, hraise, habove⟩ |
    ⟨hle, hraise, habove⟩
  · simp [hraise, habove, hlt]
  · have hle := Decimal.value_le_of_add? hstep hsum
    have hsame : lower.value ≠ sum.value ↔ sum.same lower = false := by
      rw [← Bool.not_eq_true, Decimal.same_iff_value, ne_comm]
    simpa [hraise, habove, Raise.Overflows, Raise.ComesToNothing, lt_iff_le_and_ne, hle] using hsame
  · simp [hraise, habove, Raise.Overflows, hle]

theorem price_le_above (hstep : 0 ≤ step.value) :
    price.value ≤ (above lower step price).value := by
  rcases above_cases lower step price with ⟨-, -, habove⟩ | ⟨hle, sum, hsum, -, habove⟩ |
    ⟨-, -, habove⟩
  · rw [habove]
  · rw [habove]
    exact hle.trans (Decimal.value_le_of_add? hstep hsum)
  · rw [habove]

theorem lower_le_above (hstep : 0 ≤ step.value) (h : lower.value ≤ price.value) :
    lower.value ≤ (above lower step price).value := h.trans (price_le_above hstep)

/-- A price stays below the lower tier only if the raise is too large. -/
theorem above_lt_iff (hstep : 0 ≤ step.value) :
    (above lower step price).value < lower.value ↔
      raiseAbove lower step price = [⟨lower, none⟩] ∧ price.value < lower.value := by
  rcases above_cases lower step price with ⟨hlt, hraise, habove⟩ | ⟨-, sum, hsum, hraise, habove⟩ |
    ⟨-, hraise, habove⟩
  · simp [hraise, habove, hlt.le]
  · simp [hraise, habove, Decimal.value_le_of_add? hstep hsum]
  · simp [hraise, habove]

/-- A price that has become higher was raised. -/
theorem raiseAbove_of_lt_above (h : price.value < (above lower step price).value) :
    raiseAbove lower step price = [⟨lower, some (above lower step price)⟩] := by
  rcases above_cases lower step price with ⟨-, -, habove⟩ | ⟨-, sum, -, hraise, habove⟩ |
    ⟨-, -, habove⟩
  · exact absurd (habove ▸ h) (lt_irrefl _)
  · rw [hraise, habove]
  · exact absurd (habove ▸ h) (lt_irrefl _)

end Above

/-! ## Order -/

/-- How prices are ordered that were made to rise by the given step from the prices `t`. -/
structure InOrder (step : Decimal) (t p : Tiers Decimal) : Prop where
  /-- They rise exactly if no raise was too large and none came to nothing. -/
  rising : p.isAscending = true ↔ ∀ r ∈ t.raises step, ¬ r.Overflows ∧ ¬ r.ComesToNothing
  /-- They are not out of order as long as no raise was too large. -/
  better_le_best : (∀ r ∈ t.raises step, ¬ r.Overflows) → p.best.less p.better = false
  /-- The middle price is never below the first. -/
  good_le_better : p.better.less p.good = false
  /-- The top price is never below the first. -/
  good_le_best : p.best.less p.good = false
  /-- The top price is below the middle price only if that one was raised beyond it and the raise of
  the top price was then too large. -/
  best_lt_better : p.best.less p.better = true →
    t.raises step = [⟨p.good, some p.better⟩, ⟨p.better, none⟩]

theorem isAscending_iff {p : Tiers Decimal} :
    p.isAscending = true ↔ p.good.value < p.better.value ∧ p.better.value < p.best.value := by
  rw [isAscending, Bool.and_eq_true, Decimal.less_iff, Decimal.less_iff]

/-- Prices that rise are left alone. -/
theorem InOrder.of_isAscending {step : Decimal} {t : Tiers Decimal} (h : t.isAscending = true) :
    InOrder step t t := by
  have hraises : t.raises step = [] := if_pos h
  obtain ⟨hlow, hhigh⟩ := isAscending_iff.1 h
  have hhigh' : t.best.less t.better = false := Decimal.less_eq_false_iff.2 hhigh.le
  exact {
    rising := by simp [h, hraises]
    better_le_best := fun _ => hhigh'
    good_le_better := Decimal.less_eq_false_iff.2 hlow.le
    good_le_best := Decimal.less_eq_false_iff.2 (hlow.trans hhigh).le
    best_lt_better := by simp [hhigh', hraises] }

/-- The order of sorted prices with steps between them. -/
theorem InOrder.separated {step : Decimal} {t : Tiers Decimal} (hstep : 0 ≤ step.value)
    (h : t.isAscending = false) : InOrder step t (t.sorted.separated step) := by
  have hgood := sorted_good_le t
  have hbest := sorted_better_le t
  have hraises : t.raises step =
      raiseAbove t.sorted.good step t.sorted.better ++
        raiseAbove (above t.sorted.good step t.sorted.better) step t.sorted.best := by
    rw [raises, if_neg (Bool.not_eq_true _ ▸ h)]
  have hlast : (t.sorted.separated step).best.less (t.sorted.separated step).better = true ↔
      raiseAbove (above t.sorted.good step t.sorted.better) step t.sorted.best =
          [⟨above t.sorted.good step t.sorted.better, none⟩] ∧
        t.sorted.best.value < (above t.sorted.good step t.sorted.better).value :=
    Decimal.less_iff.trans (above_lt_iff hstep)
  refine ⟨?rising, ?better_le_best, ?good_le_better, ?good_le_best, ?best_lt_better⟩
  case rising =>
    rw [hraises, isAscending_iff, List.forall_mem_append]
    exact and_congr (lt_above_iff hstep) (lt_above_iff hstep)
  case better_le_best =>
    intro hfits
    rw [← Bool.not_eq_true, hlast]
    rintro ⟨hraise, -⟩
    refine hfits ⟨above t.sorted.good step t.sorted.better, none⟩ ?_ rfl
    rw [hraises, hraise]
    exact List.mem_append_right _ (List.mem_singleton_self _)
  case good_le_better => exact Decimal.less_eq_false_iff.2 (lower_le_above hstep hgood)
  case good_le_best =>
    exact Decimal.less_eq_false_iff.2 ((hgood.trans hbest).trans (price_le_above hstep))
  case best_lt_better =>
    intro hlt
    obtain ⟨hraise, hlt⟩ := hlast.1 hlt
    rw [hraises, hraise, raiseAbove_of_lt_above (hbest.trans_lt hlt)]
    rfl

/-- Prices that are made to rise by a positive step. -/
theorem inOrder_spec {step : Decimal} (t : Tiers Decimal) (hstep : step.isPositive = true) :
    InOrder step t (t.inOrder step).1 := by
  unfold inOrder
  split
  next h => exact .of_isAscending h
  next h => exact .separated (Decimal.isPositive_iff.1 hstep).le (Bool.not_eq_true _ ▸ h)

end PaintQuote.Estimate.Tiers
