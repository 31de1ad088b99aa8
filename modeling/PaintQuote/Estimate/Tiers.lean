import PaintQuote.Decimal.Arithmetic

/-!
# Tiers

Every price comes in three tiers: good, better and best.  Quoted prices rise from tier to tier.
`inOrder` makes them rise: prices out of order are sorted, and a price that is still no higher than
the one below it is raised to a step above that one.
-/

namespace PaintQuote.Estimate

/-- Something for each tier. -/
structure Tiers (α : Type) where
  /-- For the lowest tier. -/
  good : α
  /-- For the middle tier. -/
  better : α
  /-- For the highest tier. -/
  best : α
deriving DecidableEq, Repr

namespace Tiers

/-- Something else for each tier. -/
def map {α β : Type} (f : α → β) (t : Tiers α) : Tiers β := ⟨f t.good, f t.better, f t.best⟩

/-- The tiers from the lowest to the highest. -/
def toList {α : Type} (t : Tiers α) : List α := [t.good, t.better, t.best]

/-- The names of the tiers. -/
def names : Tiers String := ⟨"good", "better", "best"⟩

/-- What each tier has, if all of them have something. -/
def all? {α : Type} (t : Tiers (Option α)) : Option (Tiers α) := do
  let good ← t.good
  let better ← t.better
  let best ← t.best
  some ⟨good, better, best⟩

/-! ## Order -/

/-- Whether prices rise from tier to tier. -/
def isAscending (t : Tiers Decimal) : Bool := t.good.less t.better && t.better.less t.best

/-- Two prices, the lower one first; equal ones stay. -/
def lowerFirst (a b : Decimal) : Decimal × Decimal := if b.less a then (b, a) else (a, b)

/-- The prices from the lowest to the highest; equal ones keep their places. -/
def sorted (t : Tiers Decimal) : Tiers Decimal :=
  let (a, b) := lowerFirst t.good t.better
  let (b, c) := lowerFirst b t.best
  let (a, b) := lowerFirst a b
  ⟨a, b, c⟩

/-- A price, or what is a step above a lower tier if the price is no higher than that tier.  A sum
that is too large leaves the price as it is. -/
def above (lower step price : Decimal) : Decimal :=
  if lower.less price then price else (lower.add? step).getD price

/-- Sorted prices with a step between prices that would otherwise not rise. -/
def separated (step : Decimal) (t : Tiers Decimal) : Tiers Decimal :=
  let better := above t.good step t.better
  ⟨t.good, better, above better step t.best⟩

/-- Prices that rise from tier to tier, and whether they had to be changed for that. -/
def inOrder (step : Decimal) (t : Tiers Decimal) : Tiers Decimal × Bool :=
  if t.isAscending then (t, false) else (t.sorted.separated step, true)

example : (⟨350, 350, 350⟩ : Tiers Decimal).inOrder 25 = (⟨350, 375, 400⟩, true) := by
  decide +kernel
example : (⟨10, 10, 12⟩ : Tiers Decimal).inOrder 5 = (⟨10, 15, 20⟩, true) := by decide +kernel

end Tiers

end PaintQuote.Estimate
