import PaintQuote.Formula.Value

/-!
# The log of issues

While a formula is evaluated, every error that arises is noted in a log, oldest first, so that the
error in the end can be explained.  Errors that were dealt with are taken out again: `sparing` runs
a computation and keeps what it noted only if its value still carries an error.
-/

namespace PaintQuote.Formula

open Sheet

/-- The errors noted so far, oldest first. -/
abbrev Log := List FormulaError

/-- A computation that notes errors. -/
abbrev Logged (α : Type) := StateM Log α

namespace Logged

/-- Notes an error. -/
def note (e : FormulaError) : Logged Unit := fun log => ((), log ++ [e])

/-- Notes an error and gives its error value. -/
def fail (e : FormulaError) : Logged Value := do
  note e
  pure (.error e.cellError)

/-- The value of a result; an error is noted. -/
def settle : Except FormulaError Value → Logged Value
  | .ok v => pure v
  | .error e => fail e

/-- Runs a computation and says how many errors had been noted before. -/
def marked {α : Type} (run : Logged α) : Logged (α × Nat) := fun log =>
  let (a, log') := run log
  ((a, log.length), log')

/-- Keeps only the given number of errors, the oldest. -/
def keep (count : Nat) : Logged Unit := fun log => ((), log.take count)

/-- Runs a computation and forgets what it noted, unless its value carries an error. -/
def sparing (run : Logged Value) : Logged Value := do
  let (v, mark) ← marked run
  if v.carriesError then pure v
  else
    keep mark
    pure v

/-- Runs computations in order. -/
def all {α : Type} : List (Logged α) → Logged (List α)
  | [] => pure []
  | run :: runs => do
      let a ← run
      let as ← all runs
      pure (a :: as)

end Logged

end PaintQuote.Formula
