import PaintQuote.Engine.CacheKey
import PaintQuote.Formula.Error

/-!
# The result cache

Outcomes of evaluations, kept under their keys and listed from the most to the least recently used.
Looking an outcome up makes it the most recent; storing one more than the capacity allows drops the
least recent.  Counters of hits, misses and evictions run on when the cache is cleared.
-/

namespace PaintQuote.Engine

open Sheet Formula

/-- What the evaluation of a cell produced. -/
structure Outcome where
  /-- The value of the cell. -/
  value : CellValue
  /-- What explains the value, if it is an error. -/
  issue? : Option FormulaError
deriving DecidableEq, Repr

namespace Outcome

/-- A value that needs no explanation. -/
def ok (value : CellValue) : Outcome := ⟨value, none⟩

/-- The outcome of an error. -/
def failed (e : FormulaError) : Outcome := ⟨.error e.cellError, some e⟩

end Outcome

/-- How an outcome was come by. -/
inductive CacheStatus where
  /-- It was stored. -/
  | hit
  /-- It was computed. -/
  | miss
deriving DecidableEq, Repr

/-- Outcomes in the order in which they were last used. -/
structure ResultCache where
  /-- The largest number of outcomes. -/
  capacity : Nat
  /-- The outcomes, the most recently used first. -/
  entries : List (CacheKey × Outcome) := []
  /-- The number of lookups that found something. -/
  hits : Nat := 0
  /-- The number of outcomes computed. -/
  misses : Nat := 0
  /-- The number of outcomes dropped for lack of room. -/
  evictions : Nat := 0
deriving Repr

namespace ResultCache

/-- The cache without outcomes. -/
def empty (capacity : Nat) : ResultCache := { capacity }

/-- The number of outcomes. -/
def size (c : ResultCache) : Nat := c.entries.length

/-- The outcome under a key; using it this way does not make it more recent. -/
def find? (c : ResultCache) (key : CacheKey) : Option Outcome :=
  (c.entries.find? fun entry => entry.1 = key).map (·.2)

/-- The entries with one moved or put in front. -/
def promote (c : ResultCache) (key : CacheKey) (outcome : Outcome) : List (CacheKey × Outcome) :=
  (key, outcome) :: c.entries.filter fun entry => entry.1 ≠ key

/-- The cache after a lookup that found an outcome. -/
def touch (c : ResultCache) (key : CacheKey) (outcome : Outcome) : ResultCache :=
  { c with entries := c.promote key outcome, hits := c.hits + 1 }

/-- The cache with an outcome stored in front; the least recent one may have to go. -/
def store (c : ResultCache) (key : CacheKey) (outcome : Outcome) : ResultCache :=
  let entries := c.promote key outcome
  { c with
    entries := entries.take c.capacity
    misses := c.misses + 1
    evictions := c.evictions + (entries.length - c.capacity) }

/-- Looks an outcome up. -/
def lookup (c : ResultCache) (key : CacheKey) : Option Outcome × ResultCache :=
  match c.find? key with
  | some outcome => (some outcome, c.touch key outcome)
  | none => (none, c)

/-- Looks an outcome up, or computes and stores it. -/
def getOrCompute (c : ResultCache) (key : CacheKey) (compute : Unit → Outcome) :
    Outcome × CacheStatus × ResultCache :=
  match c.find? key with
  | some outcome => (outcome, .hit, c.touch key outcome)
  | none =>
      let outcome := compute ()
      (outcome, .miss, c.store key outcome)

/-- The cache without its outcomes; the counters stay. -/
def clear (c : ResultCache) : ResultCache := { c with entries := [] }

end ResultCache

end PaintQuote.Engine
