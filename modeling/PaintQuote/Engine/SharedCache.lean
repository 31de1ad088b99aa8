import PaintQuote.Engine.ResultCache

/-!
# Shared caches

A result cache may be shared by callers that work at the same time.  A caller that finds no outcome
takes the *slot* of the key, which it opens if nobody has.  The first caller to come to an open slot
computes the outcome, fills the slot with it, stores it and closes the slot.  Whoever has taken the slot
in the meantime is given the outcome that fills it.

The calls of one caller come one after the other.  Then no slot stays behind, and a shared cache acts as
its result cache does by itself.
-/

namespace PaintQuote.Engine

open Formula

/-- How an outcome of a shared cache was come by. -/
inductive SharedStatus where
  /-- It was stored. -/
  | hit
  /-- It was computed. -/
  | miss
  /-- Another caller computed it. -/
  | coalesced
deriving DecidableEq, Repr

/-- A result cache with the computations that are under way. -/
structure SharedCache where
  /-- The outcomes that are stored. -/
  stored : ResultCache
  /-- The slots that are open, each with its outcome once it is filled. -/
  slots : List (CacheKey × Option Outcome) := []
  /-- The number of outcomes that other callers computed. -/
  coalesced : Nat := 0
deriving Repr

namespace SharedCache

/-- The cache without outcomes. -/
def empty (capacity : Nat) : SharedCache := { stored := .empty capacity }

/-! ## Slots -/

/-- The slot of a key, if it is open. -/
def slot? (c : SharedCache) (key : CacheKey) : Option (Option Outcome) :=
  (c.slots.find? fun slot => slot.1 = key).map (·.2)

/-- The cache with the slot of a key open. -/
def openSlot (c : SharedCache) (key : CacheKey) : SharedCache :=
  if (c.slot? key).isSome then c else { c with slots := (key, none) :: c.slots }

/-- The cache with the slot of a key filled. -/
def fillSlot (c : SharedCache) (key : CacheKey) (outcome : Outcome) : SharedCache :=
  { c with slots := c.slots.map fun slot => if slot.1 = key then (key, some outcome) else slot }

/-- The cache with the slot of a key closed. -/
def closeSlot (c : SharedCache) (key : CacheKey) : SharedCache :=
  { c with slots := c.slots.filter fun slot => slot.1 ≠ key }

/-! ## Calls -/

/-- What the slot of a key is filled with.  The outcome may have been stored since it was looked up. -/
def toFill {m : Type → Type} [Monad m] (c : SharedCache) (key : CacheKey) (compute : m Outcome) :
    m (Outcome × SharedStatus) :=
  match c.stored.find? key with
  | some outcome => pure (outcome, .hit)
  | none => do
      let outcome ← compute
      pure (outcome, .miss)

/-- The cache after an outcome was taken out of a slot.  The caller that filled the slot closes it. -/
def settle (c : SharedCache) (key : CacheKey) (outcome : Outcome) : SharedStatus → SharedCache
  | .hit => ({ c with stored := c.stored.touch key outcome } : SharedCache).closeSlot key
  | .miss => ({ c with stored := c.stored.store key outcome } : SharedCache).closeSlot key
  | .coalesced => { c with coalesced := c.coalesced + 1 }

/-- Looks an outcome up, or takes it from a slot, which the computation fills if nothing else does. -/
def getOrCompute {m : Type → Type} [Monad m] (c : SharedCache) (key : CacheKey) (compute : m Outcome) :
    m (Outcome × SharedStatus × SharedCache) :=
  match c.stored.find? key with
  | some outcome => pure (outcome, .hit, { c with stored := c.stored.touch key outcome })
  | none =>
      let c := c.openSlot key
      match c.slot? key with
      | some (some outcome) => pure (outcome, .coalesced, c.settle key outcome .coalesced)
      | _ => do
          let (outcome, status) ← c.toFill key compute
          pure (outcome, status, (c.fillSlot key outcome).settle key outcome status)

end SharedCache

/-- What a cache can be asked. -/
inductive CacheCall where
  /-- The outcome under a key, if it is stored. -/
  | get (key : CacheKey)
  /-- The outcome under a key, which may have to be computed. -/
  | getOrCompute (key : CacheKey) (computed : Outcome)
  /-- Whether there is an outcome under a key; the time at which it was stored is not kept. -/
  | isStored (key : CacheKey)
  /-- To drop all outcomes. -/
  | clear

/-- What a cache replies. -/
inductive CacheReply where
  /-- What was found. -/
  | found (outcome? : Option Outcome)
  /-- An outcome, and how it was come by. -/
  | served (outcome : Outcome) (status : SharedStatus)
  /-- Whether something is stored. -/
  | stored (isStored : Bool)
  /-- That all outcomes were dropped. -/
  | cleared
deriving DecidableEq

namespace SharedCache

/-- The reply to a call, and the cache afterwards. -/
def call (c : SharedCache) : CacheCall → CacheReply × SharedCache
  | .get key =>
      let (outcome?, stored) := c.stored.lookup key
      (.found outcome?, { c with stored })
  | .getOrCompute key computed =>
      let (outcome, status, c) := Id.run (c.getOrCompute key (pure computed))
      (.served outcome status, c)
  | .isStored key => (.stored (c.stored.find? key).isSome, c)
  | .clear => (.cleared, { c with stored := c.stored.clear })

end SharedCache

/-- A call in the course of time. -/
structure CacheEvent where
  /-- The cache that is called. -/
  before : SharedCache
  /-- The call. -/
  call : CacheCall
  /-- The reply. -/
  reply : CacheReply

namespace SharedCache

/-- The event of a call. -/
def event (c : SharedCache) (call : CacheCall) : CacheEvent := ⟨c, call, (c.call call).1⟩

/-- The events of calls, the latest first, and the cache after them. -/
def history (c : SharedCache) (calls : List CacheCall) : List CacheEvent × SharedCache :=
  calls.foldl (fun state call => (state.2.event call :: state.1, (state.2.call call).2)) ([], c)

end SharedCache

end PaintQuote.Engine
