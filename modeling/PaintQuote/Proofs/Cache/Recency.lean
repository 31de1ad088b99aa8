import Mathlib
import PaintQuote.Engine.SharedCache
import PaintQuote.Proofs.Cache.Recall

/-!
# What a cache holds after calls

A call *uses* a key if it finds an outcome under it or has one stored under it.  After any calls of one
caller a cache holds outcomes for the keys that were used last since it was cleared, as many as its
capacity allows, each as it was computed last (`history_recent`).  The table of computations that are under
way is empty between two calls, so that a shared cache does what its result cache does
(`SharedCache.getOrCompute_eq`).
-/

namespace PaintQuote.Engine

/-! ## Histories -/

namespace CacheEvent

/-- The key that is used. -/
def used? (e : CacheEvent) : Option CacheKey :=
  match e.call, e.reply with
  | .get key, .found (some _) => some key
  | .getOrCompute key _, _ => some key
  | _, _ => none

/-- The key under which an outcome is computed, and the outcome. -/
def computed? (e : CacheEvent) : Option (CacheKey × Outcome) :=
  match e.call, e.reply with
  | .getOrCompute key _, .served outcome .miss => some (key, outcome)
  | _, _ => none

/-- Whether a stored outcome is given. -/
def isHit (e : CacheEvent) : Bool :=
  match e.reply with
  | .found (some _) | .served _ .hit => true
  | _ => false

/-- Whether all outcomes are dropped. -/
def isClear (e : CacheEvent) : Bool :=
  match e.call with
  | .clear => true
  | _ => false

end CacheEvent

/-- The keys used since outcomes were dropped, each once, the one used last in front. -/
def recentKeys (history : List CacheEvent) : List CacheKey :=
  ((history.takeWhile fun e => !e.isClear).filterMap CacheEvent.used?).eraseDups

/-- The outcome that was computed last under a key. -/
def lastComputed? (history : List CacheEvent) (key : CacheKey) : Option Outcome :=
  ((history.filterMap CacheEvent.computed?).find? fun e => e.1 = key).map (·.2)

/-- The number of outcomes that were dropped together. -/
def droppedCount (history : List CacheEvent) : Nat :=
  ((history.filter CacheEvent.isClear).map fun e => e.before.stored.size).sum

/-! ## Lists without repetitions -/

section

variable {α : Type} [BEq α] [LawfulBEq α]

theorem eraseDups_filter (p : α → Bool) :
    ∀ l : List α, (l.filter p).eraseDups = l.eraseDups.filter p
  | [] => by simp
  | a :: l => by
      have hrest := eraseDups_filter p (l.filter fun b => !b == a)
      rw [List.eraseDups_cons, List.filter_cons, List.filter_cons, ← hrest]
      cases hp : p a with
      | true => simp [List.eraseDups_cons, List.filter_filter, Bool.and_comm]
      | false =>
          have hall : (l.filter fun b => !b == a).filter p = l.filter p := by
            rw [List.filter_filter]
            refine List.filter_congr fun b _ => ?_
            cases hb : p b with
            | false => rfl
            | true =>
                have hne : b ≠ a := fun heq => by simp [heq, hp] at hb
                simp [hne]
          simp [hall]
termination_by l => l.length
decreasing_by exact Nat.lt_succ_of_le (List.length_filter_le _ _)

theorem eraseDups_cons_filter [DecidableEq α] (a : α) (l : List α) :
    (a :: l).eraseDups = a :: l.eraseDups.filter (· ≠ a) := by
  rw [List.eraseDups_cons, eraseDups_filter]
  congr 1
  refine List.filter_congr fun b _ => ?_
  by_cases h : b = a <;> simp [h]

theorem nodup_eraseDups : ∀ l : List α, l.eraseDups.Nodup
  | [] => by simp
  | a :: l => by
      rw [List.eraseDups_cons, eraseDups_filter]
      exact List.nodup_cons.2 ⟨by simp, (nodup_eraseDups l).filter _⟩

end

section

variable {α : Type} [DecidableEq α]

theorem filter_ne_eq_self {a : α} {l : List α} (h : a ∉ l) : l.filter (· ≠ a) = l :=
  List.filter_eq_self.2 fun b hb => by
    have hne : b ≠ a := fun heq => h (heq ▸ hb)
    simpa using hne

theorem length_filter_ne {a : α} {l : List α} (hl : l.Nodup) (h : a ∈ l) :
    (l.filter (· ≠ a)).length + 1 = l.length := by
  have herase : l.erase a = l.filter (· ≠ a) := by
    rw [hl.erase_eq_filter]
    exact List.filter_congr fun b _ => by by_cases hb : b = a <;> simp [hb]
  have hpos : 0 < l.length := List.length_pos_of_mem h
  rw [← herase, List.length_erase_of_mem h]
  omega

theorem take_filter_take (a : α) :
    ∀ {l : List α}, l.Nodup → ∀ n,
      ((l.take (n + 1)).filter (· ≠ a)).take n = (l.filter (· ≠ a)).take n
  | [], _, n => by simp
  | b :: l, h, n => by
      obtain ⟨hb, hl⟩ := List.nodup_cons.1 h
      by_cases heq : b = a
      · subst heq
        have htake : b ∉ l.take n := fun hmem => hb (List.mem_of_mem_take hmem)
        rw [List.take_succ_cons, List.filter_cons_of_neg (by simp), List.filter_cons_of_neg (by simp),
          filter_ne_eq_self htake, filter_ne_eq_self hb, List.take_take, Nat.min_self]
      · cases n with
        | zero => rfl
        | succ n =>
            rw [List.take_succ_cons, List.filter_cons_of_pos (by simpa using heq),
              List.filter_cons_of_pos (by simpa using heq), List.take_succ_cons, List.take_succ_cons,
              take_filter_take a hl n]

end

/-! ## What an event adds -/

section

variable {e : CacheEvent} {history : List CacheEvent} {key : CacheKey}

theorem nodup_recentKeys (history : List CacheEvent) : (recentKeys history).Nodup :=
  nodup_eraseDups _

theorem recentKeys_used (hclear : e.isClear = false) (hused : e.used? = some key) :
    recentKeys (e :: history) = key :: (recentKeys history).filter (· ≠ key) := by
  simp only [recentKeys, List.takeWhile_cons, hclear, Bool.not_false, if_true, List.filterMap_cons, hused]
  exact eraseDups_cons_filter key _

theorem recentKeys_unused (hclear : e.isClear = false) (hused : e.used? = none) :
    recentKeys (e :: history) = recentKeys history := by
  simp [recentKeys, hclear, hused]

theorem recentKeys_clear (hclear : e.isClear = true) : recentKeys (e :: history) = [] := by
  simp [recentKeys, hclear]

theorem lastComputed?_computed {o : Outcome} (h : e.computed? = some (key, o)) (key' : CacheKey) :
    lastComputed? (e :: history) key' = if key = key' then some o else lastComputed? history key' := by
  by_cases heq : key = key' <;> simp [lastComputed?, h, heq]

theorem lastComputed?_of_none (h : e.computed? = none) :
    lastComputed? (e :: history) = lastComputed? history := by
  funext key'
  simp [lastComputed?, h]

theorem droppedCount_cons (e : CacheEvent) (history : List CacheEvent) : droppedCount (e :: history) =
    (if e.isClear then e.before.stored.size else 0) + droppedCount history := by
  cases h : e.isClear <;> simp [droppedCount, h]

end

/-! ## Calls of one caller -/

namespace SharedCache

variable {c : SharedCache}

/-- A cache between two calls does what its result cache does: it computes exactly what is not stored,
and no slot stays behind. -/
theorem getOrCompute_eq {m : Type → Type} [Monad m] [LawfulMonad m] (hslots : c.slots = [])
    (key : CacheKey) (compute : m Outcome) :
    c.getOrCompute key compute =
      match c.stored.find? key with
      | some outcome => pure (outcome, .hit, { c with stored := c.stored.touch key outcome })
      | none => compute >>= fun outcome =>
          pure (outcome, .miss, { c with stored := c.stored.store key outcome }) := by
  cases hfind : c.stored.find? key with
  | some outcome => simp [getOrCompute, hfind]
  | none =>
      simp [getOrCompute, hfind, openSlot, slot?, hslots, toFill, fillSlot, settle, closeSlot]

theorem call_getOrCompute (hslots : c.slots = []) (key : CacheKey) (computed : Outcome) :
    c.call (.getOrCompute key computed) =
      match c.stored.find? key with
      | some outcome => (.served outcome .hit, { c with stored := c.stored.touch key outcome })
      | none => (.served computed .miss, { c with stored := c.stored.store key computed }) := by
  rw [call, getOrCompute_eq hslots]
  cases c.stored.find? key <;> rfl

end SharedCache

/-! ## What a cache holds -/

/-- A cache holds what a history has left in it. -/
structure Follows (capacity : Nat) (history : List CacheEvent) (c : SharedCache) : Prop where
  slots : c.slots = []
  capacity_eq : c.stored.capacity = capacity
  keys : c.stored.entries.map (·.1) = (recentKeys history).take capacity
  outcomes : ∀ entry ∈ c.stored.entries, lastComputed? history entry.1 = some entry.2
  hits : c.stored.hits = history.countP CacheEvent.isHit
  misses : c.stored.misses = (history.filterMap CacheEvent.computed?).length
  coalesced : c.coalesced = 0
  balance : c.stored.misses = c.stored.evictions + c.stored.size + droppedCount history

namespace Follows

variable {capacity : Nat} {history : List CacheEvent} {c : SharedCache} {key : CacheKey} {o : Outcome}

theorem nodup_keys (h : Follows capacity history c) : (c.stored.entries.map (·.1)).Nodup := by
  rw [h.keys]
  exact (nodup_recentKeys history).sublist (List.take_sublist _ _)

theorem size_le (h : Follows capacity history c) : c.stored.size ≤ capacity := by
  rw [ResultCache.size, ← List.length_map (f := (·.1)), h.keys]
  exact List.length_take_le _ _

/-- The keys after one was used. -/
theorem keys_promote (h : Follows capacity history c) :
    ((c.stored.promote key o).map (·.1)).take capacity =
      (key :: (recentKeys history).filter (· ≠ key)).take capacity := by
  have hmap : (c.stored.promote key o).map (·.1) =
      key :: ((recentKeys history).take capacity).filter (· ≠ key) := by
    rw [ResultCache.promote, List.map_cons, ← h.keys, List.filter_map]
    rfl
  rw [hmap]
  cases capacity with
  | zero => rfl
  | succ n => rw [List.take_succ_cons, List.take_succ_cons, take_filter_take key (nodup_recentKeys history)]

/-- A stored outcome is the one that was computed last; the others keep theirs. -/
theorem outcomes_promote (h : Follows capacity history c) {history' : List CacheEvent}
    (hkey : lastComputed? history' key = some o)
    (hothers : ∀ key', key' ≠ key → lastComputed? history' key' = lastComputed? history key') :
    ∀ entry ∈ c.stored.promote key o, lastComputed? history' entry.1 = some entry.2 := by
  intro entry hentry
  obtain rfl | hentry := List.mem_cons.1 hentry
  · exact hkey
  · obtain ⟨hmem, hne⟩ := List.mem_filter.1 hentry
    rw [hothers entry.1 (by simpa using hne), h.outcomes entry hmem]

theorem not_mem_keys_of_find? (hfind : c.stored.find? key = none) :
    key ∉ c.stored.entries.map (·.1) := by
  intro hmem
  obtain ⟨entry, hentry, rfl⟩ := List.mem_map.1 hmem
  simp only [ResultCache.find?, Option.map_eq_none_iff, List.find?_eq_none, decide_eq_true_eq] at hfind
  exact hfind entry hentry rfl

/-- A hit moves its key to the front. -/
theorem hit (h : Follows capacity history c) {e : CacheEvent} (hfind : c.stored.find? key = some o)
    (hclear : e.isClear = false) (hused : e.used? = some key) (hcomputed : e.computed? = none)
    (hhit : e.isHit = true) :
    Follows capacity (e :: history) { c with stored := c.stored.touch key o } := by
  have hmem := ResultCache.mem_of_find? hfind
  have hsize : (c.stored.promote key o).length = c.stored.entries.length := by
    have hkey : key ∈ c.stored.entries.map (·.1) := List.mem_map.2 ⟨_, hmem, rfl⟩
    have hlength := length_filter_ne h.nodup_keys hkey
    rw [List.filter_map, List.length_map, List.length_map] at hlength
    exact hlength
  have hroom : (c.stored.promote key o).length ≤ capacity := hsize ▸ h.size_le
  exact {
    slots := h.slots
    capacity_eq := h.capacity_eq
    keys := by
      rw [recentKeys_used hclear hused, ← h.keys_promote (o := o), List.take_of_length_le (by simpa using hroom)]
      rfl
    outcomes := by
      rw [lastComputed?_of_none hcomputed]
      exact h.outcomes_promote (h.outcomes _ hmem) fun _ _ => rfl
    hits := by simp [ResultCache.touch, h.hits, hhit]
    misses := by simp [ResultCache.touch, h.misses, hcomputed]
    coalesced := h.coalesced
    balance := by
      rw [droppedCount_cons, hclear]
      simpa [ResultCache.touch, ResultCache.size, hsize] using h.balance }

/-- A miss stores what was computed in front, and what is too much is evicted. -/
theorem miss (h : Follows capacity history c) {e : CacheEvent} (hfind : c.stored.find? key = none)
    (hclear : e.isClear = false) (hused : e.used? = some key) (hcomputed : e.computed? = some (key, o))
    (hhit : e.isHit = false) :
    Follows capacity (e :: history) { c with stored := c.stored.store key o } := by
  have hsize : (c.stored.promote key o).length = c.stored.entries.length + 1 := by
    have hrest := filter_ne_eq_self (not_mem_keys_of_find? hfind)
    rw [List.filter_map] at hrest
    have hlength := congrArg List.length hrest
    rw [List.length_map, List.length_map] at hlength
    exact congrArg (· + 1) hlength
  exact {
    slots := h.slots
    capacity_eq := h.capacity_eq
    keys := by
      rw [recentKeys_used hclear hused, ← h.keys_promote (o := o), ← h.capacity_eq]
      exact List.map_take
    outcomes := by
      have hkey : lastComputed? (e :: history) key = some o := by simp [lastComputed?_computed hcomputed]
      have hothers : ∀ key', key' ≠ key → lastComputed? (e :: history) key' = lastComputed? history key' := by
        intro key' hne
        rw [lastComputed?_computed hcomputed, if_neg (Ne.symm hne)]
      exact fun entry hentry => h.outcomes_promote hkey hothers entry (List.mem_of_mem_take hentry)
    hits := by simp [ResultCache.store, h.hits, hhit]
    misses := by simp [ResultCache.store, h.misses, hcomputed]
    coalesced := h.coalesced
    balance := by
      have hbalance := h.balance
      have hle := h.size_le
      rw [droppedCount_cons, hclear]
      simp only [ResultCache.store, ResultCache.size, List.length_take, hsize, h.capacity_eq] at hbalance hle ⊢
      simp only [Bool.false_eq_true, if_false]
      omega }

/-- A call that finds nothing, or only asks whether something is stored, leaves all as it is. -/
theorem idle (h : Follows capacity history c) {e : CacheEvent} (hclear : e.isClear = false)
    (hused : e.used? = none) (hcomputed : e.computed? = none) (hhit : e.isHit = false) :
    Follows capacity (e :: history) c := {
  h with
  keys := by rw [recentKeys_unused hclear hused, h.keys]
  outcomes := by
    rw [lastComputed?_of_none hcomputed]
    exact h.outcomes
  hits := by simp [h.hits, hhit]
  misses := by simp [h.misses, hcomputed]
  balance := by
    rw [droppedCount_cons, hclear]
    simpa using h.balance }

/-- What is stored when the cache is cleared is dropped. -/
theorem clear (h : Follows capacity history c) {e : CacheEvent} (hclear : e.isClear = true)
    (hcomputed : e.computed? = none) (hhit : e.isHit = false) (hbefore : e.before = c) :
    Follows capacity (e :: history) { c with stored := c.stored.clear } := {
  slots := h.slots
  capacity_eq := h.capacity_eq
  keys := by simp [recentKeys_clear hclear, ResultCache.clear]
  outcomes := by simp [ResultCache.clear]
  hits := by simp [ResultCache.clear, h.hits, hhit]
  misses := by simp [ResultCache.clear, h.misses, hcomputed]
  coalesced := h.coalesced
  balance := by
    have hbalance := h.balance
    rw [droppedCount_cons, hclear, hbefore, if_pos rfl]
    simp only [ResultCache.clear, ResultCache.size, List.length_nil] at hbalance ⊢
    omega }

/-- What one call does to a cache. -/
theorem call (h : Follows capacity history c) (call : CacheCall) :
    Follows capacity (c.event call :: history) (c.call call).2 := by
  cases call with
  | get key =>
      cases hfind : c.stored.find? key with
      | some o =>
          have hcall : c.call (.get key) = (.found (some o), { c with stored := c.stored.touch key o }) := by
            simp [SharedCache.call, ResultCache.lookup, hfind]
          rw [SharedCache.event, hcall]
          exact h.hit hfind rfl rfl rfl rfl
      | none =>
          have hcall : c.call (.get key) = (.found none, c) := by
            simp [SharedCache.call, ResultCache.lookup, hfind]
          rw [SharedCache.event, hcall]
          exact h.idle rfl rfl rfl rfl
  | getOrCompute key computed =>
      rw [SharedCache.event, SharedCache.call_getOrCompute h.slots]
      cases hfind : c.stored.find? key with
      | some o => exact h.hit hfind rfl rfl rfl rfl
      | none => exact h.miss hfind rfl rfl rfl rfl
  | isStored key => exact h.idle rfl rfl rfl rfl
  | clear => exact h.clear rfl rfl rfl rfl

theorem empty (capacity : Nat) : Follows capacity [] (.empty capacity) := {
  slots := rfl
  capacity_eq := rfl
  keys := by simp [SharedCache.empty, ResultCache.empty, recentKeys]
  outcomes := by simp [SharedCache.empty, ResultCache.empty]
  hits := rfl
  misses := rfl
  coalesced := rfl
  balance := rfl }

/-- What calls do to a cache, from the first to the last. -/
theorem foldl (calls : List CacheCall) : ∀ {state : List CacheEvent × SharedCache},
    Follows capacity state.1 state.2 →
    let after := calls.foldl (fun state call => (state.2.event call :: state.1, (state.2.call call).2)) state
    Follows capacity after.1 after.2 := by
  induction calls with
  | nil => exact fun h => h
  | cons call calls ih => exact fun h => ih (h.call call)

end Follows

namespace Follows

variable {capacity : Nat} {history : List CacheEvent} {c : SharedCache}

/-- What a lookup finds. -/
theorem find?_eq (h : Follows capacity history c) (key : CacheKey) : c.stored.find? key =
    if key ∈ (recentKeys history).take capacity then lastComputed? history key else none := by
  cases hfind : c.stored.find? key with
  | some o =>
      have hmem := ResultCache.mem_of_find? hfind
      rw [← h.keys, if_pos (List.mem_map.2 ⟨_, hmem, rfl⟩), h.outcomes _ hmem]
  | none => rw [← h.keys, if_neg (not_mem_keys_of_find? hfind)]

end Follows

/-- After any calls of one caller, in any order, the keys of a cache are those used last since it was
cleared, as many as fit, each with the outcome that was computed last, and no computation is under way.
The next computation is run exactly if its key is not stored.  Every outcome that was computed has been
evicted, is stored or was dropped. -/
theorem history_recent (capacity : Nat) (calls : List CacheCall) :
    let (history, c) := (SharedCache.empty capacity).history calls
    c.stored.entries.map (·.1) = (recentKeys history).take capacity ∧
    c.stored.size = min capacity (recentKeys history).length ∧
    (∀ key, c.stored.find? key =
      if key ∈ (recentKeys history).take capacity then lastComputed? history key else none) ∧
    (∀ {m : Type → Type} [Monad m] [LawfulMonad m] (key : CacheKey) (compute : m Outcome),
      c.getOrCompute key compute =
        match c.stored.find? key with
        | some outcome => pure (outcome, .hit, { c with stored := c.stored.touch key outcome })
        | none => compute >>= fun outcome =>
            pure (outcome, .miss, { c with stored := c.stored.store key outcome })) ∧
    c.slots = [] ∧
    c.stored.hits = history.countP CacheEvent.isHit ∧
    c.stored.misses = (history.filterMap CacheEvent.computed?).length ∧
    c.coalesced = 0 ∧
    c.stored.misses = c.stored.evictions + c.stored.size + droppedCount history ∧
    c.stored.size ≤ capacity := by
  have h : Follows capacity ((SharedCache.empty capacity).history calls).1
      ((SharedCache.empty capacity).history calls).2 := Follows.foldl calls (.empty capacity)
  have hsize : ((SharedCache.empty capacity).history calls).2.stored.size =
      min capacity (recentKeys ((SharedCache.empty capacity).history calls).1).length := by
    rw [ResultCache.size, ← List.length_map (f := (·.1)), h.keys, List.length_take]
  exact ⟨h.keys, hsize, h.find?_eq, fun key compute => SharedCache.getOrCompute_eq h.slots key compute,
    h.slots, h.hits, h.misses, h.coalesced, h.balance, h.size_le⟩

/-- With room for one outcome the second computation evicts the first, and only the key of the first would
be computed again. -/
theorem history_recent_evicts :
    let c := ((SharedCache.empty 1).history
      [.getOrCompute ⟨[1]⟩ (.ok (.text "a")), .get ⟨[1]⟩, .getOrCompute ⟨[2]⟩ (.ok (.text "b")), .get ⟨[1]⟩]).2
    c.stored.entries.map (·.1) = [⟨[2]⟩] ∧
    c.getOrCompute ⟨[1]⟩ (none : Option Outcome) = none ∧
    (c.getOrCompute ⟨[2]⟩ (none : Option Outcome)).map (·.1) = some (.ok (.text "b")) := by
  obtain ⟨hkeys, -, -, hnext, -⟩ := history_recent 1
    [.getOrCompute ⟨[1]⟩ (.ok (.text "a")), .get ⟨[1]⟩, .getOrCompute ⟨[2]⟩ (.ok (.text "b")), .get ⟨[1]⟩]
  exact ⟨hkeys.trans (by decide), (hnext ⟨[1]⟩ none).trans (by rfl), congrArg _ (hnext ⟨[2]⟩ none)⟩

end PaintQuote.Engine
