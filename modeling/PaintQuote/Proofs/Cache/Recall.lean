import PaintQuote.Engine.ResultCache

/-!
# What a cache gives back

A cache is asked for outcomes under keys, each with the outcome that it computes if it holds none.  It
*serves* such a list when it gives every time the outcome that came with the key.  What it holds are
outcomes that came with their keys before, and with enough room it holds the first of each key.  So
caches of every capacity serve a list exactly when the list has one outcome for each key
(`serves_iff`).
-/

namespace PaintQuote.Engine.ResultCache

/-! ## Looking up after a change -/

section

variable (c : ResultCache) (key : CacheKey) (o : Outcome)

theorem find?_promote (key' : CacheKey) :
    (((c.promote key o).find? fun entry => entry.1 = key').map (·.2)) =
      if key' = key then some o else c.find? key' := by
  rw [promote, List.find?_cons]
  by_cases h : key' = key
  · simp [h]
  · have hne : ¬ key = key' := fun heq => h heq.symm
    have hsame : ∀ entry : CacheKey × Outcome,
        decide (decide (entry.1 ≠ key) = true ∧ decide (entry.1 = key') = true) =
          decide (entry.1 = key') := by
      intro entry
      by_cases hentry : entry.1 = key' <;> simp [hentry, h]
    simp only [decide_eq_false hne, if_neg h, find?, List.find?_filter, hsame]

theorem mem_promote {entry : CacheKey × Outcome} (h : entry ∈ c.promote key o) :
    entry = (key, o) ∨ entry ∈ c.entries := by
  rcases List.mem_cons.1 h with h | h
  · exact Or.inl h
  · exact Or.inr (List.mem_filter.1 h).1

theorem length_promote_le : (c.promote key o).length ≤ c.entries.length + 1 := by
  rw [promote, List.length_cons]
  exact Nat.succ_le_succ (List.length_filter_le _ _)

theorem find?_touch (key' : CacheKey) :
    (c.touch key o).find? key' = if key' = key then some o else c.find? key' :=
  c.find?_promote key o key'

/-- A cache with room left drops nothing when it stores an outcome. -/
theorem store_entries (h : c.entries.length < c.capacity) :
    (c.store key o).entries = c.promote key o :=
  List.take_of_length_le (Nat.le_trans (c.length_promote_le key o) h)

theorem find?_store (h : c.entries.length < c.capacity) (key' : CacheKey) :
    (c.store key o).find? key' = if key' = key then some o else c.find? key' := by
  rw [find?, store_entries c key o h]
  exact c.find?_promote key o key'

theorem mem_of_find? {c : ResultCache} {key : CacheKey} {o : Outcome} (h : c.find? key = some o) :
    (key, o) ∈ c.entries := by
  obtain ⟨entry, hfind, hentry⟩ := Option.map_eq_some_iff.1 h
  have hkey := List.find?_some hfind
  rw [decide_eq_true_iff] at hkey
  rw [← hkey, ← hentry]
  exact List.mem_of_find?_eq_some hfind

end

/-! ## Serving -/

/-- What a cache gives for a key that comes with an outcome, and the cache afterwards. -/
def serve (c : ResultCache) (entry : CacheKey × Outcome) : Outcome × ResultCache :=
  let (outcome, _, c) := c.getOrCompute entry.1 fun _ => entry.2
  (outcome, c)

/-- A cache gives for every key in turn the outcome that comes with it. -/
def Serves (c : ResultCache) : List (CacheKey × Outcome) → Prop
  | [] => True
  | entry :: entries => (c.serve entry).1 = entry.2 ∧ (c.serve entry).2.Serves entries

/-- The cache after it has been asked for keys in turn. -/
def after (c : ResultCache) (entries : List (CacheKey × Outcome)) : ResultCache :=
  entries.foldl (fun c entry => (c.serve entry).2) c

theorem serves_append (entries entries' : List (CacheKey × Outcome)) : ∀ c : ResultCache,
    c.Serves (entries ++ entries') ↔ c.Serves entries ∧ (c.after entries).Serves entries' := by
  induction entries with
  | nil => exact fun c => (iff_of_eq (true_and _)).symm
  | cons entry entries ih =>
      intro c
      rw [List.cons_append, Serves, Serves, ih, and_assoc]
      rfl

/-- What a cache gives is what it holds under the key, or else the outcome that comes with it. -/
theorem serve_cases (c : ResultCache) (entry : CacheKey × Outcome) :
    (∃ o, c.find? entry.1 = some o ∧ c.serve entry = (o, c.touch entry.1 o)) ∨
      (c.find? entry.1 = none ∧ c.serve entry = (entry.2, c.store entry.1 entry.2)) := by
  unfold serve getOrCompute
  cases c.find? entry.1 with
  | some o => exact Or.inl ⟨o, rfl, rfl⟩
  | none => exact Or.inr ⟨rfl, rfl⟩

/-- A list has one outcome for each key. -/
def Unambiguous (entries : List (CacheKey × Outcome)) : Prop :=
  ∀ a ∈ entries, ∀ b ∈ entries, a.1 = b.1 → a.2 = b.2

/-! ## Serving what is unambiguous -/

/-- A cache holds afterwards what it held, or the key with the outcome that it gave. -/
theorem mem_serve {c : ResultCache} {entry entry' : CacheKey × Outcome}
    (h : entry' ∈ (c.serve entry).2.entries) :
    entry' = (entry.1, (c.serve entry).1) ∨ entry' ∈ c.entries := by
  rcases c.serve_cases entry with ⟨o, _, hserve⟩ | ⟨_, hserve⟩
  · rw [hserve] at h ⊢
    exact c.mem_promote _ _ h
  · rw [hserve] at h ⊢
    exact c.mem_promote _ _ (List.mem_of_mem_take h)

/-- A cache gives the outcome that comes with a key if it holds no other under the key. -/
theorem serve_eq {c : ResultCache} {entry : CacheKey × Outcome}
    (h : ∀ held ∈ c.entries, held.1 = entry.1 → held.2 = entry.2) : (c.serve entry).1 = entry.2 := by
  rcases c.serve_cases entry with ⟨o, hfind, hserve⟩ | ⟨_, hserve⟩
  · rw [hserve]
    exact h (entry.1, o) (mem_of_find? hfind) rfl
  · rw [hserve]

/-- A cache that holds what has come before serves what is unambiguous with it. -/
theorem serves_of_unambiguous (entries : List (CacheKey × Outcome)) :
    ∀ {c : ResultCache} {done : List (CacheKey × Outcome)}, (∀ held ∈ c.entries, held ∈ done) →
      Unambiguous (done ++ entries) → c.Serves entries := by
  induction entries with
  | nil => exact fun _ _ => trivial
  | cons entry entries ih =>
      intro c done hheld hone
      have hentry : (c.serve entry).1 = entry.2 := by
        refine serve_eq ?_
        intro held hc hkey
        exact hone held (List.mem_append_left _ (hheld held hc)) entry (by simp) hkey
      have hheld' : ∀ held ∈ (c.serve entry).2.entries, held ∈ done ++ [entry] := by
        intro held hc
        rcases mem_serve hc with rfl | hc
        · rw [hentry]
          exact List.mem_append_right _ (List.mem_singleton.2 rfl)
        · exact List.mem_append_left _ (hheld held hc)
      refine ⟨hentry, ih hheld' ?_⟩
      rw [List.append_assoc]
      exact hone

/-! ## What is served is unambiguous -/

/-- A cache holds every outcome of a list under its key, and no more outcomes than the list has. -/
structure Recalls (c : ResultCache) (done : List (CacheKey × Outcome)) : Prop where
  found : ∀ entry ∈ done, c.find? entry.1 = some entry.2
  size : c.entries.length ≤ done.length

/-- A cache with room left recalls a further outcome if it gives it. -/
theorem Recalls.serve {c : ResultCache} {done : List (CacheKey × Outcome)}
    {entry : CacheKey × Outcome} (h : c.Recalls done) (hroom : done.length < c.capacity)
    (hentry : (c.serve entry).1 = entry.2) :
    (c.serve entry).2.Recalls (done ++ [entry]) ∧ (c.serve entry).2.capacity = c.capacity := by
  have hcapacity : c.entries.length < c.capacity := Nat.lt_of_le_of_lt h.size hroom
  -- Held or not, the outcome comes to stand in front, and the others stay.
  have hfind : (c.serve entry).2.capacity = c.capacity ∧
      (c.serve entry).2.entries = c.promote entry.1 entry.2 ∧
      ∀ key, (c.serve entry).2.find? key = if key = entry.1 then some entry.2 else c.find? key := by
    rcases c.serve_cases entry with ⟨o, _, hserve⟩ | ⟨_, hserve⟩
    · rw [hserve] at hentry ⊢
      have hsame : o = entry.2 := hentry
      rw [hsame]
      exact ⟨rfl, rfl, c.find?_touch _ _⟩
    · rw [hserve]
      exact ⟨rfl, c.store_entries _ _ hcapacity, c.find?_store _ _ hcapacity⟩
  obtain ⟨hkept, hentries, hfind⟩ := hfind
  refine ⟨⟨?_, ?_⟩, hkept⟩
  · intro entry' hmem
    rw [hfind]
    split
    next heq =>
      rcases List.mem_append.1 hmem with hold | hnew
      · -- The cache held this outcome under the key, so it gave it.
        have hfound := h.found entry' hold
        rcases c.serve_cases entry with ⟨o, ho, hserve⟩ | ⟨ho, _⟩
        · rw [hserve] at hentry
          rw [heq, ho] at hfound
          rw [← hfound, ← hentry]
        · rw [heq, ho] at hfound
          cases hfound
      · rw [List.mem_singleton.1 hnew]
    next hne =>
      rcases List.mem_append.1 hmem with hold | hnew
      · exact h.found entry' hold
      · exact absurd (congrArg Prod.fst (List.mem_singleton.1 hnew)) hne
  · rw [hentries, List.length_append]
    exact Nat.le_trans (c.length_promote_le _ _) (Nat.succ_le_succ h.size)

/-- A cache with enough room that serves a list recalls it. -/
theorem Recalls.serves (entries : List (CacheKey × Outcome)) :
    ∀ {c : ResultCache} {done : List (CacheKey × Outcome)}, c.Recalls done →
      done.length + entries.length ≤ c.capacity → c.Serves entries →
      (c.after entries).Recalls (done ++ entries) := by
  induction entries with
  | nil =>
      intro c done h _ _
      rw [List.append_nil]
      exact h
  | cons entry entries ih =>
      intro c done h hroom hserves
      rw [List.length_cons] at hroom
      obtain ⟨hrecalls, hcapacity⟩ := h.serve (by omega) hserves.1
      have hroom' : (done ++ [entry]).length + entries.length ≤ (c.serve entry).2.capacity := by
        rw [hcapacity, List.length_append, List.length_singleton]
        omega
      have hrest := ih hrecalls hroom' hserves.2
      rw [List.append_assoc] at hrest
      exact hrest

/-- Empty caches of every capacity serve a list exactly when it has one outcome for each key. -/
theorem serves_iff (entries : List (CacheKey × Outcome)) :
    (∀ capacity, 1 ≤ capacity → (empty capacity).Serves entries) ↔ Unambiguous entries := by
  constructor
  · intro hall a ha b hb hkey
    have hempty : (empty (entries.length + 1)).Recalls [] :=
      ⟨fun _ h => absurd h List.not_mem_nil, Nat.le_refl 0⟩
    have hrecalls := hempty.serves entries (by simp [empty]) (hall _ (Nat.le_add_left _ _))
    have hfound := hrecalls.found b hb
    rw [← hkey, hrecalls.found a ha] at hfound
    exact Option.some.inj hfound
  · intro hone capacity _
    have hheld : ∀ held ∈ (empty capacity).entries, held ∈ ([] : List (CacheKey × Outcome)) :=
      fun held h => absurd h List.not_mem_nil
    exact serves_of_unambiguous entries hheld hone

end PaintQuote.Engine.ResultCache
