import PaintQuote.Proofs.Order.Invariant

/-!
# Looking at an edge

A turn that looks at an edge of the cell at hand keeps the invariant.  The edge is taken out of the
frame (`take_edge`), and then one of three things happens: the cell at its end is found (`find`), or
it waits and lowers the low number of the cell at hand (`lower`), or its step has been put out and
nothing changes (`pass`).
-/

namespace PaintQuote.Engine.Search

open Sheet

/-! ## Views after a change -/

section

variable (g : Graph) (s : Search) (cell c : CellKey)

theorem find_stack : (s.find g cell).stack = cell :: s.stack := rfl

theorem find_waiting : (s.find g cell).waiting = s.waiting.insert cell := rfl

theorem found_find : (s.find g cell).Found c ↔ c = cell ∨ s.Found c := by
  unfold Found find
  rw [Keyed.get?_insert]
  by_cases h : c = cell <;> simp [h]

theorem rank_find : (s.find g cell).rank c = if c = cell then s.next else s.rank c := by
  unfold rank find
  rw [Keyed.get?_insert]
  by_cases h : c = cell <;> simp [h]

theorem lowest_find : (s.find g cell).lowest c = if c = cell then s.next else s.lowest c := by
  unfold lowest find
  rw [Keyed.get?_insert]
  by_cases h : c = cell <;> simp [h]

/-- The frame of a cell that is found holds all its edges. -/
theorem pending_find (b : CellKey) :
    (s.find g cell).Pending c b ↔ (c = cell ∧ g.Reads c b) ∨ s.Pending c b := by
  constructor
  · rintro ⟨f, hf, hfc, hb⟩
    rcases List.mem_cons.1 hf with rfl | hf
    · exact Or.inl ⟨hfc.symm, hfc ▸ hb⟩
    · exact Or.inr ⟨f, hf, hfc, hb⟩
  · rintro (⟨rfl, hread⟩ | ⟨f, hf, hfc, hb⟩)
    · exact ⟨_, List.mem_cons_self, rfl, hread⟩
    · exact ⟨f, List.mem_cons_of_mem _ hf, hfc, hb⟩

theorem low_isSome_find (h : c = cell ∨ (s.low.get? c).isSome) :
    ((s.find g cell).low.get? c).isSome := by
  unfold find
  rw [Keyed.get?_insert]
  split
  next => rfl
  next hc => exact h.resolve_left hc

theorem lowest_lower (bound : Nat) (hlow : (s.low.get? cell).isSome) :
    (s.lower cell bound).lowest c = if c = cell then min (s.lowest cell) bound else s.lowest c := by
  obtain ⟨n, hn⟩ := Option.isSome_iff_exists.1 hlow
  have hlower : s.lower cell bound = { s with low := s.low.insert cell (min n bound) } := by
    simp only [lower, hn]
  have hcell : s.lowest cell = n := by simp only [lowest, hn, Option.getD_some]
  unfold lowest at hcell ⊢
  rw [hlower, Keyed.get?_insert, hcell]
  by_cases h : c = cell <;> simp [h]

theorem low_isSome_lower (bound : Nat) (h : (s.low.get? c).isSome) :
    ((s.lower cell bound).low.get? c).isSome := by
  unfold lower
  split
  · rw [Keyed.get?_insert]
    split
    · rfl
    · exact h
  · exact h

theorem lower_eq (bound : Nat) : ∃ low, s.lower cell bound = { s with low } := by
  unfold lower
  split
  · exact ⟨_, rfl⟩
  · exact ⟨s.low, rfl⟩

end

namespace Invariant

variable {g : Graph} {s : Search}

/-! ## Taking an edge -/

/-- Taking an edge out of the top frame puts it in hand. -/
theorem take_edge {cell precedent : CellKey} {rest : List CellKey} {frames : List Frame}
    (h : s.Invariant g noEdge) (hframes : s.frames = ⟨cell, precedent :: rest⟩ :: frames) :
    ({ s with frames := ⟨cell, rest⟩ :: frames } : Search).Invariant g
      fun a b => a = cell ∧ b = precedent := by
  have hpending : ∀ a b, s.Pending a b →
      ({ s with frames := ⟨cell, rest⟩ :: frames } : Search).Pending a b
        ∨ (a = cell ∧ b = precedent) := by
    rintro a b ⟨f, hf, hfa, hb⟩
    rw [hframes] at hf
    rcases List.mem_cons.1 hf with rfl | hf
    · rcases List.mem_cons.1 hb with rfl | hb
      · exact Or.inr ⟨hfa.symm, rfl⟩
      · exact Or.inl ⟨_, List.mem_cons_self, hfa, hb⟩
    · exact Or.inl ⟨f, List.mem_cons_of_mem _ hf, hfa, hb⟩
  have hway : ({ s with frames := ⟨cell, rest⟩ :: frames } : Search).way = s.way := by
    simp only [way, hframes, List.map_cons]
  refine
    { h with
      way_sublist := ?_, pending_reads := ?_, looked := ?_, to_way := ?_, low_le := ?_,
      low_reaches := ?_, low_bounds := ?_ }
  · rw [hway]
    exact h.way_sublist
  · rintro a b ⟨f, hf, hfa, hb⟩
    rcases List.mem_cons.1 hf with rfl | hf
    · exact h.pending_reads a b
        ⟨⟨cell, precedent :: rest⟩, hframes ▸ List.mem_cons_self, hfa, List.mem_cons_of_mem _ hb⟩
    · exact h.pending_reads a b ⟨f, hframes ▸ List.mem_cons_of_mem _ hf, hfa, hb⟩
  · intro a b ha hread
    rcases h.looked a b ha hread with hb | hb | hb
    · exact Or.inl hb
    · exact Or.inr (hpending a b hb)
    · exact hb.elim
  · rw [hway]
    exact h.to_way
  · rw [hway]
    exact h.low_le
  · rw [hway]
    exact h.low_reaches
  · intro c hc a ha hnear b hb hread hnot hhand
    rw [hway] at hc
    unfold Nearest at hnear
    rw [hway] at hnear
    exact h.low_bounds c hc a ha hnear b hb hread
      (fun hp => (hpending a b hp).elim hnot hhand) id

/-! ## Looking at it -/

variable {hand : CellKey → CellKey → Prop} {cell precedent : CellKey}

/-- An edge to a cell whose step has been put out says nothing about the cells that wait. -/
theorem pass (h : s.Invariant g hand) (hfound : ∀ a b, hand a b → s.Found b)
    (hout : ∀ a b, hand a b → b ∉ s.stack) : s.Invariant g noEdge := by
  refine { h with looked := ?_, low_bounds := ?_ }
  · intro a b ha hread
    rcases h.looked a b ha hread with hb | hb | hb
    · exact Or.inl hb
    · exact Or.inr (Or.inl hb)
    · exact Or.inl (hfound a b hb)
  · intro c hc a ha hnear b hb hread hnot _
    exact h.low_bounds c hc a ha hnear b hb hread hnot fun hhand => hout a b hhand hb

/-- An edge to a cell that waits lowers the low number of the cell at hand. -/
theorem lower (h : s.Invariant g fun a b => a = cell ∧ b = precedent) (hcell : cell ∈ s.way)
    (hread : g.Reads cell precedent) (hwait : precedent ∈ s.stack) :
    (s.lower cell (s.rank precedent)).Invariant g noEdge := by
  have hisSome := h.low_isSome cell (h.found_of_stack (h.way_mem_stack hcell))
  have hsome := fun c hc => low_isSome_lower s cell c (s.rank precedent) (h.low_isSome c hc)
  have hlow := fun c => lowest_lower s cell c (s.rank precedent) hisSome
  obtain ⟨low, hlower⟩ := lower_eq s cell (s.rank precedent)
  rw [hlower] at hsome hlow ⊢
  have hle : ∀ c, ({ s with low := low } : Search).lowest c ≤ s.lowest c := by
    intro c
    rw [hlow]
    split
    next heq => exact heq ▸ Nat.min_le_left _ _
    next => exact Nat.le_refl _
  refine
    { h with
      low_isSome := hsome, looked := ?_, low_le := ?_, low_reaches := ?_, low_bounds := ?_ }
  · intro a b ha hab
    rcases h.looked a b ha hab with hb | hb | ⟨rfl, rfl⟩
    · exact Or.inl hb
    · exact Or.inr (Or.inl hb)
    · exact Or.inl (h.found_of_stack hwait)
  · intro c hc
    exact Nat.le_trans (hle c) (h.low_le c hc)
  · intro c hc
    rw [hlow]
    split
    next heq =>
      rcases Nat.le_total (s.lowest cell) (s.rank precedent) with hmin | hmin
      · rw [Nat.min_eq_left hmin, ← heq]
        exact h.low_reaches c hc
      · rw [Nat.min_eq_right hmin, heq]
        exact ⟨precedent, hwait, rfl, .single hread⟩
    next => exact h.low_reaches c hc
  · intro c hc a ha hnear b hb hab hnot _
    by_cases hhand : a = cell ∧ b = precedent
    · obtain ⟨rfl, rfl⟩ := hhand
      have hca : c = a := by
        have hle := hnear.2 a hcell (Nat.le_refl _)
        exact h.eq_of_rank_eq (h.way_mem_stack hc) ha (Nat.le_antisymm hnear.1 hle)
      rw [hca, hlow, if_pos rfl]
      exact Nat.min_le_right _ _
    · exact Nat.le_trans (hle c) (h.low_bounds c hc a ha hnear b hb hab hnot hhand)

section

variable (h : s.Invariant g hand) (hnew : ¬ s.Found cell)

include h hnew

theorem ne_of_stack {a : CellKey} (ha : a ∈ s.stack) : a ≠ cell := by
  rintro rfl
  exact hnew (h.found_of_stack ha)

/-- Finding a cell changes no number of a cell that waits. -/
theorem rank_find_of_stack {a : CellKey} (ha : a ∈ s.stack) :
    (s.find g cell).rank a = s.rank a := by
  rw [rank_find, if_neg (h.ne_of_stack hnew ha)]

theorem lowest_find_of_way {c : CellKey} (hc : c ∈ s.way) :
    (s.find g cell).lowest c = s.lowest c := by
  rw [lowest_find, if_neg (h.ne_of_stack hnew (h.way_mem_stack hc))]

/-- A cell that is found is the nearest to no cell found before it, and otherwise the nearest stay. -/
theorem nearest_find {c a : CellKey} (hc : c ∈ (s.find g cell).way) (ha : a ∈ s.stack)
    (hnear : (s.find g cell).Nearest c a) : c ∈ s.way ∧ s.Nearest c a := by
  obtain ⟨hle, hmax⟩ := hnear
  rw [h.rank_find_of_stack hnew ha] at hle hmax
  rcases List.mem_cons.1 hc with rfl | hc
  · rw [rank_find, if_pos rfl] at hle
    exact absurd (h.rank_lt a (h.found_of_stack ha)) (Nat.not_lt.2 hle)
  · rw [h.rank_find_of_stack hnew (h.way_mem_stack hc)] at hle hmax
    refine ⟨hc, hle, ?_⟩
    intro c' hc' hle'
    have hmax' := hmax c' (List.mem_cons_of_mem _ hc')
    rw [h.rank_find_of_stack hnew (h.way_mem_stack hc')] at hmax'
    exact hmax' hle'

/-- The new cell reads nothing that has been looked at, and its number is above all low numbers. -/
theorem low_bounds_find (hhand : ∀ a b, hand a b → b = cell) {c a b : CellKey}
    (hc : c ∈ (s.find g cell).way) (ha : a ∈ (s.find g cell).stack)
    (hnear : (s.find g cell).Nearest c a) (hb : b ∈ (s.find g cell).stack) (hread : g.Reads a b)
    (hnot : ¬ (s.find g cell).Pending a b) : (s.find g cell).lowest c ≤ (s.find g cell).rank b := by
  rw [pending_find, not_or] at hnot
  rcases List.mem_cons.1 ha with rfl | ha
  · exact absurd ⟨rfl, hread⟩ hnot.1
  · obtain ⟨hway, hnear'⟩ := h.nearest_find hnew hc ha hnear
    rw [h.lowest_find_of_way hnew hway]
    rcases List.mem_cons.1 hb with rfl | hb
    · have hle := h.low_le c hway
      have hlt := h.rank_lt c (h.found_of_stack (h.way_mem_stack hway))
      rw [rank_find, if_pos rfl]
      omega
    · rw [h.rank_find_of_stack hnew hb]
      refine h.low_bounds c hway a ha hnear' b hb hread hnot.2 ?_
      exact fun hab => h.ne_of_stack hnew hb (hhand a b hab)

/-- A cell that is found comes last, and all cells that wait reach it. -/
theorem find (hhand : ∀ a b, hand a b → b = cell) (hreach : ∀ a ∈ s.stack, g.Reaches a cell) :
    (s.find g cell).Invariant g noEdge := by
  have hfound := found_find g s cell
  have hself : (s.find g cell).lowest cell = (s.find g cell).rank cell := by
    rw [lowest_find, rank_find, if_pos rfl, if_pos rfl]
  refine
    { rank_lt := ?_, low_isSome := ?_, mem_waiting := ?_, found_iff := ?_, stack := ?_,
      way_sublist := h.way_sublist.cons_cons cell, pending_reads := ?_, looked := ?_, to_way := ?_,
      low_le := ?_, low_reaches := ?_, low_bounds := ?_, stack_disjoint := ?_,
      steps_nodup := h.steps_nodup, steps_fit := h.steps_fit, steps_closed := h.steps_closed }
  · intro c hc
    rw [rank_find]
    split
    next => exact Nat.lt_succ_self _
    next hne => exact Nat.lt_succ_of_lt (h.rank_lt c (((hfound c).1 hc).resolve_left hne))
  · intro c hc
    exact low_isSome_find g s cell c (((hfound c).1 hc).imp_right (h.low_isSome c))
  · intro c
    rw [find_waiting, find_stack, Keyed.mem_insert, List.mem_cons, h.mem_waiting]
  · intro c
    rw [hfound, find_stack, List.mem_cons, h.found_iff, or_assoc]
    rfl
  · refine List.Pairwise.cons ?_ (h.stack.imp_of_mem ?_)
    · intro a ha
      rw [h.rank_find_of_stack hnew ha, rank_find, if_pos rfl]
      exact ⟨h.rank_lt a (h.found_of_stack ha), hreach a ha⟩
    · intro a b ha hb hab
      rwa [h.rank_find_of_stack hnew ha, h.rank_find_of_stack hnew hb]
  · intro a b hab
    rcases (pending_find g s cell a b).1 hab with hab | hab
    · exact hab.2
    · exact h.pending_reads a b hab
  · intro a b ha hread
    rw [hfound, pending_find]
    rcases (hfound a).1 ha with hac | ha
    · exact Or.inr (Or.inl (Or.inl ⟨hac, hread⟩))
    · rcases h.looked a b ha hread with hb | hb | hb
      · exact Or.inl (Or.inr hb)
      · exact Or.inr (Or.inl (Or.inr hb))
      · exact Or.inl (Or.inl (hhand a b hb))
  · intro a ha
    rcases List.mem_cons.1 ha with rfl | ha
    · exact ⟨a, List.mem_cons_self, Nat.le_refl _, .refl⟩
    · obtain ⟨c, hc, hca, hac⟩ := h.to_way a ha
      refine ⟨c, List.mem_cons_of_mem _ hc, ?_, hac⟩
      rwa [h.rank_find_of_stack hnew (h.way_mem_stack hc), h.rank_find_of_stack hnew ha]
  · intro c hc
    rcases List.mem_cons.1 hc with rfl | hc
    · exact Nat.le_of_eq hself
    · rw [h.lowest_find_of_way hnew hc, h.rank_find_of_stack hnew (h.way_mem_stack hc)]
      exact h.low_le c hc
  · intro c hc
    rcases List.mem_cons.1 hc with rfl | hc
    · exact ⟨c, List.mem_cons_self, hself.symm, .refl⟩
    · obtain ⟨b, hb, hbc, hcb⟩ := h.low_reaches c hc
      refine ⟨b, List.mem_cons_of_mem _ hb, ?_, hcb⟩
      rwa [h.rank_find_of_stack hnew hb, h.lowest_find_of_way hnew hc]
  · intro c hc a ha hnear b hb hread hnot _
    exact h.low_bounds_find hnew hhand hc ha hnear hb hread hnot
  · intro a ha
    rcases List.mem_cons.1 ha with rfl | ha
    · exact fun hout => hnew ((h.found_iff a).2 (Or.inr hout))
    · exact h.stack_disjoint a ha

end

end Invariant

end PaintQuote.Engine.Search
