import PaintQuote.Proofs.Order.Look

/-!
# Leaving a cell

When all that the cell at hand reads has been looked at, its frame goes.  Its low number counts for
the cell above it on the way.  If the low number is its own, the cells found since then reach it and
no cell that waits below it, so they are its component, and their step is put out (`put_out`).
Otherwise it reaches a cell further up the way and goes on waiting (`keep_waiting`).
-/

namespace PaintQuote.Engine

open Sheet

/-! ## Cutting the stack -/

theorem cutStack_append {cell : CellKey} (below : List CellKey) :
    ∀ {above : List CellKey}, cell ∉ above →
      cutStack cell (above ++ cell :: below) = (above ++ [cell], below)
  | [], _ => by simp [cutStack]
  | top :: above, h => by
      have hne : top ≠ cell := (List.ne_of_not_mem_cons h).symm
      have ih := cutStack_append below (List.not_mem_of_not_mem_cons h)
      simp only [List.cons_append, cutStack, if_neg hne, ih]

theorem sublist_of_cons_sublist_append {cell : CellKey} {l below : List CellKey} :
    ∀ {above : List CellKey}, cell ∉ above → (cell :: l).Sublist (above ++ cell :: below) →
      l.Sublist below
  | [], _, h => List.cons_sublist_cons.1 h
  | top :: above, hnot, h => by
      rcases List.sublist_cons_iff.1 h with h | ⟨l', heq, h⟩
      · exact sublist_of_cons_sublist_append (List.not_mem_of_not_mem_cons hnot) h
      · exact absurd (List.cons.inj heq).1 (List.ne_of_not_mem_cons hnot)

/-! ## The step of a component -/

theorem mem_inOrder {cells : List CellKey} {c : CellKey} : c ∈ Graph.inOrder cells ↔ c ∈ cells := by
  rw [Graph.inOrder, Std.TreeSet.mem_toList, Keyed.mem_foldl_insert]
  simp

theorem inOrder_pairwise (cells : List CellKey) :
    (Graph.inOrder cells).Pairwise fun a b => compare a b = .lt := Std.TreeSet.ordered_toList

section

variable {g : Graph} {cell : CellKey} {component : List CellKey}

theorem hasEdge_iff : g.hasEdge cell cell = true ↔ g.Reads cell cell := by
  rw [Graph.Reads, Graph.precedents, Graph.members, Std.TreeSet.mem_toList, Graph.hasEdge,
    Std.TreeSet.contains_iff_mem]

/-- The step of a component holds its cells. -/
theorem mem_stepOf (hcell : cell ∈ component) {c : CellKey} :
    c ∈ (g.stepOf cell component).members ↔ c ∈ component := by
  unfold Graph.stepOf
  split
  next h =>
    obtain ⟨b, hb⟩ := List.length_eq_one_iff.1 (of_decide_eq_true (Bool.and_eq_true_iff.1 h).1)
    subst hb
    rw [List.mem_singleton.1 hcell]
    rfl
  next => exact mem_inOrder

theorem stepOf_pairwise : (g.stepOf cell component).members.Pairwise fun a b => compare a b = .lt := by
  unfold Graph.stepOf
  split
  · exact List.pairwise_singleton _ _
  · exact inOrder_pairwise component

/-- The step of a component is a cycle if the component has several cells or its cell reads itself. -/
theorem isCycle_stepOf (hcell : cell ∈ component) (hnodup : component.Nodup) :
    (g.stepOf cell component).isCycle = true ↔
      2 ≤ (g.stepOf cell component).members.length
        ∨ ∃ c ∈ (g.stepOf cell component).members, g.Reads c c := by
  have hperm : (Graph.inOrder component).Perm component :=
    (List.perm_ext_iff_of_nodup (Graph.nodup_of_inOrder (inOrder_pairwise component)) hnodup).2
      fun _ => mem_inOrder
  by_cases hone : component.length = 1
  · obtain ⟨b, hb⟩ := List.length_eq_one_iff.1 hone
    have hbcell : cell = b := List.mem_singleton.1 (hb ▸ hcell)
    have hmem : ∀ c, c ∈ (g.stepOf cell component).members ↔ c = cell := by
      intro c
      rw [mem_stepOf hcell, hb, List.mem_singleton, hbcell]
    by_cases hedge : g.hasEdge cell cell = true
    · refine iff_of_true ?_ (Or.inr ⟨cell, (hmem cell).2 rfl, hasEdge_iff.1 hedge⟩)
      simp only [Graph.stepOf, hedge, Bool.not_true, Bool.and_false]
      rfl
    · have hstep : g.stepOf cell component = .cell cell := by
        simp [Graph.stepOf, hone, hedge]
      refine iff_of_false (by simp [hstep, Step.isCycle]) ?_
      rintro (hlen | ⟨c, hc, hread⟩)
      · simp [hstep, Step.members] at hlen
      · rw [(hmem c).1 hc] at hread
        exact hedge (hasEdge_iff.2 hread)
  · have hstep : g.stepOf cell component = .cycle (Graph.inOrder component) := by
      simp [Graph.stepOf, hone]
    refine iff_of_true (by rw [hstep]; rfl) (Or.inl ?_)
    have hpos := List.length_pos_of_mem hcell
    rw [hstep, Step.members, hperm.length_eq]
    omega

end

namespace Search

/-! ## Handing the low number on -/

section

variable (s : Search) (cell c : CellKey)

theorem exists_handOn : ∃ low, s.handOn cell = { s with low } := by
  rcases handOn_eq s cell with h | ⟨c, n, h⟩
  · exact ⟨s.low, h⟩
  · rw [h]
    exact lower_eq s c n

/-- What handing a low number on does to the low number of a cell. -/
theorem lowest_handOn :
    ((s.handOn cell).low.get? c = s.low.get? c ∧
      ¬ ((s.low.get? c).isSome ∧ (s.low.get? cell).isSome ∧ ∃ way, s.way = c :: way)) ∨
    ((s.low.get? c).isSome ∧ ((s.handOn cell).low.get? c).isSome ∧ (∃ way, s.way = c :: way) ∧
      (s.handOn cell).lowest c = min (s.lowest c) (s.lowest cell)) := by
  cases hn : s.low.get? cell with
  | none => exact Or.inl ⟨by cases hf : s.frames <;> simp only [handOn, hf, hn], by simp⟩
  | some n =>
      cases hframes : s.frames with
      | nil => exact Or.inl ⟨by simp only [handOn, hframes, hn], by simp [way, hframes]⟩
      | cons parent frames =>
          have hhand : s.handOn cell = s.lower parent.cell n := by simp only [handOn, hframes, hn]
          have hcell : s.lowest cell = n := by simp only [lowest, hn, Option.getD_some]
          have hway : s.way = parent.cell :: frames.map Frame.cell := by
            rw [way, hframes]
            rfl
          rw [hhand]
          by_cases hc : c = parent.cell ∧ (s.low.get? c).isSome
          · obtain ⟨rfl, hsome⟩ := hc
            refine Or.inr ⟨hsome, low_isSome_lower s _ _ n hsome, ⟨_, hway⟩, ?_⟩
            rw [lowest_lower s _ _ n hsome, if_pos rfl, hcell]
          · refine Or.inl ⟨?_, ?_⟩
            · unfold lower
              split
              next m hm =>
                rw [Keyed.get?_insert, if_neg]
                rintro rfl
                exact hc ⟨rfl, by rw [hm]; rfl⟩
              next => rfl
            · rintro ⟨hsome, _, way', hway'⟩
              rw [hway] at hway'
              exact hc ⟨(List.cons.inj hway').1.symm, hsome⟩

theorem low_handOn_of_not_mem (h : c ∉ s.way) : (s.handOn cell).low.get? c = s.low.get? c := by
  rcases lowest_handOn s cell c with ⟨heq, _⟩ | ⟨_, _, ⟨way, hway⟩, _⟩
  · exact heq
  · exact absurd (hway ▸ List.mem_cons_self) h

theorem low_isSome_handOn (h : (s.low.get? c).isSome) : ((s.handOn cell).low.get? c).isSome := by
  rcases lowest_handOn s cell c with ⟨heq, _⟩ | ⟨_, hsome, _⟩
  · exact heq ▸ h
  · exact hsome

theorem lowest_handOn_le : (s.handOn cell).lowest c ≤ s.lowest c := by
  rcases lowest_handOn s cell c with ⟨heq, _⟩ | ⟨_, _, _, heq⟩
  · exact Nat.le_of_eq (congrArg (Option.getD · 0) heq)
  · rw [heq]
    exact Nat.min_le_left _ _

theorem lowest_handOn_cases :
    (s.handOn cell).lowest c = s.lowest c ∨ (s.handOn cell).lowest c = s.lowest cell := by
  rcases lowest_handOn s cell c with ⟨heq, _⟩ | ⟨_, _, _, heq⟩
  · exact Or.inl (congrArg (Option.getD · 0) heq)
  · rw [heq]
    rcases Nat.le_total (s.lowest c) (s.lowest cell) with hle | hle
    · exact Or.inl (Nat.min_eq_left hle)
    · exact Or.inr (Nat.min_eq_right hle)

theorem lowest_handOn_head {way : List CellKey} (hway : s.way = c :: way)
    (hc : (s.low.get? c).isSome) (hcell : (s.low.get? cell).isSome) :
    (s.handOn cell).lowest c ≤ s.lowest cell := by
  rcases lowest_handOn s cell c with ⟨_, hnot⟩ | ⟨_, _, _, heq⟩
  · exact absurd ⟨hc, hcell, way, hway⟩ hnot
  · rw [heq]
    exact Nat.min_le_right _ _

end

namespace Invariant

variable {g : Graph} {s : Search} {cell : CellKey} {frames : List Frame}

/-! ## Leaving -/

/-- What is on the way besides the cell at hand. -/
theorem way_cons (hframes : s.frames = ⟨cell, []⟩ :: frames) :
    s.way = cell :: ({ s with frames } : Search).way := by
  rw [way, hframes]
  rfl

/-- A frame that holds no edge can go. -/
theorem pending_iff (hframes : s.frames = ⟨cell, []⟩ :: frames) (a b : CellKey) :
    ({ s with frames } : Search).Pending a b ↔ s.Pending a b := by
  constructor
  · rintro ⟨f, hf, hfa, hb⟩
    exact ⟨f, hframes ▸ List.mem_cons_of_mem _ hf, hfa, hb⟩
  · rintro ⟨f, hf, hfa, hb⟩
    rw [hframes] at hf
    rcases List.mem_cons.1 hf with rfl | hf
    · cases hb
    · exact ⟨f, hf, hfa, hb⟩

/-- Every edge of a found cell has been looked at or is still held by another frame. -/
theorem looked_at (h : s.Invariant g noEdge) (hframes : s.frames = ⟨cell, []⟩ :: frames)
    (a b : CellKey) (ha : s.Found a) (hread : g.Reads a b) :
    s.Found b ∨ ({ s with frames } : Search).Pending a b ∨ noEdge a b := by
  rw [pending_iff hframes]
  exact h.looked a b ha hread

/-- The cells left on the way were found before the cell at hand. -/
theorem rank_lt_of_left (h : s.Invariant g noEdge) (hframes : s.frames = ⟨cell, []⟩ :: frames)
    {c : CellKey} (hc : c ∈ ({ s with frames } : Search).way) : s.rank c < s.rank cell :=
  h.rank_lt_of_way (way_cons hframes) hc

theorem mem_way_of_left (hframes : s.frames = ⟨cell, []⟩ :: frames) {c : CellKey}
    (hc : c ∈ ({ s with frames } : Search).way) : c ∈ s.way :=
  way_cons hframes ▸ List.mem_cons_of_mem _ hc

/-- When the cell at hand goes, the cell above it on the way is the nearest to what it was the
nearest to. -/
theorem head_of_nearest (h : s.Invariant g noEdge)
    (hway : s.way = cell :: ({ s with frames } : Search).way) {c a : CellKey}
    (hc : c ∈ ({ s with frames } : Search).way) (hnear : ({ s with frames } : Search).Nearest c a)
    (hge : s.rank cell ≤ s.rank a) : ∃ way, ({ s with frames } : Search).way = c :: way := by
  have hpair := h.stack.sublist h.way_sublist
  rw [hway] at hpair
  have hbefore : ∀ c' ∈ ({ s with frames } : Search).way, s.rank c' < s.rank cell := fun c' hc' =>
    h.rank_lt_of_way hway hc'
  cases hrest : ({ s with frames } : Search).way with
  | nil => rw [hrest] at hc; cases hc
  | cons head rest =>
      rw [hrest] at hc hpair hbefore
      rcases List.mem_cons.1 hc with rfl | hc
      · exact ⟨rest, rfl⟩
      · have hlt := (List.rel_of_pairwise_cons hpair.of_cons hc).1
        have hle := hnear.2 head (hrest ▸ List.mem_cons_self)
          (Nat.le_of_lt (Nat.lt_of_lt_of_le (hbefore head List.mem_cons_self) hge))
        exact absurd hlt (Nat.not_lt.2 hle)

/-- The cell at hand is the nearest to itself and to the cells found after it. -/
theorem nearest_of_rank_le (h : s.Invariant g noEdge) (hframes : s.frames = ⟨cell, []⟩ :: frames)
    {a : CellKey} (ha : s.rank cell ≤ s.rank a) : s.Nearest cell a := by
  refine ⟨ha, ?_⟩
  intro c hc _
  rw [way_cons hframes] at hc
  rcases List.mem_cons.1 hc with rfl | hc
  · exact Nat.le_refl _
  · exact Nat.le_of_lt (h.rank_lt_of_way (way_cons hframes) hc)

/-- A cell that waits reaches a cell left on the way, if the cell at hand reaches one found before it. -/
theorem to_way_of_left (h : s.Invariant g noEdge) (hframes : s.frames = ⟨cell, []⟩ :: frames)
    (hlow : s.lowest cell < s.rank cell) (a : CellKey) (ha : a ∈ s.stack) :
    ∃ c ∈ ({ s with frames } : Search).way, s.rank c ≤ s.rank a ∧ g.Reaches a c := by
  have hway := way_cons hframes
  obtain ⟨c, hc, hca, hac⟩ := h.to_way a ha
  rw [hway] at hc
  rcases List.mem_cons.1 hc with rfl | hc
  · -- What the cell reaches was found before it, so its own way up ends at another cell.
    obtain ⟨low, hlow₀, hrank, hreach⟩ := h.low_reaches c (hway ▸ List.mem_cons_self)
    obtain ⟨c', hc', hc'low, hreach'⟩ := h.to_way low hlow₀
    rw [hway] at hc'
    rcases List.mem_cons.1 hc' with rfl | hc'
    · omega
    · have hle : s.rank c' ≤ s.rank a := by omega
      exact ⟨c', hc', hle, hac.trans (hreach.trans hreach')⟩
  · exact ⟨c, hc, hca, hac⟩

/-- A cell that reaches one found before it goes on waiting. -/
theorem keep_waiting (h : s.Invariant g noEdge) (hframes : s.frames = ⟨cell, []⟩ :: frames)
    (hlow : s.lowest cell < s.rank cell) :
    (({ s with frames } : Search).handOn cell).Invariant g noEdge := by
  have hway := way_cons hframes
  have hcell : cell ∈ s.stack := h.way_mem_stack (hway ▸ List.mem_cons_self)
  have hsome : ∀ c ∈ s.stack, (s.low.get? c).isSome := fun c hc =>
    h.low_isSome c (h.found_of_stack hc)
  have hle := lowest_handOn_le { s with frames } cell
  have hcases := lowest_handOn_cases { s with frames } cell
  have hhead := lowest_handOn_head { s with frames } cell
  have hisSome := low_isSome_handOn { s with frames } cell
  obtain ⟨low, heq⟩ := exists_handOn { s with frames } cell
  rw [heq] at hle hcases hhead hisSome ⊢
  refine
    { h with
      low_isSome := fun c hc => hisSome c (h.low_isSome c hc), way_sublist := ?_,
      pending_reads := fun a b hp => h.pending_reads a b ((pending_iff hframes a b).1 hp),
      looked := h.looked_at hframes, to_way := h.to_way_of_left hframes hlow,
      low_le := fun c hc => Nat.le_trans (hle c) (h.low_le c (mem_way_of_left hframes hc)),
      low_reaches := ?_, low_bounds := ?_ }
  · have hsub := h.way_sublist
    rw [hway] at hsub
    exact (List.sublist_cons_self _ _).trans hsub
  · intro c hc
    rcases hcases c with hcase | hcase
    · rw [hcase]
      exact h.low_reaches c (mem_way_of_left hframes hc)
    · rw [hcase]
      obtain ⟨low₀, hlow₀, hrank₀, hreach₀⟩ := h.low_reaches cell (hway ▸ List.mem_cons_self)
      have hdown := h.reaches_of_rank_le (h.way_mem_stack (mem_way_of_left hframes hc)) hcell
        (Nat.le_of_lt (h.rank_lt_of_left hframes hc))
      exact ⟨low₀, hlow₀, hrank₀, hdown.trans hreach₀⟩
  · intro c hc a ha hnear b hb hread hnot _
    have hc' := mem_way_of_left hframes hc
    have hnot' : ¬ s.Pending a b := fun hp => hnot ((pending_iff hframes a b).2 hp)
    rcases Nat.lt_or_ge (s.rank a) (s.rank cell) with hlt | hge
    · refine Nat.le_trans (hle c) (h.low_bounds c hc' a ha ⟨hnear.1, ?_⟩ b hb hread hnot' id)
      intro c'' hc'' hle'
      rw [hway] at hc''
      rcases List.mem_cons.1 hc'' with rfl | hc''
      · omega
      · exact hnear.2 c'' hc'' hle'
    · -- The cell was the nearest to this one, and now the cell above it on the way is.
      have hbound := h.low_bounds cell (hway ▸ List.mem_cons_self) a ha
        (h.nearest_of_rank_le hframes hge) b hb hread hnot' id
      obtain ⟨way, hhead'⟩ := head_of_nearest h hway hc hnear hge
      exact Nat.le_trans (hhead c hhead' (hsome c (h.way_mem_stack hc')) (hsome cell hcell)) hbound

/-! ## The component of a cell that reaches none found before it -/

/-- Where a cell stands on the stack. -/
theorem exists_split (h : s.Invariant g noEdge) (hcell : cell ∈ s.stack) :
    ∃ above below, s.stack = above ++ cell :: below ∧ cell ∉ above ∧ (above ++ [cell]).Nodup ∧
      (∀ a, a ∈ above ++ [cell] ↔ a ∈ s.stack ∧ s.rank cell ≤ s.rank a) ∧
      ∀ a, a ∈ below ↔ a ∈ s.stack ∧ s.rank a < s.rank cell := by
  obtain ⟨above, below, hsplit⟩ := List.append_of_mem hcell
  have hstack := h.stack
  rw [hsplit, List.pairwise_append] at hstack
  obtain ⟨hpair, hbelow, habove⟩ := hstack
  have hlt : ∀ a ∈ above, s.rank cell < s.rank a := fun a ha =>
    (habove a ha cell List.mem_cons_self).1
  have hgt : ∀ a ∈ below, s.rank a < s.rank cell := fun a ha =>
    (List.rel_of_pairwise_cons hbelow ha).1
  have hnot : cell ∉ above := fun ha => absurd (hlt cell ha) (Nat.lt_irrefl _)
  refine ⟨above, below, hsplit, hnot, ?_, ?_, ?_⟩
  · refine List.nodup_append.2 ⟨hpair.imp ?_, List.pairwise_singleton _ _, ?_⟩
    · rintro a b ⟨hab, _⟩ rfl
      exact Nat.lt_irrefl _ hab
    · rintro a ha b hb rfl
      exact hnot (List.mem_singleton.1 hb ▸ ha)
  · intro a
    rw [List.mem_append, List.mem_singleton, hsplit, List.mem_append, List.mem_cons]
    constructor
    · rintro (ha | rfl)
      · exact ⟨Or.inl ha, Nat.le_of_lt (hlt a ha)⟩
      · exact ⟨Or.inr (Or.inl rfl), Nat.le_refl _⟩
    · rintro ⟨ha | rfl | ha, hle⟩
      · exact Or.inl ha
      · exact Or.inr rfl
      · exact absurd (hgt a ha) (Nat.not_lt.2 hle)
  · intro a
    rw [hsplit, List.mem_append, List.mem_cons]
    constructor
    · intro ha
      exact ⟨Or.inr (Or.inr ha), hgt a ha⟩
    · rintro ⟨ha | rfl | ha, hle⟩
      · exact absurd (hlt a ha) (Nat.lt_asymm hle)
      · exact absurd hle (Nat.lt_irrefl _)
      · exact ha

/-- The cell at hand and the cells found after it that wait hold no edge. -/
theorem not_pending_of_rank_le (h : s.Invariant g noEdge)
    (hframes : s.frames = ⟨cell, []⟩ :: frames) {a b : CellKey} (ha : s.rank cell ≤ s.rank a) :
    ¬ s.Pending a b := by
  intro hp
  obtain ⟨f, hf, hfa, _⟩ := (pending_iff hframes a b).2 hp
  have hlt := h.rank_lt_of_way (way_cons hframes) (List.mem_map_of_mem hf)
  rw [hfa] at hlt
  omega

variable (h : s.Invariant g noEdge) (hframes : s.frames = ⟨cell, []⟩ :: frames)
  (hroot : s.lowest cell = s.rank cell)

include h hframes hroot

/-- What the cell at hand and the cells found after it read is among them or has been put out. -/
theorem reads_of_rank_le {a b : CellKey} (ha : a ∈ s.stack) (hrank : s.rank cell ≤ s.rank a)
    (hread : g.Reads a b) :
    (b ∈ s.stack ∧ s.rank cell ≤ s.rank b) ∨ b ∈ stepCells s.steps := by
  have hnot := h.not_pending_of_rank_le hframes (b := b) hrank
  rcases h.looked a b (h.found_of_stack ha) hread with hb | hb | hb
  · rcases (h.found_iff b).1 hb with hb | hb
    · have hbound := h.low_bounds cell (way_cons hframes ▸ List.mem_cons_self) a ha
        (h.nearest_of_rank_le hframes hrank) b hb hread hnot id
      exact Or.inl ⟨hb, hroot ▸ hbound⟩
    · exact Or.inr hb
  · exact absurd hb hnot
  · exact hb.elim

theorem reaches_of_rank_le_cases {a b : CellKey} (ha : a ∈ s.stack)
    (hrank : s.rank cell ≤ s.rank a) (hreach : g.Reaches a b) :
    (b ∈ s.stack ∧ s.rank cell ≤ s.rank b) ∨ b ∈ stepCells s.steps := by
  induction hreach with
  | refl => exact Or.inl ⟨ha, hrank⟩
  | tail _ hread ih =>
      rcases ih with ⟨hb, hle⟩ | hb
      · exact h.reads_of_rank_le hframes hroot hb hle hread
      · exact Or.inr (h.steps_closed.reads hread hb)

/-- The cell at hand and the cells found after it that wait are a component. -/
theorem component_iff {a : CellKey} (ha : a ∈ s.stack) (hrank : s.rank cell ≤ s.rank a)
    (b : CellKey) :
    (b ∈ s.stack ∧ s.rank cell ≤ s.rank b) ↔ g.Reaches a b ∧ g.Reaches b a := by
  have hcell : cell ∈ s.stack := h.way_mem_stack (way_cons hframes ▸ List.mem_cons_self)
  constructor
  · rintro ⟨hb, hle⟩
    exact ⟨(h.reaches_cell (way_cons hframes) ha).trans (h.reaches_of_rank_le hcell hb hle),
      (h.reaches_cell (way_cons hframes) hb).trans (h.reaches_of_rank_le hcell ha hrank)⟩
  · rintro ⟨hab, hba⟩
    rcases h.reaches_of_rank_le_cases hframes hroot ha hrank hab with hb | hb
    · exact hb
    · exact absurd (h.steps_closed.reaches hba hb) (h.stack_disjoint a ha)

/-! ## Putting the component out -/

section

variable {component : List CellKey}
  (hcomponent : ∀ a, a ∈ component ↔ a ∈ s.stack ∧ s.rank cell ≤ s.rank a)

include hcomponent

omit hroot in
theorem mem_component : cell ∈ component :=
  (hcomponent cell).2 ⟨h.way_mem_stack (way_cons hframes ▸ List.mem_cons_self), Nat.le_refl _⟩

omit hroot in
theorem mem_step_iff (a : CellKey) :
    a ∈ (g.stepOf cell component).members ↔ a ∈ s.stack ∧ s.rank cell ≤ s.rank a :=
  (mem_stepOf (h.mem_component hframes hcomponent)).trans (hcomponent a)

omit hroot in
theorem mem_stepCells_cons (a : CellKey) :
    a ∈ stepCells (g.stepOf cell component :: s.steps) ↔
      (a ∈ s.stack ∧ s.rank cell ≤ s.rank a) ∨ a ∈ stepCells s.steps := by
  rw [stepCells, List.flatMap_cons, List.mem_append, h.mem_step_iff hframes hcomponent]
  rfl

omit hroot in
/-- The cells that are put out have not been put out before. -/
theorem stepCells_cons_nodup : (stepCells (g.stepOf cell component :: s.steps)).Nodup := by
  rw [stepCells, List.flatMap_cons]
  refine List.nodup_append.2 ⟨Graph.nodup_of_inOrder stepOf_pairwise, h.steps_nodup, ?_⟩
  rintro a ha b hb rfl
  exact h.stack_disjoint a ((h.mem_step_iff hframes hcomponent a).1 ha).1 hb

theorem step_fits (hnodup : component.Nodup) : (g.stepOf cell component).Fits g := by
  have hcell := h.mem_component hframes hcomponent
  refine
    { ne_nil := List.ne_nil_of_mem ((mem_stepOf hcell).2 hcell), component := ?_,
      inOrder := stepOf_pairwise, isCycle_iff := isCycle_stepOf hcell hnodup }
  intro a ha b
  obtain ⟨ha, hrank⟩ := (h.mem_step_iff hframes hcomponent a).1 ha
  exact (h.mem_step_iff hframes hcomponent b).trans (h.component_iff hframes hroot ha hrank b)

theorem steps_cons_closed : Closed g (g.stepOf cell component :: s.steps) := by
  refine ⟨?_, h.steps_closed⟩
  intro a ha b hread
  obtain ⟨ha, hrank⟩ := (h.mem_step_iff hframes hcomponent a).1 ha
  rw [h.mem_step_iff hframes hcomponent]
  exact h.reads_of_rank_le hframes hroot ha hrank hread

end

/-- Handing on the low number of a cell that reaches none found before it changes no low number. -/
theorem lowest_left {c : CellKey} (hc : c ∈ ({ s with frames } : Search).way) :
    (({ s with frames } : Search).handOn cell).lowest c = s.lowest c := by
  rcases lowest_handOn_cases { s with frames } cell c with hcase | hcase
  · exact hcase
  · -- The low number of the cell is its own, so it is no lower than that of a cell above it.
    have hbound := Nat.le_trans (lowest_handOn_le { s with frames } cell c)
      (h.low_le c (mem_way_of_left hframes hc))
    have hlt := h.rank_lt_of_left hframes hc
    rw [hcase] at hbound
    exact absurd (hroot ▸ hbound : s.rank cell ≤ s.rank c) (Nat.not_le.2 hlt)

/-- A cell that reaches none found before it is put out with its component. -/
theorem put_out : ((({ s with frames } : Search).handOn cell).putOut g cell).Invariant g noEdge := by
  have hway := way_cons hframes
  have hcell : cell ∈ s.stack := h.way_mem_stack (hway ▸ List.mem_cons_self)
  obtain ⟨above, below, hsplit, hnot, hnodup, habove, hbelow⟩ := h.exists_split hcell
  have hout := h.mem_stepCells_cons hframes habove
  have hisSome := low_isSome_handOn { s with frames } cell
  have hlow : ∀ c ∈ ({ s with frames } : Search).way,
      (({ s with frames } : Search).handOn cell).lowest c = s.lowest c := fun c hc =>
    h.lowest_left hframes hroot hc
  obtain ⟨low, heq⟩ := exists_handOn { s with frames } cell
  rw [heq] at hlow hisSome ⊢
  have hcut : cutStack cell s.stack = (above ++ [cell], below) := by
    rw [hsplit]
    exact cutStack_append below hnot
  unfold putOut
  simp only [hcut]
  refine
    { rank_lt := h.rank_lt, low_isSome := fun c hc => hisSome c (h.low_isSome c hc),
      mem_waiting := ?_, found_iff := ?_, stack := ?_, way_sublist := ?_,
      pending_reads := fun a b hp => h.pending_reads a b ((pending_iff hframes a b).1 hp),
      looked := h.looked_at hframes, to_way := ?_, low_le := ?_, low_reaches := ?_,
      low_bounds := ?_, stack_disjoint := ?_,
      steps_nodup := h.stepCells_cons_nodup hframes habove, steps_fit := ?_,
      steps_closed := h.steps_cons_closed hframes hroot habove }
  · intro c
    rw [Keyed.mem_foldl_erase, h.mem_waiting, habove, hbelow]
    constructor
    · rintro ⟨hout', hc⟩
      exact ⟨hc, Nat.lt_of_not_le fun hge => hout' ⟨hc, hge⟩⟩
    · rintro ⟨hc, hlt⟩
      exact ⟨fun hin => absurd hlt (Nat.not_lt.2 hin.2), hc⟩
  · intro c
    rw [hout, hbelow]
    refine (h.found_iff c).trans ?_
    rcases Nat.lt_or_ge (s.rank c) (s.rank cell) with hlt | hge
    · simp [hlt, Nat.not_le.2 hlt]
    · simp [hge, Nat.not_lt.2 hge]
  · have hstack := h.stack
    rw [hsplit] at hstack
    exact (List.pairwise_append.1 hstack).2.1.of_cons
  · have hsub := h.way_sublist
    rw [hway, hsplit] at hsub
    exact sublist_of_cons_sublist_append hnot hsub
  · intro a ha
    obtain ⟨ha, hlt⟩ := (hbelow a).1 ha
    obtain ⟨c, hc, hca, hac⟩ := h.to_way a ha
    rw [hway] at hc
    rcases List.mem_cons.1 hc with rfl | hc
    · omega
    · exact ⟨c, hc, hca, hac⟩
  · intro c hc
    exact Nat.le_trans (Nat.le_of_eq (hlow c hc)) (h.low_le c (mem_way_of_left hframes hc))
  · intro c hc
    have hc' := mem_way_of_left hframes hc
    obtain ⟨b, hb, hbc, hcb⟩ := h.low_reaches c hc'
    have hlt : s.rank b < s.rank cell :=
      hbc ▸ Nat.lt_of_le_of_lt (h.low_le c hc') (h.rank_lt_of_left hframes hc)
    exact ⟨b, (hbelow b).2 ⟨hb, hlt⟩, hbc.trans (hlow c hc).symm, hcb⟩
  · intro c hc a ha hnear b hb hread hnot' _
    obtain ⟨ha, hlt⟩ := (hbelow a).1 ha
    have hnear' : s.Nearest c a := by
      refine ⟨hnear.1, ?_⟩
      intro c' hc' hc'a
      rw [hway] at hc'
      rcases List.mem_cons.1 hc' with rfl | hc'
      · omega
      · exact hnear.2 c' hc' hc'a
    have hbound := h.low_bounds c (mem_way_of_left hframes hc) a ha hnear' b ((hbelow b).1 hb).1 hread
      (fun hp => hnot' ((pending_iff hframes a b).2 hp)) id
    exact Nat.le_trans (Nat.le_of_eq (hlow c hc)) hbound
  · intro a ha
    obtain ⟨ha, hlt⟩ := (hbelow a).1 ha
    rw [hout]
    rintro (⟨_, hge⟩ | hmem')
    · omega
    · exact h.stack_disjoint a ha hmem'
  · intro step hstep
    rcases List.mem_cons.1 hstep with rfl | hstep
    · exact h.step_fits hframes hroot habove hnodup
    · exact h.steps_fit step hstep

omit hroot in

/-- Leaving a cell keeps the invariant. -/
theorem leave : (({ s with frames } : Search).leave g cell).Invariant g noEdge := by
  have hway := way_cons hframes
  have hmem : cell ∈ s.way := hway ▸ List.mem_cons_self
  have hfound := h.found_of_stack (h.way_mem_stack hmem)
  obtain ⟨low, hlow⟩ := Option.isSome_iff_exists.1 (h.low_isSome cell hfound)
  obtain ⟨number, hnumber⟩ := Option.isSome_iff_exists.1 hfound
  have hlowest : s.lowest cell = low := by simp only [lowest, hlow, Option.getD_some]
  have hrank : s.rank cell = number := by simp only [rank, hnumber, Option.getD_some]
  have hnot : cell ∉ ({ s with frames } : Search).way := fun hc =>
    absurd (h.rank_lt_of_way hway hc) (Nat.lt_irrefl _)
  have hlow' : (({ s with frames } : Search).handOn cell).low.get? cell = some low :=
    (low_handOn_of_not_mem { s with frames } cell cell hnot).trans hlow
  unfold Search.leave close
  simp only [hlow', handOn_number, hnumber, Option.some.injEq]
  split
  next heq => exact h.put_out hframes (by omega)
  next hne =>
    have hle := h.low_le cell hmem
    exact h.keep_waiting hframes (by omega)

end Invariant

end Search

end PaintQuote.Engine
