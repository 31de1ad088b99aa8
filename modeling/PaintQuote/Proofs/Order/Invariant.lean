import PaintQuote.Engine.Order
import PaintQuote.Proofs.Graph.Reach

/-!
# What holds during a search

The invariant of the search for the order of evaluation.  It ties four things together.

* *The stack.*  The cells that wait are the cells found whose step has not been put out.  They stand
  in the order of their numbers, and each reaches those above it.
* *The way.*  The cells on the way down wait, and every cell that waits reaches one of them that was
  found no later than itself.  An edge of a found cell leads to a found cell, unless the frame of the
  cell still holds it.
* *The low numbers.*  The low number of a cell on the way is the number of a waiting cell that it
  reaches.  It bounds from below the waiting cells that are read by the cells to which the cell on the
  way is the *nearest*: itself and those found after it and before the next cell on the way.
* *The steps.*  Each holds a whole component, and what its cells read outside it was put out before.

A turn first takes an edge out of a frame and then looks at it, so the invariant names the edges that
are in hand.
-/

namespace PaintQuote.Engine

open Sheet

/-- A step that holds exactly the cells that reach each other, and is a cycle if they depend on
themselves. -/
structure Step.Fits (g : Graph) (step : Step) : Prop where
  ne_nil : step.members ≠ []
  component : ∀ a ∈ step.members, ∀ b, b ∈ step.members ↔ g.Reaches a b ∧ g.Reaches b a
  inOrder : step.members.Pairwise fun a b => compare a b = .lt
  isCycle_iff : step.isCycle = true ↔ 2 ≤ step.members.length ∨ ∃ c ∈ step.members, g.Reads c c

/-- The cells of steps. -/
def stepCells (steps : List Step) : List CellKey := steps.flatMap Step.members

/-- Steps, the newest first, that read only their own cells and those of older steps. -/
def Closed (g : Graph) : List Step → Prop
  | [] => True
  | step :: older =>
      (∀ a ∈ step.members, ∀ b, g.Reads a b → b ∈ step.members ∨ b ∈ stepCells older)
        ∧ Closed g older

namespace Search

/-! ## Views -/

/-- A cell has been found. -/
def Found (s : Search) (c : CellKey) : Prop := (s.number.get? c).isSome

/-- The number of a found cell. -/
def rank (s : Search) (c : CellKey) : Nat := (s.number.get? c).getD 0

/-- The low number of a found cell. -/
def lowest (s : Search) (c : CellKey) : Nat := (s.low.get? c).getD 0

/-- The frame of a cell still holds an edge. -/
def Pending (s : Search) (a b : CellKey) : Prop := ∃ f ∈ s.frames, f.cell = a ∧ b ∈ f.rest

/-- The cells of the frames, from the cell at hand up. -/
def way (s : Search) : List CellKey := s.frames.map Frame.cell

/-- Among the cells on the way that were found no later than a cell, the latest. -/
def Nearest (s : Search) (c a : CellKey) : Prop :=
  s.rank c ≤ s.rank a ∧ ∀ c' ∈ s.way, s.rank c' ≤ s.rank a → s.rank c' ≤ s.rank c

/-- What holds between the turns of a search, up to the edges in hand. -/
structure Invariant (g : Graph) (hand : CellKey → CellKey → Prop) (s : Search) : Prop where
  rank_lt : ∀ c, s.Found c → s.rank c < s.next
  low_isSome : ∀ c, s.Found c → (s.low.get? c).isSome
  mem_waiting : ∀ c, c ∈ s.waiting ↔ c ∈ s.stack
  found_iff : ∀ c, s.Found c ↔ c ∈ s.stack ∨ c ∈ stepCells s.steps
  stack : s.stack.Pairwise fun a b => s.rank b < s.rank a ∧ g.Reaches b a
  way_sublist : s.way.Sublist s.stack
  pending_reads : ∀ a b, s.Pending a b → g.Reads a b
  looked : ∀ a b, s.Found a → g.Reads a b → s.Found b ∨ s.Pending a b ∨ hand a b
  to_way : ∀ a ∈ s.stack, ∃ c ∈ s.way, s.rank c ≤ s.rank a ∧ g.Reaches a c
  low_le : ∀ c ∈ s.way, s.lowest c ≤ s.rank c
  low_reaches : ∀ c ∈ s.way, ∃ b ∈ s.stack, s.rank b = s.lowest c ∧ g.Reaches c b
  low_bounds : ∀ c ∈ s.way, ∀ a ∈ s.stack, s.Nearest c a → ∀ b ∈ s.stack, g.Reads a b →
    ¬ s.Pending a b → ¬ hand a b → s.lowest c ≤ s.rank b
  stack_disjoint : ∀ a ∈ s.stack, a ∉ stepCells s.steps
  steps_nodup : (stepCells s.steps).Nodup
  steps_fit : ∀ step ∈ s.steps, step.Fits g
  steps_closed : Closed g s.steps

/-- No edge is in hand. -/
def noEdge (_ _ : CellKey) : Prop := False

end Search

/-! ## Pairs of a list -/

theorem pairwise_cases {α : Type} {R : α → α → Prop} {l : List α} (h : l.Pairwise R) {a b : α}
    (ha : a ∈ l) (hb : b ∈ l) : a = b ∨ R a b ∨ R b a := by
  induction h with
  | nil => cases ha
  | cons hhead _ ih =>
      rcases List.mem_cons.1 ha with ha' | ha'
      · rcases List.mem_cons.1 hb with hb' | hb'
        · exact Or.inl (ha'.trans hb'.symm)
        · exact Or.inr (Or.inl (ha' ▸ hhead _ hb'))
      · rcases List.mem_cons.1 hb with hb' | hb'
        · exact Or.inr (Or.inr (hb' ▸ hhead _ ha'))
        · exact ih ha' hb'

namespace Search.Invariant

variable {g : Graph} {hand : CellKey → CellKey → Prop} {s : Search}

/-! ## Numbers on the stack -/

theorem eq_of_rank_eq (h : s.Invariant g hand) {a b : CellKey} (ha : a ∈ s.stack)
    (hb : b ∈ s.stack) (hrank : s.rank a = s.rank b) : a = b := by
  rcases pairwise_cases h.stack ha hb with heq | ⟨hlt, _⟩ | ⟨hlt, _⟩
  · exact heq
  · omega
  · omega

theorem reaches_of_rank_le (h : s.Invariant g hand) {a b : CellKey} (ha : a ∈ s.stack)
    (hb : b ∈ s.stack) (hrank : s.rank a ≤ s.rank b) : g.Reaches a b := by
  rcases pairwise_cases h.stack ha hb with heq | ⟨hlt, _⟩ | ⟨_, hreach⟩
  · rw [heq]
  · omega
  · exact hreach

theorem way_mem_stack (h : s.Invariant g hand) {c : CellKey} (hc : c ∈ s.way) : c ∈ s.stack :=
  h.way_sublist.subset hc

theorem found_of_stack (h : s.Invariant g hand) {a : CellKey} (ha : a ∈ s.stack) : s.Found a :=
  (h.found_iff a).2 (Or.inl ha)

/-- The cells further up the way were found before the cell at hand. -/
theorem rank_lt_of_way (h : s.Invariant g hand) {c : CellKey} {way : List CellKey}
    (hway : s.way = c :: way) {c' : CellKey} (hc' : c' ∈ way) : s.rank c' < s.rank c := by
  have hpair := h.stack.sublist h.way_sublist
  rw [hway] at hpair
  exact (List.rel_of_pairwise_cons hpair hc').1

/-- All cells that wait reach the cell at hand. -/
theorem reaches_cell (h : s.Invariant g hand) {cell : CellKey} {way : List CellKey}
    (hway : s.way = cell :: way) {a : CellKey} (ha : a ∈ s.stack) : g.Reaches a cell := by
  obtain ⟨c, hc, _, hac⟩ := h.to_way a ha
  have hcell : cell ∈ s.way := hway ▸ List.mem_cons_self
  refine hac.trans (h.reaches_of_rank_le (h.way_mem_stack hc) (h.way_mem_stack hcell) ?_)
  rw [hway] at hc
  rcases List.mem_cons.1 hc with rfl | hc
  · exact Nat.le_refl _
  · exact Nat.le_of_lt (h.rank_lt_of_way hway hc)

end Search.Invariant

/-! ## Steps that have been put out -/

theorem mem_stepCells {steps : List Step} {c : CellKey} :
    c ∈ stepCells steps ↔ ∃ step ∈ steps, c ∈ step.members := List.mem_flatMap

theorem Closed.reads {g : Graph} {a b : CellKey} (hread : g.Reads a b) :
    ∀ {steps : List Step}, Closed g steps → a ∈ stepCells steps → b ∈ stepCells steps
  | step :: older, ⟨hstep, holder⟩, ha => by
      rw [stepCells, List.flatMap_cons, List.mem_append] at ha ⊢
      rcases ha with ha | ha
      · exact hstep a ha b hread
      · exact Or.inr (Closed.reads hread holder ha)

theorem Closed.reaches {g : Graph} {steps : List Step} (h : Closed g steps) {a b : CellKey}
    (hreach : g.Reaches a b) (ha : a ∈ stepCells steps) : b ∈ stepCells steps := by
  induction hreach with
  | refl => exact ha
  | tail _ hread ih => exact h.reads hread ih

end PaintQuote.Engine
