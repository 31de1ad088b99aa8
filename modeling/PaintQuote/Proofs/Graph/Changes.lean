import PaintQuote.Engine.Edges

/-!
# Graphs after any changes

A graph starts without edges and is changed by four operations (`Change`).  Its two maps mirror each
other and no set of dependents is empty (`Kept`), which one operation keeps (`Kept.after`) and so any
number of them (`kept_afterAll`).

Three of the operations name the cell whose precedents they set, and the precedents of all other cells
stay as they are (`precedents_after`).  Clearing the graph names no cell and leaves none with
precedents (`clear_unnamed`).
-/

namespace PaintQuote.Engine.Graph

open Sheet

/-! ## Sets that are not empty -/

/-- No set of a map is empty. -/
def Filled (sets : Std.TreeMap CellKey CellSet) : Prop :=
  ∀ c set, sets.get? c = some set → set.isEmpty = false

section

variable {sets : Std.TreeMap CellKey CellSet}

theorem filled_empty : Filled {} := by
  intro c set hset
  simp at hset

theorem Filled.insertInto (h : Filled sets) (cell member : CellKey) :
    Filled (insertInto sets cell member) := by
  intro c set hset
  rw [Graph.insertInto, Keyed.get?_insert] at hset
  split at hset
  · cases hset
    exact Std.TreeSet.isEmpty_insert
  · exact h c set hset

/-- A set that has lost its last member is not kept. -/
theorem Filled.eraseFrom (h : Filled sets) (cell member : CellKey) :
    Filled (eraseFrom sets cell member) := by
  rw [Graph.eraseFrom]
  cases hold : sets.get? cell with
  | none => exact h
  | some old =>
      simp only []
      split
      next =>
        intro c set hset
        rw [Keyed.get?_erase] at hset
        split at hset
        · cases hset
        · exact h c set hset
      next hsmaller =>
        intro c set hset
        rw [Keyed.get?_insert] at hset
        split at hset
        · cases hset
          exact Bool.eq_false_iff.2 hsmaller
        · exact h c set hset

theorem Filled.foldl_eraseFrom (cell : CellKey) (cells : List CellKey) :
    ∀ {sets : Std.TreeMap CellKey CellSet}, Filled sets →
      Filled (cells.foldl (fun sets c => Graph.eraseFrom sets c cell) sets) := by
  induction cells with
  | nil => exact id
  | cons c cells ih => exact fun h => ih (h.eraseFrom c cell)

end

/-! ## What every operation keeps -/

/-- The two maps of a graph mirror each other, and no set of dependents is empty. -/
structure Kept (g : Graph) : Prop where
  mirrored : g.Mirrored
  filled : Filled g.readers

section

variable {g : Graph}

theorem kept_empty : Kept .empty := ⟨mirrored_empty, filled_empty⟩

theorem Kept.add (h : g.Kept) (precedent dependent : CellKey) : (g.add precedent dependent).Kept :=
  ⟨h.mirrored.add precedent dependent, h.filled.insertInto precedent dependent⟩

theorem Kept.clearCell (h : g.Kept) (cell : CellKey) : (g.clearCell cell).Kept :=
  ⟨h.mirrored.clearCell cell, h.filled.foldl_eraseFrom cell (g.precedents cell)⟩

theorem Kept.setPrecedents (h : g.Kept) (cell : CellKey) (precedents : List CellKey) :
    (g.setPrecedents cell precedents).Kept :=
  setPrecedents_induction (h.clearCell cell) (fun _ p hg => hg.add p cell) precedents

end

/-! ## Operations -/

/-- An operation on the edges of a graph. -/
inductive Change where
  /-- A further edge. -/
  | add (precedent dependent : CellKey)
  /-- A cell reads exactly the given cells. -/
  | setPrecedents (cell : CellKey) (precedents : List CellKey)
  /-- A cell reads nothing. -/
  | clearCell (cell : CellKey)
  /-- No edges are left. -/
  | clear

/-- The graph after an operation. -/
def after (g : Graph) : Change → Graph
  | .add precedent dependent => g.add precedent dependent
  | .setPrecedents cell precedents => g.setPrecedents cell precedents
  | .clearCell cell => g.clearCell cell
  | .clear => .empty

/-- The graph after one operation after the other. -/
def afterAll (changes : List Change) : Graph := changes.foldl after .empty

/-- The cell that an operation names as the one that reads; clearing the graph names none. -/
def Change.cell? : Change → Option CellKey
  | add _ dependent => some dependent
  | setPrecedents cell _ => some cell
  | clearCell cell => some cell
  | clear => none

theorem Kept.after {g : Graph} (h : g.Kept) (change : Change) : (g.after change).Kept := by
  cases change with
  | add precedent dependent => exact h.add precedent dependent
  | setPrecedents cell precedents => exact h.setPrecedents cell precedents
  | clearCell cell => exact h.clearCell cell
  | clear => exact kept_empty

theorem kept_afterAll (changes : List Change) : (afterAll changes).Kept :=
  List.foldlRecOn changes Graph.after kept_empty fun _ h change _ => h.after change

theorem precedents_empty (c : CellKey) : Graph.empty.precedents c = [] := rfl

theorem precedents_add_of_ne (g : Graph) {precedent dependent c : CellKey} (hne : c ≠ dependent) :
    (g.add precedent dependent).precedents c = g.precedents c := by
  refine eq_of_mem_iff (members_inOrder _ c) (members_inOrder _ c) ?_
  intro a
  refine (mem_precedents_add g precedent dependent a c).trans ?_
  simp [hne]

/-- An operation that names a cell changes the precedents of no other cell. -/
theorem precedents_after (g : Graph) {change : Change} {cell c : CellKey}
    (hcell : change.cell? = some cell) (hne : c ≠ cell) :
    (g.after change).precedents c = g.precedents c := by
  cases change with
  | add precedent dependent =>
      cases hcell
      exact precedents_add_of_ne g hne
  | setPrecedents cell precedents =>
      cases hcell
      exact precedents_setPrecedents_of_ne g precedents hne
  | clearCell cell =>
      cases hcell
      exact precedents_clearCell_of_ne g hne
  | clear => cases hcell

/-- After any operations the two maps mirror each other and no set of dependents is empty.  A next
operation that sets the precedents of a cell leaves exactly those given, one that names a cell changes
the precedents of no other, and clearing leaves no cell with precedents. -/
theorem afterAll_mirrored (changes : List Change) :
    let g := afterAll changes
    (∀ p c, p ∈ g.precedents c ↔ c ∈ g.dependents p) ∧
      (∀ c set, g.readers.get? c = some set → set.isEmpty = false) ∧
      (∀ c cells p, p ∈ (g.after (.setPrecedents c cells)).precedents c ↔ p ∈ cells) ∧
      (∀ change cell, change.cell? = some cell →
        ∀ c, c ≠ cell → (g.after change).precedents c = g.precedents c) ∧
      ∀ c, (g.after .clear).precedents c = [] := by
  intro g
  have hkept : g.Kept := kept_afterAll changes
  refine ⟨hkept.mirrored, hkept.filled, ?_, ?_, precedents_empty⟩
  · intro c cells p
    refine (mem_precedents_setPrecedents g c cells p c).trans ?_
    rw [if_pos rfl]
  · intro change cell hcell c hne
    exact precedents_after g hcell hne

/-- Clearing the graph changes the precedents of a cell that it does not name. -/
theorem clear_unnamed :
    let a1 : CellKey := ⟨.standard, ⟨0, 0⟩⟩
    let b1 : CellKey := ⟨.standard, ⟨0, 1⟩⟩
    Change.clear.cell? ≠ some b1 ∧ (afterAll [.add a1 b1]).precedents b1 = [a1] ∧
      (afterAll [.add a1 b1, .clear]).precedents b1 = [] := by
  intro a1 b1
  refine ⟨nofun, ?_, precedents_empty b1⟩
  refine eq_of_mem_iff (members_inOrder _ b1) (List.pairwise_singleton _ a1) ?_
  intro c
  refine (mem_precedents_add .empty a1 b1 c b1).trans ?_
  simp [precedents_empty]

end PaintQuote.Engine.Graph
