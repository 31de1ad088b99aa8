import PaintQuote.Engine.Graph

/-!
# Edges of the dependency graph

Every operation on the graph is described by what it does to the edges.  The two maps of a graph
mirror each other (`Mirrored`), which every operation keeps.  The lists of a graph are in order, so
they are equal when they have the same members (`eq_of_mem_iff`).
-/

namespace PaintQuote.Engine.Graph

open Sheet

/-- The dependents of a graph are its precedents, seen from the other end. -/
def Mirrored (g : Graph) : Prop := ∀ a b, a ∈ g.precedents b ↔ b ∈ g.dependents a

/-! ## Lists in order -/

theorem nodup_of_inOrder {cells : List CellKey}
    (h : cells.Pairwise fun a b => compare a b = .lt) : cells.Nodup := by
  refine h.imp ?_
  rintro a b hab rfl
  rw [Std.LawfulEqOrd.compare_eq_iff_eq.2 rfl] at hab
  cases hab

/-- Cells in order are known by their members. -/
theorem eq_of_mem_iff {cells cells' : List CellKey}
    (h : cells.Pairwise fun a b => compare a b = .lt)
    (h' : cells'.Pairwise fun a b => compare a b = .lt) (hmem : ∀ c, c ∈ cells ↔ c ∈ cells') :
    cells = cells' := by
  have hperm : cells.Perm cells' :=
    (List.perm_ext_iff_of_nodup (nodup_of_inOrder h) (nodup_of_inOrder h')).2 hmem
  refine hperm.eq_of_pairwise ?_ h h'
  intro a b _ _ hab hba
  rw [Std.OrientedOrd.eq_swap, hba] at hab
  cases hab

theorem members_inOrder (sets : Std.TreeMap CellKey CellSet) (cell : CellKey) :
    (members sets cell).Pairwise fun a b => compare a b = .lt := Std.TreeSet.ordered_toList

/-! ## Maps of sets -/

section

variable (sets : Std.TreeMap CellKey CellSet) (cell member c a : CellKey)

theorem mem_members : a ∈ members sets c ↔ a ∈ (sets.get? c).getD {} := Std.TreeSet.mem_toList

theorem mem_members_insertInto :
    a ∈ members (insertInto sets cell member) c ↔ (c = cell ∧ a = member) ∨ a ∈ members sets c := by
  rw [mem_members, mem_members, insertInto, Keyed.get?_insert]
  by_cases h : c = cell
  · rw [if_pos h, h, Option.getD_some, Keyed.mem_insert]
    simp
  · rw [if_neg h]
    simp [h]

theorem mem_members_erase : a ∈ members (sets.erase cell) c ↔ c ≠ cell ∧ a ∈ members sets c := by
  rw [mem_members, mem_members, Keyed.get?_erase]
  by_cases h : c = cell
  · simp [h]
  · simp [h]

theorem mem_members_eraseFrom :
    a ∈ members (eraseFrom sets cell member) c ↔ ¬ (c = cell ∧ a = member) ∧ a ∈ members sets c := by
  rw [mem_members, mem_members, eraseFrom]
  cases hset : sets.get? cell with
  | none =>
      by_cases h : c = cell
      · rw [h, hset]
        simp
      · simp [h]
  | some set =>
      simp only []
      have hmem : c = cell → (a ∈ set.erase member ↔
          ¬ (c = cell ∧ a = member) ∧ a ∈ (sets.get? c).getD {}) := by
        rintro rfl
        rw [Keyed.mem_erase, hset, Option.getD_some]
        simp
      split
      next hempty =>
        rw [Keyed.get?_erase]
        by_cases h : c = cell
        · rw [if_pos h, ← hmem h]
          refine iff_of_false (by simp) ?_
          exact Std.TreeSet.not_mem_of_isEmpty hempty
        · rw [if_neg h]
          simp [h]
      next =>
        rw [Keyed.get?_insert]
        by_cases h : c = cell
        · rw [if_pos h, ← hmem h, Option.getD_some]
        · rw [if_neg h]
          simp [h]

end

theorem mem_foldl_eraseFrom {cell c a : CellKey} (cells : List CellKey) :
    ∀ {sets : Std.TreeMap CellKey CellSet},
      a ∈ members (cells.foldl (fun sets p => eraseFrom sets p cell) sets) c ↔
        ¬ (c ∈ cells ∧ a = cell) ∧ a ∈ members sets c := by
  induction cells with
  | nil => simp
  | cons p cells ih =>
      intro sets
      rw [List.foldl_cons, ih, mem_members_eraseFrom, List.mem_cons, or_and_right, not_or, and_assoc,
        and_left_comm]

/-! ## Operations -/

section

variable (g : Graph) (precedent dependent cell a b : CellKey)

theorem mem_precedents_add : a ∈ (g.add precedent dependent).precedents b ↔
    (b = dependent ∧ a = precedent) ∨ a ∈ g.precedents b :=
  mem_members_insertInto g.reads dependent precedent b a

theorem mem_dependents_add : b ∈ (g.add precedent dependent).dependents a ↔
    (a = precedent ∧ b = dependent) ∨ b ∈ g.dependents a :=
  mem_members_insertInto g.readers precedent dependent a b

theorem mem_precedents_clearCell :
    a ∈ (g.clearCell cell).precedents b ↔ b ≠ cell ∧ a ∈ g.precedents b :=
  mem_members_erase g.reads cell b a

theorem mem_dependents_clearCell : b ∈ (g.clearCell cell).dependents a ↔
    ¬ (a ∈ g.precedents cell ∧ b = cell) ∧ b ∈ g.dependents a :=
  mem_foldl_eraseFrom (g.precedents cell)

end

theorem mem_precedents_foldl_add {cell a b : CellKey} (cells : List CellKey) :
    ∀ {g : Graph}, a ∈ (cells.foldl (fun g p => g.add p cell) g).precedents b ↔
      (b = cell ∧ a ∈ cells) ∨ a ∈ g.precedents b := by
  induction cells with
  | nil => simp
  | cons p cells ih =>
      intro g
      rw [List.foldl_cons, ih, mem_precedents_add, List.mem_cons, and_or_left, or_left_comm, or_assoc]

theorem mem_precedents_setPrecedents (g : Graph) (cell : CellKey) (cells : List CellKey)
    (a b : CellKey) : a ∈ (g.setPrecedents cell cells).precedents b ↔
      if b = cell then a ∈ cells else a ∈ g.precedents b := by
  rw [setPrecedents, mem_precedents_foldl_add, mem_precedents_clearCell]
  by_cases h : b = cell <;> simp [h]

theorem precedents_setPrecedents_self (g : Graph) (cell : CellKey) {cells : List CellKey}
    (h : cells.Pairwise fun a b => compare a b = .lt) :
    (g.setPrecedents cell cells).precedents cell = cells := by
  refine eq_of_mem_iff (members_inOrder _ cell) h ?_
  intro c
  exact (mem_precedents_setPrecedents g cell cells c cell).trans (by rw [if_pos rfl])

theorem precedents_setPrecedents_of_ne (g : Graph) {cell c : CellKey} (cells : List CellKey)
    (hne : c ≠ cell) : (g.setPrecedents cell cells).precedents c = g.precedents c := by
  refine eq_of_mem_iff (members_inOrder _ c) (members_inOrder _ c) ?_
  intro a
  exact (mem_precedents_setPrecedents g cell cells a c).trans (by rw [if_neg hne])

theorem precedents_clearCell_self (g : Graph) (cell : CellKey) :
    (g.clearCell cell).precedents cell = [] := by
  refine List.eq_nil_iff_forall_not_mem.2 ?_
  intro a ha
  exact ((mem_precedents_clearCell g cell a cell).1 ha).1 rfl

theorem precedents_clearCell_of_ne (g : Graph) {cell c : CellKey} (hne : c ≠ cell) :
    (g.clearCell cell).precedents c = g.precedents c := by
  refine eq_of_mem_iff (members_inOrder _ c) (members_inOrder _ c) ?_
  intro a
  exact (mem_precedents_clearCell g cell a c).trans (and_iff_right hne)

/-! ## Mirrors -/

theorem mirrored_empty : ({} : Graph).Mirrored := by
  intro a b
  refine iff_of_false ?_ ?_
  · exact fun h => by simp [precedents, members] at h
  · exact fun h => by simp [dependents, members] at h

variable {g : Graph}

theorem Mirrored.add (h : g.Mirrored) (precedent dependent : CellKey) :
    (g.add precedent dependent).Mirrored := by
  intro a b
  rw [mem_precedents_add, mem_dependents_add, h a b, and_comm]

theorem Mirrored.clearCell (h : g.Mirrored) (cell : CellKey) : (g.clearCell cell).Mirrored := by
  intro a b
  rw [mem_precedents_clearCell, mem_dependents_clearCell, h a b, h a cell]
  constructor
  · rintro ⟨hne, hb⟩
    exact ⟨fun hc => hne hc.2, hb⟩
  · rintro ⟨hnot, hb⟩
    refine ⟨?_, hb⟩
    rintro rfl
    exact hnot ⟨hb, rfl⟩

theorem Mirrored.setPrecedents (h : g.Mirrored) (cell : CellKey) (cells : List CellKey) :
    (g.setPrecedents cell cells).Mirrored :=
  setPrecedents_induction (h.clearCell cell) (fun _ p hg => hg.add p cell) cells

end PaintQuote.Engine.Graph
