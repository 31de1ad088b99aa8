import PaintQuote.Sheet.Keyed

/-!
# The dependency graph

Which cells a formula reads, its *precedents*, and which formulas read a cell, its *dependents*.
Both directions are kept, each as a map from cells to sets of cells, and every operation changes
them together.  No set of dependents is empty.

`reach` follows one such map to the end.  Every cell is expanded once, so what bounds a search is the
number of members in the sets of the cells that it has not found (`openEdges`), which finding a cell
lowers by the size of its set (`openEdges_insert`).
-/

namespace PaintQuote.Engine

open Sheet

/-- A set of cells, listed in the order of keys. -/
abbrev CellSet := Std.TreeSet CellKey

/-- Cells with the cells that they read and those that read them. -/
structure Graph where
  /-- The cells that a cell reads. -/
  reads : Std.TreeMap CellKey CellSet := {}
  /-- The cells that read a cell. -/
  readers : Std.TreeMap CellKey CellSet := {}

namespace Graph

/-- The graph without edges. -/
def empty : Graph := {}

instance : Inhabited Graph := ⟨empty⟩

/-! ## Looking up -/

/-- The members of the set of a cell, in order. -/
def members (sets : Std.TreeMap CellKey CellSet) (cell : CellKey) : List CellKey :=
  ((sets.get? cell).getD {}).toList

/-- The cells that a cell reads, in order. -/
def precedents (g : Graph) (cell : CellKey) : List CellKey := members g.reads cell

/-- The cells that read a cell, in order. -/
def dependents (g : Graph) (cell : CellKey) : List CellKey := members g.readers cell

/-- Whether a cell reads another. -/
def hasEdge (g : Graph) (precedent dependent : CellKey) : Bool :=
  ((g.reads.get? dependent).getD {}).contains precedent

/-! ## Changing -/

/-- A map of sets with a member added to one set. -/
def insertInto (sets : Std.TreeMap CellKey CellSet) (cell member : CellKey) :
    Std.TreeMap CellKey CellSet :=
  sets.insert cell (((sets.get? cell).getD {}).insert member)

/-- A map of sets with a member taken out of one set; an empty set goes with it. -/
def eraseFrom (sets : Std.TreeMap CellKey CellSet) (cell member : CellKey) :
    Std.TreeMap CellKey CellSet :=
  match sets.get? cell with
  | none => sets
  | some set =>
      let smaller := set.erase member
      if smaller.isEmpty then sets.erase cell else sets.insert cell smaller

/-- The graph with a further edge. -/
def add (g : Graph) (precedent dependent : CellKey) : Graph where
  reads := insertInto g.reads dependent precedent
  readers := insertInto g.readers precedent dependent

/-- The graph in which a cell reads nothing. -/
def clearCell (g : Graph) (cell : CellKey) : Graph where
  reads := g.reads.erase cell
  readers := (g.precedents cell).foldl (fun sets precedent => eraseFrom sets precedent cell) g.readers

/-- The graph in which a cell reads exactly the given cells. -/
def setPrecedents (g : Graph) (cell : CellKey) (precedents : List CellKey) : Graph :=
  precedents.foldl (fun g precedent => g.add precedent cell) (g.clearCell cell)

/-- What holds once a cell reads nothing, and still holds when it reads a further cell, holds once it reads
given cells. -/
theorem setPrecedents_induction {P : Graph → Prop} {g : Graph} {cell : CellKey}
    (hclear : P (g.clearCell cell)) (hadd : ∀ g precedent, P g → P (g.add precedent cell))
    (precedents : List CellKey) : P (g.setPrecedents cell precedents) :=
  List.foldlRecOn precedents _ hclear fun g h precedent _ => hadd g precedent h

/-! ## Reaching -/

/-- The sum of sizes over the cells of a list that have not been found. -/
def openSum (found : CellKey → Bool) (size : CellKey → Nat) : List CellKey → Nat
  | [] => 0
  | cell :: cells => (if found cell then 0 else size cell) + openSum found size cells

/-- The number of members in the sets of the cells that have not been found. -/
def openEdges (sets : Std.TreeMap CellKey CellSet) (found : CellKey → Bool) : Nat :=
  openSum found (fun cell => (members sets cell).length) sets.keys

section

variable {found found' : CellKey → Bool} {size size' : CellKey → Nat} {cell : CellKey}

theorem openSum_le (hfound : ∀ c, found' c = (found c || decide (c = cell)))
    (hsize : ∀ c, c ≠ cell → size' c = size c) :
    ∀ cells, openSum found' size' cells ≤ openSum found size cells
  | [] => Nat.le_refl _
  | c :: cells => by
      have ih := openSum_le hfound hsize cells
      simp only [openSum]
      by_cases hc : c = cell
      · have hin : found' c = true := by simp [hfound, hc]
        rw [if_pos hin]
        omega
      · have hsame : found' c = found c := by simp [hfound, hc]
        rw [hsame, hsize c hc]
        omega

/-- Finding a cell lowers the sum by the size of the cell. -/
theorem openSum_add_le (hcell : found cell = false)
    (hfound : ∀ c, found' c = (found c || decide (c = cell)))
    (hsize : ∀ c, c ≠ cell → size' c = size c) :
    ∀ {cells}, cell ∈ cells → openSum found' size' cells + size cell ≤ openSum found size cells
  | c :: cells, hmem => by
      simp only [openSum]
      by_cases hc : c = cell
      · have hin : found' c = true := by simp [hfound, hc]
        have hout : found c = false := hc ▸ hcell
        have hle := openSum_le hfound hsize cells
        rw [if_pos hin, if_neg (Bool.eq_false_iff.1 hout), hc]
        omega
      · have hsame : found' c = found c := by simp [hfound, hc]
        have hmem' := (List.mem_cons.1 hmem).resolve_left (Ne.symm hc)
        have ih := openSum_add_le hcell hfound hsize hmem'
        rw [hsame, hsize c hc]
        omega

/-- Finding a cell closes the edges of its set. -/
theorem openEdges_insert (sets : Std.TreeMap CellKey CellSet) (hcell : found cell = false)
    (hfound : ∀ c, found' c = (found c || decide (c = cell))) :
    openEdges sets found' + (members sets cell).length ≤ openEdges sets found := by
  by_cases hmem : cell ∈ sets.keys
  · exact openSum_add_le hcell hfound (fun _ _ => rfl) hmem
  · have hset : sets.get? cell = none := by
      rw [← Option.not_isSome_iff_eq_none, ← Keyed.contains_eq_isSome]
      exact fun hc => hmem (Std.TreeMap.mem_keys.2 hc)
    have hle : openEdges sets found' ≤ openEdges sets found :=
      openSum_le hfound (fun _ _ => rfl) sets.keys
    have hempty : members sets cell = [] := by
      rw [members, hset]
      rfl
    rw [hempty]
    exact hle

end

/-- The cells reached along one direction from those on a frontier and those reached before. -/
def reach (sets : Std.TreeMap CellKey CellSet) : List CellKey → CellSet → CellSet
  | [], reached => reached
  | cell :: frontier, reached =>
      if reached.contains cell then reach sets frontier reached
      else reach sets (members sets cell ++ frontier) (reached.insert cell)
termination_by frontier reached => frontier.length + openEdges sets reached.contains
decreasing_by
  · simp only [List.length_cons]
    omega
  · rename_i h
    have := openEdges_insert sets (Bool.eq_false_iff.2 h) (Keyed.contains_setInsert reached cell)
    simp only [List.length_append, List.length_cons]
    omega

/-- The cells that read one of the given cells, directly or through others. -/
def downstream (g : Graph) (changed : List CellKey) : CellSet :=
  reach g.readers (changed.flatMap g.dependents) {}

/-! ## With a queue

The same cells, found breadth first.  The changed cells in the queue do not count as seen, so that one of
them is seen only when another cell leads to it.  A cell joins the queue when it is seen for the first time,
which pays for the step that takes it from there. -/

/-- The queue and the cells seen, after the given cells have been met in turn: those seen for the first
time stand at the end of the queue. -/
def enqueue : List CellKey → List CellKey → CellSet → List CellKey × CellSet
  | [], queue, seen => (queue, seen)
  | cell :: cells, queue, seen =>
      if seen.contains cell then enqueue cells queue seen
      else enqueue cells (queue ++ [cell]) (seen.insert cell)

/-- The members of all sets of a map. -/
def targets (sets : Std.TreeMap CellKey CellSet) : List CellKey := sets.keys.flatMap (members sets)

/-- The number of members that have not been seen, each as often as sets have it. -/
def unseen (sets : Std.TreeMap CellKey CellSet) (seen : CellSet) : Nat :=
  openSum seen.contains (fun _ => 1) (targets sets)

theorem members_subset_targets (sets : Std.TreeMap CellKey CellSet) (cell : CellKey) :
    ∀ c ∈ members sets cell, c ∈ targets sets := by
  intro member h
  refine List.mem_flatMap.2 ⟨cell, ?_, h⟩
  cases hset : sets.get? cell with
  | none =>
      rw [members, hset] at h
      cases h
  | some set =>
      rw [Std.TreeMap.mem_keys, ← Std.TreeMap.contains_iff_mem, Keyed.contains_eq_isSome, hset]
      rfl

/-- The queue grows by no more cells than have been seen for the first time. -/
theorem enqueue_le {sets : Std.TreeMap CellKey CellSet} {cells : List CellKey}
    (h : ∀ c ∈ cells, c ∈ targets sets) (queue : List CellKey) (seen : CellSet) :
    (enqueue cells queue seen).1.length + unseen sets (enqueue cells queue seen).2 ≤
      queue.length + unseen sets seen := by
  induction cells generalizing queue seen with
  | nil => exact Nat.le_refl _
  | cons cell cells ih =>
      obtain ⟨hcell, hcells⟩ := List.forall_mem_cons.1 h
      rw [enqueue]
      split
      next => exact ih hcells queue seen
      next hnew =>
        have hle := ih hcells (queue ++ [cell]) (seen.insert cell)
        have hpaid : unseen sets (seen.insert cell) + 1 ≤ unseen sets seen :=
          openSum_add_le (Bool.eq_false_iff.2 hnew) (Keyed.contains_setInsert seen cell)
            (fun _ _ => rfl) hcell
        rw [List.length_append, List.length_singleton] at hle
        omega

/-- The cells seen by the time the queue is empty. -/
def search (sets : Std.TreeMap CellKey CellSet) : List CellKey → CellSet → CellSet
  | [], seen => seen
  | cell :: queue, seen =>
      search sets (enqueue (members sets cell) queue seen).1 (enqueue (members sets cell) queue seen).2
termination_by queue seen => queue.length + unseen sets seen
decreasing_by
  have := enqueue_le (members_subset_targets sets cell) queue seen
  simp only [List.length_cons]
  omega

/-- The cells that read one of the given cells, directly or through others, found breadth first. -/
def affected (g : Graph) (changed : List CellKey) : CellSet := search g.readers changed {}

end Graph

end PaintQuote.Engine
