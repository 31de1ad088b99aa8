import PaintQuote.Engine.Graph

/-!
# The order of evaluation

The cells that roots read, directly or through others, in an order in which a cell comes after the
cells that it reads.  Cells that read each other have no such order among themselves: they form a
cycle and come out in one step.  Two cells belong to one step exactly when each can be reached from
the other.

Cells are found depth first, the cells that a cell reads in the order of keys, and numbered as they
are found.  A found cell waits on a stack until its step is put out.  The search keeps for each cell
the lowest number among waiting cells that it is known to reach, its *low number*.  When all that a
cell reads has been looked at and its low number is its own, the cells above it on the stack belong to
one step with it.  The way down to the cell at hand is kept as a list of frames, so a long chain of
cells needs no deep recursion.

Every turn of the search either looks at a further edge or leaves a cell, and no edge is looked at
twice (`Search.work`, `Search.advance_work`).
-/

namespace PaintQuote.Engine

open Sheet

/-- A step of an evaluation. -/
inductive Step where
  /-- A cell; what it reads comes in earlier steps. -/
  | cell (key : CellKey)
  /-- Cells that depend on themselves, in order. -/
  | cycle (members : List CellKey)
deriving DecidableEq, Repr

namespace Step

/-- The cells of a step. -/
def members : Step → List CellKey
  | cell key => [key]
  | cycle members => members

/-- Whether the cells of a step depend on themselves. -/
def isCycle : Step → Bool
  | cell _ => false
  | cycle _ => true

end Step

/-- A cell on the way down, with those of the cells that it reads that have not been looked at. -/
structure Frame where
  /-- The cell. -/
  cell : CellKey
  /-- The cells that it reads and that have not been looked at, in order. -/
  rest : List CellKey

/-- How far a search has come. -/
structure Search where
  /-- The cells found, with their numbers. -/
  number : Std.TreeMap CellKey Nat := {}
  /-- The low numbers of the cells found. -/
  low : Std.TreeMap CellKey Nat := {}
  /-- The number of the next cell found. -/
  next : Nat := 0
  /-- The cells that wait for their step, the newest first. -/
  stack : List CellKey := []
  /-- The cells on the stack. -/
  waiting : CellSet := {}
  /-- The way down to the cell at hand, that cell first. -/
  frames : List Frame := []
  /-- The steps put out, the newest first. -/
  steps : List Step := []

/-- The part of a stack down to a cell, and what lies below it. -/
def cutStack (cell : CellKey) : List CellKey → List CellKey × List CellKey
  | [] => ([], [])
  | top :: stack =>
      if top = cell then ([top], stack)
      else ((top :: (cutStack cell stack).1), (cutStack cell stack).2)

namespace Graph

/-- Cells in order. -/
def inOrder (cells : List CellKey) : List CellKey :=
  (cells.foldl (fun set cell => set.insert cell) ({} : CellSet)).toList

/-- The step of a cell and the others of its component. -/
def stepOf (g : Graph) (cell : CellKey) (component : List CellKey) : Step :=
  if component.length = 1 && !g.hasEdge cell cell then .cell cell else .cycle (inOrder component)

end Graph

namespace Search

/-! ## One turn -/

/-- The search with a cell found and its frame in front. -/
def find (g : Graph) (s : Search) (cell : CellKey) : Search :=
  { s with
    number := s.number.insert cell s.next
    low := s.low.insert cell s.next
    next := s.next + 1
    stack := cell :: s.stack
    waiting := s.waiting.insert cell
    frames := ⟨cell, g.precedents cell⟩ :: s.frames }

/-- The search in which the low number of a cell is no higher than the given one. -/
def lower (s : Search) (cell : CellKey) (bound : Nat) : Search :=
  match s.low.get? cell with
  | some n => { s with low := s.low.insert cell (min n bound) }
  | none => s

/-- The search with a further cell looked at that the cell at hand reads. -/
def look (g : Graph) (s : Search) (cell precedent : CellKey) : Search :=
  match s.number.get? precedent with
  | none => s.find g precedent
  | some n => if s.waiting.contains precedent then s.lower cell n else s

/-- The search in which the low number of a cell that is left counts for the cell above it. -/
def handOn (s : Search) (cell : CellKey) : Search :=
  match s.frames, s.low.get? cell with
  | parent :: _, some n => s.lower parent.cell n
  | _, _ => s

/-- The search with the step of a cell put out. -/
def putOut (g : Graph) (s : Search) (cell : CellKey) : Search :=
  let component := (cutStack cell s.stack).1
  { s with
    stack := (cutStack cell s.stack).2
    waiting := component.foldl (fun set member => set.erase member) s.waiting
    steps := g.stepOf cell component :: s.steps }

/-- The search with the step of a cell put out if the cell reaches no cell found before it that
waits. -/
def close (g : Graph) (s : Search) (cell : CellKey) : Search :=
  match s.low.get? cell with
  | some n => if s.number.get? cell = some n then s.putOut g cell else s
  | none => s

/-- The search after a cell has been left whose frame is gone. -/
def leave (g : Graph) (s : Search) (cell : CellKey) : Search := (s.handOn cell).close g cell

/-- The search after one turn. -/
def advance (g : Graph) (s : Search) : Search :=
  match s.frames with
  | [] => s
  | ⟨cell, precedent :: rest⟩ :: frames =>
      ({ s with frames := ⟨cell, rest⟩ :: frames } : Search).look g cell precedent
  | ⟨cell, []⟩ :: frames => ({ s with frames } : Search).leave g cell

/-! ## What a turn leaves as it is -/

section

variable (g : Graph) (s : Search) (cell : CellKey) (bound : Nat)

@[simp] theorem lower_number : (s.lower cell bound).number = s.number := by
  unfold lower
  split <;> rfl

@[simp] theorem lower_frames : (s.lower cell bound).frames = s.frames := by
  unfold lower
  split <;> rfl

theorem handOn_eq : s.handOn cell = s ∨ ∃ c n, s.handOn cell = s.lower c n := by
  unfold handOn
  split
  · exact Or.inr ⟨_, _, rfl⟩
  · exact Or.inl rfl

@[simp] theorem handOn_number : (s.handOn cell).number = s.number := by
  rcases handOn_eq s cell with h | ⟨_, _, h⟩ <;> simp [h]

@[simp] theorem handOn_frames : (s.handOn cell).frames = s.frames := by
  rcases handOn_eq s cell with h | ⟨_, _, h⟩ <;> simp [h]

theorem close_eq : s.close g cell = s ∨ s.close g cell = s.putOut g cell := by
  unfold close
  split
  · split
    · exact Or.inr rfl
    · exact Or.inl rfl
  · exact Or.inl rfl

@[simp] theorem leave_number : (s.leave g cell).number = s.number := by
  unfold leave
  rcases close_eq g (s.handOn cell) cell with h | h <;> simp [h, putOut]

@[simp] theorem leave_frames : (s.leave g cell).frames = s.frames := by
  unfold leave
  rcases close_eq g (s.handOn cell) cell with h | h <;> simp [h, putOut]

end

/-! ## The whole search -/

/-- What bounds the turns that are left: two for each edge that has not been looked at, and one for
each cell to be left. -/
def work (g : Graph) (s : Search) : Nat :=
  s.frames.foldr (fun f n => 2 * f.rest.length + 1 + n) 0
    + 2 * Graph.openEdges g.reads s.number.contains

theorem work_find {g : Graph} {s : Search} {cell : CellKey} (h : s.number.get? cell = none) :
    (s.find g cell).work g ≤ s.work g + 1 := by
  have hfound : s.number.contains cell = false := by
    rw [Keyed.contains_eq_isSome, h]
    rfl
  have hedges := Graph.openEdges_insert g.reads hfound fun c => Keyed.contains_insert s.number cell c s.next
  simp only [work, find, List.foldr_cons]
  unfold Graph.precedents
  omega

theorem work_look (g : Graph) (s : Search) (cell precedent : CellKey) :
    (s.look g cell precedent).work g ≤ s.work g + 1 := by
  unfold look
  split
  next h => exact work_find h
  next => split <;> simp [work]

/-- A turn uses up work. -/
theorem advance_work {g : Graph} {s : Search} (h : s.frames ≠ []) :
    (s.advance g).work g < s.work g := by
  unfold advance
  split
  next hframes => exact absurd hframes h
  next cell precedent rest frames hframes =>
    have hlook := work_look g { s with frames := ⟨cell, rest⟩ :: frames } cell precedent
    have hwork : s.work g = ({ s with frames := ⟨cell, rest⟩ :: frames } : Search).work g + 2 := by
      simp only [work, hframes, List.foldr_cons, List.length_cons]
      omega
    omega
  next cell frames hframes => simp [work, hframes]

/-- The search after all cells on the way down have been left. -/
def finish (g : Graph) (s : Search) : Search :=
  if s.frames.isEmpty then s else (s.advance g).finish g
termination_by s.work g
decreasing_by
  rename_i h
  exact advance_work (by simpa using h)

/-- The search after all that a root reads has been found. -/
def visit (g : Graph) (s : Search) (root : CellKey) : Search :=
  if s.number.contains root then s else (s.find g root).finish g

end Search

/-- The steps in which the roots and all that they read can be evaluated. -/
def Graph.order (g : Graph) (roots : List CellKey) : List Step :=
  (roots.foldl (Search.visit g) {}).steps.reverse

end PaintQuote.Engine
