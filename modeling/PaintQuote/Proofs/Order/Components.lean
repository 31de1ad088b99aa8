import PaintQuote.Proofs.Order.Leave

/-!
# The steps are the components

The invariant holds when a search starts, and every turn keeps it (`Invariant.advance`).  When the way
is empty no cell waits, so every cell found is in a step, and the steps hold what the roots reach and
nothing else.

* `Graph.order_components`: the steps of the order of evaluation are the components of what the roots
  reach, each once, and each after the components that it reads.
-/

namespace PaintQuote.Engine

open Sheet

namespace Search

variable {g : Graph} {s : Search}

/-! ## One turn -/

/-- A turn keeps the invariant. -/
theorem Invariant.advance (h : s.Invariant g noEdge) : (s.advance g).Invariant g noEdge := by
  unfold Search.advance
  split
  next => exact h
  next cell precedent rest frames hframes =>
    have hway : s.way = cell :: frames.map Frame.cell := by
      rw [way, hframes]
      rfl
    have hcell : cell ∈ s.way := hway ▸ List.mem_cons_self
    have hread : g.Reads cell precedent := h.pending_reads cell precedent
      ⟨_, hframes ▸ List.mem_cons_self, rfl, List.mem_cons_self⟩
    have htake := h.take_edge hframes
    unfold look
    split
    next hnew =>
      refine htake.find ?_ (fun a b hab => hab.2) ?_
      · intro hfound
        rw [Found, hnew] at hfound
        cases hfound
      · intro a ha
        exact (h.reaches_cell hway ha).tail hread
    next n hn =>
      split
      next hwait =>
        have hrank : n = s.rank precedent := by
          rw [rank, hn]
          rfl
        rw [hrank]
        refine htake.lower List.mem_cons_self hread ?_
        exact (h.mem_waiting precedent).1 hwait
      next hwait =>
        refine htake.pass ?_ ?_
        · rintro a b ⟨_, rfl⟩
          rw [Found, hn]
          rfl
        · rintro a b ⟨_, rfl⟩ hb
          exact hwait ((h.mem_waiting b).2 hb)
  next cell frames hframes => exact h.leave hframes

/-- A turn finds nothing but what a found cell reads, and forgets no found cell. -/
theorem found_advance (h : s.Invariant g noEdge) (c : CellKey) :
    (s.Found c → (s.advance g).Found c) ∧
      ((s.advance g).Found c → s.Found c ∨ ∃ a, s.Found a ∧ g.Reads a c) := by
  unfold Search.advance
  split
  next => exact ⟨id, Or.inl⟩
  next cell precedent rest frames hframes =>
    unfold look
    split
    next hnew =>
      rw [found_find]
      refine ⟨Or.inr, ?_⟩
      rintro (rfl | hc)
      · have hcell : cell ∈ s.way := by
          rw [way, hframes]
          exact List.mem_cons_self
        refine Or.inr ⟨cell, h.found_of_stack (h.way_mem_stack hcell), ?_⟩
        exact h.pending_reads cell c ⟨_, hframes ▸ List.mem_cons_self, rfl, List.mem_cons_self⟩
      · exact Or.inl hc
    next =>
      split
      · unfold Found
        rw [lower_number]
        exact ⟨id, Or.inl⟩
      · exact ⟨id, Or.inl⟩
  next =>
    unfold Found
    rw [leave_number]
    exact ⟨id, Or.inl⟩

/-! ## From root to root -/

/-- What holds between the roots of a search: no cell is on the way, and exactly what the roots reach
has been put out. -/
structure Done (g : Graph) (roots : List CellKey) (s : Search) : Prop where
  invariant : s.Invariant g noEdge
  frames : s.frames = []
  found : ∀ root ∈ roots, s.Found root
  only : ∀ c, s.Found c → ∃ root ∈ roots, g.Reaches root c

/-- When no cell is on the way, no cell waits. -/
theorem Invariant.stack_eq_nil (h : s.Invariant g noEdge) (hframes : s.frames = []) :
    s.stack = [] := by
  refine List.eq_nil_iff_forall_not_mem.2 ?_
  intro a ha
  obtain ⟨c, hc, _⟩ := h.to_way a ha
  rw [way, hframes] at hc
  cases hc

theorem invariant_empty : ({} : Search).Invariant g noEdge := by
  have hfound : ∀ c, ¬ ({} : Search).Found c := by
    intro c
    simp [Found]
  constructor
  case rank_lt => exact fun c hc => absurd hc (hfound c)
  case low_isSome => exact fun c hc => absurd hc (hfound c)
  case mem_waiting => intro c; simp
  case found_iff => exact fun c => iff_of_false (hfound c) (by simp [stepCells])
  case stack => exact List.Pairwise.nil
  case way_sublist => exact List.Sublist.refl _
  case pending_reads => rintro a b ⟨f, hf, _⟩; cases hf
  case looked => exact fun a b ha _ => absurd ha (hfound a)
  case to_way => exact fun a ha => by cases ha
  case low_le => exact fun c hc => by cases hc
  case low_reaches => exact fun c hc => by cases hc
  case low_bounds => exact fun c hc => by cases hc
  case stack_disjoint => exact fun a ha => by cases ha
  case steps_nodup => exact List.Pairwise.nil
  case steps_fit => exact fun step hstep => by cases hstep
  case steps_closed => trivial

theorem done_empty : Done g [] {} := by
  refine ⟨invariant_empty, rfl, ?_, ?_⟩
  · intro root hroot
    cases hroot
  · intro c hc
    simp [Found] at hc

/-- A search that goes on until no cell is on the way puts out what it has found. -/
theorem done_finish (roots : List CellKey) (h : s.Invariant g noEdge)
    (hfound : ∀ root ∈ roots, s.Found root) (honly : ∀ c, s.Found c → ∃ root ∈ roots, g.Reaches root c) :
    Done g roots (s.finish g) := by
  fun_induction Search.finish g s with
  | case1 s hempty => exact ⟨h, List.isEmpty_iff.1 hempty, hfound, honly⟩
  | case2 s hne ih =>
      refine ih h.advance ?_ ?_
      · intro root hroot
        exact (found_advance h root).1 (hfound root hroot)
      · intro c hc
        rcases (found_advance h c).2 hc with hc | ⟨a, ha, hread⟩
        · exact honly c hc
        · obtain ⟨root, hroot, hreach⟩ := honly a ha
          exact ⟨root, hroot, hreach.tail hread⟩

theorem done_visit {roots : List CellKey} (h : Done g roots s) (root : CellKey) :
    Done g (roots ++ [root]) (s.visit g root) := by
  have honly : ∀ c, s.Found c → ∃ r ∈ roots ++ [root], g.Reaches r c := by
    intro c hc
    obtain ⟨r, hr, hreach⟩ := h.only c hc
    exact ⟨r, List.mem_append_left _ hr, hreach⟩
  have hroot : root ∈ roots ++ [root] := List.mem_append_right _ (List.mem_singleton.2 rfl)
  unfold visit
  split
  next hold =>
    rw [Keyed.contains_eq_isSome] at hold
    refine ⟨h.invariant, h.frames, ?_, honly⟩
    intro r hr
    rcases List.mem_append.1 hr with hr | hr
    · exact h.found r hr
    · exact List.mem_singleton.1 hr ▸ hold
  next hnew =>
    rw [Keyed.contains_eq_isSome] at hnew
    refine done_finish _ (h.invariant.find hnew (fun _ _ hab => hab.elim) ?_) ?_ ?_
    · rw [h.invariant.stack_eq_nil h.frames]
      exact fun a ha => by cases ha
    · intro r hr
      rw [found_find]
      rcases List.mem_append.1 hr with hr | hr
      · exact Or.inr (h.found r hr)
      · exact Or.inl (List.mem_singleton.1 hr)
    · intro c hc
      rcases (found_find g s root c).1 hc with rfl | hc
      · exact ⟨c, hroot, .refl⟩
      · exact honly c hc

theorem done_foldl (roots : List CellKey) :
    ∀ {s : Search} {before : List CellKey}, Done g before s →
      Done g (before ++ roots) (roots.foldl (Search.visit g) s) := by
  induction roots with
  | nil =>
      intro s before h
      rw [List.append_nil]
      exact h
  | cons root roots ih =>
      intro s before h
      rw [List.append_cons]
      exact ih (done_visit h root)

end Search

/-! ## The order of evaluation -/

/-- Steps that read only their own cells and those of older steps, the oldest first. -/
theorem Closed.reads_before {g : Graph} :
    ∀ {steps : List Step}, Closed g steps → ∀ {before after : List Step} {step : Step},
      steps.reverse = before ++ step :: after → ∀ a ∈ step.members, ∀ b, g.Reads a b →
        b ∈ step.members ∨ b ∈ stepCells before
  | [], _, before, after, step, heq => by simp at heq
  | newest :: older, ⟨hnewest, holder⟩, before, after, step, heq => by
      rw [List.reverse_cons] at heq
      rcases List.eq_nil_or_concat after with rfl | ⟨after, last, rfl⟩
      · obtain ⟨hbefore, hstep⟩ := List.append_inj' heq rfl
        obtain rfl := (List.cons.inj hstep).1
        intro a ha b hread
        refine (hnewest a ha b hread).imp_right ?_
        rw [← hbefore, mem_stepCells, mem_stepCells]
        rintro ⟨step, hstep, hb⟩
        exact ⟨step, List.mem_reverse.2 hstep, hb⟩
      · rw [List.concat_eq_append, ← List.cons_append, ← List.append_assoc] at heq
        exact Closed.reads_before holder (List.append_inj' heq rfl).1

theorem exists_ne_of_two_le {cells : List CellKey} (h : cells.Nodup) (htwo : 2 ≤ cells.length)
    (a : CellKey) : ∃ b ∈ cells, b ≠ a := by
  match cells, h, htwo with
  | x :: y :: cells, h, _ =>
      by_cases hx : x = a
      · refine ⟨y, List.mem_cons_of_mem _ List.mem_cons_self, ?_⟩
        rintro rfl
        exact (List.nodup_cons.1 h).1 (hx ▸ List.mem_cons_self)
      · exact ⟨x, List.mem_cons_self, hx⟩

/-- The cells of a step depend on themselves when the step is a cycle. -/
theorem Step.Fits.circular_iff_isCycle {g : Graph} {step : Step} (h : step.Fits g) {a : CellKey}
    (ha : a ∈ step.members) : Relation.TransGen g.Reads a a ↔ step.isCycle = true := by
  rw [h.isCycle_iff]
  constructor
  · intro hcycle
    obtain ⟨b, hab, hba⟩ := Relation.TransGen.head'_iff.1 hcycle
    have hb : b ∈ step.members := (h.component a ha b).2 ⟨.single hab, hba⟩
    by_cases htwo : 2 ≤ step.members.length
    · exact Or.inl htwo
    · have hpos := List.length_pos_of_mem ha
      obtain ⟨c, hc⟩ := List.length_eq_one_iff.1 (show step.members.length = 1 by omega)
      rw [hc, List.mem_singleton] at ha hb
      refine Or.inr ⟨a, ?_, ?_⟩
      · rw [hc, ha]
        exact List.mem_singleton.2 rfl
      · rw [ha] at hab ⊢
        rwa [hb] at hab
  · rintro (htwo | ⟨c, hc, hread⟩)
    · obtain ⟨b, hb, hne⟩ := exists_ne_of_two_le (Graph.nodup_of_inOrder h.inOrder) htwo a
      obtain ⟨hab, hba⟩ := (h.component a ha b).1 hb
      rcases Relation.reflTransGen_iff_eq_or_transGen.1 hab with heq | hlt
      · exact absurd heq hne
      · exact hlt.trans_left hba
    · obtain ⟨hac, hca⟩ := (h.component a ha c).1 hc
      exact (Relation.TransGen.tail' hac hread).trans_left hca

namespace Graph

/-- The search for the order of evaluation ends with what the roots reach put out. -/
theorem done_order (g : Graph) (roots : List CellKey) :
    Search.Done g roots (roots.foldl (Search.visit g) {}) :=
  Search.done_foldl roots Search.done_empty

theorem mem_stepCells_order {g : Graph} {roots : List CellKey} {c : CellKey} :
    c ∈ stepCells (g.order roots) ↔ c ∈ stepCells (roots.foldl (Search.visit g) {}).steps := by
  rw [order, mem_stepCells, mem_stepCells]
  constructor
  · rintro ⟨step, hstep, hc⟩
    exact ⟨step, List.mem_reverse.1 hstep, hc⟩
  · rintro ⟨step, hstep, hc⟩
    exact ⟨step, List.mem_reverse.2 hstep, hc⟩

/-- The order of evaluation holds what the roots reach. -/
theorem mem_order_iff (g : Graph) (roots : List CellKey) (c : CellKey) :
    c ∈ stepCells (g.order roots) ↔ ∃ root ∈ roots, g.Reaches root c := by
  have h := done_order g roots
  have hfound : ∀ c, (roots.foldl (Search.visit g) {}).Found c ↔
      c ∈ stepCells (roots.foldl (Search.visit g) {}).steps := by
    intro c
    rw [h.invariant.found_iff, h.invariant.stack_eq_nil h.frames]
    simp
  rw [mem_stepCells_order, ← hfound]
  constructor
  · exact h.only c
  · rintro ⟨root, hroot, hreach⟩
    exact (hfound c).2 (h.invariant.steps_closed.reaches hreach ((hfound root).1 (h.found root hroot)))

/-- No cell comes up twice in the order of evaluation. -/
theorem order_nodup (g : Graph) (roots : List CellKey) : (stepCells (g.order roots)).Nodup := by
  have h := (done_order g roots).invariant.steps_nodup
  have hperm : (stepCells (g.order roots)).Perm
      (stepCells (roots.foldl (Search.visit g) {}).steps) :=
    (List.reverse_perm _).flatMap_right Step.members
  exact hperm.nodup_iff.2 h

theorem order_fits (g : Graph) (roots : List CellKey) : ∀ step ∈ g.order roots, step.Fits g := by
  intro step hstep
  exact (done_order g roots).invariant.steps_fit step (List.mem_reverse.1 hstep)

/-- A step of the order of evaluation reads only its own cells and those of the steps before it. -/
theorem order_reads_before (g : Graph) (roots : List CellKey) {before after : List Step}
    {step : Step} (heq : g.order roots = before ++ step :: after) :
    ∀ a ∈ step.members, ∀ b, g.Reads a b → b ∈ step.members ∨ b ∈ stepCells before :=
  (done_order g roots).invariant.steps_closed.reads_before heq

/-- The steps of the order of evaluation are the components of what the roots reach: each cell that
the roots reach is in one step, two cells share a step when each reaches the other, the cells of a
step are in order, a step is a cycle when it has several cells or its cell reads itself, and what a
cell reads in another step comes before it. -/
theorem order_components (g : Graph) (roots : List CellKey) :
    (∀ c, c ∈ stepCells (g.order roots) ↔ ∃ root ∈ roots, g.Reaches root c) ∧
      (stepCells (g.order roots)).Nodup ∧
      (∀ step ∈ g.order roots,
        (∀ a ∈ step.members, ∀ b, b ∈ step.members ↔ g.Reaches a b ∧ g.Reaches b a) ∧
        step.members.Pairwise (fun a b => compare a b = .lt) ∧
        ((∃ members, step = .cycle members) ↔
          2 ≤ step.members.length ∨ ∃ c ∈ step.members, g.Reads c c) ∧
        ((∃ key, step = .cell key) ↔
          step.members.length = 1 ∧ ∀ c ∈ step.members, ¬ g.Reads c c)) ∧
      ∀ before step after, g.order roots = before ++ step :: after →
        ∀ a ∈ step.members, ∀ b, g.Reads a b → b ∈ step.members ∨ b ∈ stepCells before := by
  refine ⟨mem_order_iff g roots, order_nodup g roots, ?_, ?_⟩
  · intro step hstep
    have hfits := order_fits g roots step hstep
    refine ⟨hfits.component, hfits.inOrder, ?_, ?_⟩
    · rw [← hfits.isCycle_iff]
      cases step with
      | cell key => simp [Step.isCycle]
      | cycle members => simp [Step.isCycle]
    · have hiff := hfits.isCycle_iff
      cases step with
      | cell key =>
          refine iff_of_true ⟨key, rfl⟩ ⟨rfl, ?_⟩
          intro c hc hread
          cases hiff.2 (Or.inr ⟨c, hc, hread⟩)
      | cycle members =>
          refine iff_of_false (by simp) ?_
          rintro ⟨hone, hnot⟩
          rcases hiff.1 rfl with htwo | ⟨c, hc, hread⟩
          · omega
          · exact hnot c hc hread
  · intro before step after heq
    exact order_reads_before g roots heq

end Graph

end PaintQuote.Engine
