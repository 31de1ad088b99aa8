import PaintQuote.Proofs.Engine.Valid
import PaintQuote.Proofs.Order.Components

/-!
# Running an engine

A run without a cache takes the steps of the order of evaluation.  When a step comes up, every formula
that its cells read outside the step is known, so what the step gives its cells is what they are due,
and it stays so, because a run only adds outcomes (`Learned`).  A run keeps an engine valid, and
afterwards the formulas of all roots are known (`Valid.run`).
-/

namespace PaintQuote.Engine

open Sheet Formula

/-- An engine that remembers at least the outcomes of another, and is otherwise the same. -/
structure Learned (e e' : Engine) : Prop where
  workbook : e'.workbook = e.workbook
  formulas : e'.formulas = e.formulas
  graph : e'.graph = e.graph
  kept : ∀ k o, e.outcomes.get? k = some o → e'.outcomes.get? k = some o

namespace Learned

variable {e e' e'' : Engine}

theorem refl (e : Engine) : Learned e e := ⟨rfl, rfl, rfl, fun _ _ h => h⟩

theorem trans (h : Learned e e') (h' : Learned e' e'') : Learned e e'' where
  workbook := h'.workbook.trans h.workbook
  formulas := h'.formulas.trans h.formulas
  graph := h'.graph.trans h.graph
  kept k o ho := h'.kept k o (h.kept k o ho)

theorem isKnown (h : Learned e e') {key : CellKey} (hk : e.isKnown key) : e'.isKnown key := by
  obtain ⟨o, ho⟩ := isKnown_iff.1 hk
  exact isKnown_iff.2 ⟨o, h.kept key o ho⟩

theorem consistent (h : Learned e e') (hc : e.Consistent) : e'.Consistent := by
  refine ⟨?_, ?_, ?_⟩
  · rw [h.workbook, h.formulas]
    exact hc.formulas
  · rw [h.workbook, h.formulas, h.graph]
    exact hc.precedents
  · rw [h.graph]
    exact hc.mirrored

theorem value (h : Learned e e') {key : CellKey} (hk : e.isKnown key) :
    e'.value key = e.value key := by
  obtain ⟨o, ho⟩ := isKnown_iff.1 hk
  rw [value_of_known ho, value_of_known (h.kept key o ho)]

end Learned

/-! ## Recording -/

section

variable {e : Engine} {key : CellKey}

theorem record_get? (o : Outcome) (status : Option CacheStatus) (k : CellKey) :
    (e.record key o status).outcomes.get? k = if k = key then some o else e.outcomes.get? k :=
  Keyed.get?_insert _ _ _ _

theorem record_isKnown (o : Outcome) (status : Option CacheStatus) (k : CellKey) :
    (e.record key o status).isKnown k ↔ k = key ∨ e.isKnown k := by
  rw [isKnown_iff, isKnown_iff]
  simp only [record_get?]
  by_cases hk : k = key <;> simp [hk]

theorem learned_record (hk : ¬ e.isKnown key) (o : Outcome) (status : Option CacheStatus) :
    Learned e (e.record key o status) := by
  refine ⟨rfl, rfl, rfl, ?_⟩
  intro k o' ho
  rw [record_get?, if_neg]
  · exact ho
  · rintro rfl
    exact hk (isKnown_iff.2 ⟨o', ho⟩)

end

namespace Valid

variable {e e' : Engine} {seen : CellKey → SheetName → Bool} {key : CellKey}

/-! ## Learning outcomes -/

/-- An engine stays valid when it learns outcomes that cells are due. -/
theorem learn (h : e.Valid seen) (hl : Learned e e')
    (hnew : ∀ k o, e'.outcomes.get? k = some o → e.outcomes.get? k = some o ∨
      (e.formulas.contains k ∧
        (∀ p, e.workbook.Reads k p → (e.workbook.formula? p).isSome → e'.isKnown p) ∧
        Due e.workbook (seen k) e'.value k o)) : e'.Valid seen := by
  have hformula : ∀ p, e'.isKnown p → (e.workbook.formula? p).isSome := by
    intro p hp
    obtain ⟨o, ho⟩ := isKnown_iff.1 hp
    rcases hnew p o ho with hold | ⟨hread, _, _⟩
    · exact h.formula?_isSome (isKnown_iff.2 ⟨o, hold⟩)
    · exact h.toConsistent.formula?_isSome hread
  have hvalue : ∀ k, e.isKnown k → ∀ p, e.workbook.Reads k p → e.value p = e'.value p := by
    intro k hk p hread
    by_cases hf : (e.workbook.formula? p).isSome
    · exact (hl.value (h.known_closed k hk p hread hf)).symm
    · rw [value_of_not_known fun hp => hf (h.formula?_isSome hp),
        value_of_not_known fun hp => hf (hformula p hp), hl.workbook]
  constructor
  case toConsistent => exact hl.consistent h.toConsistent
  case known_read =>
    intro k hk
    obtain ⟨o, ho⟩ := isKnown_iff.1 hk
    rw [hl.formulas]
    rcases hnew k o ho with hold | ⟨hread, _, _⟩
    · exact h.known_read k (isKnown_iff.2 ⟨o, hold⟩)
    · exact hread
  case known_closed =>
    intro k hk p hread hf
    obtain ⟨o, ho⟩ := isKnown_iff.1 hk
    rw [hl.workbook] at hread hf
    rcases hnew k o ho with hold | ⟨_, hclosed, _⟩
    · exact hl.isKnown (h.known_closed k (isKnown_iff.2 ⟨o, hold⟩) p hread hf)
    · exact hclosed p hread hf
  case known_due =>
    intro k o ho
    rw [hl.workbook]
    rcases hnew k o ho with hold | ⟨_, _, hdue⟩
    · exact (h.known_due k o hold).congr (hvalue k (isKnown_iff.2 ⟨o, hold⟩))
    · exact hdue

/-- An engine stays valid when it records what a cell is due. -/
theorem record (h : e.Valid seen) (hk : ¬ e.isKnown key) (hread : e.formulas.contains key)
    (hclosed : ∀ p, e.workbook.Reads key p → (e.workbook.formula? p).isSome → e.isKnown p)
    {o : Outcome} (status : Option CacheStatus) (hdue : Due e.workbook (seen key) e.value key o) :
    (e.record key o status).Valid seen := by
  have hl := learned_record hk o status
  refine h.learn hl ?_
  intro k o' ho
  rw [record_get?] at ho
  split at ho
  next heq =>
    cases ho
    subst heq
    refine Or.inr ⟨hread, ?_, hdue.congr ?_⟩
    · intro p hp hf
      exact hl.isKnown (hclosed p hp hf)
    · intro p hp
      have hne : p ≠ k := by
        rintro rfl
        exact hk (hclosed p hp (h.toConsistent.formula?_isSome hread))
      rw [Engine.value, Engine.value, record_get?, if_neg hne]
      rfl
  next => exact Or.inl ho

/-! ## Taking a step -/

/-- A cell on no cycle is evaluated to what it is due when the formulas that it reads are known. -/
theorem takeCell (h : e.Valid seen) (hseen : ¬ e.isKnown key → seen key = e.workbook.hasSheet)
    (hread : (e.workbook.formula? key).isSome → e.formulas.contains key)
    (hnot : ¬ e.workbook.Circular key)
    (hclosed : ∀ p, e.workbook.Reads key p → (e.workbook.formula? p).isSome → e.isKnown p) :
    ∃ e', e.evaluateCell none key = (e', none) ∧ e'.Valid seen ∧ Learned e e' ∧
      ((e.workbook.formula? key).isSome → e'.isKnown key) := by
  unfold evaluateCell
  by_cases hk : e.isKnown key
  · rw [if_pos hk]
    exact ⟨e, rfl, h, Learned.refl e, fun _ => hk⟩
  · rw [if_neg hk]
    have hself : ∀ o status, (e.record key o status).isKnown key := fun o status =>
      (record_isKnown o status key).2 (Or.inl rfl)
    cases hr : e.formulas.get? key with
    | none =>
        refine ⟨e, rfl, h, Learned.refl e, ?_⟩
        intro hf
        have hcontains := hread hf
        rw [Keyed.contains_eq_isSome, hr] at hcontains
        cases hcontains
    | some r =>
        have hcontains : e.formulas.contains key := by
          rw [Keyed.contains_eq_isSome, hr]
          rfl
        obtain ⟨text, hf, hreading⟩ := h.formulas key r hr
        unfold readingOf at hreading
        cases hx : Expr.ofText text with
        | error error =>
            rw [hx] at hreading
            subst hreading
            have hdue : Due e.workbook (seen key) e.value key (.failed error.report) :=
              .malformed hf hx
            exact ⟨_, rfl, h.record hk hcontains hclosed none hdue, learned_record hk _ _,
              fun _ => hself _ _⟩
        | ok expr =>
            rw [hx] at hreading
            subst hreading
            have hdue : Due e.workbook (seen key) e.value key (outcomeOf ⟨e.source, key.sheet⟩ expr) := by
              rw [hseen hk]
              exact .evaluated hf hx hnot
            exact ⟨_, rfl, h.record hk hcontains hclosed none hdue, learned_record hk _ _,
              fun _ => hself _ _⟩

end Valid

/-- Marking cells as circular gives those their error that are not known. -/
theorem foldl_markCircular (error : FormulaError) (members : List CellKey) :
    ∀ e : Engine,
      Learned e (members.foldl (markCircular error) e) ∧
        ∀ k, (members.foldl (markCircular error) e).outcomes.get? k =
          if k ∈ members ∧ ¬ e.isKnown k then some (.failed error) else e.outcomes.get? k := by
  induction members with
  | nil =>
      intro e
      exact ⟨Learned.refl e, fun k => by simp⟩
  | cons m members ih =>
      intro e
      rw [List.foldl_cons]
      by_cases hm : e.isKnown m
      · rw [markCircular, if_pos hm]
        refine ⟨(ih e).1, ?_⟩
        intro k
        rw [(ih e).2 k]
        by_cases hkm : k = m
        · simp [hkm, hm]
        · simp [hkm]
      · rw [markCircular, if_neg hm]
        obtain ⟨hl, hget⟩ := ih (e.record m (.failed error) none)
        refine ⟨(learned_record hm _ _).trans hl, ?_⟩
        intro k
        simp only [hget, record_isKnown, record_get?]
        by_cases hkm : k = m
        · simp [hkm, hm]
        · simp [hkm]

namespace Valid

variable {e e' : Engine} {seen : CellKey → SheetName → Bool} {key : CellKey}

/-- The cells of a component on a cycle are marked with what they are due. -/
theorem takeCycle (h : e.Valid seen) {members : List CellKey}
    (hread : ∀ m ∈ members, e.formulas.contains m)
    (hcircular : ∀ m ∈ members, e.workbook.Circular m ∧ e.workbook.IsComponent m members)
    (hclosed : ∀ m ∈ members, ∀ p, e.workbook.Reads m p → (e.workbook.formula? p).isSome →
      p ∈ members ∨ e.isKnown p) :
    (members.foldl (markCircular (cycleError members)) e).Valid seen ∧
      Learned e (members.foldl (markCircular (cycleError members)) e) ∧
      ∀ m ∈ members, (members.foldl (markCircular (cycleError members)) e).isKnown m := by
  obtain ⟨hl, hget⟩ := foldl_markCircular (cycleError members) members e
  have hknown : ∀ m ∈ members,
      (members.foldl (markCircular (cycleError members)) e).isKnown m := by
    intro m hm
    by_cases hk : e.isKnown m
    · exact hl.isKnown hk
    · exact isKnown_iff.2 ⟨_, by rw [hget, if_pos ⟨hm, hk⟩]⟩
  refine ⟨h.learn hl ?_, hl, hknown⟩
  intro k o ho
  rw [hget] at ho
  split at ho
  next hin =>
    cases ho
    obtain ⟨hcirc, hcomponent⟩ := hcircular k hin.1
    refine Or.inr ⟨hread k hin.1, ?_, .circular hcirc hcomponent⟩
    intro p hp hf
    rcases hclosed k hin.1 p hp hf with hm | hk
    · exact hknown p hm
    · exact hl.isKnown hk
  next => exact Or.inl ho

end Valid

/-! ## Taking all steps -/

section

variable {e : Engine} {seen : CellKey → SheetName → Bool} {pending : List CellKey}

/-- The formulas of all cells in the order of evaluation have been read. -/
def Ready (e : Engine) (pending : List CellKey) : Prop :=
  ∀ c ∈ stepCells (e.graph.order pending), (e.workbook.formula? c).isSome → e.formulas.contains c

/-- The cells in the order of evaluation read only each other. -/
theorem stepCells_closed (a b : CellKey) (ha : a ∈ stepCells (e.graph.order pending))
    (hread : e.graph.Reads a b) : b ∈ stepCells (e.graph.order pending) := by
  obtain ⟨root, hroot, hreach⟩ := (Graph.mem_order_iff _ _ _).1 ha
  exact (Graph.mem_order_iff _ _ _).2 ⟨root, hroot, hreach.tail hread⟩

namespace Ready

variable (hready : e.Ready pending) (h : e.Consistent)

include hready h

theorem reads_iff {a : CellKey} (ha : a ∈ stepCells (e.graph.order pending)) (b : CellKey) :
    e.graph.Reads a b ↔ e.workbook.Reads a b := by
  rw [h.reads_iff]
  refine and_iff_right_of_imp ?_
  intro hread
  exact hready a ha (Workbook.formula?_isSome_of_reads hread)

theorem reaches_iff {a : CellKey} (ha : a ∈ stepCells (e.graph.order pending)) (b : CellKey) :
    e.graph.Reaches a b ↔ e.workbook.Reaches a b := by
  exact reflTransGen_iff (fun a b ha => hready.reads_iff h ha b) stepCells_closed ha

theorem circular_iff {a : CellKey} (ha : a ∈ stepCells (e.graph.order pending)) :
    e.workbook.Circular a ↔ Relation.TransGen e.graph.Reads a a := by
  exact (transGen_iff (fun a b ha => hready.reads_iff h ha b) stepCells_closed ha).symm

/-- The component of a cell in the graph is its component in the workbook. -/
theorem mem_step_iff {step : Step} (hstep : step ∈ e.graph.order pending) {a : CellKey}
    (ha : a ∈ step.members) (b : CellKey) :
    b ∈ step.members ↔ e.workbook.Reaches a b ∧ e.workbook.Reaches b a := by
  have hfits := Graph.order_fits _ _ step hstep
  have ha' : a ∈ stepCells (e.graph.order pending) := mem_stepCells.2 ⟨step, hstep, ha⟩
  rw [hfits.component a ha b, hready.reaches_iff h ha']
  refine and_congr_right ?_
  intro hab
  have hab' := (hready.reaches_iff h ha' b).2 hab
  obtain ⟨root, hroot, hreach⟩ := (Graph.mem_order_iff _ _ _).1 ha'
  exact hready.reaches_iff h ((Graph.mem_order_iff _ _ _).2 ⟨root, hroot, hreach.trans hab'⟩) a

/-- A cell lies on a cycle when its step is one. -/
theorem circular_iff_isCycle {step : Step} (hstep : step ∈ e.graph.order pending) {a : CellKey}
    (ha : a ∈ step.members) : e.workbook.Circular a ↔ step.isCycle = true := by
  rw [hready.circular_iff h (mem_stepCells.2 ⟨step, hstep, ha⟩)]
  exact (Graph.order_fits _ _ step hstep).circular_iff_isCycle ha

end Ready

/-- How far a run has come that has taken some steps: the formulas of their cells are known. -/
structure Progress (e : Engine) (seen : CellKey → SheetName → Bool) (before : List Step)
    (state : Engine × Option ResultCache) : Prop where
  noCache : state.2 = none
  valid : state.1.Valid seen
  learned : Learned e state.1
  known : ∀ c ∈ stepCells before, (e.workbook.formula? c).isSome → state.1.isKnown c

namespace Progress

variable {before after : List Step} {step : Step} {state : Engine × Option ResultCache}

theorem mem_stepCells_of (hsteps : e.graph.order pending = before ++ step :: after) {c : CellKey}
    (hc : c ∈ step.members) : c ∈ stepCells (e.graph.order pending) := by
  rw [hsteps]
  exact mem_stepCells.2 ⟨step, List.mem_append_right _ List.mem_cons_self, hc⟩

/-- When a step comes up, the formulas that its cells read outside it are known. -/
theorem known_of_reads (hp : Progress e seen before state) (h : e.Consistent) (hready : e.Ready pending)
    (hsteps : e.graph.order pending = before ++ step :: after) {c p : CellKey}
    (hc : c ∈ step.members) (hread : state.1.workbook.Reads c p)
    (hf : (state.1.workbook.formula? p).isSome) : p ∈ step.members ∨ state.1.isKnown p := by
  rw [hp.learned.workbook] at hread hf
  have hgraph := (hready.reads_iff h (mem_stepCells_of hsteps hc) p).2 hread
  exact (Graph.order_reads_before _ _ hsteps c hc p hgraph).imp_right fun hmem => hp.known p hmem hf

theorem read (hp : Progress e seen before state) (hready : e.Ready pending)
    (hsteps : e.graph.order pending = before ++ step :: after) {c : CellKey} (hc : c ∈ step.members)
    (hf : (e.workbook.formula? c).isSome) : state.1.formulas.contains c := by
  rw [hp.learned.formulas]
  exact hready c (mem_stepCells_of hsteps hc) hf

/-- A step has been taken when the formulas of its cells are known. -/
theorem snoc (hp : Progress e seen before state) {e₂ : Engine} (hvalid : e₂.Valid seen)
    (hl : Learned state.1 e₂)
    (hknown : ∀ c ∈ step.members, (e.workbook.formula? c).isSome → e₂.isKnown c) :
    Progress e seen (before ++ [step]) (e₂, none) := by
  refine ⟨rfl, hvalid, hp.learned.trans hl, ?_⟩
  intro c hc hf
  rw [stepCells, List.flatMap_append, List.mem_append] at hc
  rcases hc with hc | hc
  · exact hl.isKnown (hp.known c hc hf)
  · rw [List.flatMap_singleton] at hc
    exact hknown c hc hf

/-- Taking the next step makes the formulas of its cells known. -/
theorem take (hp : Progress e seen before state) (h : e.Consistent) (hready : e.Ready pending)
    (hseen : ∀ k, ¬ e.isKnown k → seen k = e.workbook.hasSheet)
    (hsteps : e.graph.order pending = before ++ step :: after) :
    Progress e seen (before ++ [step]) (Engine.take state step) := by
  have hclosed : ∀ c ∈ step.members, ∀ p, state.1.workbook.Reads c p →
      (state.1.workbook.formula? p).isSome → p ∈ step.members ∨ state.1.isKnown p :=
    fun c hc p => hp.known_of_reads h hready hsteps hc
  have hread : ∀ c ∈ step.members, (e.workbook.formula? c).isSome → state.1.formulas.contains c :=
    fun c hc => hp.read hready hsteps hc
  have hsnoc : ∀ e₂ : Engine, e₂.Valid seen → Learned state.1 e₂ →
      (∀ c ∈ step.members, (e.workbook.formula? c).isSome → e₂.isKnown c) →
      Progress e seen (before ++ [step]) (e₂, none) := fun e₂ => hp.snoc
  have hl := hp.learned
  have hstep : step ∈ e.graph.order pending := by
    rw [hsteps]
    exact List.mem_append_right _ List.mem_cons_self
  obtain ⟨e₁, cache⟩ := state
  obtain rfl : cache = none := hp.noCache
  cases step with
  | cell key =>
      have hkey : key ∈ (Step.cell key).members := List.mem_singleton.2 rfl
      have hnot : ¬ e₁.workbook.Circular key := by
        rw [hl.workbook, hready.circular_iff_isCycle h hstep hkey]
        exact Bool.false_ne_true
      have hseen' : ¬ e₁.isKnown key → seen key = e₁.workbook.hasSheet := by
        intro hk
        rw [hl.workbook]
        exact hseen key fun hk' => hk (hl.isKnown hk')
      have hclosed' : ∀ p, e₁.workbook.Reads key p → (e₁.workbook.formula? p).isSome →
          e₁.isKnown p := by
        intro p hp hf
        rcases hclosed key hkey p hp hf with hp' | hk
        · exact absurd (Relation.TransGen.single (List.mem_singleton.1 hp' ▸ hp)) hnot
        · exact hk
      obtain ⟨e₂, htake, hvalid₂, hl₂, hknown₂⟩ := hp.valid.takeCell hseen'
        (fun hf => hread key hkey (hl.workbook ▸ hf)) hnot hclosed'
      rw [Engine.take, htake]
      refine hsnoc e₂ hvalid₂ hl₂ ?_
      intro c hc hf
      rw [List.mem_singleton.1 hc] at hf ⊢
      exact hknown₂ (hl.workbook.symm ▸ hf)
  | cycle members =>
      have hcircular : ∀ m ∈ members, e₁.workbook.Circular m ∧ e₁.workbook.IsComponent m members := by
        intro m hm
        rw [hl.workbook]
        refine ⟨(hready.circular_iff_isCycle h hstep hm).2 rfl, ?_⟩
        exact ⟨(Graph.order_fits _ _ _ hstep).inOrder, hready.mem_step_iff h hstep hm⟩
      have hread' : ∀ m ∈ members, e₁.formulas.contains m := fun m hm =>
        hread m hm (hl.workbook ▸ Due.formula?_isSome_of_circular (hcircular m hm).1)
      obtain ⟨hvalid₂, hl₂, hknown₂⟩ := hp.valid.takeCycle hread' hcircular hclosed
      exact hsnoc _ hvalid₂ hl₂ fun c hc _ => hknown₂ c hc

end Progress

/-- Taking all steps that are left makes the formulas of all cells in the order known. -/
theorem Progress.foldl (h : e.Consistent) (hready : e.Ready pending)
    (hseen : ∀ k, ¬ e.isKnown k → seen k = e.workbook.hasSheet) (after : List Step) :
    ∀ {before : List Step} {state : Engine × Option ResultCache}, Progress e seen before state →
      e.graph.order pending = before ++ after →
      Progress e seen (e.graph.order pending) (after.foldl Engine.take state) := by
  induction after with
  | nil =>
      intro before state hp hsteps
      rw [hsteps, List.append_nil]
      exact hp
  | cons step after ih =>
      intro before state hp hsteps
      exact ih (hp.take h hready hseen hsteps) (by rw [hsteps, List.append_assoc]; rfl)

end

/-! ## The whole run -/

/-- A run without a cache keeps an engine valid, changes nothing but what it remembers, and in the end
the formulas of its roots are known. -/
theorem Valid.run {e : Engine} {seen : CellKey → SheetName → Bool} (h : e.Valid seen)
    (hseen : ∀ k, ¬ e.isKnown k → seen k = e.workbook.hasSheet) (roots : List CellKey) :
    ∃ e', e.run none roots = (e', none) ∧ e'.Valid seen ∧ e'.workbook = e.workbook ∧
      (∀ k o, e.outcomes.get? k = some o → e'.outcomes.get? k = some o) ∧
      ∀ root ∈ roots, (e.workbook.formula? root).isSome → e'.isKnown root := by
  have hprepare := h.prepare roots
  have hworkbook := prepare_workbook e roots
  have hseen' : ∀ k, ¬ (e.prepare roots).isKnown k → seen k = (e.prepare roots).workbook.hasSheet := by
    intro k hk
    rw [prepare_isKnown] at hk
    rw [hworkbook]
    exact hseen k hk
  have hready : (e.prepare roots).Ready (roots.filter fun key => !(e.prepare roots).isKnown key) := by
    intro c hc hf
    obtain ⟨root, hroot, hreach⟩ := (Graph.mem_order_iff _ _ _).1 hc
    rw [hworkbook] at hf
    refine h.contains_prepare (List.mem_filter.1 hroot).1 ?_ hf
    refine Relation.ReflTransGen.mono ?_ _ _ hreach
    intro a b hab
    exact hworkbook ▸ (hprepare.toConsistent.reads_iff.1 hab).2
  have hp : Progress (e.prepare roots) seen [] (e.prepare roots, none) :=
    ⟨rfl, hprepare, Learned.refl _, fun c hc => by cases hc⟩
  obtain ⟨hnone, hvalid, hl, hknown⟩ := hp.foldl hprepare.toConsistent hready hseen' _ rfl
  refine ⟨_, Prod.ext rfl hnone, hvalid, hl.workbook.trans hworkbook, ?_, ?_⟩
  · intro k o ho
    exact hl.kept k o (by rw [prepare_outcomes]; exact ho)
  · intro root hroot hf
    rw [← hworkbook] at hf
    by_cases hk : (e.prepare roots).isKnown root
    · exact hl.isKnown hk
    · refine hknown root ?_ hf
      refine (Graph.mem_order_iff _ _ _).2 ⟨root, List.mem_filter.2 ⟨hroot, ?_⟩, .refl⟩
      simp [hk]

end PaintQuote.Engine
