import PaintQuote.Proofs.Cache.Key
import PaintQuote.Proofs.Cache.Recall
import PaintQuote.Proofs.Engine.History

/-!
# The evaluations that an engine comes to

A step of a run comes to at most one evaluation: of a cell on no cycle, with a formula that could be read
and whose outcome is not known.  With a cache, the engine records what the cache gives for it
(`take_of_evaluation?`).  The evaluations that an engine without a cache comes to after a history are
sound (`evaluationsOf_sound`).
-/

namespace PaintQuote

open Sheet Formula Engine

/-! ## Cells lie on sheets -/

namespace Sheet.Workbook

/-- Cells with contents lie on sheets that exist. -/
def Grounded (w : Workbook) : Prop := ∀ k, (w.cells.get? k).isSome → w.hasSheet k.sheet = true

variable {w : Workbook}

theorem Grounded.set (h : w.Grounded) (key : CellKey) (content : Content) :
    (w.set key content).1.Grounded := by
  have hsheet := w.hasSheet_withSheet key.sheet
  have hbase : (w.withSheet key.sheet).Grounded := by
    intro k hk
    rw [withSheet_cells] at hk
    rw [hsheet, h k hk]
    rfl
  unfold Workbook.set
  simp only []
  split
  next => exact hbase
  next =>
    split
    next =>
      intro k hk
      rw [Keyed.get?_erase] at hk
      split at hk
      next => cases hk
      next => exact hbase k hk
    next =>
      intro k hk
      rw [Keyed.get?_insert] at hk
      split at hk
      next heq =>
        rw [heq]
        exact (hsheet key.sheet).trans (by simp)
      next => exact hbase k hk

/-- What the writing of a cell keeps true of a workbook, the writing of cells in turn does. -/
theorem load_keeps {P : Workbook → Prop} (hset : ∀ w key content, P w → P (w.set key content).1)
    (entries : List (CellKey × Content)) : ∀ {w : Workbook}, P w → P (w.load entries).1 := by
  induction entries with
  | nil => exact fun h => h
  | cons entry entries ih => exact fun h => ih (hset _ entry.1 entry.2 h)

theorem Grounded.load (entries : List (CellKey × Content)) (h : w.Grounded) :
    (w.load entries).1.Grounded :=
  load_keeps (fun _ key content hw => hw.set key content) entries h

theorem content_of_not_hasSheet (h : w.Grounded) {k : CellKey} (hk : w.hasSheet k.sheet = false) :
    w.content k = .literal .empty := by
  cases hc : w.cells.get? k with
  | none => rw [content, hc, Option.getD_none]
  | some content =>
      have hsheet := h k (by rw [hc]; rfl)
      rw [hk] at hsheet
      cases hsheet

end Sheet.Workbook

namespace Engine

/-- What the writing of a cell and the definition of a name keep true of a workbook, every write does. -/
theorem write_keeps {P : Workbook → Prop} (hset : ∀ w key content, P w → P (w.set key content).1)
    (hdefine : ∀ w w' name target, P w → w.define name target = .ok w' → P w')
    (e : Engine) (action : Action) (h : P e.workbook) : P (e.write action).workbook := by
  have hformula : ∀ key text, P (e.setFormula key text).workbook := by
    intro key text
    unfold setFormula
    split
    next => exact h
    next =>
      rw [invalidate_workbook]
      exact hset _ key (.formula text) h
  cases action with
  | load entries =>
      show P (e.load entries).workbook
      rw [Engine.load, invalidate_workbook]
      exact Workbook.load_keeps hset entries h
  | setFormula key text => exact hformula key text
  | define name target =>
      show P ((e.define name target).toOption.getD e).workbook
      cases heq : e.define name target with
      | error error => exact h
      | ok e' =>
          obtain ⟨w, hw, rfl⟩ := define_eq_ok heq
          exact hdefine _ w name target h hw
  | evaluate key text? =>
      cases text? with
      | none => exact h
      | some text => exact hformula key text
  | evaluateAll keys => exact h

/-- A write leaves cells on sheets that exist. -/
theorem write_grounded (e : Engine) (action : Action) (h : e.workbook.Grounded) :
    (e.write action).workbook.Grounded := by
  refine write_keeps (fun w key content hw => hw.set key content) ?_ e action h
  intro w w' name target hw hdefine
  obtain ⟨n, -, rfl⟩ := Workbook.eq_of_define hdefine
  exact hw

/-! ## Evaluations -/

/-- What is kept of an evaluation: its outcome under its key. -/
def Evaluation.entry (x : Evaluation) : CacheKey × Outcome := (x.cacheKey, x.outcome)

/-- The evaluation that a step comes to, if it comes to one. -/
def evaluation? (e : Engine) : Step → Option Evaluation
  | .cell key =>
      if e.isKnown key then none
      else
        match e.formulas.get? key with
        | some (.ok compiled) => some ⟨e, key, compiled⟩
        | _ => none
  | .cycle _ => none

/-- The evaluations that steps come to without a cache. -/
def evaluations (e : Engine) : List Step → List Evaluation
  | [] => []
  | step :: steps => (e.evaluation? step).toList ++ (take (e, none) step).1.evaluations steps

theorem evaluation?_eq_some {e : Engine} {step : Step} {x : Evaluation}
    (h : e.evaluation? step = some x) : step = .cell x.key ∧ x.engine = e ∧ ¬ e.isKnown x.key ∧
      e.formulas.get? x.key = some (.ok x.compiled) := by
  cases step with
  | cycle members => cases h
  | cell key =>
      simp only [evaluation?] at h
      split at h
      next => cases h
      next hk =>
        split at h
        next compiled hread =>
          cases h
          exact ⟨rfl, rfl, hk, hread⟩
        next => cases h

/-- A step that comes to no evaluation does the same with every cache. -/
theorem take_of_evaluation?_eq_none {e : Engine} {step : Step} (h : e.evaluation? step = none)
    (cache : Option ResultCache) : take (e, cache) step = ((take (e, none) step).1, cache) := by
  cases step with
  | cycle members => rfl
  | cell key =>
      simp only [evaluation?] at h
      simp only [Engine.take, evaluateCell]
      split at h
      next hk => rw [if_pos hk, if_pos hk]
      next hk =>
        rw [if_neg hk, if_neg hk]
        cases hread : e.formulas.get? key with
        | none => rfl
        | some reading =>
            cases reading with
            | error error => rfl
            | ok compiled =>
                rw [hread] at h
                cases h

/-- A step that comes to an evaluation records what the cache gives for it. -/
theorem take_of_evaluation? {e : Engine} {step : Step} {x : Evaluation}
    (h : e.evaluation? step = some x) :
    take (e, none) step = (e.record x.key x.outcome none, none) ∧
      ∀ c : ResultCache, ∃ status,
        take (e, some c) step = (e.record x.key (c.serve x.entry).1 status, some (c.serve x.entry).2) := by
  obtain ⟨rfl, rfl, hk, hread⟩ := evaluation?_eq_some h
  simp only [Engine.take, evaluateCell, if_neg hk, hread]
  exact ⟨rfl, fun c => ⟨_, rfl⟩⟩

theorem take_without (e : Engine) (step : Step) :
    take (e, none) step = ((take (e, none) step).1, none) := by
  cases hx : e.evaluation? step with
  | none => exact take_of_evaluation?_eq_none hx none
  | some x => rw [(take_of_evaluation? hx).1]

/-- With and without a cache, a step only adds outcomes. -/
theorem learned_take (state : Engine × Option ResultCache) (step : Step) :
    Learned state.1 (take state step).1 := by
  obtain ⟨e, cache⟩ := state
  cases step with
  | cycle members => exact (foldl_markCircular _ members e).1
  | cell key =>
      simp only [Engine.take, evaluateCell]
      split
      next => exact Learned.refl e
      next hk =>
        cases e.formulas.get? key with
        | none => exact Learned.refl e
        | some reading =>
            cases reading with
            | error error => exact learned_record hk _ _
            | ok compiled => exact learned_record hk _ _

theorem learned_foldl_take (steps : List Step) : ∀ state : Engine × Option ResultCache,
    Learned state.1 (steps.foldl take state).1 := by
  induction steps with
  | nil => exact fun state => Learned.refl state.1
  | cons step steps ih => exact fun state => (learned_take state step).trans (ih _)

/-- An evaluation is of a cell whose outcome is not known, by an engine that has only learned outcomes. -/
theorem evaluations_learned (steps : List Step) : ∀ {e : Engine} {x : Evaluation},
    x ∈ e.evaluations steps → Learned e x.engine ∧ ¬ x.engine.isKnown x.key := by
  induction steps with
  | nil => exact fun hx => absurd hx List.not_mem_nil
  | cons step steps ih =>
      intro e x hx
      rw [evaluations, List.mem_append, Option.mem_toList] at hx
      rcases hx with hx | hx
      · obtain ⟨-, rfl, hk, -⟩ := evaluation?_eq_some hx
        exact ⟨Learned.refl _, hk⟩
      · obtain ⟨hlearned, hk⟩ := ih hx
        exact ⟨(learned_take (e, none) step).trans hlearned, hk⟩

/-- No cell is evaluated twice: its outcome is known from the first time on. -/
theorem evaluations_pairwise (steps : List Step) : ∀ e : Engine,
    (e.evaluations steps).Pairwise fun x y => x.key ≠ y.key := by
  induction steps with
  | nil => exact fun e => .nil
  | cons step steps ih =>
      intro e
      rw [evaluations, List.pairwise_append]
      refine ⟨?_, ih _, ?_⟩
      · cases e.evaluation? step with
        | none => exact .nil
        | some x => exact List.pairwise_singleton _ _
      · intro x hx y hy heq
        rw [Option.mem_toList] at hx
        obtain ⟨hlearned, hk⟩ := evaluations_learned steps hy
        refine hk (hlearned.isKnown ?_)
        rw [(take_of_evaluation? hx).1, ← heq]
        exact (record_isKnown _ _ _).2 (Or.inl rfl)

/-! ## Runs -/

/-- The steps that are taken to evaluate cells. -/
def plan (e : Engine) (roots : List CellKey) : List Step :=
  (e.prepare roots).graph.order (roots.filter fun key => !(e.prepare roots).isKnown key)

theorem run_eq (e : Engine) (cache : Option ResultCache) (roots : List CellKey) :
    e.run cache roots = (e.plan roots).foldl take (e.prepare roots, cache) := rfl

/-- The evaluations that an action comes to without a cache. -/
def evaluationsOf (e : Engine) (action : Action) : List Evaluation :=
  match (e.write action).rootsOf action with
  | none => []
  | some roots => ((e.write action).prepare roots).evaluations ((e.write action).plan roots)

/-- Beyond what it writes, an action leaves the workbook as it is. -/
theorem act_workbook (e : Engine) (cache : Option ResultCache) (action : Action) :
    (e.act cache action).1.workbook = (e.write action).workbook := by
  rw [act_eq]
  split
  next => rfl
  next roots _ =>
    rw [run_eq, (learned_foldl_take _ _).workbook]
    exact prepare_workbook _ roots

/-- Without a cache, an action leaves none behind. -/
theorem act_without (e : Engine) (action : Action) : (e.act none action).2 = none := by
  rw [act_eq]
  split
  next => rfl
  next roots _ =>
    rw [run_eq]
    generalize (e.write action).prepare roots = e'
    induction (e.write action).plan roots generalizing e' with
    | nil => rfl
    | cons step steps ih =>
        rw [List.foldl_cons, take_without]
        exact ih _

/-! ## Soundness -/

/-- A step makes only cells known whose formulas have been read or that are members of a cycle. -/
theorem isKnown_take {e : Engine} {step : Step} {k : CellKey}
    (h : (take (e, none) step).1.isKnown k) :
    e.isKnown k ∨ e.formulas.contains k ∨ ∃ members, step = .cycle members ∧ k ∈ members := by
  cases step with
  | cycle members =>
      obtain ⟨o, ho⟩ := isKnown_iff.1 h
      simp only [Engine.take, (foldl_markCircular _ members e).2] at ho
      split at ho
      next hmem => exact Or.inr (Or.inr ⟨members, rfl, hmem.1⟩)
      next => exact Or.inl (isKnown_iff.2 ⟨o, ho⟩)
  | cell key =>
      simp only [Engine.take, evaluateCell] at h
      split at h
      next => exact Or.inl h
      next =>
        split at h
        next => exact Or.inl h
        next error hread =>
          rcases (record_isKnown _ _ k).1 h with rfl | h
          · refine Or.inr (Or.inl ?_)
            rw [Keyed.contains_eq_isSome, hread]
            rfl
          · exact Or.inl h
        next compiled hread =>
          rcases (record_isKnown _ _ k).1 h with rfl | h
          · refine Or.inr (Or.inl ?_)
            rw [Keyed.contains_eq_isSome, hread]
            rfl
          · exact Or.inl h

/-- No cell has a value unless its sheet exists. -/
theorem Consistent.value_of_not_hasSheet {e : Engine} (h : e.Consistent)
    (hknown : ∀ k, e.isKnown k → e.formulas.contains k) (hg : e.workbook.Grounded) {p : CellKey}
    (hp : e.workbook.hasSheet p.sheet = false) : e.value p = .empty := by
  have hcontent := Workbook.content_of_not_hasSheet hg hp
  rw [value_of_not_known, Workbook.literal, hcontent]
  intro hk
  have hf := h.formula?_isSome (hknown p hk)
  rw [Workbook.formula?, hcontent] at hf
  cases hf

/-- The evaluations that steps come to are sound if the formulas of the cells on cycles have been
read. -/
theorem evaluations_sound (steps : List Step) : ∀ {e : Engine}, e.Consistent →
    (∀ k, e.isKnown k → e.formulas.contains k) → e.workbook.Grounded →
    (∀ members, .cycle members ∈ steps → ∀ m ∈ members, e.formulas.contains m) →
    ∀ x ∈ e.evaluations steps, x.Sound := by
  induction steps with
  | nil => exact fun _ _ _ _ x hx => absurd hx List.not_mem_nil
  | cons step steps ih =>
      intro e h hknown hg hcycle x hx
      rw [evaluations, List.mem_append, Option.mem_toList] at hx
      rcases hx with hx | hx
      · obtain ⟨_, hengine, _, hread⟩ := evaluation?_eq_some hx
        subst hengine
        exact ⟨h, hread, fun p hp => h.value_of_not_hasSheet hknown hg hp⟩
      · have hl := learned_take (e, none) step
        refine ih (hl.consistent h) ?_ (hl.workbook.symm ▸ hg) ?_ x hx
        · intro k hk
          rw [hl.formulas]
          rcases isKnown_take hk with hold | hread | ⟨members, rfl, hmem⟩
          · exact hknown k hold
          · exact hread
          · exact hcycle members List.mem_cons_self k hmem
        · intro members hmembers m hm
          rw [hl.formulas]
          exact hcycle members (List.mem_cons_of_mem _ hmembers) m hm

/-- The evaluations that an action comes to are sound. -/
theorem evaluationsOf_sound {e : Engine} {seen : CellKey → SheetName → Bool} (h : e.Valid seen)
    (hg : e.workbook.Grounded) (action : Action) : ∀ x ∈ e.evaluationsOf action, x.Sound := by
  unfold evaluationsOf
  split
  next => exact fun x hx => absurd hx List.not_mem_nil
  next roots _ =>
    have hprepare := (h.write action).prepare roots
    refine evaluations_sound _ hprepare.toConsistent hprepare.known_read ?_ ?_
    · rw [prepare_workbook]
      exact write_grounded _ action hg
    · -- A cell on a cycle reads another, so its formula has been read.
      intro members hmembers m hm
      have hcircular := ((Graph.order_fits _ _ _ hmembers).circular_iff_isCycle hm).2 rfl
      obtain ⟨b, hread, _⟩ := Relation.TransGen.head'_iff.1 hcircular
      exact (hprepare.toConsistent.reads_iff.1 hread).1

end Engine

end PaintQuote
