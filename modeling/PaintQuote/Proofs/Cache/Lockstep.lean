import PaintQuote.Proofs.Cache.Evaluations

/-!
# Engines with and without a cache

Two engines are the *same* when they differ at most in their statistics.  Taken through the same steps,
one with a cache and one without, they stay the same as long as the cache gives every evaluation its
outcome, and the cache goes through the evaluations of the engine without one (`Same.foldl_take`).  An
engine never changes an outcome that it knows, so where the cache gives another outcome the engines are
not the same in the end (`Same.serves_of_foldl_take`).
-/

namespace PaintQuote.Engine

open Sheet Formula

/-! ## Sameness -/

/-- Two engines differ at most in their statistics. -/
structure Same (e e' : Engine) : Prop where
  workbook : e.workbook = e'.workbook
  formulas : e.formulas = e'.formulas
  graph : e.graph = e'.graph
  outcomes : e.outcomes = e'.outcomes

namespace Same

variable {e e' : Engine}

theorem refl (e : Engine) : e.Same e := ⟨rfl, rfl, rfl, rfl⟩

theorem isKnown (h : e.Same e') (key : CellKey) : e.isKnown key = e'.isKnown key := by
  rw [Engine.isKnown, Engine.isKnown, h.outcomes]

theorem value (h : e.Same e') : e.value = e'.value := by
  funext key
  rw [Engine.value, Engine.value, h.outcomes, h.workbook]

theorem issue? (h : e.Same e') (key : CellKey) : e.issue? key = e'.issue? key := by
  rw [Engine.issue?, Engine.issue?, h.outcomes]

theorem shown (h : e.Same e') (key : CellKey) : e.shown key = e'.shown key := by
  rw [Engine.shown, Engine.shown, h.outcomes, h.workbook]

theorem source (h : e.Same e') : e.source = e'.source := by
  rw [Engine.source, Engine.source, h.value, h.workbook]

theorem cacheKey (h : e.Same e') (key : CellKey) (compiled : Compiled) :
    e.cacheKey key compiled = e'.cacheKey key compiled := by
  have hvalue : e.keyValue = e'.keyValue := by
    funext cell
    rw [keyValue, keyValue, h.workbook, h.value]
  rw [Engine.cacheKey, Engine.cacheKey, h.workbook, h.graph, hvalue]

theorem record (h : e.Same e') (key : CellKey) (o : Outcome) (status status' : Option CacheStatus) :
    (e.record key o status).Same (e'.record key o status') := by
  refine ⟨h.workbook, h.formulas, h.graph, ?_⟩
  rw [Engine.record, Engine.record, h.outcomes]

/-! ## Reading formulas -/

theorem compileCell (h : e.Same e') (key : CellKey) : (e.compileCell key).Same (e'.compileCell key) := by
  unfold Engine.compileCell
  rw [h.formulas, h.workbook]
  split
  next => exact h
  next =>
    split
    next text _ =>
      unfold Engine.compile
      cases Expr.ofText text with
      | ok expr => exact ⟨h.workbook, by rw [h.workbook, h.formulas], by rw [h.workbook, h.graph], h.outcomes⟩
      | error error => exact ⟨h.workbook, by rw [h.formulas], by rw [h.graph], h.outcomes⟩
    next => exact h

theorem prepareFrom (seen : CellSet) (stack : List CellKey) (h : e.Same e') :
    (e.prepareFrom seen stack).Same (e'.prepareFrom seen stack) := by
  fun_induction Engine.prepareFrom e seen stack generalizing e' with
  | case1 e seen =>
      rw [Engine.prepareFrom]
      exact h
  | case2 e seen key stack hold ih =>
      rw [h.isKnown] at hold
      rw [Engine.prepareFrom, if_pos hold]
      exact ih h
  | case3 e seen key stack hnew hnone ih =>
      rw [h.isKnown] at hnew
      rw [h.workbook] at hnone
      rw [Engine.prepareFrom, if_neg hnew, if_pos hnone]
      exact ih h
  | case4 e seen key stack hnew hsome ih =>
      rw [h.isKnown] at hnew
      rw [h.workbook] at hsome
      rw [Engine.prepareFrom, if_neg hnew, if_neg hsome, (h.compileCell key).graph]
      rw [(h.compileCell key).graph] at ih
      exact ih (h.compileCell key)

theorem prepare (h : e.Same e') (roots : List CellKey) : (e.prepare roots).Same (e'.prepare roots) :=
  prepareFrom {} roots h

/-! ## Writing -/

theorem foldl {f : Engine → CellKey → Engine}
    (hf : ∀ (e e' : Engine) (key : CellKey), e.Same e' → (f e key).Same (f e' key)) (keys : List CellKey) :
    ∀ {e e' : Engine}, e.Same e' → (keys.foldl f e).Same (keys.foldl f e') := by
  induction keys with
  | nil => exact fun h => h
  | cons key keys ih => exact fun h => ih (hf _ _ key h)

theorem invalidate (h : e.Same e') (changed : List CellKey) :
    (e.invalidate changed).Same (e'.invalidate changed) := by
  have hforget : ∀ (e e' : Engine) (key : CellKey), e.Same e' →
      (e.forgetContent key).Same (e'.forgetContent key) := by
    intro e e' key h
    refine ⟨h.workbook, ?_, ?_, ?_⟩
    · rw [forgetContent, forgetContent, h.formulas]
    · rw [forgetContent, forgetContent, h.graph]
    · rw [forgetContent, forgetContent, h.outcomes]
  have houtcome : ∀ (e e' : Engine) (key : CellKey), e.Same e' →
      (e.forgetOutcome key).Same (e'.forgetOutcome key) := by
    intro e e' key h
    refine ⟨h.workbook, h.formulas, h.graph, ?_⟩
    rw [forgetOutcome, forgetOutcome, h.outcomes]
  rw [Engine.invalidate, Engine.invalidate, h.graph]
  exact foldl houtcome _ (foldl hforget changed h)

theorem withWorkbook (h : e.Same e') (workbook : Workbook) :
    ({ e with workbook } : Engine).Same { e' with workbook } := ⟨rfl, h.formulas, h.graph, h.outcomes⟩

theorem setFormula (h : e.Same e') (key : CellKey) (text : String) :
    (e.setFormula key text).Same (e'.setFormula key text) := by
  unfold Engine.setFormula
  rw [h.workbook]
  split
  next => exact h
  next => exact (h.withWorkbook _).invalidate [key]

theorem write (h : e.Same e') (action : Action) : (e.write action).Same (e'.write action) := by
  cases action with
  | load entries =>
      show (e.load entries).Same (e'.load entries)
      rw [Engine.load, Engine.load, h.workbook]
      exact (h.withWorkbook _).invalidate _
  | setFormula key text => exact h.setFormula key text
  | define name target =>
      show ((e.define name target).toOption.getD e).Same ((e'.define name target).toOption.getD e')
      unfold Engine.define
      cases DefinedName.ofText name target with
      | error error => exact h
      | ok defined =>
          simp only [Except.bind, defineName, h.workbook]
          cases e'.workbook.defineName defined with
          | error error => exact h
          | ok workbook => exact ⟨rfl, rfl, rfl, rfl⟩
  | evaluate key text? =>
      cases text? with
      | none => exact h
      | some text => exact h.setFormula key text
  | evaluateAll keys => exact h

theorem rootsOf (h : e.Same e') (action : Action) : e.rootsOf action = e'.rootsOf action := by
  cases action <;> simp only [Engine.rootsOf, h.workbook]

end Same

/-! ## Steps in lockstep -/

namespace Same

variable {e e' : Engine} {c : ResultCache}

theorem evaluation? (h : e.Same e') (step : Step) :
    e.evaluation? step = (e'.evaluation? step).map fun x => { x with engine := e } := by
  cases step with
  | cycle members => rfl
  | cell key =>
      simp only [Engine.evaluation?, h.isKnown, h.formulas]
      split
      next => rfl
      next => split <;> rfl

theorem entry {x : Evaluation} (h : e.Same x.engine) : ({ x with engine := e } : Evaluation).entry = x.entry := by
  rw [Evaluation.entry, Evaluation.entry, Evaluation.cacheKey, Evaluation.cacheKey, Evaluation.outcome,
    Evaluation.outcome, h.cacheKey, h.source]

theorem take_without (h : e.Same e') (step : Step) :
    (take (e, none) step).1.Same (take (e', none) step).1 := by
  cases step with
  | cycle members =>
      refine foldl ?_ members h
      intro e e' key h
      rw [markCircular, markCircular, h.isKnown]
      split
      next => exact h
      next => exact h.record _ _ _ _
  | cell key =>
      simp only [Engine.take, evaluateCell, h.isKnown, h.formulas, compute, h.source]
      split
      next => exact h
      next =>
        cases e'.formulas.get? key with
        | none => exact h
        | some reading =>
            cases reading with
            | error error => exact h.record _ _ _ _
            | ok compiled => exact h.record _ _ _ _

/-- A step that comes to no evaluation keeps engines the same. -/
theorem take_of_none (h : e.Same e') {step : Step} (hx : e'.evaluation? step = none) :
    ∃ e₁, take (e, some c) step = (e₁, some c) ∧ e₁.Same (take (e', none) step).1 := by
  have hx' : e.evaluation? step = none := by
    rw [h.evaluation?, hx]
    rfl
  exact ⟨_, take_of_evaluation?_eq_none hx' (some c), h.take_without step⟩

/-- A step that comes to an evaluation records what the cache gives for it. -/
theorem take_of_some (h : e.Same e') {step : Step} {x : Evaluation}
    (hx : e'.evaluation? step = some x) : ∃ status,
      take (e, some c) step = (e.record x.key (c.serve x.entry).1 status, some (c.serve x.entry).2) := by
  have hx' : e.evaluation? step = some { x with engine := e } := by
    rw [h.evaluation?, hx]
    rfl
  obtain ⟨status, htake⟩ := (take_of_evaluation? hx').2 c
  have hengine := (evaluation?_eq_some hx).2.1
  rw [entry (hengine ▸ h)] at htake
  exact ⟨status, htake⟩

/-- Engines stay the same if the cache gives every evaluation its outcome. -/
theorem foldl_take (steps : List Step) : ∀ {e e' : Engine} {c : ResultCache}, e.Same e' →
    c.Serves ((e'.evaluations steps).map Evaluation.entry) →
      ∃ e₁, steps.foldl take (e, some c) =
          (e₁, some (c.after ((e'.evaluations steps).map Evaluation.entry))) ∧
        e₁.Same (steps.foldl take (e', none)).1 := by
  induction steps with
  | nil => exact fun h _ => ⟨_, rfl, h⟩
  | cons step steps ih =>
      intro e e' c h hserves
      rw [List.foldl_cons, List.foldl_cons, Engine.take_without]
      rw [evaluations] at hserves ⊢
      cases hx : e'.evaluation? step with
      | none =>
          rw [hx] at hserves
          obtain ⟨e₁, htake, hsame⟩ := h.take_of_none (c := c) hx
          rw [htake]
          exact ih hsame hserves
      | some x =>
          rw [hx] at hserves
          obtain ⟨hgiven, hserves⟩ := hserves
          obtain ⟨status, htake⟩ := h.take_of_some (c := c) hx
          have hsame : (e.record x.key x.entry.2 status).Same (Engine.take (e', none) step).1 := by
            rw [(take_of_evaluation? hx).1]
            exact h.record _ _ _ _
          rw [htake, hgiven]
          exact ih hsame hserves

/-- If engines know no different outcomes in the end, the cache has given every evaluation its
outcome. -/
theorem serves_of_foldl_take (steps : List Step) : ∀ {e e' : Engine} {c : ResultCache}, e.Same e' →
    (∀ k o o', (steps.foldl take (e, some c)).1.outcomes.get? k = some o →
      (steps.foldl take (e', none)).1.outcomes.get? k = some o' → o = o') →
    c.Serves ((e'.evaluations steps).map Evaluation.entry) := by
  induction steps with
  | nil => exact fun _ _ => trivial
  | cons step steps ih =>
      intro e e' c h hfinal
      rw [List.foldl_cons, List.foldl_cons, Engine.take_without] at hfinal
      rw [evaluations]
      cases hx : e'.evaluation? step with
      | none =>
          obtain ⟨e₁, htake, hsame⟩ := h.take_of_none (c := c) hx
          rw [htake] at hfinal
          exact ih hsame hfinal
      | some x =>
          obtain ⟨status, htake⟩ := h.take_of_some (c := c) hx
          have htake' := (take_of_evaluation? hx).1
          rw [htake, htake'] at hfinal
          -- What the step records stays until the end, with and without the cache.
          have hgiven : (c.serve x.entry).1 = x.outcome := by
            refine hfinal x.key _ _ ((learned_foldl_take steps _).kept _ _ ?_)
              ((learned_foldl_take steps _).kept _ _ ?_)
            · rw [record_get?, if_pos rfl]
            · rw [record_get?, if_pos rfl]
          rw [hgiven] at hfinal
          refine ⟨hgiven, ?_⟩
          rw [htake']
          exact ih (h.record _ _ _ _) hfinal

/-! ## Actions in lockstep -/

theorem plan (h : e.Same e') (roots : List CellKey) : e.plan roots = e'.plan roots := by
  have hpending : (fun key => !(e.prepare roots).isKnown key) =
      fun key => !(e'.prepare roots).isKnown key := by
    funext key
    rw [(h.prepare roots).isKnown]
  rw [Engine.plan, Engine.plan, (h.prepare roots).graph, hpending]

/-- An action keeps engines the same if the cache gives every evaluation its outcome. -/
theorem act (h : e.Same e') (action : Action)
    (hserves : c.Serves ((e'.evaluationsOf action).map Evaluation.entry)) :
    ∃ e₁, e.act (some c) action =
        (e₁, some (c.after ((e'.evaluationsOf action).map Evaluation.entry))) ∧
      e₁.Same (e'.act none action).1 := by
  have hwrite := h.write action
  rw [act_eq, act_eq, hwrite.rootsOf]
  unfold evaluationsOf at hserves ⊢
  cases hroots : (e'.write action).rootsOf action with
  | none => exact ⟨_, rfl, hwrite⟩
  | some roots =>
      rw [hroots] at hserves
      simp only [run_eq, hwrite.plan]
      exact foldl_take _ (hwrite.prepare roots) hserves

/-- If engines know no different outcomes after an action, the cache has given every evaluation its
outcome. -/
theorem serves_of_act (h : e.Same e') (action : Action)
    (hfinal : ∀ k o o', (e.act (some c) action).1.outcomes.get? k = some o →
      (e'.act none action).1.outcomes.get? k = some o' → o = o') :
    c.Serves ((e'.evaluationsOf action).map Evaluation.entry) := by
  have hwrite := h.write action
  rw [act_eq, act_eq, hwrite.rootsOf] at hfinal
  unfold evaluationsOf
  cases hroots : (e'.write action).rootsOf action with
  | none => trivial
  | some roots =>
      rw [hroots] at hfinal
      simp only [run_eq, hwrite.plan] at hfinal
      exact serves_of_foldl_take _ (hwrite.prepare roots) hfinal

end Same

end PaintQuote.Engine
