import PaintQuote.Proofs.Cache.Evaluations
import PaintQuote.Proofs.Cache.Forms

/-!
# Engines whose numbers have other forms

Two engines are *akin* when their workbooks differ at most in the forms of numbers and the outcomes that
they know are related.  Taken through the same steps, one with a cache and one without, they come to the
same keys, and what the cache gives decides how their outcomes are related:

* if what it holds are outcomes of evaluations like those of the engine without a cache, up to the form
  of numbers, the outcomes stay equal up to that form (`Akin.foldl_take`);
* if it holds the outcomes of the engine without a cache under all of its keys, the engine with the
  cache comes to these very outcomes, whatever the forms in its own workbook (`Akin.foldl_take_recalled`).
-/

namespace PaintQuote

open Sheet Formula Engine

/-! ## Workbooks -/

namespace Sheet

namespace Content

theorem agrees_symm {c d : Content} (h : c.agrees d = true) : d.agrees c = true := by
  cases c with
  | literal v =>
      cases d with
      | literal w => exact CellValue.like_iff.1 (CellValue.like_iff.2 h).symm
      | formula t => cases h
  | formula s =>
      cases d with
      | literal w => cases h
      | formula t =>
          rw [agrees, beq_iff_eq] at h ⊢
          exact h.symm

theorem agrees_trans {b c d : Content} (h : b.agrees c = true) (h' : c.agrees d = true) :
    b.agrees d = true := by
  cases b with
  | literal u =>
      cases c with
      | formula s => cases h
      | literal v =>
          cases d with
          | formula t => cases h'
          | literal w =>
              exact CellValue.like_iff.1 ((CellValue.like_iff.2 h).trans (CellValue.like_iff.2 h'))
  | formula s =>
      cases c with
      | literal v => cases h
      | formula t =>
          rw [agrees, beq_iff_eq] at h
          rw [h]
          exact h'

end Content

namespace Workbook

/-- Two workbooks differ at most in the forms of the numbers in their cells. -/
structure Akin (w w' : Workbook) : Prop where
  names : w.names = w'.names
  hasSheet : ∀ s, w.hasSheet s = w'.hasSheet s
  content : ∀ k, (w.content k).agrees (w'.content k) = true

namespace Akin

variable {w w' : Workbook}

theorem refl (w : Workbook) : w.Akin w := ⟨rfl, fun _ => rfl, fun _ => Content.agrees_self _⟩

theorem formula? (h : w.Akin w') (k : CellKey) : w.formula? k = w'.formula? k := by
  have hcontent := h.content k
  unfold Workbook.formula?
  generalize w.content k = c at hcontent ⊢
  generalize w'.content k = d at hcontent ⊢
  cases c <;> cases d <;> simp_all [Content.agrees]

theorem literal (h : w.Akin w') (k : CellKey) : (w.literal k).Like (w'.literal k) := by
  have hcontent := h.content k
  unfold Workbook.literal
  generalize w.content k = c at hcontent ⊢
  generalize w'.content k = d at hcontent ⊢
  cases c with
  | literal v =>
      cases d with
      | literal v' => exact CellValue.like_iff.2 hcontent
      | formula t => cases hcontent
  | formula s =>
      cases d with
      | literal v' => cases hcontent
      | formula t => exact .refl _

end Akin

end Workbook

end Sheet

namespace Engine

theorem CacheKey.targetsAgree_self (target? : Option Target) : TargetsAgree target? target? := by
  cases target? with
  | none => rfl
  | some target =>
      cases target with
      | constant v => exact v.agrees_self
      | cell key => rfl
      | range sheet area => rfl

/-! ## Engines -/

/-- Two engines whose workbooks differ at most in the forms of numbers have read the same formulas and
know related outcomes. -/
structure Akin (S : Outcome → Outcome → Prop) (e e' : Engine) : Prop where
  workbook : e.workbook.Akin e'.workbook
  formulas : e.formulas = e'.formulas
  graph : e.graph = e'.graph
  outcomes : ∀ k, Option.Rel S (e.outcomes.get? k) (e'.outcomes.get? k)

namespace Akin

variable {S : Outcome → Outcome → Prop} {e e' : Engine}

theorem isKnown (h : e.Akin S e') (key : CellKey) : e.isKnown key = e'.isKnown key := by
  have houtcome := h.outcomes key
  rw [Engine.isKnown, Engine.isKnown, Keyed.contains_eq_isSome, Keyed.contains_eq_isSome]
  generalize e.outcomes.get? key = o at houtcome ⊢
  generalize e'.outcomes.get? key = o' at houtcome ⊢
  cases houtcome <;> rfl

theorem value (hS : ∀ o o', S o o' → o.Like o') (h : e.Akin S e') (key : CellKey) :
    (e.value key).Like (e'.value key) := by
  have houtcome := h.outcomes key
  unfold Engine.value
  generalize e.outcomes.get? key = o at houtcome ⊢
  generalize e'.outcomes.get? key = o' at houtcome ⊢
  cases houtcome with
  | none => exact h.workbook.literal key
  | some h => exact (hS _ _ h).value

theorem shown (h : e.Akin Outcome.Like e') (key : CellKey) : (e.shown key).Like (e'.shown key) := by
  have houtcome := h.outcomes key
  unfold Engine.shown
  generalize e.outcomes.get? key = o at houtcome ⊢
  generalize e'.outcomes.get? key = o' at houtcome ⊢
  cases houtcome with
  | none => exact ⟨h.workbook.literal key, rfl⟩
  | some h => exact h

theorem shown_of_isKnown (h : e.Akin Eq e') {key : CellKey} (hk : e'.isKnown key) :
    e.shown key = e'.shown key := by
  obtain ⟨o, ho⟩ := isKnown_iff.1 hk
  have houtcome := h.outcomes key
  rw [ho] at houtcome
  rw [Engine.shown, Engine.shown, ho]
  generalize e.outcomes.get? key = o' at houtcome ⊢
  cases houtcome with
  | some h => rw [h, Option.getD_some, Option.getD_some]

theorem record (h : e.Akin S e') (key : CellKey) {o o' : Outcome} (ho : S o o')
    (status status' : Option CacheStatus) :
    (e.record key o status).Akin S (e'.record key o' status') := by
  refine ⟨h.workbook, h.formulas, h.graph, ?_⟩
  intro k
  rw [record_get?, record_get?]
  split
  next => exact .some ho
  next => exact h.outcomes k

theorem name? (h : e.Akin S e') (s : String) : e.workbook.name? s = e'.workbook.name? s := by
  rw [Workbook.name?, Workbook.name?, h.workbook.names]

theorem context (hS : ∀ o o', S o o' → o.Like o') (h : e.Akin S e') (sheet : SheetName) :
    Context.Like ⟨e.source, sheet⟩ ⟨e'.source, sheet⟩ :=
  ⟨rfl, h.value hS, h.workbook.hasSheet, h.name?⟩

/-- A key does not see the forms of numbers. -/
theorem cacheKey (hS : ∀ o o', S o o' → o.Like o') (h : e.Akin S e') (key : CellKey)
    (compiled : Compiled) : e.cacheKey key compiled = e'.cacheKey key compiled := by
  have hvalue : ∀ cell, (e.keyValue cell).agrees (e'.keyValue cell) = true := by
    intro cell
    rw [keyValue, keyValue, h.workbook.hasSheet]
    split
    next => exact CellValue.like_iff.1 (h.value hS cell)
    next => exact CellValue.agrees_self _
  rw [Engine.cacheKey, Engine.cacheKey, CacheKey.ofParts_eq_iff, h.graph]
  refine ⟨rfl, List.rel_append ?_ ?_⟩
  · refine List.forall₂_map_left_iff.2 (List.forall₂_map_right_iff.2 (List.forall₂_same.2 ?_))
    intro s _
    rw [h.name?]
    exact ⟨rfl, CacheKey.targetsAgree_self _⟩
  · refine List.forall₂_map_left_iff.2 (List.forall₂_map_right_iff.2 (List.forall₂_same.2 ?_))
    exact fun cell _ => ⟨rfl, hvalue cell⟩

/-! ### Reading formulas -/

theorem compileCell (h : e.Akin S e') (key : CellKey) : (e.compileCell key).Akin S (e'.compileCell key) := by
  unfold Engine.compileCell
  rw [h.formulas, h.workbook.formula?]
  split
  next => exact h
  next =>
    split
    next text _ =>
      unfold Engine.compile
      cases Expr.ofText text with
      | ok expr =>
          exact ⟨h.workbook, by rw [h.workbook.names, h.formulas], by rw [h.workbook.names, h.graph],
            h.outcomes⟩
      | error error => exact ⟨h.workbook, by rw [h.formulas], by rw [h.graph], h.outcomes⟩
    next => exact h

theorem prepareFrom (seen : CellSet) (stack : List CellKey) (h : e.Akin S e') :
    (e.prepareFrom seen stack).Akin S (e'.prepareFrom seen stack) := by
  fun_induction Engine.prepareFrom e seen stack generalizing e' with
  | case1 e seen =>
      rw [Engine.prepareFrom]
      exact h
  | case2 e seen key stack hold ih =>
      rw [h.isKnown] at hold
      rw [Engine.prepareFrom, if_pos hold]
      exact ih h
  | case3 e seen key stack hnew hnone ih =>
      rw [h.isKnown] at hnew
      rw [h.workbook.formula?] at hnone
      rw [Engine.prepareFrom, if_neg hnew, if_pos hnone]
      exact ih h
  | case4 e seen key stack hnew hsome ih =>
      rw [h.isKnown] at hnew
      rw [h.workbook.formula?] at hsome
      rw [Engine.prepareFrom, if_neg hnew, if_neg hsome, (h.compileCell key).graph]
      rw [(h.compileCell key).graph] at ih
      exact ih (h.compileCell key)

theorem prepare (h : e.Akin S e') (roots : List CellKey) : (e.prepare roots).Akin S (e'.prepare roots) :=
  prepareFrom {} roots h

theorem plan (h : e.Akin S e') (roots : List CellKey) : e.plan roots = e'.plan roots := by
  have hpending : (fun key => !(e.prepare roots).isKnown key) =
      fun key => !(e'.prepare roots).isKnown key := by
    funext key
    rw [(h.prepare roots).isKnown]
  rw [Engine.plan, Engine.plan, (h.prepare roots).graph, hpending]

/-! ### Steps -/

theorem evaluation? (h : e.Akin S e') (step : Step) :
    e.evaluation? step = (e'.evaluation? step).map fun x => { x with engine := e } := by
  cases step with
  | cycle members => rfl
  | cell key =>
      simp only [Engine.evaluation?, h.isKnown, h.formulas]
      split
      next => rfl
      next => split <;> rfl

theorem markCircular (hrefl : ∀ o, S o o) (error : FormulaError) (members : List CellKey) :
    ∀ {e e' : Engine}, e.Akin S e' →
      (members.foldl (Engine.markCircular error) e).Akin S
        (members.foldl (Engine.markCircular error) e') := by
  induction members with
  | nil => exact fun h => h
  | cons key members ih =>
      intro e e' h
      refine ih ?_
      rw [Engine.markCircular, Engine.markCircular, h.isKnown]
      split
      next => exact h
      next => exact h.record key (hrefl _) _ _

/-- A step that comes to no evaluation keeps engines akin. -/
theorem take_of_none (hrefl : ∀ o, S o o) (h : e.Akin S e') {step : Step}
    (hx : e'.evaluation? step = none) (cache : Option ResultCache) :
    ∃ e₁, take (e, cache) step = (e₁, cache) ∧ e₁.Akin S (take (e', none) step).1 := by
  have hx' : e.evaluation? step = none := by
    rw [h.evaluation?, hx]
    rfl
  refine ⟨_, take_of_evaluation?_eq_none hx' cache, ?_⟩
  cases step with
  | cycle members => exact markCircular hrefl _ members h
  | cell key =>
      simp only [Engine.evaluation?] at hx
      simp only [Engine.take, evaluateCell, h.isKnown, h.formulas]
      split
      next => exact h
      next hk =>
        rw [if_neg hk] at hx
        cases hread : e'.formulas.get? key with
        | none => exact h
        | some reading =>
            cases reading with
            | error error => exact h.record key (hrefl _) _ _
            | ok compiled =>
                rw [hread] at hx
                cases hx

/-- A step that comes to an evaluation records what the cache gives for it, under the key that it has
without a cache. -/
theorem take_of_some (hS : ∀ o o', S o o' → o.Like o') (h : e.Akin S e') {step : Step} {x : Evaluation}
    (hx : e'.evaluation? step = some x) (huniform : x.compiled.expr.isUniform = true)
    (c : ResultCache) : ∃ o status, o.Like x.outcome ∧
      take (e, some c) step =
        (e.record x.key (c.serve (x.cacheKey, o)).1 status, some (c.serve (x.cacheKey, o)).2) := by
  have hengine := (evaluation?_eq_some hx).2.1
  have hx' : e.evaluation? step = some { x with engine := e } := by
    rw [h.evaluation?, hx]
    rfl
  obtain ⟨status, htake⟩ := (take_of_evaluation? hx').2 c
  subst hengine
  have hkey : ({ x with engine := e } : Evaluation).cacheKey = x.cacheKey := h.cacheKey hS _ _
  rw [Evaluation.entry, hkey] at htake
  exact ⟨_, status, outcomeOf_like (h.context hS x.key.sheet) huniform, htake⟩

end Akin

/-! ## Caches -/

/-- Evaluations that cannot tell equal numbers apart, and that have like outcomes under one key. -/
structure Uniform (xs : List Evaluation) : Prop where
  isUniform : ∀ x ∈ xs, x.compiled.expr.isUniform = true
  outcome : ∀ x ∈ xs, ∀ y ∈ xs, x.cacheKey = y.cacheKey → x.outcome.Like y.outcome

namespace ResultCache

variable {c : ResultCache} {done : List Evaluation} {x : Evaluation} {o : Outcome}

/-- What a cache holds are outcomes of evaluations, up to the form of a number. -/
def Remembers (c : ResultCache) (done : List Evaluation) : Prop :=
  ∀ held ∈ c.entries, ∃ y ∈ done, y.cacheKey = held.1 ∧ held.2.Like y.outcome

/-- A cache gives an evaluation its outcome up to the form of a number, and remembers it. -/
theorem Remembers.serve (h : c.Remembers done)
    (hone : ∀ y ∈ done, y.cacheKey = x.cacheKey → y.outcome.Like x.outcome)
    (ho : o.Like x.outcome) : (c.serve (x.cacheKey, o)).1.Like x.outcome ∧
      (c.serve (x.cacheKey, o)).2.Remembers (done ++ [x]) := by
  have hgiven : (c.serve (x.cacheKey, o)).1.Like x.outcome := by
    rcases c.serve_cases (x.cacheKey, o) with ⟨o', hfind, hserve⟩ | ⟨-, hserve⟩
    · obtain ⟨y, hy, hkey, hlike⟩ := h _ (mem_of_find? hfind)
      rw [hserve]
      exact hlike.trans (hone y hy hkey)
    · rw [hserve]
      exact ho
  refine ⟨hgiven, ?_⟩
  intro held hheld
  rcases mem_serve hheld with rfl | hheld
  · exact ⟨x, List.mem_append_right _ List.mem_cons_self, rfl, hgiven⟩
  · obtain ⟨y, hy, hkey, hlike⟩ := h held hheld
    exact ⟨y, List.mem_append_left _ hy, hkey, hlike⟩

/-- A cache that holds an outcome under a key gives it, and holds what it held. -/
theorem serve_of_find? {key : CacheKey} {o' : Outcome} (h : c.find? key = some o') :
    (c.serve (key, o)).1 = o' ∧ ∀ k, (c.serve (key, o)).2.find? k = c.find? k := by
  rcases c.serve_cases (key, o) with ⟨o'', hfind, hserve⟩ | ⟨hfind, -⟩
  · cases h.symm.trans hfind
    rw [hserve]
    refine ⟨rfl, fun k => ?_⟩
    rw [find?_touch]
    split
    next heq =>
      rw [heq]
      exact h.symm
    next => rfl
  · cases h.symm.trans hfind

end ResultCache

/-! ## Runs -/

namespace Akin

/-- With a cache that remembers evaluations like those without it, outcomes stay equal up to the forms of
numbers.  The evaluations done so far are those that the cache remembers. -/
theorem foldl_take (steps : List Step) : ∀ {e e' : Engine} {c : ResultCache} {done : List Evaluation},
    e.Akin Outcome.Like e' → c.Remembers done → Uniform (done ++ e'.evaluations steps) →
      ∃ e₁ c₁, steps.foldl take (e, some c) = (e₁, some c₁) ∧
        e₁.Akin Outcome.Like (steps.foldl take (e', none)).1 ∧
        c₁.Remembers (done ++ e'.evaluations steps) := by
  induction steps with
  | nil =>
      intro e e' c done h hc _
      rw [evaluations, List.append_nil]
      exact ⟨e, c, rfl, h, hc⟩
  | cons step steps ih =>
      intro e e' c done h hc huniform
      rw [List.foldl_cons, List.foldl_cons, Engine.take_without]
      rw [evaluations] at huniform ⊢
      cases hx : e'.evaluation? step with
      | none =>
          rw [hx] at huniform
          obtain ⟨e₁, htake, hakin⟩ := h.take_of_none .refl hx (some c)
          rw [htake]
          exact ih hakin hc huniform
      | some x =>
          rw [hx] at huniform
          have hmem : x ∈ done ++ ((some x).toList ++ (take (e', none) step).1.evaluations steps) :=
            List.mem_append_right _ List.mem_cons_self
          obtain ⟨o, status, ho, htake⟩ :=
            h.take_of_some (fun _ _ => id) hx (huniform.isUniform x hmem) c
          have hone : ∀ y ∈ done, y.cacheKey = x.cacheKey → y.outcome.Like x.outcome :=
            fun y hy => huniform.outcome y (List.mem_append_left _ hy) x hmem
          obtain ⟨hgiven, hremembers⟩ := hc.serve hone ho
          have hakin : (e.record x.key (c.serve (x.cacheKey, o)).1 status).Akin Outcome.Like
              (take (e', none) step).1 := by
            rw [(take_of_evaluation? hx).1]
            exact h.record x.key hgiven _ _
          rw [← List.append_assoc] at huniform ⊢
          rw [htake]
          exact ih hakin hremembers huniform

/-- With a cache that holds the outcomes of the engine without a cache under all of its keys, an engine
comes to these outcomes. -/
theorem foldl_take_recalled (steps : List Step) : ∀ {e e' : Engine} {c : ResultCache}, e.Akin Eq e' →
    (∀ x ∈ e'.evaluations steps, x.compiled.expr.isUniform = true ∧
      c.find? x.cacheKey = some x.outcome) →
      (steps.foldl take (e, some c)).1.Akin Eq (steps.foldl take (e', none)).1 := by
  induction steps with
  | nil => exact fun h _ => h
  | cons step steps ih =>
      intro e e' c h hfound
      rw [List.foldl_cons, List.foldl_cons, Engine.take_without]
      rw [evaluations, List.forall_mem_append] at hfound
      cases hx : e'.evaluation? step with
      | none =>
          obtain ⟨e₁, htake, hakin⟩ := h.take_of_none (fun _ => rfl) hx (some c)
          rw [htake]
          exact ih hakin hfound.2
      | some x =>
          obtain ⟨huniform, hfind⟩ := hfound.1 x (hx ▸ List.mem_cons_self)
          have hS : ∀ o o' : Outcome, o = o' → o.Like o' := by
            rintro o _ rfl
            exact .refl o
          obtain ⟨o, status, -, htake⟩ := h.take_of_some hS hx huniform c
          obtain ⟨hgiven, hkept⟩ := ResultCache.serve_of_find? (o := o) hfind
          have hakin : (e.record x.key (c.serve (x.cacheKey, o)).1 status).Akin Eq
              (take (e', none) step).1 := by
            rw [(take_of_evaluation? hx).1]
            exact h.record x.key hgiven _ _
          rw [htake]
          refine ih hakin ?_
          intro y hy
          rw [hkept]
          exact hfound.2 y hy

/-- With a cache that remembers evaluations like those without it, a run comes to outcomes that are equal
up to the forms of numbers. -/
theorem run {e e' : Engine} {c : ResultCache} {done : List Evaluation} (h : e.Akin Outcome.Like e')
    (roots : List CellKey) (hc : c.Remembers done)
    (huniform : Uniform (done ++ e'.evaluationsOf (.evaluateAll roots))) :
    ∃ e₁ c₁, e.run (some c) roots = (e₁, some c₁) ∧ e₁.Akin Outcome.Like (e'.run none roots).1 ∧
      c₁.Remembers (done ++ e'.evaluationsOf (.evaluateAll roots)) := by
  rw [run_eq, run_eq, h.plan]
  exact foldl_take _ (h.prepare roots) hc huniform

/-- With a cache that holds the outcomes of the engine without a cache under all of its keys, a run comes
to these outcomes. -/
theorem run_recalled {e e' : Engine} {c : ResultCache} (h : e.Akin Eq e') (roots : List CellKey)
    (hfound : ∀ x ∈ e'.evaluationsOf (.evaluateAll roots), x.compiled.expr.isUniform = true ∧
      c.find? x.cacheKey = some x.outcome) :
    ∃ e₁ cache, e.run (some c) roots = (e₁, cache) ∧ e₁.Akin Eq (e'.run none roots).1 := by
  refine ⟨(e.run (some c) roots).1, (e.run (some c) roots).2, rfl, ?_⟩
  rw [run_eq, run_eq, h.plan]
  exact foldl_take_recalled _ (h.prepare roots) hfound

end Akin

end Engine

end PaintQuote
