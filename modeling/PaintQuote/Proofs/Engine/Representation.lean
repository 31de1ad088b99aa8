import PaintQuote.Proofs.Cache.Evaluations

/-!
# How an engine represents its workbook

Beside its workbook an engine keeps the formulas that it has read, the graph of their references and
the outcomes that it remembers.  After every sequence of actions, whatever caches they are given, these
fit the workbook and each other (`represents_reached`).

A cache may change an outcome, but not whether it is remembered.  So an engine that is given caches
*matches* one that is given none, which is valid after every history (`Matches.act`).
-/

namespace PaintQuote.Engine

open Sheet Formula

/-! ## References of a tree -/

/-- A tree on a sheet refers to a cell. -/
inductive RefersTo (names : NameTable) (sheet : SheetName) (p : CellKey) : Expr → Prop where
  | cell {r : CellReference} : p = ⟨r.sheet?.getD sheet, r.address⟩ → RefersTo names sheet p (.cell r)
  | range {r : RangeReference} : p.sheet = r.sheet?.getD sheet → r.area.contains p.address →
      RefersTo names sheet p (.range r)
  | name {s : String} {d : DefinedName} : names.find? s = some d → p ∈ d.target.cells →
      RefersTo names sheet p (.name s)
  | left {o : BinaryOperator} {left right : Expr} : RefersTo names sheet p left →
      RefersTo names sheet p (.binary o left right)
  | right {o : BinaryOperator} {left right : Expr} : RefersTo names sheet p right →
      RefersTo names sheet p (.binary o left right)
  | negate {operand : Expr} : RefersTo names sheet p operand → RefersTo names sheet p (.negate operand)
  | percent {operand : Expr} : RefersTo names sheet p operand →
      RefersTo names sheet p (.percent operand)
  | argument {function : String} {arguments : List Expr} {a : Expr} : a ∈ arguments →
      RefersTo names sheet p a → RefersTo names sheet p (.call function arguments)

namespace References

section

variable {names : NameTable} {sheet : SheetName} {p : CellKey}

theorem mem_addName_iff {r : References} {s : String} :
    p ∈ (r.addName names s).cells ↔ RefersTo names sheet p (.name s) ∨ p ∈ r.cells := by
  have hadd : p ∈ (r.addName names s).cells ↔
      p ∈ ((names.find? s).map fun d => d.target.cells).getD [] ∨ p ∈ r.cells := mem_addCells
  rw [hadd]
  refine or_congr_left ?_
  constructor
  · intro hp
    cases hd : names.find? s with
    | none =>
        rw [hd] at hp
        cases hp
    | some d =>
        rw [hd] at hp
        exact .name hd hp
  · rintro (_ | _ | ⟨hd, hp⟩)
    rw [hd]
    exact hp

mutual

/-- What is collected from a tree are the cells that it refers to. -/
theorem mem_collect_iff : ∀ {r : References} (e : Expr),
    p ∈ (collect names sheet r e).cells ↔ RefersTo names sheet p e ∨ p ∈ r.cells
  | r, .literal _ => by
      refine ⟨Or.inr, ?_⟩
      rintro (h | h)
      · cases h
      · exact h
  | r, .array _ => by
      refine ⟨Or.inr, ?_⟩
      rintro (h | h)
      · cases h
      · exact h
  | r, .cell reference => by
      rw [collect, mem_addCells, List.mem_singleton]
      refine or_congr_left ⟨.cell, ?_⟩
      rintro ⟨rfl⟩
      rfl
  | r, .range reference => by
      rw [collect, mem_addCells, List.mem_map]
      refine or_congr_left ⟨?_, ?_⟩
      · rintro ⟨address, haddress, rfl⟩
        exact .range rfl (Range.mem_cells.1 haddress)
      · intro h
        cases h with
        | range hsheet hcontains =>
            refine ⟨p.address, Range.mem_cells.2 hcontains, ?_⟩
            rw [← hsheet]
  | r, .name s => mem_addName_iff
  | r, .binary o left right => by
      rw [collect, mem_collect_iff right, mem_collect_iff left, ← or_assoc]
      refine or_congr_left ⟨?_, ?_⟩
      · rintro (h | h)
        · exact .right h
        · exact .left h
      · intro h
        cases h with
        | left h => exact Or.inr h
        | right h => exact Or.inl h
  | r, .negate operand => by
      rw [collect, mem_collect_iff operand]
      refine or_congr_left ⟨.negate, ?_⟩
      intro h
      cases h with
      | negate h => exact h
  | r, .percent operand => by
      rw [collect, mem_collect_iff operand]
      refine or_congr_left ⟨.percent, ?_⟩
      intro h
      cases h with
      | percent h => exact h
  | r, .call function arguments => by
      rw [collect, mem_collectAll_iff arguments]
      refine or_congr_left ⟨?_, ?_⟩
      · rintro ⟨a, ha, h⟩
        exact .argument ha h
      · intro h
        cases h with
        | argument ha h => exact ⟨_, ha, h⟩

theorem mem_collectAll_iff : ∀ {r : References} (es : List Expr),
    p ∈ (collectAll names sheet r es).cells ↔ (∃ a ∈ es, RefersTo names sheet p a) ∨ p ∈ r.cells
  | r, [] => by simp [collectAll]
  | r, e :: es => by
      rw [collectAll, mem_collectAll_iff es, mem_collect_iff e, ← or_assoc]
      simp only [List.exists_mem_cons_iff, or_comm]

end

theorem mem_ofExpr_iff {e : Expr} : p ∈ (ofExpr names sheet e).cells ↔ RefersTo names sheet p e := by
  rw [ofExpr, mem_collect_iff]
  exact or_iff_left Std.TreeSet.not_mem_emptyc

end

end References

/-! ## Matching engines -/

/-- Two engines have the same workbook, formulas and graph, and remember the outcomes of the same
cells. -/
structure Matches (e e' : Engine) : Prop where
  workbook : e.workbook = e'.workbook
  formulas : e.formulas = e'.formulas
  graph : e.graph = e'.graph
  isKnown : ∀ k, e.isKnown k = e'.isKnown k

namespace Matches

variable {e e' : Engine}

theorem record (h : e.Matches e') (key : CellKey) (o o' : Outcome)
    (status status' : Option CacheStatus) :
    (e.record key o status).Matches (e'.record key o' status') := by
  refine ⟨h.workbook, h.formulas, h.graph, ?_⟩
  intro k
  rw [Bool.eq_iff_iff, record_isKnown, record_isKnown, h.isKnown]

theorem foldl {f : Engine → CellKey → Engine}
    (hf : ∀ (e e' : Engine) (key : CellKey), e.Matches e' → (f e key).Matches (f e' key))
    (keys : List CellKey) :
    ∀ {e e' : Engine}, e.Matches e' → (keys.foldl f e).Matches (keys.foldl f e') := by
  induction keys with
  | nil => exact fun h => h
  | cons key keys ih => exact fun h => ih (hf _ _ key h)

/-! ### Reading formulas -/

theorem compile (h : e.Matches e') (key : CellKey) (text : String) :
    (e.compile key text).Matches (e'.compile key text) := by
  have hknown : ∀ k, (e.compile key text).isKnown k = (e'.compile key text).isKnown k := by
    intro k
    rw [Engine.isKnown, Engine.isKnown, compile_outcomes, compile_outcomes]
    exact h.isKnown k
  unfold Engine.compile at hknown ⊢
  cases hx : Expr.ofText text with
  | ok expr =>
      rw [hx] at hknown
      exact ⟨h.workbook, by rw [h.workbook, h.formulas], by rw [h.workbook, h.graph], hknown⟩
  | error error =>
      rw [hx] at hknown
      exact ⟨h.workbook, by rw [h.formulas], by rw [h.graph], hknown⟩

theorem compileCell (h : e.Matches e') (key : CellKey) :
    (e.compileCell key).Matches (e'.compileCell key) := by
  unfold Engine.compileCell
  rw [h.formulas, h.workbook]
  split
  next => exact h
  next =>
    split
    next text _ => exact h.compile key text
    next => exact h

theorem prepareFrom (seen : CellSet) (stack : List CellKey) (h : e.Matches e') :
    (e.prepareFrom seen stack).Matches (e'.prepareFrom seen stack) := by
  fun_induction Engine.prepareFrom e seen stack generalizing e' with
  | case1 e seen =>
      rw [Engine.prepareFrom]
      exact h
  | case2 e seen key stack hold ih =>
      rw [h.isKnown] at hold
      rw [Engine.prepareFrom, if_pos hold]
      exact ih h
  | case3 e seen key stack hnew hnone ih =>
      rw [h.isKnown] at hnew
      rw [h.workbook] at hnone
      rw [Engine.prepareFrom, if_neg hnew, if_pos hnone]
      exact ih h
  | case4 e seen key stack hnew hsome ih =>
      rw [h.isKnown] at hnew
      rw [h.workbook] at hsome
      rw [Engine.prepareFrom, if_neg hnew, if_neg hsome, (h.compileCell key).graph]
      rw [(h.compileCell key).graph] at ih
      exact ih (h.compileCell key)

theorem plan (h : e.Matches e') (roots : List CellKey) : e.plan roots = e'.plan roots := by
  have hprepare := prepareFrom {} roots h
  have hpending : (fun key => !(e.prepare roots).isKnown key) =
      fun key => !(e'.prepare roots).isKnown key := by
    funext key
    exact congrArg Bool.not (hprepare.isKnown key)
  rw [Engine.plan, Engine.plan, hpending, prepare, prepare, hprepare.graph]

/-! ### Writing -/

theorem forgetContent (h : e.Matches e') (key : CellKey) :
    (e.forgetContent key).Matches (e'.forgetContent key) := by
  refine ⟨h.workbook, ?_, ?_, ?_⟩
  · rw [Engine.forgetContent, Engine.forgetContent, h.formulas]
  · rw [Engine.forgetContent, Engine.forgetContent, h.graph]
  · intro k
    have hk := h.isKnown k
    rw [Engine.isKnown, Engine.isKnown, Keyed.contains_eq_isSome, Keyed.contains_eq_isSome] at hk ⊢
    rw [Engine.forgetContent, Engine.forgetContent, Keyed.get?_erase, Keyed.get?_erase]
    split
    next => rfl
    next => exact hk

theorem forgetOutcome (h : e.Matches e') (key : CellKey) :
    (e.forgetOutcome key).Matches (e'.forgetOutcome key) :=
  ⟨h.workbook, h.formulas, h.graph, (h.forgetContent key).isKnown⟩

theorem invalidate (h : e.Matches e') (changed : List CellKey) :
    (e.invalidate changed).Matches (e'.invalidate changed) := by
  rw [Engine.invalidate, Engine.invalidate, h.graph]
  exact foldl (fun _ _ key h => h.forgetOutcome key) _
    (foldl (fun _ _ key h => h.forgetContent key) changed h)

theorem withWorkbook (h : e.Matches e') (workbook : Workbook) :
    ({ e with workbook } : Engine).Matches { e' with workbook } :=
  ⟨rfl, h.formulas, h.graph, h.isKnown⟩

theorem setFormula (h : e.Matches e') (key : CellKey) (text : String) :
    (e.setFormula key text).Matches (e'.setFormula key text) := by
  unfold Engine.setFormula
  rw [h.workbook]
  split
  next => exact h
  next => exact (h.withWorkbook _).invalidate [key]

theorem define (h : e.Matches e') (name target : String) :
    ((e.define name target).toOption.getD e).Matches ((e'.define name target).toOption.getD e') := by
  unfold Engine.define
  cases DefinedName.ofText name target with
  | error error => exact h
  | ok defined =>
      simp only [Except.bind, defineName, h.workbook]
      cases e'.workbook.defineName defined with
      | error error => exact h
      | ok workbook => exact ⟨rfl, rfl, rfl, fun _ => rfl⟩

theorem write (h : e.Matches e') (action : Action) : (e.write action).Matches (e'.write action) := by
  cases action with
  | load entries =>
      show (e.load entries).Matches (e'.load entries)
      rw [Engine.load, Engine.load, h.workbook]
      exact (h.withWorkbook _).invalidate _
  | setFormula key text => exact h.setFormula key text
  | define name target => exact h.define name target
  | evaluate key text? =>
      cases text? with
      | none => exact h
      | some text => exact h.setFormula key text
  | evaluateAll keys => exact h

/-! ### Evaluating -/

/-- Whatever a cell is evaluated to, its outcome is remembered. -/
theorem evaluateCell (h : e.Matches e') (cache cache' : Option ResultCache) (key : CellKey) :
    (e.evaluateCell cache key).1.Matches (e'.evaluateCell cache' key).1 := by
  unfold Engine.evaluateCell
  rw [h.isKnown, h.formulas]
  split
  next => exact h
  next =>
    cases e'.formulas.get? key with
    | none => exact h
    | some reading =>
        cases reading with
        | error error => exact h.record _ _ _ _ _
        | ok compiled => exact h.record _ _ _ _ _

theorem take (h : e.Matches e') (cache cache' : Option ResultCache) (step : Step) :
    (Engine.take (e, cache) step).1.Matches (Engine.take (e', cache') step).1 := by
  cases step with
  | cell key => exact h.evaluateCell cache cache' key
  | cycle members =>
      refine foldl ?_ members h
      intro e e' key h
      rw [markCircular, markCircular, h.isKnown]
      split
      next => exact h
      next => exact h.record _ _ _ _ _

theorem foldl_take (steps : List Step) :
    ∀ {e e' : Engine} {cache cache' : Option ResultCache}, e.Matches e' →
      (steps.foldl Engine.take (e, cache)).1.Matches (steps.foldl Engine.take (e', cache')).1 := by
  induction steps with
  | nil => exact fun h => h
  | cons step steps ih => exact fun h => ih (h.take _ _ step)

/-- Matching engines match after an action, with any caches. -/
theorem act (h : e.Matches e') (cache cache' : Option ResultCache) (action : Action) :
    (e.act cache action).1.Matches (e'.act cache' action).1 := by
  have hwrite := h.write action
  have hroots : (e.write action).rootsOf action = (e'.write action).rootsOf action := by
    cases action <;> simp only [rootsOf, hwrite.workbook]
  rw [act_eq, act_eq, hroots]
  cases (e'.write action).rootsOf action with
  | none => exact hwrite
  | some roots =>
      simp only [run_eq, hwrite.plan]
      exact foldl_take _ (prepareFrom {} roots hwrite)

end Matches

/-! ## Reachable engines -/

/-- The engine after actions, each of which is given the cache in front of it. -/
def reached (actions : List (Option ResultCache × Action)) : Engine :=
  actions.foldl (fun e given => (e.act given.1 given.2).1) {}

/-- The caches change nothing but the outcomes. -/
theorem reached_matches (actions : List (Option ResultCache × Action)) :
    (reached actions).Matches (history (actions.map (·.2))) := by
  have hall : ∀ {e e' : Engine}, e.Matches e' →
      (actions.foldl (fun e given => (e.act given.1 given.2).1) e).Matches
        ((actions.map (·.2)).foldl (fun e action => (e.act none action).1) e') := by
    induction actions with
    | nil => exact fun h => h
    | cons given actions ih => exact fun h => ih (h.act given.1 none given.2)
  exact hall ⟨rfl, rfl, rfl, fun _ => rfl⟩

/-- What an engine keeps fits its workbook. -/
structure Represents (e : Engine) : Prop where
  /-- A cell whose outcome is remembered holds a formula, which has been read from its text. -/
  known : ∀ k, e.isKnown k → ∃ text, e.workbook.formula? k = some text ∧
    e.formulas.get? k = some (readingOf e.workbook k text)
  /-- A cell reads what the tree that has been read refers to under the names of the workbook. -/
  edges : ∀ k p, p ∈ e.graph.precedents k ↔ ∃ compiled,
    e.formulas.get? k = some (.ok compiled) ∧ RefersTo e.workbook.names k.sheet p compiled.expr
  /-- The cells that read a cell are those whose formulas do. -/
  mirrored : ∀ k p, k ∈ e.graph.dependents p ↔ p ∈ e.graph.precedents k
  /-- With a cell the formulas that it reads are remembered. -/
  closed : ∀ k p, e.isKnown k → p ∈ e.graph.precedents k → (e.workbook.formula? p).isSome →
    e.isKnown p
  /-- A formula that has been read is the one that its cell holds. -/
  read : ∀ k r, e.formulas.get? k = some r → ∃ text, e.workbook.formula? k = some text ∧
    r = readingOf e.workbook k text

theorem Consistent.mem_precedents_iff {e : Engine} (h : e.Consistent) (k p : CellKey) :
    p ∈ e.graph.precedents k ↔ ∃ compiled, e.formulas.get? k = some (.ok compiled) ∧
      RefersTo e.workbook.names k.sheet p compiled.expr := by
  rw [h.precedents, Keyed.contains_eq_isSome]
  cases hr : e.formulas.get? k with
  | none => simp
  | some r =>
      obtain ⟨text, hf, hreading⟩ := h.formulas k r hr
      rw [Option.isSome_some, if_pos rfl]
      unfold readingOf at hreading
      cases hx : Expr.ofText text with
      | ok expr =>
          rw [hx] at hreading
          subst hreading
          rw [Workbook.references_ok hf hx, Std.TreeSet.mem_toList, References.mem_ofExpr_iff]
          simp
      | error error =>
          rw [hx] at hreading
          subst hreading
          rw [Workbook.references_error hf hx]
          simp

theorem Valid.represents {e : Engine} {seen : CellKey → SheetName → Bool} (h : e.Valid seen) :
    e.Represents where
  known := by
    intro k hk
    have hcontains := h.known_read k hk
    rw [Keyed.contains_eq_isSome, Option.isSome_iff_exists] at hcontains
    obtain ⟨r, hr⟩ := hcontains
    obtain ⟨text, hf, rfl⟩ := h.formulas k r hr
    exact ⟨text, hf, hr⟩
  edges := h.toConsistent.mem_precedents_iff
  mirrored := fun k p => (h.mirrored p k).symm
  closed := fun k p hk hp hf => h.known_closed k hk p (h.toConsistent.reads_iff.1 hp).2 hf
  read := h.formulas

theorem Matches.represents {e e' : Engine} (h : e.Matches e') (h' : e'.Represents) :
    e.Represents := by
  obtain ⟨known, edges, mirrored, closed, read⟩ := h'
  rw [← h.workbook, ← h.formulas] at read
  rw [← h.graph] at mirrored
  simp only [← h.workbook, ← h.formulas, ← h.graph, ← h.isKnown] at known edges closed
  exact ⟨known, edges, mirrored, closed, read⟩

/-- After any actions, with any caches, what an engine keeps fits its workbook. -/
theorem represents_reached (actions : List (Option ResultCache × Action)) :
    (reached actions).Represents :=
  (reached_matches actions).represents (valid_history (actions.map (·.2))).represents

end PaintQuote.Engine
