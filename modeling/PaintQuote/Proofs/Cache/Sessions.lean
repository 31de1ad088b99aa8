import PaintQuote.Proofs.Cache.Transparency
import PaintQuote.Proofs.Engine.Representation

/-!
# Where outcomes come from

A session is a sequence of actions on engines that share a cache or have none; the cache may be cleared
in between.  Evaluations are computed in it, by an engine without a cache or by one whose cache holds
nothing under the key.  Whatever an engine remembers, or the cache holds, is the failure of a formula that
could not be read or lies on a cycle, or the outcome of an evaluation that was computed in the session
(`Pool.origin`), and what is computed is remembered (`Pool.remembers`).

So what is true of failures and of all that is computed is true of all that is ever shown.
-/

namespace PaintQuote.Engine

open Sheet Formula

/-! ## Evaluations that are computed -/

/-- The evaluation that a step computes, if it comes to one that no cache answers. -/
def computed? (state : Engine × Option ResultCache) (step : Step) : Option Evaluation :=
  (state.1.evaluation? step).filter fun x => (state.2.bind fun c => c.find? x.cacheKey).isNone

/-- The evaluations that steps compute. -/
def computed (state : Engine × Option ResultCache) : List Step → List Evaluation
  | [] => []
  | step :: steps => (computed? state step).toList ++ computed (take state step) steps

/-- The evaluations that an action computes. -/
def computedOf (e : Engine) (cache : Option ResultCache) (action : Action) : List Evaluation :=
  match (e.write action).rootsOf action with
  | none => []
  | some roots => computed ((e.write action).prepare roots, cache) ((e.write action).plan roots)

/-- An engine remembers an outcome, or its cache holds it. -/
def Holds (state : Engine × Option ResultCache) (o : Outcome) : Prop :=
  (∃ k, state.1.outcomes.get? k = some o) ∨ ∃ c ∈ state.2, ∃ entry ∈ c.entries, entry.2 = o

section

variable {e : Engine} {state : Engine × Option ResultCache} {step : Step} {x : Evaluation} {o : Outcome}

/-- A step that comes to no evaluation adds failures only. -/
theorem outcomes_of_evaluation?_eq_none (h : e.evaluation? step = none) {k : CellKey}
    (ho : (take (e, none) step).1.outcomes.get? k = some o) :
    e.outcomes.get? k = some o ∨ ∃ error, o = .failed error := by
  cases step with
  | cycle members =>
      simp only [take, (foldl_markCircular _ members e).2] at ho
      split at ho
      next => exact Or.inr ⟨_, (Option.some.inj ho).symm⟩
      next => exact Or.inl ho
  | cell key =>
      simp only [take, evaluateCell] at ho
      simp only [evaluation?] at h
      split at ho
      next => exact Or.inl ho
      next hk =>
        rw [if_neg hk] at h
        split at ho
        next => exact Or.inl ho
        next error hread =>
          rw [record_get?] at ho
          split at ho
          next => exact Or.inr ⟨error, (Option.some.inj ho).symm⟩
          next => exact Or.inl ho
        next compiled hread =>
          rw [hread] at h
          cases h

/-- What a cache gives for an evaluation it held before, or the evaluation was computed. -/
theorem given_cases (h : e.evaluation? step = some x) (c : ResultCache) :
    Holds (e, some c) (c.serve x.entry).1 ∨
      computed? (e, some c) step = some x ∧ (c.serve x.entry).1 = x.outcome := by
  rcases c.serve_cases x.entry with ⟨o, hfind, hserve⟩ | ⟨hfind, hserve⟩
  · rw [hserve]
    exact Or.inl (Or.inr ⟨c, rfl, _, ResultCache.mem_of_find? hfind, rfl⟩)
  · rw [hserve]
    refine Or.inr ⟨?_, rfl⟩
    have hnone : c.find? x.cacheKey = none := hfind
    simp [computed?, h, hnone]

/-- What there is after a step was there before, is a failure, or was computed by the step. -/
theorem holds_take (h : Holds (take state step) o) :
    Holds state o ∨ (∃ error, o = .failed error) ∨ ∃ x ∈ computed? state step, o = x.outcome := by
  obtain ⟨e, cache⟩ := state
  cases hx : e.evaluation? step with
  | none =>
      rw [take_of_evaluation?_eq_none hx] at h
      rcases h with ⟨k, ho⟩ | hstored
      · rcases outcomes_of_evaluation?_eq_none hx ho with hold | hfailed
        · exact Or.inl (Or.inl ⟨k, hold⟩)
        · exact Or.inr (Or.inl hfailed)
      · exact Or.inl (Or.inr hstored)
  | some x =>
      cases cache with
      | none =>
          rw [(take_of_evaluation? hx).1] at h
          rcases h with ⟨k, ho⟩ | ⟨c, hc, -⟩
          · rw [record_get?] at ho
            split at ho
            next => exact Or.inr (Or.inr ⟨x, by simp [computed?, hx], (Option.some.inj ho).symm⟩)
            next => exact Or.inl (Or.inl ⟨k, ho⟩)
          · cases hc
      | some c =>
          obtain ⟨status, htake⟩ := (take_of_evaluation? hx).2 c
          have hcases : Holds (e, some c) o ∨ o = (c.serve x.entry).1 := by
            rw [htake] at h
            rcases h with ⟨k, ho⟩ | ⟨_, ⟨⟩, entry, hentry, rfl⟩
            · rw [record_get?] at ho
              split at ho
              next => exact Or.inr (Option.some.inj ho).symm
              next => exact Or.inl (Or.inl ⟨k, ho⟩)
            · rcases ResultCache.mem_serve hentry with rfl | hold
              · exact Or.inr rfl
              · exact Or.inl (Or.inr ⟨c, rfl, entry, hold, rfl⟩)
          rcases hcases with hold | rfl
          · exact Or.inl hold
          · rcases given_cases hx c with hold | ⟨hcomputed, hgiven⟩
            · exact Or.inl hold
            · exact Or.inr (Or.inr ⟨x, hcomputed, hgiven⟩)

/-- A step remembers what it computes. -/
theorem remembers_take (h : computed? state step = some x) :
    (take state step).1.outcomes.get? x.key = some x.outcome := by
  obtain ⟨e, cache⟩ := state
  obtain ⟨hx, hnone⟩ := Option.filter_eq_some_iff.1 h
  cases cache with
  | none => rw [(take_of_evaluation? hx).1, record_get?, if_pos rfl]
  | some c =>
      obtain ⟨status, htake⟩ := (take_of_evaluation? hx).2 c
      have hfind : c.find? x.cacheKey = none := by simpa using hnone
      rcases c.serve_cases x.entry with ⟨o, hfound, -⟩ | ⟨-, hserve⟩
      · have hkey : c.find? x.cacheKey = some o := hfound
        rw [hfind] at hkey
        cases hkey
      · rw [htake, record_get?, if_pos rfl, hserve]
        rfl

end

/-! ## Runs -/

section

variable {o : Outcome} {x : Evaluation}

theorem holds_foldl_take (steps : List Step) : ∀ {state : Engine × Option ResultCache},
    Holds (steps.foldl take state) o →
      Holds state o ∨ (∃ error, o = .failed error) ∨ ∃ x ∈ computed state steps, o = x.outcome := by
  induction steps with
  | nil => exact fun h => Or.inl h
  | cons step steps ih =>
      intro state h
      rcases ih h with hstep | hfailed | ⟨x, hx, rfl⟩
      · rcases holds_take hstep with hold | hfailed | ⟨x, hx, rfl⟩
        · exact Or.inl hold
        · exact Or.inr (Or.inl hfailed)
        · exact Or.inr (Or.inr ⟨x, List.mem_append_left _ (Option.mem_toList.2 hx), rfl⟩)
      · exact Or.inr (Or.inl hfailed)
      · exact Or.inr (Or.inr ⟨x, List.mem_append_right _ hx, rfl⟩)

theorem remembers_foldl_take (steps : List Step) : ∀ {state : Engine × Option ResultCache},
    x ∈ computed state steps → (steps.foldl take state).1.outcomes.get? x.key = some x.outcome := by
  induction steps with
  | nil => exact fun hx => absurd hx List.not_mem_nil
  | cons step steps ih =>
      intro state hx
      rw [computed, List.mem_append, Option.mem_toList] at hx
      rcases hx with hx | hx
      · exact (learned_foldl_take steps _).kept _ _ (remembers_take hx)
      · exact ih hx

theorem computed_workbook (steps : List Step) : ∀ {state : Engine × Option ResultCache},
    x ∈ computed state steps → x.engine.workbook = state.1.workbook := by
  induction steps with
  | nil => exact fun hx => absurd hx List.not_mem_nil
  | cons step steps ih =>
      intro state hx
      rw [computed, List.mem_append, Option.mem_toList] at hx
      rcases hx with hx | hx
      · obtain ⟨-, hengine, -⟩ := evaluation?_eq_some (Option.filter_eq_some_iff.1 hx).1
        rw [hengine]
      · exact (ih hx).trans (learned_take state step).workbook

end

/-! ## Actions -/

section

variable {e : Engine} {cache : Option ResultCache} {action : Action} {o : Outcome} {x : Evaluation}

/-- What an invalidation leaves was remembered before. -/
theorem outcomes_of_invalidate {changed : List CellKey} {k : CellKey}
    (h : (e.invalidate changed).outcomes.get? k = some o) : e.outcomes.get? k = some o := by
  rw [invalidate_outcomes] at h
  split at h
  next => cases h
  next => exact h

/-- A write only forgets. -/
theorem outcomes_of_write {k : CellKey} (h : (e.write action).outcomes.get? k = some o) :
    e.outcomes.get? k = some o := by
  have hset : ∀ key text, (e.setFormula key text).outcomes.get? k = some o →
      e.outcomes.get? k = some o := by
    intro key text hset
    unfold setFormula at hset
    split at hset
    next => exact hset
    next =>
      have hold := outcomes_of_invalidate hset
      exact hold
  cases action with
  | load entries =>
      have hold := outcomes_of_invalidate h
      exact hold
  | setFormula key text => exact hset key text h
  | define name target =>
      simp only [write] at h
      cases hdefine : e.define name target with
      | error error =>
          rw [hdefine] at h
          exact h
      | ok e' =>
          obtain ⟨w, -, rfl⟩ := define_eq_ok hdefine
          rw [hdefine] at h
          simp [Except.toOption] at h
  | evaluate key text? =>
      cases text? with
      | none => exact h
      | some text => exact hset key text h
  | evaluateAll keys => exact h

/-- An action evaluates formulas in the workbook that it has written. -/
theorem computedOf_workbook (h : x ∈ e.computedOf cache action) :
    x.engine.workbook = (e.write action).workbook := by
  unfold computedOf at h
  split at h
  next => cases h
  next roots _ =>
    rw [computed_workbook _ h]
    exact prepare_workbook _ roots

theorem holds_act (h : Holds (e.act cache action) o) :
    Holds (e, cache) o ∨ (∃ error, o = .failed error) ∨
      ∃ x ∈ e.computedOf cache action, o = x.outcome := by
  have hwrite : ∀ {e' : Engine}, e'.outcomes = (e.write action).outcomes → Holds (e', cache) o →
      Holds (e, cache) o := by
    intro e' he' hheld
    refine hheld.imp_left fun ⟨k, ho⟩ => ⟨k, ?_⟩
    rw [he'] at ho
    exact outcomes_of_write ho
  rw [act_eq] at h
  cases hroots : (e.write action).rootsOf action with
  | none =>
      rw [hroots] at h
      exact Or.inl (hwrite rfl h)
  | some roots =>
      simp only [hroots, run_eq] at h
      simp only [computedOf, hroots]
      exact (holds_foldl_take _ h).imp_left (hwrite (prepare_outcomes _ roots))

theorem remembers_act (h : x ∈ e.computedOf cache action) :
    (e.act cache action).1.outcomes.get? x.key = some x.outcome := by
  rw [act_eq]
  cases hroots : (e.write action).rootsOf action with
  | none =>
      simp only [computedOf, hroots] at h
      cases h
  | some roots =>
      simp only [computedOf, hroots] at h
      simp only [run_eq]
      exact remembers_foldl_take _ h

end

/-! ## Sessions -/

/-- What can happen to engines that share a cache. -/
inductive Event where
  /-- An action on an engine. -/
  | act (i : Nat) (action : Action)
  /-- The cache is cleared. -/
  | clear

namespace Pool

/-- The pool after an event. -/
def step (p : Pool) : Event → Pool
  | .act i action => p.act i action
  | .clear => { p with cache := p.cache.map ResultCache.clear }

/-- The pool after events in turn. -/
def reach (p : Pool) (events : List Event) : Pool := events.foldl step p

/-- The evaluations that events compute. -/
def computed (p : Pool) : List Event → List Evaluation
  | [] => []
  | .act i action :: events =>
      (p.engine i).computedOf p.cache action ++ (p.act i action).computed events
  | .clear :: events => (p.step .clear).computed events

/-- An engine of the pool remembers an outcome, or the cache holds it. -/
def Holds (p : Pool) (o : Outcome) : Prop := ∃ i, Engine.Holds (p.engine i, p.cache) o

/-- The engines at the start of a session, with a cache of some capacity or without one. -/
def opening (capacity? : Option Nat) : Pool := start (capacity?.map .empty)

variable {p : Pool} {o : Outcome} {x : Evaluation}

theorem holds_act {i : Nat} {action : Action} (h : (p.act i action).Holds o) :
    p.Holds o ∨ (∃ error, o = .failed error) ∨
      ∃ x ∈ (p.engine i).computedOf p.cache action, o = x.outcome := by
  obtain ⟨j, h⟩ := h
  have hcases : p.Holds o ∨ Engine.Holds ((p.engine i).act p.cache action) o := by
    rcases h with ⟨k, ho⟩ | hstored
    · simp only [act] at ho
      split at ho
      next => exact Or.inr (Or.inl ⟨k, ho⟩)
      next => exact Or.inl ⟨j, Or.inl ⟨k, ho⟩⟩
    · exact Or.inr (Or.inr hstored)
  rcases hcases with hold | hnew
  · exact Or.inl hold
  · exact (Engine.holds_act hnew).imp_left fun hold => ⟨i, hold⟩

theorem holds_clear (h : (p.step .clear).Holds o) : p.Holds o := by
  obtain ⟨i, hknown | ⟨c, hc, entry, hentry, -⟩⟩ := h
  · exact ⟨i, Or.inl hknown⟩
  · obtain ⟨c', -, rfl⟩ := Option.map_eq_some_iff.1 hc
    cases hentry

/-- What there is after events was there before, is a failure, or was computed in them. -/
theorem holds_reach (events : List Event) : ∀ {p : Pool}, (p.reach events).Holds o →
    p.Holds o ∨ (∃ error, o = .failed error) ∨ ∃ x ∈ p.computed events, o = x.outcome := by
  induction events with
  | nil => exact fun h => Or.inl h
  | cons event events ih =>
      intro p h
      rcases ih h with hstep | hfailed | ⟨x, hx, rfl⟩
      · cases event with
        | act i action =>
            rcases holds_act hstep with hold | hfailed | ⟨x, hx, rfl⟩
            · exact Or.inl hold
            · exact Or.inr (Or.inl hfailed)
            · exact Or.inr (Or.inr ⟨x, List.mem_append_left _ hx, rfl⟩)
        | clear => exact Or.inl (holds_clear hstep)
      · exact Or.inr (Or.inl hfailed)
      · refine Or.inr (Or.inr ⟨x, ?_, rfl⟩)
        cases event with
        | act i action => exact List.mem_append_right _ hx
        | clear => exact hx

/-- In a session there are only failures and outcomes that were computed in it. -/
theorem origin (capacity? : Option Nat) (events : List Event)
    (h : ((opening capacity?).reach events).Holds o) :
    (∃ error, o = .failed error) ∨ ∃ x ∈ (opening capacity?).computed events, o = x.outcome := by
  refine (holds_reach events h).resolve_left ?_
  rintro ⟨i, ⟨k, ho⟩ | ⟨c, hc, entry, hentry, -⟩⟩
  · simp [opening, start] at ho
  · obtain ⟨capacity, -, rfl⟩ := Option.map_eq_some_iff.1 hc
    cases hentry

/-- What is computed in a session is remembered at some time. -/
theorem remembers (events : List Event) : ∀ {p : Pool}, x ∈ p.computed events →
    ∃ before, before <+: events ∧ ∃ i, ((p.reach before).engine i).outcomes.get? x.key = some x.outcome := by
  induction events with
  | nil => exact fun hx => absurd hx List.not_mem_nil
  | cons event events ih =>
      intro p hx
      have hlater : x ∈ (p.step event).computed events →
          ∃ before, before <+: event :: events ∧
            ∃ i, ((p.reach before).engine i).outcomes.get? x.key = some x.outcome := by
        intro hx
        obtain ⟨before, hbefore, hremembered⟩ := ih hx
        exact ⟨event :: before, List.cons_prefix_cons.2 ⟨rfl, hbefore⟩, hremembered⟩
      cases event with
      | act i action =>
          rcases List.mem_append.1 hx with hx | hx
          · refine ⟨[.act i action], List.prefix_append _ _, i, ?_⟩
            simp only [reach, List.foldl_cons, List.foldl_nil, step, act, if_true]
            exact remembers_act hx
          · exact hlater hx
      | clear => exact hlater hx

/-! ### All that is computed in a session -/

theorem computed_append (events more : List Event) : ∀ p : Pool,
    p.computed (events ++ more) = p.computed events ++ (p.reach events).computed more := by
  induction events with
  | nil => exact fun _ => rfl
  | cons event events ih =>
      intro p
      cases event with
      | act i action =>
          rw [List.cons_append, computed, computed, ih, List.append_assoc]
          rfl
      | clear => exact ih _

/-- What every write keeps true of a workbook is true of those in which a session evaluates formulas. -/
theorem computed_keeps {P : Workbook → Prop}
    (hwrite : ∀ (e : Engine) (action : Action), P e.workbook → P (e.write action).workbook)
    (events : List Event) : ∀ {p : Pool}, (∀ i, P (p.engine i).workbook) →
      ∀ x ∈ p.computed events, P x.engine.workbook := by
  induction events with
  | nil => exact fun _ _ hx => absurd hx List.not_mem_nil
  | cons event events ih =>
      intro p h x hx
      cases event with
      | clear => exact ih (p := p.step .clear) h x hx
      | act i action =>
          rcases List.mem_append.1 hx with hx | hx
          · rw [computedOf_workbook hx]
            exact hwrite _ _ (h i)
          · refine ih (act_keeps (P := fun e => P e.workbook) h ?_) x hx
            rw [act_workbook]
            exact hwrite _ _ (h i)

/-! ### Each engine of a session -/

/-- An engine has been given actions, with the caches that there were at their times. -/
def IsReached (e : Engine) : Prop := ∃ given, e = reached given

theorem isReached_act {e : Engine} (h : IsReached e) (cache : Option ResultCache) (action : Action) :
    IsReached (e.act cache action).1 := by
  obtain ⟨given, rfl⟩ := h
  refine ⟨given ++ [(cache, action)], ?_⟩
  rw [reached, reached, List.foldl_append]
  rfl

theorem isReached_reach (events : List Event) : ∀ {p : Pool},
    (∀ i, IsReached (p.engine i)) → ∀ i, IsReached ((p.reach events).engine i) := by
  induction events with
  | nil => exact fun h => h
  | cons event events ih =>
      intro p h
      refine ih ?_
      cases event with
      | clear => exact h
      | act j action => exact act_keeps h (isReached_act (h j) p.cache action)

/-- A pool is what a session has led to. -/
def Reachable (p : Pool) : Prop := ∃ capacity? events, p = (opening capacity?).reach events

theorem Reachable.act {p : Pool} (h : p.Reachable) (i : Nat) (action : Action) :
    (p.act i action).Reachable := by
  obtain ⟨capacity?, events, rfl⟩ := h
  refine ⟨capacity?, events ++ [.act i action], ?_⟩
  rw [reach, reach, List.foldl_append]
  rfl

theorem Reachable.isReached {p : Pool} (h : p.Reachable) (i : Nat) : IsReached (p.engine i) := by
  obtain ⟨capacity?, events, rfl⟩ := h
  exact isReached_reach events (fun _ => ⟨[], rfl⟩) i

end Pool

end PaintQuote.Engine
