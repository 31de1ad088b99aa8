import PaintQuote.Proofs.Cache.Lockstep

/-!
# Engines that share a cache

Any number of engines are written to and asked in any order, with one cache for all of them or without
one.  The cache is transparent for a sequence of actions when, whatever its capacity, the engines reply
and show the same with it as without it.

* `transparent_iff`: it is transparent exactly when evaluations of the engines without a cache that have
  one key and yet differ in what the key leaves out have one outcome.

What the key leaves out does matter.  A reference without a sheet means the sheet of its formula, which
is no part of the key, so the cache may give a formula the outcome of another sheet
(`replies_on_other_sheet`).
-/

namespace PaintQuote.Engine

open Sheet Formula

/-! ## Replies -/

/-- What is reported when an action asks for cells. -/
def reply (e : Engine) (cache : Option ResultCache) : Action → List Answer
  | .evaluate key text? =>
      let (value, e, _) := e.evaluate cache key text?
      [⟨key, some value, e.issue? key⟩]
  | .evaluateAll keys =>
      let (report, _, _) := e.evaluateAll cache keys
      keys.map fun key => ⟨key, report.values.get? key, report.issues.get? key⟩
  | _ => []

/-- The value reported for a cell is what the engine shows once it has written and evaluated. -/
theorem evaluate_fst (e : Engine) (cache : Option ResultCache) (key : CellKey)
    (text? : Option String) : (e.evaluate cache key text?).1 =
      let e₁ := e.write (.evaluate key text?)
      if (e₁.workbook.formula? key).isNone then e₁.workbook.literal key
      else (e.act cache (.evaluate key text?)).1.value key := by
  have hevaluate : e.evaluate cache key text? =
      (e.write (.evaluate key text?)).evaluate cache key none := by
    cases text? <;> rfl
  have hact : e.act cache (.evaluate key text?) =
      ((e.write (.evaluate key text?)).evaluate cache key none).2 := by
    rw [← hevaluate]
    rfl
  rw [hact, hevaluate]
  generalize e.write (.evaluate key text?) = e₁
  simp only [evaluate]
  split <;> rfl

/-- Engines that are the same before and after an action reply the same. -/
theorem Same.reply {e e' : Engine} {cache cache' : Option ResultCache} (h : e.Same e')
    (action : Action) (hact : (e.act cache action).1.Same (e'.act cache' action).1) :
    e.reply cache action = e'.reply cache' action := by
  cases action with
  | load entries => rfl
  | setFormula key text => rfl
  | define name target => rfl
  | evaluate key text? =>
      have hvalue : (e.evaluate cache key text?).1 = (e'.evaluate cache' key text?).1 := by
        rw [evaluate_fst, evaluate_fst]
        simp only [(h.write _).workbook, hact.value]
      have hissue := hact.issue? key
      simp only [Engine.act] at hissue
      simp only [Engine.reply, hvalue, hissue]
  | evaluateAll keys =>
      have hrun : (e.run cache keys).1.Same (e'.run cache' keys).1 := hact
      have hreport : (e.evaluateAll cache keys).1 = (e'.evaluateAll cache' keys).1 := by
        have hadd : (e.run cache keys).1.addToReport = (e'.run cache' keys).1.addToReport := by
          funext r key
          rw [addToReport, addToReport, hrun.value, hrun.issue?]
        simp only [Engine.evaluateAll, hadd]
      simp only [Engine.reply, hreport]

/-! ## Pools -/

/-- Engines with a cache for all of them, or without one. -/
structure Pool where
  /-- The engines. -/
  engine : Nat → Engine
  /-- The cache. -/
  cache : Option ResultCache

namespace Pool

/-- Engines with empty workbooks. -/
def start (cache : Option ResultCache) : Pool := ⟨fun _ => {}, cache⟩

/-- The pool after an action on one engine. -/
def act (p : Pool) (i : Nat) (action : Action) : Pool where
  engine j := if j = i then ((p.engine i).act p.cache action).1 else p.engine j
  cache := ((p.engine i).act p.cache action).2

/-- What is true of all engines, and of the one that acts also afterwards, is then true of all. -/
theorem act_keeps {P : Engine → Prop} {p : Pool} {i : Nat} {action : Action} (h : ∀ j, P (p.engine j))
    (hact : P ((p.engine i).act p.cache action).1) (j : Nat) : P ((p.act i action).engine j) := by
  simp only [act]
  split
  next => exact hact
  next => exact h j

/-- The pool after actions in turn. -/
def after (p : Pool) : List (Nat × Action) → Pool
  | [] => p
  | (i, action) :: actions => (p.act i action).after actions

/-- What is reported for actions in turn. -/
def replies (p : Pool) : List (Nat × Action) → List (List Answer)
  | [] => []
  | (i, action) :: actions => (p.engine i).reply p.cache action :: (p.act i action).replies actions

/-- The evaluations that actions come to in turn, if there is no cache. -/
def evaluations (p : Pool) : List (Nat × Action) → List Evaluation
  | [] => []
  | (i, action) :: actions => (p.engine i).evaluationsOf action ++ (p.act i action).evaluations actions

/-- With a cache of any capacity, all that is reported for actions and all that the engines show after
each of them is as without a cache. -/
def Transparent (actions : List (Nat × Action)) : Prop :=
  ∀ capacity, 1 ≤ capacity →
    (start (some (.empty capacity))).replies actions = (start none).replies actions ∧
      ∀ before, before <+: actions → ∀ i k,
        (((start (some (.empty capacity))).after before).engine i).shown k =
          (((start none).after before).engine i).shown k

/-! ## Pools in lockstep -/

section

variable {p q : Pool} {c : ResultCache} {i : Nat} {action : Action}

/-- A pool with a cache and one without whose engines are the same. -/
structure InStep (p q : Pool) (c : ResultCache) : Prop where
  same : ∀ j, (p.engine j).Same (q.engine j)
  cache : p.cache = some c
  noCache : q.cache = none

/-- An action keeps pools in step if the cache gives every evaluation its outcome. -/
theorem InStep.act (h : InStep p q c)
    (hserves : c.Serves (((q.engine i).evaluationsOf action).map Evaluation.entry)) :
    InStep (p.act i action) (q.act i action)
      (c.after (((q.engine i).evaluationsOf action).map Evaluation.entry)) := by
  obtain ⟨e₁, hact, hsame⟩ := (h.same i).act action hserves
  refine ⟨?_, ?_, ?_⟩
  · intro j
    rw [Pool.act, Pool.act, h.cache, h.noCache, hact]
    by_cases hj : j = i
    · simp only [if_pos hj]
      exact hsame
    · simp only [if_neg hj]
      exact h.same j
  · rw [Pool.act, h.cache, hact]
  · rw [Pool.act, h.noCache]
    exact act_without _ action

theorem InStep.reply (h : InStep p q c)
    (hserves : c.Serves (((q.engine i).evaluationsOf action).map Evaluation.entry)) :
    (p.engine i).reply p.cache action = (q.engine i).reply q.cache action := by
  obtain ⟨e₁, hact, hsame⟩ := (h.same i).act action hserves
  refine (h.same i).reply action ?_
  rw [h.cache, h.noCache, hact]
  exact hsame

/-- If an engine shows the same after an action, the cache has given every evaluation its outcome. -/
theorem InStep.serves_of_act (h : InStep p q c)
    (hshown : ∀ k, ((p.act i action).engine i).shown k = ((q.act i action).engine i).shown k) :
    c.Serves (((q.engine i).evaluationsOf action).map Evaluation.entry) := by
  refine (h.same i).serves_of_act action ?_
  intro k o o' ho ho'
  have hk := hshown k
  simp only [Pool.act, if_true, h.cache, h.noCache, shown, ho, ho', Option.getD_some] at hk
  exact hk

/-- If the cache gives every evaluation its outcome, it changes neither what is shown nor what is
reported. -/
theorem InStep.same_after (actions : List (Nat × Action)) : ∀ {p q : Pool} {c : ResultCache},
    InStep p q c → c.Serves ((q.evaluations actions).map Evaluation.entry) →
      p.replies actions = q.replies actions ∧
        ∀ before, before <+: actions → ∀ j, ((p.after before).engine j).Same ((q.after before).engine j) := by
  induction actions with
  | nil =>
      intro p q c h _
      refine ⟨rfl, ?_⟩
      intro before hbefore j
      rw [List.prefix_nil.1 hbefore]
      exact h.same j
  | cons a actions ih =>
      intro p q c h hserves
      obtain ⟨i, action⟩ := a
      rw [Pool.evaluations, List.map_append, ResultCache.serves_append] at hserves
      obtain ⟨hreplies, hsame⟩ := ih (h.act hserves.1) hserves.2
      refine ⟨?_, ?_⟩
      · rw [replies, replies, h.reply hserves.1, hreplies]
      · intro before hbefore j
        cases before with
        | nil => exact h.same j
        | cons b before =>
            obtain ⟨rfl, hrest⟩ := List.cons_prefix_cons.1 hbefore
            exact hsame before hrest j

/-- If the engines show the same after each action, the cache has given every evaluation its outcome. -/
theorem InStep.serves (actions : List (Nat × Action)) : ∀ {p q : Pool} {c : ResultCache},
    InStep p q c → (∀ before, before <+: actions → ∀ j k,
        ((p.after before).engine j).shown k = ((q.after before).engine j).shown k) →
      c.Serves ((q.evaluations actions).map Evaluation.entry) := by
  induction actions with
  | nil => exact fun _ _ => trivial
  | cons a actions ih =>
      intro p q c h hshown
      obtain ⟨i, action⟩ := a
      have hfirst := h.serves_of_act (hshown [(i, action)] (List.prefix_append _ _) i)
      rw [Pool.evaluations, List.map_append, ResultCache.serves_append]
      refine ⟨hfirst, ih (h.act hfirst) ?_⟩
      intro before hbefore j k
      exact hshown ((i, action) :: before) (List.cons_prefix_cons.2 ⟨rfl, hbefore⟩) j k

end

theorem inStep_start (c : ResultCache) : InStep (start (some c)) (start none) c :=
  ⟨fun _ => Same.refl _, rfl, rfl⟩

/-! ## Transparency -/

/-- Without a cache, all evaluations that engines come to are sound. -/
theorem evaluations_sound (actions : List (Nat × Action)) : ∀ {p : Pool}, p.cache = none →
    (∀ j, ∃ seen, (p.engine j).Valid seen) → (∀ j, (p.engine j).workbook.Grounded) →
    ∀ x ∈ p.evaluations actions, x.Sound := by
  induction actions with
  | nil => exact fun _ _ _ x hx => absurd hx List.not_mem_nil
  | cons a actions ih =>
      intro p hcache hvalid hg x hx
      obtain ⟨i, action⟩ := a
      obtain ⟨seen, hv⟩ := hvalid i
      rcases List.mem_append.1 hx with hx | hx
      · exact evaluationsOf_sound hv (hg i) action x hx
      · refine ih ?_ ?_ ?_ x hx
        · rw [Pool.act, hcache]
          exact act_without _ action
        · refine Pool.act_keeps (P := fun e => ∃ seen, e.Valid seen) hvalid ?_
          rw [hcache]
          exact ⟨_, hv.act action⟩
        · refine Pool.act_keeps (P := fun e => e.workbook.Grounded) hg ?_
          rw [act_workbook]
          exact write_grounded _ action (hg i)

/-- A cache is transparent for actions exactly when evaluations that have one key and yet differ in
what the key leaves out have one outcome. -/
theorem transparent_iff (actions : List (Nat × Action)) :
    Transparent actions ↔
      ∀ x ∈ (start none).evaluations actions, ∀ y ∈ (start none).evaluations actions,
        x.cacheKey = y.cacheKey → ¬ x.Alike y → x.outcome = y.outcome := by
  constructor
  · intro htransparent x hx y hy hkey _
    have hone := (ResultCache.serves_iff _).1 fun capacity hcapacity =>
      (inStep_start (.empty capacity)).serves actions (htransparent capacity hcapacity).2
    exact hone x.entry (List.mem_map_of_mem hx) y.entry (List.mem_map_of_mem hy) hkey
  · intro hone capacity hcapacity
    have hsound : ∀ x ∈ (start none).evaluations actions, x.Sound := by
      refine evaluations_sound actions rfl ?_ ?_
      · intro j
        exact ⟨fun _ _ => false, valid_of_empty _ rfl rfl rfl⟩
      · intro j k hk
        simp [start] at hk
    have hserves : (ResultCache.empty capacity).Serves
        (((start none).evaluations actions).map Evaluation.entry) := by
      refine (ResultCache.serves_iff _).2 ?_ capacity hcapacity
      intro a ha b hb hkey
      obtain ⟨x, hx, rfl⟩ := List.mem_map.1 ha
      obtain ⟨y, hy, rfl⟩ := List.mem_map.1 hb
      by_cases halike : x.Alike y
      · exact halike.outcome_eq (hsound x hx) (hsound y hy) hkey
      · exact hone x hx y hy hkey halike
    obtain ⟨hreplies, hsame⟩ := (inStep_start _).same_after actions hserves
    exact ⟨hreplies, fun before hbefore i k => (hsame before hbefore i).shown k⟩

/-- A formula gets the outcome of the same formula on another sheet, where its references without a
sheet mean other cells. -/
theorem replies_on_other_sheet :
    let text := "=S!A1+T!A1*0+A1*10"
    let actions : List (Nat × Action) :=
      [(0, .load [(⟨⟨"S"⟩, ⟨0, 0⟩⟩, .literal (.number 1)), (⟨⟨"T"⟩, ⟨0, 0⟩⟩, .literal (.number 2))]),
        (0, .evaluate ⟨⟨"S"⟩, ⟨0, 1⟩⟩ (some text)), (0, .evaluate ⟨⟨"T"⟩, ⟨0, 1⟩⟩ (some text))]
    (start (some (.empty 4))).replies actions ≠ (start none).replies actions := by
  decide +kernel

end Pool

end PaintQuote.Engine
