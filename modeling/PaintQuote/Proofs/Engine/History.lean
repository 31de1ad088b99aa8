import PaintQuote.Proofs.Engine.Requests
import PaintQuote.Proofs.Engine.Writes

/-!
# Evaluation after a history

An engine is written to and asked in any order, and remembers what it has evaluated.  After every
history it is valid with the sheets that each cell has seen, those that existed when the cell was last
evaluated (`valid_history`).

* `history_answers_iff`: it answers like an engine that is only given the workbook, exactly when what
  every known cell means is also what it is due with the sheets that it has seen.

The condition can fail.  A write that brings a sheet into existence forgets only the cells that depend
on the cells written, so a formula that has found the sheet missing keeps its error
(`history_answers_stale`).
-/

namespace PaintQuote.Engine

open Sheet Formula

/-! ## Actions -/

/-- What can be done to an engine. -/
inductive Action where
  /-- Cells are written in turn. -/
  | load (entries : List (CellKey × Content))
  /-- A formula is written. -/
  | setFormula (key : CellKey) (text : String)
  /-- A name is defined, unless this fails. -/
  | define (name target : String)
  /-- A cell is asked for, whose formula may be written first. -/
  | evaluate (key : CellKey) (text? : Option String)
  /-- Cells are asked for. -/
  | evaluateAll (keys : List CellKey)

/-- The engine after what an action writes. -/
def write (e : Engine) : Action → Engine
  | .load entries => e.load entries
  | .setFormula key text => e.setFormula key text
  | .define name target => (e.define name target).toOption.getD e
  | .evaluate key (some text) => e.setFormula key text
  | .evaluate _ none => e
  | .evaluateAll _ => e

/-- The engine and the cache after an action. -/
def act (e : Engine) (cache : Option ResultCache) : Action → Engine × Option ResultCache
  | .evaluate key text? => (e.evaluate cache key text?).2
  | .evaluateAll keys => (e.evaluateAll cache keys).2
  | action => (e.write action, cache)

/-- The cells that are evaluated for an action once it has written, if any are. -/
def rootsOf (e : Engine) : Action → Option (List CellKey)
  | .evaluate key _ => if (e.workbook.formula? key).isNone then none else some [key]
  | .evaluateAll keys => some keys
  | _ => none

/-- The engine without a cache after actions. -/
def history (actions : List Action) : Engine :=
  actions.foldl (fun e action => (e.act none action).1) {}

/-- The sheets that each cell has seen after an action: a cell that is still known after what the
action writes has seen those that it had seen, and any other those that exist. -/
def seenNext (e : Engine) (seen : CellKey → SheetName → Bool) (action : Action) :
    CellKey → SheetName → Bool :=
  fun k => if (e.write action).isKnown k then seen k else (e.write action).workbook.hasSheet

/-- The sheets that each cell has seen after actions. -/
def seenAfter (e : Engine) (seen : CellKey → SheetName → Bool) :
    List Action → CellKey → SheetName → Bool
  | [] => seen
  | action :: actions => seenAfter (e.act none action).1 (e.seenNext seen action) actions

/-- The sheets that each cell has seen after a history. -/
def seenSheets (actions : List Action) : CellKey → SheetName → Bool :=
  seenAfter {} (fun _ _ => false) actions

/-- An action writes, and then evaluates cells if it asks for any. -/
theorem act_eq (e : Engine) (cache : Option ResultCache) (action : Action) :
    e.act cache action =
      match (e.write action).rootsOf action with
      | none => (e.write action, cache)
      | some roots => (e.write action).run cache roots := by
  cases action with
  | load entries => rfl
  | setFormula key text => rfl
  | define name target => rfl
  | evaluate key text? =>
      have hact : e.act cache (.evaluate key text?) =
          ((e.write (.evaluate key text?)).evaluate cache key none).2 := by
        cases text? <;> rfl
      rw [hact]
      generalize e.write (.evaluate key text?) = e₁
      simp only [evaluate, rootsOf]
      by_cases hf : (e₁.workbook.formula? key).isNone
      · rw [if_pos hf, if_pos hf]
      · rw [if_neg hf, if_neg hf]
  | evaluateAll keys => rfl

/-! ## What actions preserve -/

namespace Valid

variable {e : Engine} {seen : CellKey → SheetName → Bool}

theorem write (h : e.Valid seen) (action : Action) : (e.write action).Valid seen := by
  cases action with
  | load entries => exact h.load entries
  | setFormula key text => exact h.setFormula key text
  | define name target =>
      show ((e.define name target).toOption.getD e).Valid seen
      cases hdefine : e.define name target with
      | ok e' => exact define hdefine seen
      | error error => exact h
  | evaluate key text? =>
      cases text? with
      | none => exact h
      | some text => exact h.setFormula key text
  | evaluateAll keys => exact h

/-- After an action an engine is valid with the sheets that its cells have then seen. -/
theorem act (h : e.Valid seen) (action : Action) :
    (e.act none action).1.Valid (e.seenNext seen action) := by
  have hwrite : (e.write action).Valid (e.seenNext seen action) := by
    refine (h.write action).congr_seen ?_
    intro k hk
    rw [seenNext, if_pos hk]
  have hseen : ∀ k, ¬ (e.write action).isKnown k →
      e.seenNext seen action k = (e.write action).workbook.hasSheet := by
    intro k hk
    rw [seenNext, if_neg hk]
  rw [act_eq]
  split
  next => exact hwrite
  next roots _ =>
    obtain ⟨e', hrun, hvalid, _⟩ := hwrite.run hseen roots
    rw [hrun]
    exact hvalid

end Valid

/-- After every history an engine is valid with the sheets that its cells have seen. -/
theorem valid_history (actions : List Action) : (history actions).Valid (seenSheets actions) := by
  have hall : ∀ (e : Engine) (seen : CellKey → SheetName → Bool), e.Valid seen →
      (actions.foldl (fun e action => (e.act none action).1) e).Valid (seenAfter e seen actions) := by
    induction actions with
    | nil => exact fun e seen h => h
    | cons action actions ih => exact fun e seen h => ih _ _ (h.act action)
  exact hall {} _ (valid_of_empty _ rfl rfl rfl)

/-! ## Evaluation from scratch -/

theorem Answer.ofOutcome_inj {key : CellKey} {o o' : Outcome}
    (h : Answer.ofOutcome key o = Answer.ofOutcome key o') : o = o' := by
  obtain ⟨value, issue?⟩ := o
  obtain ⟨value', issue?'⟩ := o'
  simp only [ofOutcome, Answer.mk.injEq, Option.some.injEq, true_and] at h
  rw [h.1, h.2]

/-- An engine goes on to show what it shows for settled cells. -/
theorem Valid.shown_kept {e e' : Engine} {seen : CellKey → SheetName → Bool} (h' : e'.Valid seen)
    (hworkbook : e'.workbook = e.workbook)
    (hkept : ∀ k o, e.outcomes.get? k = some o → e'.outcomes.get? k = some o) {k : CellKey}
    (hk : e.Settled k) : e'.shown k = e.shown k := by
  rw [shown, shown]
  by_cases hknown : e.isKnown k
  · obtain ⟨o, ho⟩ := isKnown_iff.1 hknown
    rw [ho, hkept k o ho]
    rfl
  · have hf := hk.resolve_left hknown
    have hnot' := h'.not_known_of_formula?_eq_none (hworkbook.symm ▸ hf)
    rw [isKnown, Keyed.contains_eq_isSome, Bool.not_eq_true, Option.isSome_eq_false_iff,
      Option.isNone_iff_eq_none] at hknown hnot'
    rw [hknown, hnot', hworkbook]

/-- After a history an engine without a cache answers every request like an engine that is only given
its workbook, exactly when what every known cell means is also what the cell is due with the sheets
that it has seen. -/
theorem history_answers_iff (actions : List Action) :
    (∀ request, ((history actions).ask request).1 =
        (({ workbook := (history actions).workbook } : Engine).ask request).1) ↔
      ∀ outcome, (history actions).workbook.Meaning outcome →
        ∀ k, (history actions).isKnown k →
          Due (history actions).workbook (seenSheets actions k) (fun p => (outcome p).value) k
            (outcome k) := by
  have hvalid := valid_history actions
  generalize history actions = e at *
  generalize seenSheets actions = seen₀ at *
  -- What a cell has seen matters only if the cell is known.
  let seen : CellKey → SheetName → Bool := fun k =>
    if e.isKnown k then seen₀ k else e.workbook.hasSheet
  have hknown : ∀ k, e.isKnown k → seen k = seen₀ k := fun k hk => if_pos hk
  have hseen : ∀ k, ¬ e.isKnown k → seen k = e.workbook.hasSheet := fun k hk => if_neg hk
  have h : e.Valid seen := hvalid.congr_seen fun k hk => (hknown k hk).symm
  have hfresh : ∀ outcome, e.workbook.Meaning outcome → ∀ request,
      (({ workbook := e.workbook } : Engine).ask request).1 =
        request.keys.map fun k => .ofOutcome k (outcome k) := fun outcome hm request =>
    (valid_fresh e.workbook fun _ => e.workbook.hasSheet).ask_eq (fun _ _ => rfl) hm
      (fun k _ => hm k) request
  constructor
  · intro hall outcome hm k hk
    have hshown : ∀ p, e.Settled p → e.shown p = outcome p := by
      intro p hp
      obtain ⟨e', hask, hvalid', hworkbook, hkept, _⟩ := h.ask hseen (.one p false)
      have hanswer := hall (.one p false)
      rw [hask, hfresh outcome hm] at hanswer
      rw [← hvalid'.shown_kept hworkbook hkept hp]
      exact Answer.ofOutcome_inj (List.cons.inj hanswer).1
    have hsettled : e.Settled k := Or.inl hk
    have hdue := h.shown_due hsettled
    rw [hshown k hsettled, hknown k hk] at hdue
    refine hdue.congr ?_
    intro p hread
    rw [hshown p (h.settled_closed hsettled hread)]
  · intro hdue request
    obtain ⟨outcome, hm⟩ := e.workbook.exists_meaning
    rw [hfresh outcome hm]
    refine h.ask_eq hseen hm ?_ request
    intro k hk
    rw [hknown k hk]
    exact hdue outcome hm k hk

/-- A formula that has found a sheet missing keeps its error when a write brings the sheet into
existence. -/
theorem history_answers_stale :
    let a1 : CellKey := ⟨⟨"SHEET1"⟩, ⟨0, 0⟩⟩
    let b5 : CellKey := ⟨⟨"OTHER"⟩, ⟨4, 1⟩⟩
    let actions : List Action :=
      [.setFormula a1 "=OTHER!A1", .evaluate a1 none, .load [(b5, .literal (.number 1))]]
    ((history actions).ask (.one a1 false)).1 ≠
      (({ workbook := (history actions).workbook } : Engine).ask (.one a1 false)).1 := by
  decide +kernel

end PaintQuote.Engine
