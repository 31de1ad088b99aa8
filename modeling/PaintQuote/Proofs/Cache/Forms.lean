import PaintQuote.Proofs.Cache.Key
import PaintQuote.Proofs.Values.Evaluation

/-!
# Outcomes under one key

A key counts numbers by value, so evaluations with one key may read other forms of the same numbers.
Unless a function in the formula tells equal numbers apart, their outcomes are equal but for the form of
a number, and they are explained alike (`Evaluation.Near.outcome_like`).
-/

namespace PaintQuote

open Sheet Formula Engine

theorem Sheet.CellValue.Like.trans {u v w : CellValue} (h : u.Like v) (h' : v.Like w) : u.Like w := by
  cases h with
  | refl => exact h'
  | number h =>
      cases h' with
      | refl => exact .number h
      | number h' => exact .number (Decimal.same_trans h h')

namespace Formula

theorem Value.Like.toCell {v w : Value} (h : v.Like w) : v.toCell.Like w.toCell := by
  cases h with
  | scalar h => exact h
  | array h =>
      cases h with
      | nil => exact .refl _
      | cons hrow hrows =>
          cases hrow with
          | nil => cases hrows <;> exact .refl _
          | cons hcell hcells =>
              cases hcells with
              | cons => cases hrows <;> exact .refl _
              | nil =>
                  cases hrows with
                  | nil => exact hcell
                  | cons => exact .refl _

end Formula

namespace Engine

/-! ## Outcomes -/

/-- Two outcomes are equal but for the form of a number. -/
structure Outcome.Like (o o' : Outcome) : Prop where
  value : o.value.Like o'.value
  issue? : o.issue? = o'.issue?

namespace Outcome.Like

variable {o o' o'' : Outcome}

theorem refl (o : Outcome) : o.Like o := ⟨.refl _, rfl⟩

theorem symm (h : o.Like o') : o'.Like o := ⟨h.value.symm, h.issue?.symm⟩

theorem trans (h : o.Like o') (h' : o'.Like o'') : o.Like o'' :=
  ⟨h.value.trans h'.value, h.issue?.trans h'.issue?⟩

end Outcome.Like

section

variable {c c' : Context} {e : Expr}

/-- What is shown for values that agree agrees. -/
theorem shownValue_agree (h : c.Like c') (huniform : e.isUniform = true) :
    (shownValue c e).1.Like (shownValue c' e).1 ∧ (shownValue c e).2 = (shownValue c' e).2 := by
  refine AgreeLogged.bind (S := Value.Like) (evaluate_agree h e huniform) (fun v w hvw => ?_) []
  cases hvw with
  | @scalar v _ h =>
      cases h with
      | number h => exact .pure (.number h)
      | refl => cases v <;> exact .refl .refl _
  | array h =>
      cases h with
      | nil => exact .refl .refl _
      | cons hrow hrows =>
          cases hrow with
          | nil => cases hrows <;> exact .refl .refl _
          | cons hcell hcells =>
              cases hcells with
              | cons => cases hrows <;> exact .refl .refl _
              | nil =>
                  cases hrows with
                  | nil => exact .pure (.scalar hcell)
                  | cons => exact .refl .refl _

/-- Over equal values a formula has outcomes that are equal but for the form of a number. -/
theorem outcomeOf_like (h : c.Like c') (huniform : e.isUniform = true) :
    (outcomeOf c e).Like (outcomeOf c' e) := by
  obtain ⟨hvalue, hlog⟩ := shownValue_agree h huniform
  unfold outcomeOf
  simp only [hlog]
  have hcell := hvalue.toCell
  generalize (shownValue c e).1.toCell = v at hcell ⊢
  generalize (shownValue c' e).1.toCell = w at hcell ⊢
  cases hcell with
  | number h => exact ⟨.number h, rfl⟩
  | refl => exact .refl _

end

/-! ## Evaluations -/

namespace Evaluation

/-- Two evaluations are alike but for the forms of the numbers that they read. -/
structure Near (x y : Evaluation) : Prop where
  sheet : x.key.sheet = y.key.sheet
  hasSheet : ∀ p ∈ x.reads, x.engine.workbook.hasSheet p.sheet = y.engine.workbook.hasSheet p.sheet
  target : ∀ s ∈ x.compiled.names, x.target? s = y.target? s

namespace Near

variable {x y : Evaluation}

/-- Cells that enter two keys with equal values have equal values. -/
theorem value_like (h : x.Near y) (hx : x.Sound) (hy : y.Sound) {p : CellKey} (hp : p ∈ x.reads)
    (hagree : (x.engine.keyValue p).agrees (y.engine.keyValue p) = true) :
    (x.engine.value p).Like (y.engine.value p) := by
  have hsheet := h.hasSheet p hp
  cases hhas : x.engine.workbook.hasSheet p.sheet with
  | true =>
      rw [keyValue, keyValue, ← hsheet, hhas] at hagree
      exact CellValue.like_iff.2 hagree
  | false =>
      rw [hhas] at hsheet
      rw [hx.absent p hhas, hy.absent p hsheet.symm]
      exact .refl _

/-- Evaluations with one key have outcomes that are equal but for the form of a number.  The values
that one of them reads are put in place of those that the other reads: over those the formula has an
outcome like before, and it is the outcome of the other evaluation. -/
theorem outcome_like (h : x.Near y) (hx : x.Sound) (hy : y.Sound) (hkey : x.cacheKey = y.cacheKey)
    (huniform : x.compiled.expr.isUniform = true) : x.outcome.Like y.outcome := by
  obtain ⟨htext, -, -, hvalues⟩ := (cacheKey_eq_iff hx hy).1 hkey
  have hexpr : y.compiled.expr = x.compiled.expr := by
    have hok := hx.reading.2.1
    rw [htext, hy.reading.2.1] at hok
    exact Except.ok.inj hok
  let value (p : CellKey) : CellValue := if p ∈ x.reads then y.engine.value p else x.engine.value p
  let between : Context := ⟨{ x.engine.source with value }, x.key.sheet⟩
  have hlike : Context.Like ⟨x.engine.source, x.key.sheet⟩ between := by
    refine ⟨rfl, ?_, fun _ => rfl, fun _ => rfl⟩
    intro p
    show (x.engine.value p).Like (if p ∈ x.reads then y.engine.value p else x.engine.value p)
    split
    next hp => exact h.value_like hx hy hp (hvalues p hp)
    next => exact .refl _
  have hread : ∀ p ∈ (References.ofExpr x.engine.workbook.names x.key.sheet x.compiled.expr).cells,
      p ∈ x.reads := by
    intro p hp
    rw [hx.reads_eq]
    exact Std.TreeSet.mem_toList.2 hp
  have hagree : Agree (References.ofExpr x.engine.workbook.names between.sheet x.compiled.expr) between
      ⟨y.engine.source, y.key.sheet⟩ := by
    refine { sheet := h.sheet, value := ?_, hasSheet := ?_, target := ?_ }
    · intro p hp
      exact if_pos (hread p hp)
    · intro p hp
      exact h.hasSheet p (hread p hp)
    · intro s hs
      have hs' : Text.asciiUpper s ∈ x.compiled.names := by
        rw [hx.reading.2.2]
        exact Std.TreeSet.mem_toList.2 hs
      have htarget := h.target _ hs'
      rw [target?, target?, Workbook.name?_asciiUpper, Workbook.name?_asciiUpper] at htarget
      exact htarget
  rw [outcome, outcome, hexpr, ← outcomeOf_congr (fun _ => rfl) x.compiled.expr hagree]
  exact outcomeOf_like hlike huniform

end Near

end Evaluation

end Engine

end PaintQuote
