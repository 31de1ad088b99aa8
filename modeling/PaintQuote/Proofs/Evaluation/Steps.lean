import PaintQuote.Proofs.Evaluation.Notes

/-!
# What an expression notes

An expression notes what its operands note, in order, and then its own errors; all of it is forgotten if
its value carries no error (`issuesIn_eq`).  By induction on the tree, evaluation therefore removes and
moves nothing that was noted before, and leaves no trace of errors that were dealt with
(`evaluate_notes`).
-/

namespace PaintQuote.Formula

open Sheet Functions Logged

namespace Expr

/-- The expressions of which an expression is made, in order. -/
def operands : Expr → List Expr
  | .binary _ left right => [left, right]
  | .negate operand => [operand]
  | .percent operand => [operand]
  | .call _ arguments => arguments
  | .literal _ | .cell _ | .range _ | .name _ | .array _ => []

/-- The value of an expression. -/
def valueIn (c : Context) (e : Expr) : Value := (evaluate c e).value

/-- The errors that an expression notes. -/
def issuesIn (c : Context) (e : Expr) : Log := (evaluate c e).issues

/-- The operands of an expression whose errors stay noted, in order. -/
def keptOperands (c : Context) : Expr → List Expr
  | .call function arguments =>
      (keptBy function (arguments.map (valueIn c))).filterMap fun place => arguments[place]?
  | e => e.operands

/-- What an expression does itself, once its operands have their values: it reads cells, or it is an
operation. -/
def own (c : Context) : Expr → Logged Value
  | .literal l => pure (.scalar l.value)
  | .array rows => pure (.array (rows.map fun row => row.map ArrayItem.value))
  | .cell r => c.cellValue r.sheet? r.address
  | .range r => c.rangeValue r.sheet? r.area
  | .name s => c.nameValue s
  | .binary o left right => Logged.settle (o.apply (left.valueIn c) (right.valueIn c))
  | .negate operand => Logged.settle (negated (operand.valueIn c))
  | .percent operand => Logged.settle (hundredth (operand.valueIn c))
  | .call function arguments => Logged.settle (callAnswer function (evaluateEach c arguments)).value

mutual

/-- What holds of an expression wherever it holds of its operands holds of every expression. -/
theorem of_operands {motive : Expr → Prop} (step : ∀ e, (∀ operand ∈ e.operands, motive operand) → motive e) :
    ∀ e, motive e
  | .literal l => step (.literal l) nofun
  | .array rows => step (.array rows) nofun
  | .cell r => step (.cell r) nofun
  | .range r => step (.range r) nofun
  | .name s => step (.name s) nofun
  | .binary o left right => step (.binary o left right)
      (List.forall_mem_cons.2 ⟨of_operands step left, List.forall_mem_singleton.2 (of_operands step right)⟩)
  | .negate operand => step (.negate operand) (List.forall_mem_singleton.2 (of_operands step operand))
  | .percent operand => step (.percent operand) (List.forall_mem_singleton.2 (of_operands step operand))
  | .call function arguments => step (.call function arguments) (each_of_operands step arguments)

theorem each_of_operands {motive : Expr → Prop}
    (step : ∀ e, (∀ operand ∈ e.operands, motive operand) → motive e) : ∀ es : List Expr, ∀ e ∈ es, motive e
  | [] => List.forall_mem_nil _
  | e :: es => List.forall_mem_cons.2 ⟨of_operands step e, each_of_operands step es⟩

end

end Expr

section

variable (c : Context)

theorem evaluateEach_eq_map : ∀ es : List Expr, evaluateEach c es = es.map (evaluate c)
  | [] => rfl
  | e :: es => by rw [evaluateEach, evaluateEach_eq_map es, List.map_cons]

theorem map_value_evaluateEach (es : List Expr) : (evaluateEach c es).map value = es.map (Expr.valueIn c) := by
  rw [evaluateEach_eq_map, List.map_map]
  rfl

theorem issuesAt_evaluateEach (es : List Expr) (places : List Nat) :
    issuesAt (evaluateEach c es) places =
      (places.filterMap fun place => es[place]?).flatMap (Expr.issuesIn c) := by
  rw [evaluateEach_eq_map]
  induction places with
  | nil => rfl
  | cons place places ih =>
      rw [issuesAt_cons, ih, List.getElem?_map, List.filterMap_cons]
      cases es[place]? <;> rfl

/-- An operation on one operand notes what this notes, and then its own error. -/
theorem operation_notes {f : Value → Answer} {operand : Expr} (h : Appends (evaluate c operand)) :
    Notes (Logged.sparing (evaluate c operand >>= fun v => Logged.settle (f v)))
      (Logged.settle (f (operand.valueIn c))).value
      (if (Logged.settle (f (operand.valueIn c))).value.carriesError then
        [operand].flatMap (Expr.issuesIn c) ++ (Logged.settle (f (operand.valueIn c))).issues else []) := by
  have hown : Appends (Logged.settle (f (operand.valueIn c))) := (Notes.settle _).appends
  rw [List.flatMap_singleton]
  exact (h.bind (f := fun v => Logged.settle (f v)) hown).sparing

/-- An expression notes what its operands note whose errors it keeps, and then its own errors, and forgets
all of them if its value carries no error. -/
theorem evaluate_step : ∀ e : Expr, (∀ operand ∈ e.operands, Appends (evaluate c operand)) →
    Notes (evaluate c e) (e.own c).value
      (if (e.own c).value.carriesError then (e.keptOperands c).flatMap (Expr.issuesIn c) ++ (e.own c).issues
        else [])
  | .literal l, _ => by
      show Notes _ _ (if _ then [] else [])
      rw [ite_self]
      exact .pure _
  | .array rows, _ => by
      show Notes _ _ (if _ then [] else [])
      rw [ite_self]
      exact .pure _
  | .cell r, _ => by
      rw [evaluate]
      exact Notes.sparing (c.cellValue_appends r.sheet? r.address)
  | .range r, _ => by
      rw [evaluate]
      exact Notes.sparing (c.rangeValue_appends r.sheet? r.area)
  | .name s, _ => by
      rw [evaluate]
      exact Notes.sparing (c.nameValue_appends s)
  | .binary o left right, h => by
      have hleft : Appends (evaluate c left) := h left (by simp [Expr.operands])
      have hright : Appends (evaluate c right) := h right (by simp [Expr.operands])
      have hown : Appends ((Expr.binary o left right).own c) := (Notes.settle _).appends
      -- Left, right and the operator note one after the other; what `sparing` forgets is all three.
      have hnotes := hleft.bind (f := fun v => evaluate c right >>= fun w => Logged.settle (o.apply v w))
        (hright.bind hown)
      rw [← List.append_assoc, ← (issues (evaluate c right)).append_nil] at hnotes
      rw [evaluate]
      exact hnotes.sparing
  | .negate operand, h => by
      rw [evaluate]
      exact operation_notes c (h operand (by simp [Expr.operands]))
  | .percent operand, h => by
      rw [evaluate]
      exact operation_notes c (h operand (by simp [Expr.operands]))
  | .call function arguments, h => by
      have hruns : ∀ run ∈ evaluateEach c arguments, Appends run := by
        intro run hrun
        obtain ⟨a, ha, rfl⟩ := mem_evaluateEach hrun
        exact h a ha
      -- Only the kept arguments have noted anything, and their values say which these are.
      obtain ⟨a, ha⟩ := callAnswer_notesAt function _ hruns
      have hown : Appends ((Expr.call function arguments).own c) := (Notes.settle _).appends
      rw [← ha.value_eq, issuesAt_evaluateEach, map_value_evaluateEach] at ha
      rw [evaluate, callFunction_eq_bind]
      exact (ha.bind (f := Logged.settle) hown).sparing

/-- What was noted before an expression decides neither its value nor what it notes. -/
theorem evaluate_appends (e : Expr) : Appends (evaluate c e) :=
  e.of_operands fun e h => (evaluate_step c e h).appends

theorem appends_evaluateEach (es : List Expr) : ∀ run ∈ evaluateEach c es, Appends run := by
  intro run hrun
  obtain ⟨e, -, rfl⟩ := mem_evaluateEach hrun
  exact evaluate_appends c e

theorem valueIn_eq (e : Expr) : e.valueIn c = (e.own c).value :=
  (evaluate_step c e fun operand _ => evaluate_appends c operand).value_eq

/-- The errors that an expression notes, from those of its operands. -/
theorem issuesIn_eq (e : Expr) : e.issuesIn c =
    if (e.valueIn c).carriesError then (e.keptOperands c).flatMap (Expr.issuesIn c) ++ (e.own c).issues
    else [] := by
  rw [valueIn_eq]
  exact (evaluate_step c e fun operand _ => evaluate_appends c operand).issues_eq

theorem carriesError_iff {v : Value} : v.carriesError = true ↔ (∃ error, v = .error error) ∨
    ∃ rows, v = .array rows ∧ ∃ row ∈ rows, ∃ error, .error error ∈ row := by
  have hcell : ∀ v : CellValue, v.error?.isSome = true ↔ ∃ error, v = .error error := by
    intro v
    cases v <;> simp [CellValue.error?]
  cases v with
  | scalar v => simp [Value.carriesError, hcell]
  | array rows =>
      simp [Value.carriesError, hcell]

/-- Evaluation only puts errors after those that were noted before, whatever they are, and nothing is left
of what it noted if its value neither is an error nor has one in it. -/
theorem evaluate_notes (e : Expr) : ∃ v issues, (∀ log, (evaluate c e).run log = (v, log ++ issues)) ∧
    (issues = [] ∨ (∃ error, v = .error error) ∨
      ∃ rows, v = .array rows ∧ ∃ row ∈ rows, ∃ error, .error error ∈ row) := by
  refine ⟨e.valueIn c, e.issuesIn c, evaluate_appends c e, ?_⟩
  cases herror : (e.valueIn c).carriesError with
  | false => exact .inl (by simp [issuesIn_eq, herror])
  | true => exact .inr (carriesError_iff.1 herror)

end

end PaintQuote.Formula
