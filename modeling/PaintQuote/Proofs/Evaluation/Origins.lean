import PaintQuote.Proofs.Evaluation.Steps

/-!
# Where the first error comes from

The earliest error that was noted stands for the reason of a result.  It was noted by some part of the
formula, its origin: the first one, in the order of evaluation, that notes errors of its own and whose
errors are not forgotten further out (`Expr.origin?`).

An error that a part notes first is the first error in its value (`own_explained`).  So the earliest error
explains the result if and only if the result is the first error of its origin, which is the main
statement (`issue_explains_iff`).  Nothing makes this so: functions and operators read their operands in
another order than they were evaluated, and out of an array with errors they may take any or none.
-/

namespace PaintQuote.Formula

open Sheet Functions Logged

/-! ## First errors -/

/-- The first error in a value, row by row. -/
def Value.firstError? (v : Value) : Option ErrorValue := v.cells.findSome? CellValue.error?

theorem Value.firstError?_array (rows : List (List CellValue)) :
    (Value.array rows).firstError? = rows.findSome? fun row => row.findSome? CellValue.error? := by
  rw [Value.firstError?, Value.cells, ← List.head?_filterMap, List.filterMap_flatten, List.head?_flatten,
    List.findSome?_map]
  simp only [Function.comp_def, List.head?_filterMap]

/-- The error that a computation notes first is the first one in its value. -/
def Logged.Explained (run : Logged Value) : Prop :=
  ∀ issue, run.issues.head? = some issue → run.value.firstError? = some issue.cellError

namespace Logged

theorem Notes.explained {run : Logged Value} {v : Value} {l : Log} (h : Notes run v l)
    (hl : l = [] ∨ l.head?.map FormulaError.cellError = v.firstError?) : Explained run := by
  intro issue hissue
  rw [h.issues_eq] at hissue
  rw [h.value_eq]
  rcases hl with rfl | hl
  · cases hissue
  · rw [← hl, hissue, Option.map_some]

theorem fail_explained (e : FormulaError) : Explained (Logged.fail e) := (Notes.fail e).explained (.inr rfl)

theorem settle_explained (a : Answer) : Explained (Logged.settle a) := by
  cases a with
  | ok v => exact (Notes.settle _).explained (.inl rfl)
  | error e => exact (Notes.settle _).explained (.inr rfl)

end Logged

/-! ## Reading -/

namespace Context

variable {c : Context}

theorem head?_readIssues (c : Context) (key : CellKey) :
    (c.readIssues key).head?.map FormulaError.cellError = (c.source.value key).error? := by
  unfold readIssues
  cases (c.source.value key).error? <;> rfl

theorem cellValue_explained (c : Context) (sheet? : Option SheetName) (address : Address) :
    Explained (c.cellValue sheet? address) := by
  cases hsheet : c.resolve sheet? with
  | ok sheet =>
      refine (cellValue_notes hsheet address).explained (.inr ?_)
      rw [head?_readIssues, Value.firstError?, Value.cells, List.findSome?_singleton]
  | error e =>
      rw [cellValue, hsheet]
      exact fail_explained e

theorem rangeValue_explained (c : Context) (sheet? : Option SheetName) (area : Range) :
    Explained (c.rangeValue sheet? area) := by
  cases hsheet : c.resolve sheet? with
  | ok sheet =>
      refine (rangeValue_notes hsheet area).explained (.inr ?_)
      simp only [Value.firstError?_array, List.head?_flatMap, List.map_findSome?, List.findSome?_map,
        Function.comp_def, head?_readIssues]
  | error e =>
      rw [rangeValue, hsheet]
      exact fail_explained e

theorem nameValue_explained (c : Context) (name : String) : Explained (c.nameValue name) := by
  unfold nameValue
  split
  next => exact fail_explained _
  next =>
    split
    next => exact c.cellValue_explained _ _
    next => exact c.rangeValue_explained _ _
    next => exact (Notes.pure _).explained (.inl rfl)

end Context

/-- The error that an expression notes first, besides its operands, is the first one in its value. -/
theorem own_explained (c : Context) (e : Expr) : Explained (e.own c) := by
  cases e with
  | literal l => exact (Notes.pure _).explained (.inl rfl)
  | array rows => exact (Notes.pure _).explained (.inl rfl)
  | cell r => exact c.cellValue_explained _ _
  | range r => exact c.rangeValue_explained _ _
  | name s => exact c.nameValue_explained s
  | binary o left right => exact settle_explained _
  | negate operand => exact settle_explained _
  | percent operand => exact settle_explained _
  | call function arguments => exact settle_explained _

/-! ## Origins -/

namespace Expr

/-- The origin of the earliest error that an expression notes, given that among its operands: nothing if
its value carries no error, and the expression itself if only it notes errors. -/
def originAfter (c : Context) (e : Expr) (inner? : Option Expr) : Option Expr :=
  if (e.valueIn c).carriesError then inner?.or (if (e.own c).issues.isEmpty then none else some e) else none

mutual

/-- The part of an expression which notes the earliest error that is left in the end. -/
def origin? (c : Context) : Expr → Option Expr
  | .literal l => originAfter c (.literal l) none
  | .array rows => originAfter c (.array rows) none
  | .cell r => originAfter c (.cell r) none
  | .range r => originAfter c (.range r) none
  | .name s => originAfter c (.name s) none
  | .binary o left right => originAfter c (.binary o left right) ((left.origin? c).or (right.origin? c))
  | .negate operand => originAfter c (.negate operand) (operand.origin? c)
  | .percent operand => originAfter c (.percent operand) (operand.origin? c)
  | .call function arguments =>
      originAfter c (.call function arguments)
        ((keptBy function (arguments.map (valueIn c))).findSome? fun place =>
          ((origins c arguments)[place]?).join)

/-- The origins of the earliest errors of expressions. -/
def origins (c : Context) : List Expr → List (Option Expr)
  | [] => []
  | e :: es => e.origin? c :: origins c es

end

variable (c : Context)

theorem origins_eq_map (es : List Expr) : origins c es = es.map (origin? c) := by
  induction es with
  | nil => rfl
  | cons e es ih => rw [origins, ih, List.map_cons]

theorem origin?_eq (e : Expr) : e.origin? c = e.originAfter c ((e.keptOperands c).findSome? (origin? c)) := by
  cases e with
  | literal | array | cell | range | name => rfl
  | binary o left right =>
      show _ = originAfter c _ ([left, right].findSome? (origin? c))
      rw [origin?, List.findSome?_cons, List.findSome?_singleton]
      cases left.origin? c <;> rfl
  | negate operand =>
      show _ = originAfter c _ ([operand].findSome? (origin? c))
      rw [origin?, List.findSome?_singleton]
  | percent operand =>
      show _ = originAfter c _ ([operand].findSome? (origin? c))
      rw [origin?, List.findSome?_singleton]
  | call function arguments =>
      rw [origin?, keptOperands, origins_eq_map]
      refine congrArg (originAfter c _) ?_
      generalize keptBy function (arguments.map (valueIn c)) = places
      induction places with
      | nil => rfl
      | cons place places ih =>
          rw [List.findSome?_cons, ih, List.getElem?_map, List.filterMap_cons]
          cases arguments[place]? <;> rfl

theorem mem_operands_of_kept {e operand : Expr} (h : operand ∈ e.keptOperands c) : operand ∈ e.operands := by
  unfold keptOperands at h
  split at h
  next =>
    obtain ⟨place, -, hplace⟩ := List.mem_filterMap.1 h
    exact List.mem_of_getElem? hplace
  next => exact h

/-- The origin of an error has noted it itself. -/
theorem exists_issue_of_origin? (e : Expr) :
    ∀ part, e.origin? c = some part → ∃ issue, (part.own c).issues.head? = some issue := by
  refine e.of_operands (motive := fun e =>
    ∀ part, e.origin? c = some part → ∃ issue, (part.own c).issues.head? = some issue) ?_
  intro e ih part hpart
  rw [origin?_eq, originAfter] at hpart
  split at hpart
  next =>
    rcases Option.or_eq_some_iff.1 hpart with hinner | ⟨-, hself⟩
    · obtain ⟨operand, hoperand, hpart⟩ := List.exists_of_findSome?_eq_some hinner
      exact ih operand (mem_operands_of_kept c hoperand) part hpart
    · cases hissues : (e.own c).issues with
      | nil =>
          rw [hissues] at hself
          cases hself
      | cons issue issues =>
          rw [hissues] at hself
          cases hself
          exact ⟨issue, by rw [hissues, List.head?_cons]⟩
  next => cases hpart

/-- The first error along expressions is that of the first of them that has an origin. -/
theorem findSome?_issues (es : List Expr)
    (h : ∀ e ∈ es, (e.issuesIn c).head? = (e.origin? c).bind fun part => (part.own c).issues.head?) :
    (es.findSome? fun e => (e.issuesIn c).head?) =
      (es.findSome? (origin? c)).bind fun part => (part.own c).issues.head? := by
  induction es with
  | nil => rfl
  | cons e es ih =>
      rw [List.findSome?_cons, List.findSome?_cons, h e List.mem_cons_self,
        ih fun e' he' => h e' (List.mem_cons_of_mem _ he')]
      cases horigin : e.origin? c with
      | none => rfl
      | some part =>
          obtain ⟨issue, hissue⟩ := exists_issue_of_origin? c e part horigin
          simp only [Option.bind_some, hissue]

/-- The earliest error that an expression notes is the first one that its origin notes. -/
theorem head?_issuesIn (e : Expr) :
    (e.issuesIn c).head? = (e.origin? c).bind fun part => (part.own c).issues.head? := by
  refine e.of_operands (motive := fun e =>
    (e.issuesIn c).head? = (e.origin? c).bind fun part => (part.own c).issues.head?) ?_
  intro e ih
  rw [issuesIn_eq, origin?_eq, originAfter]
  split
  next =>
    -- Either an operand has noted an error, and it stands before all of the expression's own, or none has.
    rw [List.head?_append, List.head?_flatMap,
      findSome?_issues c _ fun operand hoperand => ih operand (mem_operands_of_kept c hoperand)]
    cases hinner : (e.keptOperands c).findSome? (origin? c) with
    | none => cases hissues : (e.own c).issues <;> simp [hissues]
    | some part =>
        obtain ⟨operand, -, hpart⟩ := List.exists_of_findSome?_eq_some hinner
        obtain ⟨issue, hissue⟩ := exists_issue_of_origin? c operand part hpart
        simp only [Option.bind_some, hissue, Option.some_or]
  next => rfl

end Expr

/-! ## The reason of a result -/

/-- The earliest error explains a result that is an error if and only if, wherever it comes from, the result
is the first error there. -/
theorem issue_explains_iff (c : Context) (e : Expr) :
    (∀ error, (evaluateAlone c e).1 = .error error →
      ∀ issue, (evaluateAlone c e).2 = some issue → issue.cellError = error) ↔
    ∀ error, (evaluateAlone c e).1 = .error error →
      ∀ part, e.origin? c = some part → (part.valueIn c).firstError? = some error := by
  have hissue : (evaluateAlone c e).2 = (e.origin? c).bind fun part => (part.own c).issues.head? :=
    Expr.head?_issuesIn c e
  have hexplained : ∀ (part : Expr) (issue : FormulaError), (part.own c).issues.head? = some issue →
      (part.valueIn c).firstError? = some issue.cellError := by
    intro part issue h
    rw [valueIn_eq]
    exact own_explained c part issue h
  rw [hissue]
  constructor
  · intro h error herror part hpart
    obtain ⟨issue, hhead⟩ := Expr.exists_issue_of_origin? c e part hpart
    rw [hexplained part issue hhead, h error herror issue (by rw [hpart, Option.bind_some, hhead])]
  · intro h error herror issue hbind
    obtain ⟨part, hpart, hhead⟩ := Option.bind_eq_some_iff.1 hbind
    exact Option.some.inj ((hexplained part issue hhead).symm.trans (h error herror part hpart))

/-- Rounding a text to a place that is no number fails for the text, and the division was noted first. -/
theorem issue_not_explaining :
    ∃ error issue, evaluateAlone .bare (.call "ROUND" [.literal (.text "x"),
      .binary .divide (.literal (.number 1)) (.literal (.number 0))]) = (.error error, some issue) ∧
      issue.cellError ≠ error :=
  ⟨.value, .divisionByZero, by decide +kernel, by decide⟩

end PaintQuote.Formula
