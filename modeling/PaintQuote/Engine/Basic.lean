import PaintQuote.Engine.Edges
import PaintQuote.Engine.Order
import PaintQuote.Engine.References
import PaintQuote.Engine.ResultCache
import PaintQuote.Formula.Evaluation

/-!
# The engine

An engine owns a workbook and evaluates its formulas on demand.  Formulas that can be reached from
the cells asked for are read once, and the cells that they read are entered in the graph.  The graph
gives an order, and each cell is evaluated over the remembered values of the cells that it reads.  A
value is remembered until something that it depends on changes.

With a cache, which several engines may share, the evaluation of a formula is looked up there first.
The cache is handed to every evaluation and handed back, and an engine without one is given none.
-/

namespace PaintQuote

open Sheet Formula

namespace Engine

/-- A formula that has been read, with the names in it. -/
structure Compiled where
  /-- The text of the formula. -/
  text : String
  /-- Its tree. -/
  expr : Expr
  /-- The names in it, in upper case and in order. -/
  names : List String

/-- What an engine has done so far. -/
structure Stats where
  /-- The number of formulas read. -/
  parsed : Nat := 0
  /-- The number of cells evaluated. -/
  evaluated : Nat := 0
  /-- The number of evaluations that the cache answered. -/
  hits : Nat := 0
  /-- The number of evaluations that were looked up in vain. -/
  misses : Nat := 0
deriving DecidableEq, Repr

/-- The values of cells that were asked for, and what explains the errors among them. -/
structure Report where
  /-- The values. -/
  values : Std.TreeMap CellKey CellValue := {}
  /-- The explanations. -/
  issues : Std.TreeMap CellKey FormulaError := {}

/-- Whether nothing in a report is an error. -/
def Report.isSuccess (r : Report) : Bool := r.issues.isEmpty

end Engine

open Engine

/-- A workbook with what is known of its formulas. -/
structure Engine where
  /-- The workbook. -/
  workbook : Workbook := {}
  /-- The formulas that have been read, or why they could not be. -/
  formulas : Std.TreeMap CellKey (Except FormulaError Compiled) := {}
  /-- Which cells the formulas read. -/
  graph : Graph := {}
  /-- The outcomes of formulas that are up to date. -/
  outcomes : Std.TreeMap CellKey Outcome := {}
  /-- What has been done so far. -/
  stats : Stats := {}

namespace Engine

/-- The engine with an empty workbook. -/
def empty : Engine := {}

instance : Inhabited Engine := ⟨empty⟩

/-! ## Reading -/

/-- The value of a cell: the outcome of its formula as far as it is known, or its literal. -/
def value (e : Engine) (key : CellKey) : CellValue :=
  match e.outcomes.get? key with
  | some outcome => outcome.value
  | none => e.workbook.literal key

/-- Whether the outcome of a cell is known. -/
def isKnown (e : Engine) (key : CellKey) : Bool := e.outcomes.contains key

/-- What explains the error in a cell. -/
def issue? (e : Engine) (key : CellKey) : Option FormulaError :=
  (e.outcomes.get? key).bind (·.issue?)

/-- The engine as a source of values and names. -/
def source (e : Engine) : Source := ⟨e.value, e.workbook.hasSheet, e.workbook.name?⟩

/-! ## Writing -/

/-- The engine without what it knew of a cell whose content changed. -/
def forgetContent (e : Engine) (key : CellKey) : Engine :=
  { e with
    formulas := e.formulas.erase key
    graph := e.graph.clearCell key
    outcomes := e.outcomes.erase key }

/-- The engine without the outcome of a cell. -/
def forgetOutcome (e : Engine) (key : CellKey) : Engine :=
  { e with outcomes := e.outcomes.erase key }

/-- The engine without what it knew of changed cells, and without the outcomes of the cells that
depend on them. -/
def invalidate (e : Engine) (changed : List CellKey) : Engine :=
  let downstream := e.graph.downstream changed
  downstream.toList.foldl forgetOutcome (changed.foldl forgetContent e)

/-- Writes cells in turn. -/
def load (e : Engine) (entries : List (CellKey × Content)) : Engine :=
  let (workbook, changed) := e.workbook.load entries
  ({ e with workbook } : Engine).invalidate changed

/-- Writes a formula into a cell, unless the cell holds it already. -/
def setFormula (e : Engine) (key : CellKey) (text : String) : Engine :=
  if e.workbook.formula? key = some text then e
  else
    let (workbook, _) := e.workbook.set key (.formula text)
    ({ e with workbook } : Engine).invalidate [key]

/-- Defines a name.  Any formula may read it, so nothing that is known stays. -/
def defineName (e : Engine) (name : DefinedName) : Except ReferenceError Engine :=
  (e.workbook.defineName name).map fun workbook =>
    { e with workbook, formulas := {}, graph := {}, outcomes := {} }

/-- Defines a name whose target is written in a text. -/
def define (e : Engine) (name target : String) : Except ReferenceError Engine :=
  (DefinedName.ofText name target).bind e.defineName

/-! ## Reading formulas -/

/-- The engine after a formula has been read. -/
def compile (e : Engine) (key : CellKey) (text : String) : Engine :=
  let stats := { e.stats with parsed := e.stats.parsed + 1 }
  match Expr.ofText text with
  | .ok expr =>
      let references := References.ofExpr e.workbook.names key.sheet expr
      { e with
        stats
        formulas := e.formulas.insert key (.ok ⟨text, expr, references.names.toList⟩)
        graph := e.graph.setPrecedents key references.cells.toList }
  | .error error =>
      { e with
        stats
        formulas := e.formulas.insert key (.error error.report)
        graph := e.graph.clearCell key }

/-- The engine after the formula of a cell has been read, if it has one that has not been. -/
def compileCell (e : Engine) (key : CellKey) : Engine :=
  if e.formulas.contains key then e
  else
    match e.workbook.formula? key with
    | some text => e.compile key text
    | none => e

/-! ## What reading a formula changes -/

section

variable (e : Engine) (key : CellKey) (text : String)

theorem compile_workbook : (e.compile key text).workbook = e.workbook := by
  unfold compile
  split <;> rfl

theorem compile_outcomes : (e.compile key text).outcomes = e.outcomes := by
  unfold compile
  split <;> rfl

/-- Reading the formula of a cell enters what it reads. -/
theorem compile_precedents_self (hf : e.workbook.formula? key = some text) :
    (e.compile key text).graph.precedents key = e.workbook.references key := by
  unfold compile
  cases hx : Expr.ofText text with
  | ok expr =>
      rw [Workbook.references_ok hf hx]
      exact e.graph.precedents_setPrecedents_self key Std.TreeSet.ordered_toList
  | error error =>
      rw [Workbook.references_error hf hx]
      exact e.graph.precedents_clearCell_self key

theorem compile_precedents_of_ne {c : CellKey} (hne : c ≠ key) :
    (e.compile key text).graph.precedents c = e.graph.precedents c := by
  unfold compile
  split
  · exact e.graph.precedents_setPrecedents_of_ne _ hne
  · exact e.graph.precedents_clearCell_of_ne hne

theorem compile_contains (c : CellKey) :
    (e.compile key text).formulas.contains c = (e.formulas.contains c || decide (c = key)) := by
  unfold compile
  split <;> exact Keyed.contains_insert _ _ _ _

theorem compileCell_eq : e.compileCell key = e ∨ ∃ text, e.workbook.formula? key = some text ∧
    e.formulas.contains key = false ∧ e.compileCell key = e.compile key text := by
  unfold compileCell
  split
  next => exact Or.inl rfl
  next hnew =>
    split
    next text hf => exact Or.inr ⟨text, hf, Bool.eq_false_iff.2 hnew, rfl⟩
    next => exact Or.inl rfl

theorem compileCell_workbook : (e.compileCell key).workbook = e.workbook := by
  rcases compileCell_eq e key with h | ⟨text, _, _, h⟩
  · rw [h]
  · rw [h, compile_workbook]

/-- The number of cells that a cell reads: those entered in the graph if its formula has been read,
and else those in its formula. -/
def readCount : Nat :=
  if e.formulas.contains key then (e.graph.precedents key).length
  else (e.workbook.references key).length

theorem compileCell_precedents_length (hf : (e.workbook.formula? key).isSome) :
    ((e.compileCell key).graph.precedents key).length = e.readCount key := by
  unfold readCount
  cases hold : e.formulas.contains key with
  | true => simp [compileCell, hold]
  | false =>
      obtain ⟨text, htext⟩ := Option.isSome_iff_exists.1 hf
      have heq : e.compileCell key = e.compile key text := by simp [compileCell, hold, htext]
      rw [heq, compile_precedents_self e key text htext]
      rfl

theorem compileCell_readCount {c : CellKey} (hne : c ≠ key) :
    (e.compileCell key).readCount c = e.readCount c := by
  rcases compileCell_eq e key with h | ⟨text, _, _, h⟩
  · rw [h]
  · have hcontains : (e.compile key text).formulas.contains c = e.formulas.contains c := by
      rw [compile_contains, decide_eq_false hne, Bool.or_false]
    unfold readCount
    rw [h, hcontains, compile_precedents_of_ne e key text hne, compile_workbook]

end

/-- The number of cells read by the cells with contents that have not been seen. -/
def openReads (e : Engine) (seen : CellSet) : Nat :=
  Graph.openSum seen.contains e.readCount e.workbook.cells.keys

/-- Reads the formulas of the cells on a stack and of all that they read.  What a known cell reads is
known as well. -/
def prepareFrom (e : Engine) (seen : CellSet) : List CellKey → Engine
  | [] => e
  | key :: stack =>
      if e.isKnown key || seen.contains key then e.prepareFrom seen stack
      else if (e.workbook.formula? key).isNone then e.prepareFrom (seen.insert key) stack
      else
        (e.compileCell key).prepareFrom (seen.insert key)
          ((e.compileCell key).graph.precedents key ++ stack)
termination_by stack => stack.length + e.openReads seen
decreasing_by
  · simp only [List.length_cons]
    omega
  · have hle : e.openReads (seen.insert key) ≤ e.openReads seen :=
      Graph.openSum_le (Keyed.contains_setInsert seen key) (fun _ _ => rfl) _
    simp only [List.length_cons]
    omega
  · rename_i hnew hf
    have hf' : (e.workbook.formula? key).isSome := by simpa [Option.isSome_iff_ne_none] using hf
    have hseen : seen.contains key = false := by
      rw [Bool.or_eq_true, not_or] at hnew
      exact Bool.eq_false_iff.2 hnew.2
    have hle := Graph.openSum_add_le hseen (Keyed.contains_setInsert seen key)
      (fun c => e.compileCell_readCount key (c := c)) (Workbook.mem_keys_of_formula? hf')
    simp only [List.length_append, List.length_cons, openReads, compileCell_workbook,
      e.compileCell_precedents_length key hf']
    omega

/-- Reads all formulas that can be reached from the given cells. -/
def prepare (e : Engine) (roots : List CellKey) : Engine := e.prepareFrom {} roots

/-! ## Evaluating -/

/-- The value of a formula as a cell shows it, and the errors noted on the way. -/
def shownValue (c : Context) (expr : Expr) : Value × Log :=
  (do
    let v ← evaluate c expr
    match v with
    | .array [[w]] => pure (.scalar w)
    | .array _ => Logged.fail (.type "Formula returned more than one value")
    | .empty => pure (.number 0)
    | v => pure v : Logged Value).run []

/-- The outcome of a formula.  The first error noted explains the value if it is that error. -/
def outcomeOf (c : Context) (expr : Expr) : Outcome :=
  let (v, log) := shownValue c expr
  match v.toCell with
  | .error e =>
      match log.head? with
      | some issue => ⟨.error e, some (if issue.cellError = e then issue else .errorValue e)⟩
      | none => ⟨.error e, some (.errorValue e)⟩
  | v => .ok v

/-- The value under which a cell that is read enters a key; a cell on a sheet that does not exist
enters as an error. -/
def keyValue (e : Engine) (cell : CellKey) : CellValue :=
  if e.workbook.hasSheet cell.sheet then e.value cell else .error .reference

/-- The key for the evaluation of a formula. -/
def cacheKey (e : Engine) (key : CellKey) (compiled : Compiled) : CacheKey :=
  .ofParts compiled.text
    ((compiled.names.map fun name => .name name ((e.workbook.name? name).map (·.target)))
      ++ (e.graph.precedents key).map fun cell => .dependency cell (e.keyValue cell))

/-- The outcome of a formula that has been read, looked up if there is a cache. -/
def compute (e : Engine) (cache : Option ResultCache) (key : CellKey) (compiled : Compiled) :
    Outcome × Option CacheStatus × Option ResultCache :=
  let evaluated (_ : Unit) : Outcome := outcomeOf ⟨e.source, key.sheet⟩ compiled.expr
  match cache with
  | none => (evaluated (), none, none)
  | some cache =>
      let (outcome, status, cache) := cache.getOrCompute (e.cacheKey key compiled) evaluated
      (outcome, some status, some cache)

/-- The engine with the outcome of a cell. -/
def record (e : Engine) (key : CellKey) (outcome : Outcome) (status : Option CacheStatus) :
    Engine :=
  { e with
    outcomes := e.outcomes.insert key outcome
    stats :=
      { e.stats with
        evaluated := e.stats.evaluated + 1
        hits := e.stats.hits + (if status = some .hit then 1 else 0)
        misses := e.stats.misses + (if status = some .miss then 1 else 0) } }

/-- Evaluates a cell, if it holds a formula that is not known. -/
def evaluateCell (e : Engine) (cache : Option ResultCache) (key : CellKey) :
    Engine × Option ResultCache :=
  if e.isKnown key then (e, cache)
  else
    match e.formulas.get? key with
    | none => (e, cache)
    | some (.error error) => (e.record key (.failed error) none, cache)
    | some (.ok compiled) =>
        let (outcome, status, cache) := e.compute cache key compiled
        (e.record key outcome status, cache)

/-- The error of cells that depend on themselves. -/
def cycleError (members : List CellKey) : FormulaError :=
  .circularReference (String.intercalate ", " (members.map CellKey.toText))

/-- Gives a cell of a cycle its error. -/
def markCircular (error : FormulaError) (e : Engine) (key : CellKey) : Engine :=
  if e.isKnown key then e else e.record key (.failed error) none

/-- Takes a step of an evaluation. -/
def take (state : Engine × Option ResultCache) (step : Step) : Engine × Option ResultCache :=
  match step with
  | .cell key => state.1.evaluateCell state.2 key
  | .cycle members => (members.foldl (markCircular (cycleError members)) state.1, state.2)

/-- Evaluates all formulas that the given cells need and that are not known. -/
def run (e : Engine) (cache : Option ResultCache) (roots : List CellKey) :
    Engine × Option ResultCache :=
  let e := e.prepare roots
  let pending := roots.filter fun key => !e.isKnown key
  (e.graph.order pending).foldl take (e, cache)

/-! ## Asking -/

/-- The value of a cell, whose formula may be given; it is then written first. -/
def evaluate (e : Engine) (cache : Option ResultCache) (key : CellKey) (text? : Option String) :
    CellValue × Engine × Option ResultCache :=
  let e :=
    match text? with
    | some text => e.setFormula key text
    | none => e
  if (e.workbook.formula? key).isNone then (e.workbook.literal key, e, cache)
  else
    let (e, cache) := e.run cache [key]
    (e.value key, e, cache)

/-- A report with the value of one more cell. -/
def addToReport (e : Engine) (r : Report) (key : CellKey) : Report where
  values := r.values.insert key (e.value key)
  issues :=
    match e.issue? key with
    | some issue => r.issues.insert key issue
    | none => r.issues

/-- The values of cells. -/
def evaluateAll (e : Engine) (cache : Option ResultCache) (keys : List CellKey) :
    Report × Engine × Option ResultCache :=
  let (e, cache) := e.run cache keys
  (keys.foldl e.addToReport {}, e, cache)

end Engine

end PaintQuote
