import PaintQuote.Proofs.Engine.Run

/-!
# Answers to requests

A workbook has one meaning: an outcome for every cell such that each cell has what it is due over the
values of all others (`Workbook.Meaning`, `Workbook.exists_meaning`, `Workbook.Meaning.unique`).

* `answers_meaning`: an engine without a cache that is given a workbook answers every sequence of
  requests with the outcomes of its meaning.
-/

namespace PaintQuote

open Sheet Formula Engine

/-- An outcome for every cell such that each cell has what it is due. -/
def Sheet.Workbook.Meaning (w : Workbook) (outcome : CellKey → Outcome) : Prop :=
  ∀ k, Due w w.hasSheet (fun p => (outcome p).value) k (outcome k)

/-- A workbook has no two meanings. -/
theorem Sheet.Workbook.Meaning.unique {w : Workbook} {outcome outcome' : CellKey → Outcome}
    (h : w.Meaning outcome) (h' : w.Meaning outcome') : outcome = outcome' := by
  have hall : ∀ k, True → outcome k = outcome' k :=
    Due.unique_on (fun _ _ _ _ => trivial) (fun k _ => h k) (fun k _ => h' k)
  funext k
  exact hall k trivial

namespace Engine

/-! ## What an engine shows -/

/-- What an engine shows for a cell: the outcome of its formula as far as it is known, or its
literal. -/
def shown (e : Engine) (key : CellKey) : Outcome :=
  (e.outcomes.get? key).getD (.ok (e.workbook.literal key))

/-- The outcome of a cell is known, or the cell holds no formula. -/
def Settled (e : Engine) (key : CellKey) : Prop :=
  e.isKnown key ∨ e.workbook.formula? key = none

variable {e : Engine} {key : CellKey}

theorem shown_value (e : Engine) (key : CellKey) : (e.shown key).value = e.value key := by
  unfold shown value
  cases e.outcomes.get? key <;> rfl

theorem shown_issue? (e : Engine) (key : CellKey) : (e.shown key).issue? = e.issue? key := by
  unfold shown issue?
  cases e.outcomes.get? key <;> rfl

namespace Valid

variable {seen : CellKey → SheetName → Bool} {outcome : CellKey → Outcome}

theorem not_known_of_formula?_eq_none (h : e.Valid seen) (hf : e.workbook.formula? key = none) :
    ¬ e.isKnown key := by
  intro hk
  have hsome := h.formula?_isSome hk
  rw [hf] at hsome
  cases hsome

/-- Settled cells read only settled cells. -/
theorem settled_closed (h : e.Valid seen) (hk : e.Settled key) {p : CellKey}
    (hread : e.workbook.Reads key p) : e.Settled p := by
  rcases hk with hk | hf
  · by_cases hp : (e.workbook.formula? p).isSome
    · exact Or.inl (h.known_closed key hk p hread hp)
    · exact Or.inr (Option.not_isSome_iff_eq_none.1 hp)
  · rw [Workbook.Reads, Workbook.references_none hf] at hread
    cases hread

/-- What an engine shows for settled cells is what they are due. -/
theorem shown_due (h : e.Valid seen) (hk : e.Settled key) :
    Due e.workbook (seen key) (fun p => (e.shown p).value) key (e.shown key) := by
  simp only [shown_value]
  by_cases hknown : e.isKnown key
  · obtain ⟨o, ho⟩ := isKnown_iff.1 hknown
    have hshown : e.shown key = o := by rw [shown, ho, Option.getD_some]
    rw [hshown]
    exact h.known_due key o ho
  · have hshown : e.shown key = .ok (e.workbook.literal key) := by
      have hnone : e.outcomes.get? key = none := by
        rw [← Option.not_isSome_iff_eq_none, ← Keyed.contains_eq_isSome]
        exact hknown
      rw [shown, hnone, Option.getD_none]
    rw [hshown]
    exact .literal (hk.resolve_left hknown)

/-- An engine shows the meaning of its workbook where it is settled, if the outcomes of known cells
are right with the sheets that these have seen. -/
theorem shown_eq_of (h : e.Valid seen) (hm : e.workbook.Meaning outcome)
    (hseen : ∀ k, e.isKnown k →
      Due e.workbook (seen k) (fun p => (outcome p).value) k (outcome k)) :
    ∀ k, e.Settled k → e.shown k = outcome k := by
  refine Due.unique_on (fun k hk p hread => h.settled_closed hk hread) (fun k hk => h.shown_due hk) ?_
  intro k hk
  by_cases hknown : e.isKnown k
  · exact hseen k hknown
  · have hf := hk.resolve_left hknown
    have houtcome : outcome k = .ok (e.workbook.literal k) := (hm k).eq_of_literal hf
    rw [houtcome]
    exact .literal hf

/-- What an engine shows that has evaluated all its cells is the meaning of its workbook. -/
theorem meaning (h : e.Valid fun _ => e.workbook.hasSheet) :
    e.workbook.Meaning (e.run none e.workbook.cells.keys).1.shown := by
  obtain ⟨e', hrun, hvalid, hworkbook, _, hknown⟩ := h.run (fun _ _ => rfl) e.workbook.cells.keys
  rw [hrun]
  intro k
  have hk : e'.Settled k := by
    by_cases hf : (e.workbook.formula? k).isSome
    · exact Or.inl (hknown k (Workbook.mem_keys_of_formula? hf) hf)
    · exact Or.inr (hworkbook ▸ Option.not_isSome_iff_eq_none.1 hf)
  have hdue := hvalid.shown_due hk
  rw [hworkbook] at hdue
  exact hdue

end Valid

end Engine

/-- Every workbook has a meaning. -/
theorem Sheet.Workbook.exists_meaning (w : Workbook) : ∃ outcome, w.Meaning outcome :=
  ⟨_, (valid_fresh w fun _ => w.hasSheet).meaning⟩

namespace Engine

variable {e : Engine}

/-! ## Requests -/

/-- What an engine can be asked without being told anything new. -/
inductive Request where
  /-- The value of a cell; its own formula may be given again. -/
  | one (key : CellKey) (withFormula : Bool)
  /-- The values of cells. -/
  | many (keys : List CellKey)

/-- The cells that a request asks for. -/
def Request.keys : Request → List CellKey
  | .one key _ => [key]
  | .many keys => keys

/-- What an engine says of a cell. -/
structure Answer where
  /-- The cell. -/
  key : CellKey
  /-- Its value, if one is reported. -/
  value? : Option CellValue
  /-- What explains the error in it. -/
  issue? : Option FormulaError
deriving DecidableEq

/-- The answer that reports an outcome. -/
def Answer.ofOutcome (key : CellKey) (o : Outcome) : Answer := ⟨key, some o.value, o.issue?⟩

/-- The answers to a request, and the engine afterwards. -/
def ask (e : Engine) : Request → List Answer × Engine
  | .one key withFormula =>
      let (value, e, _) := e.evaluate none key (if withFormula then e.workbook.formula? key else none)
      ([⟨key, some value, e.issue? key⟩], e)
  | .many keys =>
      let (report, e, _) := e.evaluateAll none keys
      (keys.map fun key => ⟨key, report.values.get? key, report.issues.get? key⟩, e)

/-- The answers to requests in turn. -/
def answers (e : Engine) : List Request → List Answer
  | [] => []
  | request :: requests => (e.ask request).1 ++ (e.ask request).2.answers requests

/-- A report holds what the engine shows. -/
theorem foldl_addToReport (e : Engine) (keys : List CellKey) :
    ∀ (r : Report) (k : CellKey),
      (keys.foldl e.addToReport r).values.get? k =
          (if k ∈ keys then some (e.value k) else r.values.get? k) ∧
        (keys.foldl e.addToReport r).issues.get? k =
          (if k ∈ keys ∧ (e.issue? k).isSome then e.issue? k else r.issues.get? k) := by
  induction keys with
  | nil => simp
  | cons key keys ih =>
      intro r k
      obtain ⟨hvalues, hissues⟩ := ih (e.addToReport r key) k
      rw [List.foldl_cons, hvalues, hissues, addToReport]
      simp only []
      constructor
      · rw [Keyed.get?_insert]
        by_cases hk : k = key
        · simp [hk]
        · simp [hk]
      · cases hissue : e.issue? key with
        | none =>
            by_cases hk : k = key
            · simp [hk, hissue]
            · simp [hk]
        | some issue =>
            rw [Keyed.get?_insert]
            by_cases hk : k = key
            · simp [hk, hissue]
            · simp [hk]

namespace Valid

variable {seen : CellKey → SheetName → Bool} {outcome : CellKey → Outcome}

/-- An engine answers a request with what it shows afterwards for cells that are then settled, and
remembers what it knew. -/
theorem ask (h : e.Valid seen) (hseen : ∀ k, ¬ e.isKnown k → seen k = e.workbook.hasSheet)
    (request : Request) :
    ∃ e', e.ask request = (request.keys.map fun k => .ofOutcome k (e'.shown k), e') ∧
      e'.Valid seen ∧ e'.workbook = e.workbook ∧
      (∀ k o, e.outcomes.get? k = some o → e'.outcomes.get? k = some o) ∧
      ∀ k ∈ request.keys, e'.Settled k := by
  cases request with
  | one key withFormula =>
      have hset : e.evaluate none key (if withFormula then e.workbook.formula? key else none) =
          e.evaluate none key none := by
        cases withFormula with
        | false => rfl
        | true =>
            cases hf : e.workbook.formula? key with
            | none => simp
            | some text => simp [Engine.evaluate, setFormula, hf]
      have hanswer : ∀ e' : Engine, Answer.mk key (some (e'.value key)) (e'.issue? key) =
          .ofOutcome key (e'.shown key) := by
        intro e'
        rw [Answer.ofOutcome, shown_value, shown_issue?]
      simp only [Engine.ask, hset, Request.keys, List.map_cons, List.map_nil]
      simp only [Engine.evaluate]
      cases hf : e.workbook.formula? key with
      | none =>
          have hvalue := value_of_not_known (h.not_known_of_formula?_eq_none hf)
          simp only [Option.isNone_none, if_true]
          refine ⟨e, by rw [← hvalue, hanswer], h, rfl, fun _ _ ho => ho, ?_⟩
          intro k hk
          rw [List.mem_singleton.1 hk]
          exact Or.inr hf
      | some text =>
          obtain ⟨e', hrun, hvalid, hworkbook, hkept, hknown⟩ := h.run hseen [key]
          simp only [Option.isNone_some, Bool.false_eq_true, if_false, hrun]
          refine ⟨e', by rw [hanswer], hvalid, hworkbook, hkept, ?_⟩
          intro k hk
          rw [List.mem_singleton.1 hk]
          exact Or.inl (hknown key (List.mem_singleton.2 rfl) (by rw [hf]; rfl))
  | many keys =>
      obtain ⟨e', hrun, hvalid, hworkbook, hkept, hknown⟩ := h.run hseen keys
      simp only [Engine.ask, Engine.evaluateAll, hrun, Request.keys]
      refine ⟨e', ?_, hvalid, hworkbook, hkept, ?_⟩
      · refine congrArg (·, e') (List.map_congr_left ?_)
        intro k hk
        obtain ⟨hvalues, hissues⟩ := foldl_addToReport e' keys {} k
        rw [hvalues, hissues, if_pos hk, Answer.ofOutcome, shown_value, shown_issue?]
        cases e'.issue? k <;> simp [hk]
      · intro k hk
        by_cases hf : (e.workbook.formula? k).isSome
        · exact Or.inl (hknown k hk hf)
        · exact Or.inr (hworkbook ▸ Option.not_isSome_iff_eq_none.1 hf)

/-- An engine answers a request with the meaning of its workbook, if the outcomes of known cells are
right with the sheets that these have seen. -/
theorem ask_eq (h : e.Valid seen) (hseen : ∀ k, ¬ e.isKnown k → seen k = e.workbook.hasSheet)
    (hm : e.workbook.Meaning outcome)
    (hdue : ∀ k, e.isKnown k →
      Due e.workbook (seen k) (fun p => (outcome p).value) k (outcome k)) (request : Request) :
    (e.ask request).1 = request.keys.map fun k => .ofOutcome k (outcome k) := by
  obtain ⟨e', hask, hvalid, hworkbook, _, hsettled⟩ := h.ask hseen request
  rw [hask]
  refine List.map_congr_left ?_
  intro k hk
  rw [hvalid.shown_eq_of (hworkbook.symm ▸ hm) ?_ k (hsettled k hk)]
  intro k' _
  rw [hworkbook]
  by_cases hold : e.isKnown k'
  · exact hdue k' hold
  · rw [hseen k' hold]
    exact hm k'

/-- An engine that is valid with the sheets of its workbook answers with the meaning of the
workbook. -/
theorem answers (requests : List Request) :
    ∀ {e : Engine}, (e.Valid fun _ => e.workbook.hasSheet) → e.workbook.Meaning outcome →
      e.answers requests =
        (requests.flatMap Request.keys).map fun k => .ofOutcome k (outcome k) := by
  induction requests with
  | nil =>
      intro e h hm
      rfl
  | cons request requests ih =>
      intro e h hm
      have hanswer := h.ask_eq (fun _ _ => rfl) hm (fun k _ => hm k) request
      obtain ⟨e', hask, hvalid, hworkbook, _, _⟩ := h.ask (fun _ _ => rfl) request
      rw [← hworkbook] at hvalid hm
      rw [Engine.answers, hanswer, hask, ih hvalid hm, List.flatMap_cons, List.map_append]

end Valid

/-- Every workbook has exactly one meaning, and an engine without a cache that is given the workbook
answers every sequence of requests with the outcomes of this meaning. -/
theorem answers_meaning (w : Workbook) :
    ∃ outcome : CellKey → Outcome, w.Meaning outcome ∧
      (∀ other, w.Meaning other → other = outcome) ∧
      ∀ requests : List Request, ({ workbook := w } : Engine).answers requests =
        (requests.flatMap Request.keys).map fun k => .ofOutcome k (outcome k) := by
  obtain ⟨outcome, hm⟩ := w.exists_meaning
  refine ⟨outcome, hm, ?_, ?_⟩
  · intro other hother
    exact hother.unique hm
  · intro requests
    exact (valid_fresh w _).answers requests hm

end Engine

end PaintQuote
