import PaintQuote.Proofs.Cache.Sessions
import PaintQuote.Proofs.Engine.Recomputation

/-!
# What reports account for

The outcome of a formula explains its value exactly if this is an error, and by that error
(`Outcome.Explained`).  So it is for failures and for all that is evaluated, and with this for all that
the engines of a session show (`Pool.explained`).  A report has a value for every cell asked for, an
explanation for exactly those formulas whose values are errors, and none for a literal, whatever it is
(`Pool.report_accounts`).
-/

namespace PaintQuote.Engine

open Sheet Formula

/-! ## Outcomes that explain themselves -/

/-- An outcome with an error has an explanation of this error, and any other has none. -/
def Outcome.Explained (o : Outcome) : Prop := o.issue?.map FormulaError.cellError = o.value.error?

theorem Outcome.explained_failed (error : FormulaError) : (Outcome.failed error).Explained := rfl

theorem explained_outcomeOf (c : Context) (expr : Expr) : (outcomeOf c expr).Explained := by
  unfold outcomeOf
  simp only []
  generalize (shownValue c expr).1.toCell = v
  generalize (shownValue c expr).2.head? = issue?
  cases v with
  | error e =>
      cases issue? with
      | none => rfl
      | some issue =>
          have hcell : (if issue.cellError = e then issue else .errorValue e).cellError = e := by
            split
            next h => exact h
            next => rfl
          exact congrArg some hcell
  | _ => rfl

/-! ## Cells that are asked for -/

section

variable {e : Engine} {keys : List CellKey} {k : CellKey}

/-- Once cells are asked for, the outcomes of their formulas are known, whatever the cache. -/
theorem isKnown_run_reached (h : Pool.IsReached e) (cache : Option ResultCache) (hk : k ∈ keys)
    (hf : (e.workbook.formula? k).isSome) : (e.run cache keys).1.isKnown k := by
  obtain ⟨given, rfl⟩ := h
  have hmatches := reached_matches given
  obtain ⟨seen, hvalid, hseen⟩ := (valid_history (given.map (·.2))).refresh
  obtain ⟨e', hrun, -, -, -, hknown⟩ := hvalid.run hseen keys
  have hact := (hmatches.act cache none (.evaluateAll keys)).isKnown k
  simp only [act, evaluateAll, hrun] at hact
  rw [hact]
  exact hknown k hk (hmatches.workbook ▸ hf)

/-- Cells without formulas are not known. -/
theorem not_known_reached (h : Pool.IsReached e) (hf : e.workbook.formula? k = none) :
    e.outcomes.get? k = none := by
  obtain ⟨given, rfl⟩ := h
  cases ho : (reached given).outcomes.get? k with
  | none => rfl
  | some o =>
      obtain ⟨text, hsome, -⟩ := (represents_reached given).known k (isKnown_iff.2 ⟨o, ho⟩)
      rw [hf] at hsome
      cases hsome

end

/-! ## Reports -/

theorem Report.isSuccess_iff {r : Report} : r.isSuccess = true ↔ ∀ k, r.issues.get? k = none := by
  rw [Report.isSuccess, Std.TreeMap.isEmpty_iff_forall_contains]
  refine forall_congr' fun k => ?_
  rw [Keyed.contains_eq_isSome, Option.isSome_eq_false_iff, Option.isNone_iff_eq_none]

namespace Pool

/-- The report on cells that an engine is asked for. -/
def report (p : Pool) (i : Nat) (keys : List CellKey) : Report :=
  ((p.engine i).evaluateAll p.cache keys).1

/-- The engine that has been asked for cells. -/
def asked (p : Pool) (i : Nat) (keys : List CellKey) : Engine := ((p.engine i).run p.cache keys).1

/-- A report says of the cells asked for what the engine shows then, and nothing of others. -/
theorem report_get? (p : Pool) (i : Nat) (keys : List CellKey) (k : CellKey) :
    (p.report i keys).values.get? k = (if k ∈ keys then some ((p.asked i keys).value k) else none) ∧
      (p.report i keys).issues.get? k = (if k ∈ keys then (p.asked i keys).issue? k else none) := by
  have hreport : p.report i keys = keys.foldl (p.asked i keys).addToReport {} := rfl
  obtain ⟨hvalues, hissues⟩ := foldl_addToReport (p.asked i keys) keys {} k
  rw [hreport, hvalues, hissues]
  cases (p.asked i keys).issue? k <;> simp

section

variable {p : Pool} {i : Nat} {keys : List CellKey} {k : CellKey}

/-- Whatever engines remember after a session explains itself. -/
theorem Reachable.explained (h : p.Reachable) {o : Outcome} (ho : p.Holds o) : o.Explained := by
  obtain ⟨capacity?, events, rfl⟩ := h
  rcases origin capacity? events ho with ⟨error, rfl⟩ | ⟨x, -, rfl⟩
  · exact Outcome.explained_failed error
  · exact explained_outcomeOf _ _

theorem asked_eq : p.asked i keys = (p.act i (.evaluateAll keys)).engine i := (if_pos rfl).symm

/-- A formula that is asked for has a value, and an explanation if and only if this is an error, by this
error. -/
theorem report_formula (h : p.Reachable) (hk : k ∈ keys)
    (hf : ((p.engine i).workbook.formula? k).isSome) :
    ∃ v, (p.report i keys).values.get? k = some v ∧
      ((p.report i keys).issues.get? k).map FormulaError.cellError = v.error? := by
  obtain ⟨o, ho⟩ := isKnown_iff.1 (isKnown_run_reached (h.isReached i) p.cache hk hf)
  have hasked : (p.asked i keys).outcomes.get? k = some o := ho
  obtain ⟨hvalue, hissue⟩ := p.report_get? i keys k
  rw [hvalue, hissue, if_pos hk, if_pos hk, value_of_known hasked, issue?, hasked]
  refine ⟨_, rfl, (h.act i (.evaluateAll keys)).explained ⟨i, Or.inl ⟨k, ?_⟩⟩⟩
  rw [← asked_eq]
  exact hasked

/-- A literal that is asked for is reported as it is, without an explanation. -/
theorem report_literal (h : p.Reachable) (hk : k ∈ keys)
    (hf : (p.engine i).workbook.formula? k = none) :
    (p.report i keys).values.get? k = some ((p.engine i).workbook.literal k) ∧
      (p.report i keys).issues.get? k = none := by
  have hworkbook : (p.asked i keys).workbook = (p.engine i).workbook :=
    act_workbook (p.engine i) p.cache (.evaluateAll keys)
  have hreached : IsReached (p.asked i keys) := asked_eq ▸ (h.act i (.evaluateAll keys)).isReached i
  have hnone := not_known_reached hreached (hworkbook ▸ hf)
  obtain ⟨hvalue, hissue⟩ := p.report_get? i keys k
  rw [hvalue, hissue, if_pos hk, if_pos hk, value, issue?, hnone, hworkbook]
  exact ⟨rfl, rfl⟩

end

/-- A report has the value of every cell asked for and says nothing of others.  A formula is explained if
and only if its value is an error, by this error; a literal shows what it is and is never explained.  A
report is a success if and only if no formula asked for has an error. -/
theorem report_accounts (p : Pool) (h : p.Reachable) (i : Nat) (keys : List CellKey) :
    (∀ k ∈ keys, ((p.engine i).workbook.formula? k).isSome →
      ∃ v, (p.report i keys).values.get? k = some v ∧
        ((p.report i keys).issues.get? k).map FormulaError.cellError = v.error?) ∧
    (∀ k ∈ keys, (p.engine i).workbook.formula? k = none →
      (p.report i keys).values.get? k = some ((p.engine i).workbook.literal k) ∧
        (p.report i keys).issues.get? k = none) ∧
    (∀ k, k ∉ keys →
      (p.report i keys).values.get? k = none ∧ (p.report i keys).issues.get? k = none) ∧
    ((p.report i keys).isSuccess = true ↔
      ∀ k ∈ keys, ((p.engine i).workbook.formula? k).isSome →
        ∀ v, (p.report i keys).values.get? k = some v → v.error? = none) := by
  have habsent : ∀ k, k ∉ keys →
      (p.report i keys).values.get? k = none ∧ (p.report i keys).issues.get? k = none := by
    intro k hk
    obtain ⟨hvalue, hissue⟩ := p.report_get? i keys k
    rw [hvalue, hissue, if_neg hk, if_neg hk]
    exact ⟨rfl, rfl⟩
  refine ⟨fun k hk hf => report_formula h hk hf, fun k hk hf => report_literal h hk hf, habsent, ?_⟩
  rw [Report.isSuccess_iff]
  constructor
  · intro hnone k hk hf v hv
    obtain ⟨w, hw, hissue⟩ := report_formula h hk hf
    rw [hv] at hw
    cases hw
    rw [← hissue, hnone k, Option.map_none]
  · intro hall k
    by_cases hk : k ∈ keys
    · by_cases hf : ((p.engine i).workbook.formula? k).isSome
      · obtain ⟨v, hv, hissue⟩ := report_formula h hk hf
        rw [hall k hk hf v hv] at hissue
        exact Option.map_eq_none_iff.1 hissue
      · exact (report_literal h hk (Option.not_isSome_iff_eq_none.1 hf)).2
    · exact (habsent k hk).2

/-- Of an error that is written, a formula that fails and a formula that reads it, the formulas are
explained and the literal is not. -/
theorem report_accounts_failures :
    let key (column : Nat) : CellKey := ⟨.standard, ⟨0, column⟩⟩
    let p := (opening (some 4)).reach [.act 0 (.load [(key 0, .literal (.error .notAvailable)),
      (key 1, .formula "=1/0"), (key 2, .formula "=B1+1")])]
    p.Reachable ∧
      (∀ k ∈ [key 1, key 2], ∃ v, (p.report 0 [key 0, key 1, key 2]).values.get? k = some v ∧
        ((p.report 0 [key 0, key 1, key 2]).issues.get? k).map FormulaError.cellError = v.error?) ∧
      (p.report 0 [key 0, key 1, key 2]).issues.get? (key 0) = none := by
  intro key p
  have hp : p.Reachable := ⟨some 4, _, rfl⟩
  have hformula : ∀ k ∈ [key 1, key 2], ((p.engine 0).workbook.formula? k).isSome := by decide +kernel
  have hliteral : (p.engine 0).workbook.formula? (key 0) = none := by decide +kernel
  have haccounts := report_accounts p hp 0 [key 0, key 1, key 2]
  refine ⟨hp, fun k hk => ?_, (haccounts.2.1 (key 0) List.mem_cons_self hliteral).2⟩
  exact haccounts.1 k (List.mem_cons_of_mem _ hk) (hformula k hk)

/-- The report on an error that is written has no explanation and is a success. -/
theorem literal_error_unexplained :
    let key : CellKey := ⟨.standard, ⟨0, 0⟩⟩
    let p := (opening none).reach [.act 0 (.load [(key, .literal (.error .notAvailable))])]
    (p.report 0 [key]).values.get? key = some (.error .notAvailable) ∧
      (p.report 0 [key]).issues.get? key = none ∧ (p.report 0 [key]).isSuccess = true := by
  decide +kernel

end Pool

end PaintQuote.Engine
