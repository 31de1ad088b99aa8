import PaintQuote.Proofs.Cache.Evaluations

/-!
# What an engine computes again

An engine counts the formulas that it reads and the cells that it evaluates.  A formula is counted when
it becomes known what it says, and a cell when its outcome becomes known, each of them once, so the
counters grow by the number of cells of which something has become known (`Grown`).

A request makes known what its cells reach and nothing else (`Valid.exists_run`,
`Valid.contains_prepare_iff`).  A write makes unknown what was written and what depends on it.  So the
request after a write evaluates again what it reaches of that, and reads the formulas that were written
(`history_recomputes`).
-/

namespace PaintQuote.Engine

open Sheet Formula

/-! ## Counting -/

/-- What is known of cells has grown, and a counter with it by one for each cell. -/
structure Grown (known known' : CellKey → Bool) (count count' : Nat) : Prop where
  kept : ∀ c, known c = true → known' c = true
  counted : ∃ cells : Finset CellKey, (∀ c, c ∈ cells ↔ known' c = true ∧ ¬ known c = true) ∧
    count' = count + cells.card

namespace Grown

variable {known known' known'' : CellKey → Bool} {count count' count'' : Nat}

theorem refl (known : CellKey → Bool) (count : Nat) : Grown known known count count where
  kept _ h := h
  counted := ⟨∅, fun c => by simp, rfl⟩

theorem trans (h : Grown known known' count count') (h' : Grown known' known'' count' count'') :
    Grown known known'' count count'' where
  kept c hc := h'.kept c (h.kept c hc)
  counted := by
    obtain ⟨cells, hcells, rfl⟩ := h.counted
    obtain ⟨cells', hcells', rfl⟩ := h'.counted
    have hdisjoint : Disjoint cells cells' := by
      refine Finset.disjoint_left.2 fun c hc hc' => ?_
      exact ((hcells' c).1 hc').2 ((hcells c).1 hc).1
    refine ⟨cells.disjUnion cells' hdisjoint, ?_, ?_⟩
    · intro c
      rw [Finset.mem_disjUnion, hcells, hcells']
      constructor
      · rintro (⟨hc, hnot⟩ | ⟨hc, hnot⟩)
        · exact ⟨h'.kept c hc, hnot⟩
        · exact ⟨hc, fun hold => hnot (h.kept c hold)⟩
      · rintro ⟨hc, hnot⟩
        by_cases hmiddle : known' c = true
        · exact Or.inl ⟨hmiddle, hnot⟩
        · exact Or.inr ⟨hc, hmiddle⟩
    · rw [Finset.card_disjUnion, Nat.add_assoc]

/-- Something has become known of one cell. -/
theorem one {key : CellKey} (hnew : ¬ known key = true)
    (h : ∀ c, known' c = true ↔ c = key ∨ known c = true) : Grown known known' count (count + 1) where
  kept c hc := (h c).2 (Or.inr hc)
  counted := by
    refine ⟨{key}, ?_, by rw [Finset.card_singleton]⟩
    intro c
    rw [Finset.mem_singleton, h]
    constructor
    · rintro rfl
      exact ⟨Or.inl rfl, hnew⟩
    · rintro ⟨hc, hnot⟩
      exact hc.resolve_right hnot

end Grown

/-! ## Formulas that are read -/

section

variable (e : Engine) (key : CellKey)

theorem compileCell_grown : Grown e.formulas.contains (e.compileCell key).formulas.contains
    e.stats.parsed (e.compileCell key).stats.parsed := by
  rcases compileCell_eq e key with h | ⟨text, _, hnew, h⟩
  · rw [h]
    exact .refl _ _
  · have hstats : (e.compile key text).stats.parsed = e.stats.parsed + 1 := by
      unfold compile
      split <;> rfl
    rw [h, hstats]
    refine .one (Bool.eq_false_iff.1 hnew) fun c => ?_
    rw [compile_contains, Bool.or_eq_true, decide_eq_true_iff, or_comm]

theorem contains_compileCell {c : CellKey} (h : (e.compileCell key).formulas.contains c) :
    c = key ∨ e.formulas.contains c := by
  rcases compileCell_eq e key with heq | ⟨text, _, _, heq⟩
  · exact Or.inr (heq ▸ h)
  · rw [heq, compile_contains, Bool.or_eq_true, decide_eq_true_iff] at h
    exact h.symm

theorem compileCell_evaluated : (e.compileCell key).stats.evaluated = e.stats.evaluated := by
  rcases compileCell_eq e key with h | ⟨text, _, _, h⟩
  · rw [h]
  · rw [h]
    unfold compile
    split <;> rfl

end

/-- A preparation counts the formulas that it reads, and evaluates nothing. -/
theorem prepareFrom_grown (e : Engine) (seen : CellSet) (stack : List CellKey) :
    Grown e.formulas.contains (e.prepareFrom seen stack).formulas.contains
        e.stats.parsed (e.prepareFrom seen stack).stats.parsed ∧
      (e.prepareFrom seen stack).stats.evaluated = e.stats.evaluated := by
  fun_induction prepareFrom e seen stack with
  | case1 e seen => exact ⟨.refl _ _, rfl⟩
  | case2 e seen key stack _ ih => exact ih
  | case3 e seen key stack _ _ ih => exact ih
  | case4 e seen key stack _ _ ih =>
      exact ⟨(compileCell_grown e key).trans ih.1, ih.2.trans (compileCell_evaluated e key)⟩

/-- A preparation reads only formulas that the stack reaches. -/
theorem prepareFrom_reaches {e : Engine} (h : e.Consistent) {seen : CellSet} {stack : List CellKey}
    {c : CellKey} (hc : (e.prepareFrom seen stack).formulas.contains c) :
    e.formulas.contains c ∨ ∃ root ∈ stack, e.workbook.Reaches root c := by
  fun_induction prepareFrom e seen stack with
  | case1 e seen => exact Or.inl hc
  | case2 e seen key stack _ ih =>
      refine (ih h hc).imp_right ?_
      rintro ⟨root, hroot, hreach⟩
      exact ⟨root, List.mem_cons_of_mem _ hroot, hreach⟩
  | case3 e seen key stack _ _ ih =>
      refine (ih h hc).imp_right ?_
      rintro ⟨root, hroot, hreach⟩
      exact ⟨root, List.mem_cons_of_mem _ hroot, hreach⟩
  | case4 e seen key stack _ _ ih =>
      have hcompile := h.compileCell key
      have hworkbook := compileCell_workbook e key
      have ih := ih hcompile hc
      rw [hworkbook] at ih
      rcases ih with hc | ⟨root, hroot, hreach⟩
      · rcases contains_compileCell e key hc with rfl | hc
        · exact Or.inr ⟨c, List.mem_cons_self, .refl⟩
        · exact Or.inl hc
      · rcases List.mem_append.1 hroot with hroot | hroot
        · have hread : e.workbook.Reads key root := hworkbook ▸ (hcompile.reads_iff.1 hroot).2
          exact Or.inr ⟨key, List.mem_cons_self, hreach.head hread⟩
        · exact Or.inr ⟨root, List.mem_cons_of_mem _ hroot, hreach⟩

/-- A cell that some roots reach and that holds a formula. -/
def Needs (w : Workbook) (roots : List CellKey) (c : CellKey) : Prop :=
  (w.formula? c).isSome ∧ ∃ root ∈ roots, w.Reaches root c

/-- A preparation reads the formulas that the roots need. -/
theorem Valid.contains_prepare_iff {e : Engine} {seen : CellKey → SheetName → Bool} (h : e.Valid seen)
    (roots : List CellKey) (c : CellKey) :
    (e.prepare roots).formulas.contains c ↔ e.formulas.contains c ∨ Needs e.workbook roots c := by
  constructor
  · intro hc
    have hf := (h.toConsistent.prepareFrom {} roots).formula?_isSome hc
    rw [(prepareFrom_frame e {} roots).1] at hf
    exact (prepareFrom_reaches h.toConsistent hc).imp_right fun hreach => ⟨hf, hreach⟩
  · rintro (hc | ⟨hf, root, hroot, hreach⟩)
    · exact (prepareFrom_frame e {} roots).2.2 c hc
    · exact h.contains_prepare hroot hreach hf

/-! ## Cells that are evaluated -/

theorem record_grown {e : Engine} {key : CellKey} (hk : ¬ e.isKnown key) (o : Outcome)
    (status : Option CacheStatus) :
    Grown e.isKnown (e.record key o status).isKnown e.stats.evaluated
      (e.record key o status).stats.evaluated :=
  .one hk fun c => record_isKnown o status c

theorem markCircular_grown (error : FormulaError) (members : List CellKey) : ∀ e : Engine,
    Grown e.isKnown (members.foldl (markCircular error) e).isKnown e.stats.evaluated
        (members.foldl (markCircular error) e).stats.evaluated ∧
      (members.foldl (markCircular error) e).stats.parsed = e.stats.parsed := by
  induction members with
  | nil => exact fun e => ⟨.refl _ _, rfl⟩
  | cons key members ih =>
      intro e
      obtain ⟨hgrown, hparsed⟩ := ih (markCircular error e key)
      refine ⟨.trans ?_ hgrown, hparsed.trans ?_⟩
      · unfold markCircular
        split
        next => exact .refl _ _
        next hk => exact record_grown hk _ _
      · unfold markCircular
        split <;> rfl

/-- A step counts the cells that it evaluates, and reads no formula. -/
theorem take_grown (state : Engine × Option ResultCache) (step : Step) :
    Grown state.1.isKnown (take state step).1.isKnown state.1.stats.evaluated
        (take state step).1.stats.evaluated ∧
      (take state step).1.stats.parsed = state.1.stats.parsed := by
  obtain ⟨e, cache⟩ := state
  cases step with
  | cycle members => exact markCircular_grown _ members e
  | cell key =>
      simp only [Engine.take, evaluateCell]
      split
      next => exact ⟨.refl _ _, rfl⟩
      next hk =>
        cases e.formulas.get? key with
        | none => exact ⟨.refl _ _, rfl⟩
        | some reading =>
            cases reading with
            | error error => exact ⟨record_grown hk _ _, rfl⟩
            | ok compiled => exact ⟨record_grown hk _ _, rfl⟩

theorem foldl_take_grown (steps : List Step) : ∀ state : Engine × Option ResultCache,
    Grown state.1.isKnown (steps.foldl take state).1.isKnown state.1.stats.evaluated
        (steps.foldl take state).1.stats.evaluated ∧
      (steps.foldl take state).1.stats.parsed = state.1.stats.parsed := by
  induction steps with
  | nil => exact fun state => ⟨.refl _ _, rfl⟩
  | cons step steps ih =>
      intro state
      obtain ⟨hgrown, hparsed⟩ := take_grown state step
      exact ⟨hgrown.trans (ih _).1, (ih _).2.trans hparsed⟩

/-- A step makes only its own cells known. -/
theorem mem_of_isKnown_take {state : Engine × Option ResultCache} {step : Step} {k : CellKey}
    (h : (take state step).1.isKnown k) : state.1.isKnown k ∨ k ∈ step.members := by
  obtain ⟨e, cache⟩ := state
  cases step with
  | cycle members =>
      obtain ⟨o, ho⟩ := isKnown_iff.1 h
      simp only [Engine.take, (foldl_markCircular _ members e).2] at ho
      split at ho
      next hmem => exact Or.inr hmem.1
      next => exact Or.inl (isKnown_iff.2 ⟨o, ho⟩)
  | cell key =>
      have hrecord : ∀ o status, (e.record key o status).isKnown k →
          e.isKnown k ∨ k ∈ (Step.cell key).members := by
        intro o status hk
        rw [Step.members, List.mem_singleton]
        exact ((record_isKnown o status k).1 hk).symm
      simp only [Engine.take, evaluateCell] at h
      split at h
      next => exact Or.inl h
      next =>
        split at h
        next => exact Or.inl h
        next => exact hrecord _ _ h
        next => exact hrecord _ _ h

theorem mem_of_isKnown_foldl_take {k : CellKey} (steps : List Step) :
    ∀ {state : Engine × Option ResultCache}, (steps.foldl take state).1.isKnown k →
      state.1.isKnown k ∨ k ∈ stepCells steps := by
  induction steps with
  | nil => exact fun h => Or.inl h
  | cons step steps ih =>
      intro state h
      rw [stepCells, List.flatMap_cons, List.mem_append]
      rcases ih h with hk | hk
      · exact (mem_of_isKnown_take hk).imp_right Or.inl
      · exact Or.inr (Or.inr hk)

/-! ## Requests -/

namespace Valid

variable {e : Engine} {seen : CellKey → SheetName → Bool}

/-- The cells that are not known may be taken to have seen the sheets that exist. -/
theorem refresh (h : e.Valid seen) : ∃ seen', e.Valid seen' ∧
    ∀ k, ¬ e.isKnown k → seen' k = e.workbook.hasSheet := by
  refine ⟨fun k => if e.isKnown k then seen k else e.workbook.hasSheet, h.congr_seen ?_, ?_⟩
  · exact fun k hk => (if_pos hk).symm
  · exact fun k hk => if_neg hk

/-- A run without a cache keeps an engine valid, and makes known what its roots need. -/
theorem exists_run (h : e.Valid seen) (roots : List CellKey) :
    ∃ e' seen', e.run none roots = (e', none) ∧ e'.Valid seen' ∧ e'.workbook = e.workbook ∧
      ∀ c, e'.isKnown c ↔ e.isKnown c ∨ Needs e.workbook roots c := by
  obtain ⟨seen', h, hseen⟩ := h.refresh
  obtain ⟨e', hrun, hvalid, hworkbook, hkept, hroots⟩ := h.run hseen roots
  refine ⟨e', seen', hrun, hvalid, hworkbook, fun c => ⟨?_, ?_⟩⟩
  · intro hc
    have hf : (e.workbook.formula? c).isSome := hworkbook ▸ hvalid.formula?_isSome hc
    have hstate : e' = ((e.plan roots).foldl take (e.prepare roots, none)).1 := by
      rw [← run_eq, hrun]
    rw [hstate] at hc
    rcases mem_of_isKnown_foldl_take _ hc with hc | hc
    · rw [prepare_isKnown] at hc
      exact Or.inl hc
    · obtain ⟨root, hroot, hreach⟩ := (Graph.mem_order_iff _ _ _).1 hc
      refine Or.inr ⟨hf, root, (List.mem_filter.1 hroot).1, ?_⟩
      refine Relation.ReflTransGen.mono ?_ _ _ hreach
      intro a b hab
      exact prepare_workbook e roots ▸ ((h.prepare roots).toConsistent.reads_iff.1 hab).2
  · rintro (hc | ⟨hf, root, hroot, hreach⟩)
    · obtain ⟨o, ho⟩ := isKnown_iff.1 hc
      exact isKnown_iff.2 ⟨o, hkept c o ho⟩
    · induction hreach with
      | refl => exact hroots root hroot hf
      | tail _ hread ih =>
          rw [← hworkbook] at hread hf
          exact hvalid.known_closed _ (ih (hworkbook ▸ Workbook.formula?_isSome_of_reads hread)) _
            hread hf

/-- What a run counts: the cells evaluated are those needed that were not known, and the formulas read
those needed that had not been read. -/
theorem run_counts (h : e.Valid seen) (roots : List CellKey) :
    ∃ evaluated read : Finset CellKey,
      (∀ c, c ∈ evaluated ↔ Needs e.workbook roots c ∧ ¬ e.isKnown c) ∧
      (∀ c, c ∈ read ↔ Needs e.workbook roots c ∧ ¬ e.formulas.contains c) ∧
      (e.run none roots).1.stats.evaluated = e.stats.evaluated + evaluated.card ∧
      (e.run none roots).1.stats.parsed = e.stats.parsed + read.card := by
  obtain ⟨e', _, hrun, _, _, hknown⟩ := h.exists_run roots
  obtain ⟨hread, hsame⟩ := prepareFrom_grown e {} roots
  obtain ⟨hevaluated, hparsed⟩ := foldl_take_grown (e.plan roots) (e.prepare roots, none)
  obtain ⟨evaluated, hcells, hcount⟩ := hevaluated.counted
  obtain ⟨read, hcells', hcount'⟩ := hread.counted
  rw [← run_eq] at hcells hcount hparsed
  refine ⟨evaluated, read, ?_, ?_, hcount.trans ?_, hparsed.trans hcount'⟩
  · intro c
    rw [hcells, hrun, hknown, prepare_isKnown]
    tauto
  · intro c
    have hiff := h.contains_prepare_iff roots c
    rw [hcells']
    tauto
  · exact congrArg (· + evaluated.card) hsame

/-! ## Requests that need nothing -/

/-- Nothing is read for cells that are settled. -/
theorem prepareFrom_settled (seen : CellSet) (stack : List CellKey) (h : ∀ c ∈ stack, e.Settled c) :
    e.prepareFrom seen stack = e := by
  fun_induction Engine.prepareFrom e seen stack with
  | case1 e seen => rfl
  | case2 e seen key stack _ ih => exact ih fun c hc => h c (List.mem_cons_of_mem _ hc)
  | case3 e seen key stack _ _ ih => exact ih fun c hc => h c (List.mem_cons_of_mem _ hc)
  | case4 e seen key stack hnew hsome _ =>
      rcases h key List.mem_cons_self with hk | hf
      · exact absurd (Bool.or_eq_true_iff.2 (Or.inl hk)) hnew
      · exact absurd (Option.isNone_iff_eq_none.2 hf) hsome

/-- A step of cells that read nothing and hold no formula changes nothing. -/
theorem take_literal (h : e.Valid seen) {pending : List CellKey} {step : Step}
    (hstep : step ∈ e.graph.order pending) (hnone : ∀ c ∈ step.members, e.workbook.formula? c = none)
    (cache : Option ResultCache) : take (e, cache) step = (e, cache) := by
  have hunread : ∀ c ∈ step.members, ¬ e.formulas.contains c := by
    intro c hc hread
    have hf := h.toConsistent.formula?_isSome hread
    rw [hnone c hc] at hf
    cases hf
  cases step with
  | cell key =>
      have hread : e.formulas.get? key = none := by
        have hnot := hunread key (List.mem_singleton.2 rfl)
        rwa [Keyed.contains_eq_isSome, Option.not_isSome_iff_eq_none] at hnot
      simp only [Engine.take, evaluateCell, hread]
      split <;> rfl
  | cycle members =>
      cases members with
      | nil => rfl
      | cons m members =>
          have hm : m ∈ (Step.cycle (m :: members)).members := List.mem_cons_self
          have hcircular := ((Graph.order_fits _ _ _ hstep).circular_iff_isCycle hm).2 rfl
          obtain ⟨b, hread, _⟩ := Relation.TransGen.head'_iff.1 hcircular
          exact absurd (h.toConsistent.reads_iff.1 hread).1 (hunread m hm)

/-- A run for cells that are settled changes nothing. -/
theorem run_settled (h : e.Valid seen) {roots : List CellKey} (hroots : ∀ c ∈ roots, e.Settled c)
    (cache : Option ResultCache) : e.run cache roots = (e, cache) := by
  have hprepare : e.prepare roots = e := prepareFrom_settled {} roots hroots
  have hnone : ∀ step ∈ e.plan roots, ∀ c ∈ step.members, e.workbook.formula? c = none := by
    intro step hstep c hc
    rw [plan, hprepare] at hstep
    obtain ⟨root, hroot, hreach⟩ :=
      (Graph.mem_order_iff _ _ _).1 (mem_stepCells.2 ⟨step, hstep, hc⟩)
    obtain ⟨hroot, hk⟩ := List.mem_filter.1 hroot
    have hf : e.workbook.formula? root = none := (hroots root hroot).resolve_left (by simpa using hk)
    rcases Relation.ReflTransGen.cases_head hreach with rfl | ⟨b, hread, _⟩
    · exact hf
    · have hsome := h.toConsistent.formula?_isSome (h.toConsistent.reads_iff.1 hread).1
      rw [hf] at hsome
      cases hsome
  rw [run_eq, hprepare]
  have hall : ∀ steps : List Step, (∀ step ∈ steps, step ∈ e.plan roots) →
      steps.foldl take (e, cache) = (e, cache) := by
    intro steps
    induction steps with
    | nil => exact fun _ => rfl
    | cons step steps ih =>
        intro hsteps
        have hstep := hsteps step List.mem_cons_self
        have horder : step ∈ e.graph.order (roots.filter fun key => !e.isKnown key) := by
          rwa [plan, hprepare] at hstep
        rw [List.foldl_cons, h.take_literal horder (hnone step hstep) cache]
        exact ih fun step hstep => hsteps step (List.mem_cons_of_mem _ hstep)
  exact hall _ fun _ hstep => hstep

/-- When cells are asked for once more, nothing changes and the report is the same. -/
theorem evaluateAll_again (h : e.Valid seen) (keys : List CellKey) :
    (e.evaluateAll none keys).2.1.evaluateAll none keys = e.evaluateAll none keys := by
  obtain ⟨e', seen', hrun, hvalid, hworkbook, hknown⟩ := h.exists_run keys
  have hasked : e.evaluateAll none keys = (keys.foldl e'.addToReport {}, e', none) := by
    rw [evaluateAll, hrun]
  have hsettled : ∀ c ∈ keys, e'.Settled c := by
    intro c hc
    by_cases hf : (e.workbook.formula? c).isSome
    · exact Or.inl ((hknown c).2 (Or.inr ⟨hf, c, hc, .refl⟩))
    · exact Or.inr (hworkbook ▸ Option.not_isSome_iff_eq_none.1 hf)
  rw [hasked, evaluateAll, hvalid.run_settled hsettled]

end Valid

/-! ## Requests after a write -/

theorem invalidate_stats (e : Engine) (changed : List CellKey) :
    (e.invalidate changed).stats = e.stats := by
  have hkept : ∀ (forget : Engine → CellKey → Engine), (∀ e c, (forget e c).stats = e.stats) →
      ∀ (cells : List CellKey) (e : Engine), (cells.foldl forget e).stats = e.stats := by
    intro forget hforget cells
    induction cells with
    | nil => exact fun _ => rfl
    | cons cell cells ih => exact fun e => (ih (forget e cell)).trans (hforget e cell)
  have hcontent := hkept forgetContent fun _ _ => rfl
  have houtcome := hkept forgetOutcome fun _ _ => rfl
  exact (houtcome _ _).trans (hcontent changed e)

section

variable (e : Engine) (entries : List (CellKey × Content)) (c : CellKey)

theorem load_stats : (e.load entries).stats = e.stats :=
  invalidate_stats { e with workbook := (e.workbook.load entries).1 } _

theorem contains_load : (e.load entries).formulas.contains c ↔
    c ∉ (e.workbook.load entries).2 ∧ e.formulas.contains c :=
  contains_invalidate { e with workbook := (e.workbook.load entries).1 } _ c

/-- A write leaves the cells known that it did not change and that read nothing it changed. -/
theorem isKnown_load (h : e.graph.Mirrored) : (e.load entries).isKnown c ↔
    e.isKnown c ∧ c ∉ (e.workbook.load entries).2 ∧
      ¬ ∃ k ∈ (e.workbook.load entries).2, Relation.TransGen e.graph.Reads c k := by
  rw [← Graph.mem_downstream_iff h]
  exact isKnown_invalidate { e with workbook := (e.workbook.load entries).1 } _ c

end

/-- After any history, cells are written and then others are asked for.  The cells that are evaluated
for this are those needed that were not known before the write, or were changed by it, or read a
changed cell, directly or through others.  The formulas that are read are theirs as far as they had not
been read or were changed.  When the same cells are asked for once more, nothing is evaluated or read,
and the report is the same. -/
theorem history_recomputes (actions : List Action) (entries : List (CellKey × Content))
    (keys : List CellKey) :
    let e := history actions
    let changed := (e.workbook.load entries).2
    let asked := (e.load entries).evaluateAll none keys
    (∃ evaluated read : Finset CellKey,
      (∀ c, c ∈ evaluated ↔ Needs (e.load entries).workbook keys c ∧
        (¬ e.isKnown c ∨ c ∈ changed ∨ ∃ k ∈ changed, Relation.TransGen e.graph.Reads c k)) ∧
      (∀ c, c ∈ read ↔ c ∈ evaluated ∧ (¬ e.formulas.contains c ∨ c ∈ changed)) ∧
      asked.2.1.stats.evaluated = e.stats.evaluated + evaluated.card ∧
      asked.2.1.stats.parsed = e.stats.parsed + read.card) ∧
    asked.2.1.evaluateAll none keys = asked := by
  intro e changed asked
  have hvalid : (e.load entries).Valid (seenSheets actions) := (valid_history actions).load entries
  have hmirrored : e.graph.Mirrored := (valid_history actions).mirrored
  obtain ⟨evaluated, read, hevaluated, hread, hcount, hcount'⟩ := hvalid.run_counts keys
  rw [load_stats] at hcount hcount'
  refine ⟨⟨evaluated, read, ?_, ?_, hcount, hcount'⟩, hvalid.evaluateAll_again keys⟩
  · intro c
    rw [hevaluated, isKnown_load e entries c hmirrored, not_and_or, not_and_or, not_not, not_not]
  · intro c
    -- A cell whose formula has not been read is not known.
    have hunknown : (e.load entries).isKnown c → (e.load entries).formulas.contains c :=
      hvalid.known_read c
    rw [hread, hevaluated, and_assoc]
    refine and_congr_right fun _ => ⟨fun hnot => ?_, fun ⟨_, hor⟩ hloaded => ?_⟩
    · refine ⟨fun hk => hnot (hunknown hk), ?_⟩
      rw [contains_load, not_and_or, not_not] at hnot
      exact hnot.symm
    · obtain ⟨hunchanged, hbefore⟩ := (contains_load e entries c).1 hloaded
      exact hor.elim (fun hnot => hnot hbefore) hunchanged

end PaintQuote.Engine
