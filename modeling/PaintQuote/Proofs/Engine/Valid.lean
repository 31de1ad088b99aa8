import PaintQuote.Proofs.Evaluation.Meaning
import PaintQuote.Proofs.Graph.Reach

/-!
# Engines that know what they say

An engine is *consistent* when the formulas that it has read are those that its cells hold, and its
graph has exactly their references.  It is *valid* when in addition every outcome that it remembers is
what the cell is due over the values that the engine shows, given the sheets that existed when the cell
was evaluated, and it remembers the outcomes of all formulas that such a cell reads.

Reading formulas keeps an engine valid, and after `prepare` every formula that the roots reach has been
read (`Valid.contains_prepare`).
-/

namespace PaintQuote.Engine

open Sheet Formula

/-- What the text of a formula is read as. -/
def readingOf (w : Workbook) (key : CellKey) (text : String) : Except FormulaError Compiled :=
  match Expr.ofText text with
  | .ok expr => .ok ⟨text, expr, (References.ofExpr w.names key.sheet expr).names.toList⟩
  | .error error => .error error.report

/-- The formulas that have been read are those of the workbook, and the graph has their
references. -/
structure Consistent (e : Engine) : Prop where
  formulas : ∀ k r, e.formulas.get? k = some r →
    ∃ text, e.workbook.formula? k = some text ∧ r = readingOf e.workbook k text
  precedents : ∀ k, e.graph.precedents k =
    if e.formulas.contains k then e.workbook.references k else []
  mirrored : e.graph.Mirrored

/-- What is remembered is what the cells are due.  The sheets that a cell has seen are those that
existed when it was evaluated. -/
structure Valid (e : Engine) (seen : CellKey → SheetName → Bool) : Prop extends Consistent e where
  known_read : ∀ k, e.isKnown k → e.formulas.contains k
  known_closed : ∀ k, e.isKnown k → ∀ p, e.workbook.Reads k p → (e.workbook.formula? p).isSome →
    e.isKnown p
  known_due : ∀ k o, e.outcomes.get? k = some o → Due e.workbook (seen k) e.value k o

variable {e : Engine} {key : CellKey}

/-! ## Views -/

theorem isKnown_iff : e.isKnown key ↔ ∃ o, e.outcomes.get? key = some o := by
  rw [isKnown, Keyed.contains_eq_isSome]
  exact Option.isSome_iff_exists

theorem value_of_known {o : Outcome} (h : e.outcomes.get? key = some o) : e.value key = o.value := by
  rw [value, h]

theorem value_of_not_known (h : ¬ e.isKnown key) : e.value key = e.workbook.literal key := by
  rw [isKnown, Keyed.contains_eq_isSome, Bool.not_eq_true, Option.isSome_eq_false_iff,
    Option.isNone_iff_eq_none] at h
  rw [value, h]

/-- An engine that has read nothing and remembers nothing is valid. -/
theorem valid_of_empty (seen : CellKey → SheetName → Bool) (hformulas : e.formulas = {})
    (hgraph : e.graph = {}) (houtcomes : e.outcomes = {}) : e.Valid seen := by
  have hread : ∀ k, e.formulas.get? k = none := by
    intro k
    rw [hformulas]
    exact Std.TreeMap.getElem?_emptyc
  have hknown : ∀ k, ¬ e.isKnown k := by
    intro k
    rw [isKnown, houtcomes]
    exact Bool.eq_false_iff.1 Std.TreeMap.contains_emptyc
  constructor
  case toConsistent =>
    refine ⟨?_, ?_, hgraph ▸ Graph.mirrored_empty⟩
    · intro k r hr
      rw [hread k] at hr
      cases hr
    · intro k
      rw [Keyed.contains_eq_isSome, hread k, hgraph]
      rfl
  case known_read => exact fun k hk => absurd hk (hknown k)
  case known_closed => exact fun k hk => absurd hk (hknown k)
  case known_due => exact fun k o ho => absurd (isKnown_iff.2 ⟨o, ho⟩) (hknown k)

/-- An engine that has only been given a workbook is valid. -/
theorem valid_fresh (w : Workbook) (seen : CellKey → SheetName → Bool) :
    ({ workbook := w } : Engine).Valid seen := valid_of_empty seen rfl rfl rfl

namespace Consistent

theorem formula?_isSome (h : e.Consistent) (hk : e.formulas.contains key) :
    (e.workbook.formula? key).isSome := by
  rw [Keyed.contains_eq_isSome] at hk
  obtain ⟨r, hr⟩ := Option.isSome_iff_exists.1 hk
  obtain ⟨text, htext, _⟩ := h.formulas key r hr
  rw [htext]
  rfl

/-- The edges of the graph are the references of the formulas that have been read. -/
theorem reads_iff (h : e.Consistent) {a b : CellKey} :
    e.graph.Reads a b ↔ e.formulas.contains a ∧ e.workbook.Reads a b := by
  rw [Graph.Reads, h.precedents, Workbook.Reads]
  by_cases ha : e.formulas.contains a
  · simp [ha]
  · simp [ha]

/-! ## Reading formulas -/

theorem compile (h : e.Consistent) {text : String} (hf : e.workbook.formula? key = some text) :
    (e.compile key text).Consistent := by
  have hformulas : (e.compile key text).formulas =
      e.formulas.insert key (readingOf e.workbook key text) := by
    unfold Engine.compile readingOf
    cases Expr.ofText text <;> rfl
  refine ⟨?_, ?_, ?_⟩
  · intro k r hr
    rw [hformulas, Keyed.get?_insert] at hr
    rw [compile_workbook]
    split at hr
    next heq =>
      cases hr
      exact ⟨text, heq ▸ hf, by rw [heq]⟩
    next => exact h.formulas k r hr
  · intro k
    rw [compile_contains, compile_workbook]
    by_cases heq : k = key
    · rw [heq, compile_precedents_self e key text hf]
      simp
    · rw [compile_precedents_of_ne e key text heq, h.precedents]
      simp [heq]
  · unfold Engine.compile
    cases Expr.ofText text with
    | ok expr => exact h.mirrored.setPrecedents key _
    | error error => exact h.mirrored.clearCell key

theorem compileCell (h : e.Consistent) (key : CellKey) : (e.compileCell key).Consistent := by
  rcases compileCell_eq e key with heq | ⟨text, hf, _, heq⟩
  · rw [heq]
    exact h
  · rw [heq]
    exact h.compile hf

end Consistent

theorem compileCell_outcomes (e : Engine) (key : CellKey) :
    (e.compileCell key).outcomes = e.outcomes := by
  rcases compileCell_eq e key with h | ⟨text, _, _, h⟩
  · rw [h]
  · rw [h, compile_outcomes]

theorem compileCell_contains (e : Engine) (key : CellKey) {c : CellKey}
    (h : e.formulas.contains c) : (e.compileCell key).formulas.contains c := by
  rcases compileCell_eq e key with heq | ⟨text, _, _, heq⟩
  · rw [heq]
    exact h
  · rw [heq, compile_contains, h]
    rfl

theorem compileCell_contains_self (hf : (e.workbook.formula? key).isSome) :
    (e.compileCell key).formulas.contains key := by
  obtain ⟨text, htext⟩ := Option.isSome_iff_exists.1 hf
  cases hold : e.formulas.contains key with
  | true => exact compileCell_contains e key hold
  | false =>
      have heq : e.compileCell key = e.compile key text := by simp [Engine.compileCell, hold, htext]
      rw [heq, compile_contains]
      simp

/-! ## Preparing -/

/-- Reading formulas changes neither the workbook nor what is known, and forgets no formula. -/
theorem prepareFrom_frame (e : Engine) (seen : CellSet) (stack : List CellKey) :
    (e.prepareFrom seen stack).workbook = e.workbook ∧
      (e.prepareFrom seen stack).outcomes = e.outcomes ∧
      ∀ c, e.formulas.contains c → (e.prepareFrom seen stack).formulas.contains c := by
  fun_induction prepareFrom e seen stack with
  | case1 e seen => exact ⟨rfl, rfl, fun _ h => h⟩
  | case2 e seen key stack _ ih => exact ih
  | case3 e seen key stack _ _ ih => exact ih
  | case4 e seen key stack _ _ ih =>
      obtain ⟨hworkbook, houtcomes, hformulas⟩ := ih
      refine ⟨hworkbook.trans (compileCell_workbook e key),
        houtcomes.trans (compileCell_outcomes e key), ?_⟩
      intro c hc
      exact hformulas c (compileCell_contains e key hc)

theorem Consistent.prepareFrom (h : e.Consistent) (seen : CellSet) (stack : List CellKey) :
    (e.prepareFrom seen stack).Consistent := by
  fun_induction Engine.prepareFrom e seen stack with
  | case1 e seen => exact h
  | case2 e seen key stack _ ih => exact ih h
  | case3 e seen key stack _ _ ih => exact ih h
  | case4 e seen key stack _ _ ih => exact ih (h.compileCell key)

/-- The cells seen by a preparation: their formulas have been read, and what they read is known, seen or
on the stack. -/
structure Explored (e : Engine) (seen : CellSet) (stack : List CellKey) : Prop where
  read : ∀ c ∈ seen, (e.workbook.formula? c).isSome → e.formulas.contains c
  reads : ∀ c ∈ seen, ∀ p, e.workbook.Reads c p → e.isKnown p ∨ p ∈ seen ∨ p ∈ stack

namespace Explored

variable {seen : CellSet} {stack : List CellKey}

/-- A cell that is known or has been seen may be left out. -/
theorem skip (h : e.Explored seen (key :: stack)) (hold : e.isKnown key ∨ key ∈ seen) :
    e.Explored seen stack := by
  refine ⟨h.read, ?_⟩
  intro c hc p hp
  rcases h.reads c hc p hp with hp | hp | hp
  · exact Or.inl hp
  · exact Or.inr (Or.inl hp)
  · rcases List.mem_cons.1 hp with rfl | hp
    · exact hold.imp_right Or.inl
    · exact Or.inr (Or.inr hp)

/-- A cell without a formula reads nothing. -/
theorem literal (h : e.Explored seen (key :: stack)) (hnone : e.workbook.formula? key = none) :
    e.Explored (seen.insert key) stack := by
  refine ⟨?_, ?_⟩
  · intro c hc hf
    rcases (Keyed.mem_insert seen key c).1 hc with rfl | hc
    · rw [hnone] at hf
      cases hf
    · exact h.read c hc hf
  · intro c hc p hp
    rw [Keyed.mem_insert]
    rcases (Keyed.mem_insert seen key c).1 hc with rfl | hc
    · rw [Workbook.Reads, Workbook.references_none hnone] at hp
      cases hp
    · rcases h.reads c hc p hp with hp | hp | hp
      · exact Or.inl hp
      · exact Or.inr (Or.inl (Or.inr hp))
      · exact Or.inr ((List.mem_cons.1 hp).imp_left Or.inl)

/-- Once the formula of a cell has been read, what it reads is put on the stack. -/
theorem compileCell (h : e.Explored seen (key :: stack)) (hc : e.Consistent)
    (hf : (e.workbook.formula? key).isSome) :
    (e.compileCell key).Explored (seen.insert key)
      ((e.compileCell key).graph.precedents key ++ stack) := by
  have hself := compileCell_contains_self hf
  have hworkbook := compileCell_workbook e key
  refine ⟨?_, ?_⟩
  · intro c hc hf
    rcases (Keyed.mem_insert seen key c).1 hc with rfl | hc
    · exact hself
    · rw [hworkbook] at hf
      exact compileCell_contains e key (h.read c hc hf)
  · intro c hseen p hp
    rw [isKnown, compileCell_outcomes, Keyed.mem_insert, List.mem_append]
    rcases (Keyed.mem_insert seen key c).1 hseen with rfl | hseen
    · exact Or.inr (Or.inr (Or.inl ((hc.compileCell c).reads_iff.2 ⟨hself, hp⟩)))
    · rw [hworkbook] at hp
      rcases h.reads c hseen p hp with hp | hp | hp
      · exact Or.inl hp
      · exact Or.inr (Or.inl (Or.inr hp))
      · rcases List.mem_cons.1 hp with hp | hp
        · exact Or.inr (Or.inl (Or.inl hp))
        · exact Or.inr (Or.inr (Or.inr hp))

end Explored

/-- In the end there are cells whose formulas have been read and which read only each other and known
cells, among them all that were seen or on the stack and are not known. -/
theorem prepareFrom_closed (hc : e.Consistent) {seen : CellSet} {stack : List CellKey}
    (h : e.Explored seen stack) :
    ∃ S : CellKey → Prop, (∀ c, c ∈ seen ∨ c ∈ stack → S c ∨ e.isKnown c) ∧
      (∀ c, S c → (e.workbook.formula? c).isSome →
        (e.prepareFrom seen stack).formulas.contains c) ∧
      ∀ c, S c → ∀ p, e.workbook.Reads c p → S p ∨ e.isKnown p := by
  fun_induction prepareFrom e seen stack with
  | case1 e seen =>
      refine ⟨fun c => c ∈ seen, ?_, h.read, ?_⟩
      · rintro c (hc | hc)
        · exact Or.inl hc
        · cases hc
      · intro c hc p hp
        rcases h.reads c hc p hp with hp | hp | hp
        · exact Or.inr hp
        · exact Or.inl hp
        · cases hp
  | case2 e seen key stack hold ih =>
      rw [Bool.or_eq_true, Std.TreeSet.contains_iff_mem] at hold
      obtain ⟨S, hS, hformula, hclosed⟩ := ih hc (h.skip hold)
      refine ⟨S, ?_, hformula, hclosed⟩
      rintro c (hc | hc)
      · exact hS c (Or.inl hc)
      · rcases List.mem_cons.1 hc with rfl | hc
        · rcases hold with hknown | hc
          · exact Or.inr hknown
          · exact hS c (Or.inl hc)
        · exact hS c (Or.inr hc)
  | case3 e seen key stack _ hnone ih =>
      obtain ⟨S, hS, hformula, hclosed⟩ := ih hc (h.literal (Option.isNone_iff_eq_none.1 hnone))
      refine ⟨S, ?_, hformula, hclosed⟩
      intro c hc
      refine hS c ?_
      rw [Keyed.mem_insert]
      rcases hc with hc | hc
      · exact Or.inl (Or.inr hc)
      · exact (List.mem_cons.1 hc).imp_left Or.inl
  | case4 e seen key stack _ hsome ih =>
      have hf : (e.workbook.formula? key).isSome := by simpa [Option.isSome_iff_ne_none] using hsome
      obtain ⟨S, hS, hformula, hclosed⟩ := ih (hc.compileCell key) (h.compileCell hc hf)
      have hknown : ∀ c, (e.compileCell key).isKnown c = e.isKnown c := by
        intro c
        rw [isKnown, isKnown, compileCell_outcomes]
      rw [compileCell_workbook] at hformula hclosed
      simp only [hknown] at hS hclosed
      refine ⟨S, ?_, hformula, hclosed⟩
      intro c hc
      refine hS c ?_
      rw [Keyed.mem_insert, List.mem_append]
      rcases hc with hc | hc
      · exact Or.inl (Or.inr hc)
      · rcases List.mem_cons.1 hc with hc | hc
        · exact Or.inl (Or.inl hc)
        · exact Or.inr (Or.inr hc)

theorem prepare_workbook (e : Engine) (roots : List CellKey) :
    (e.prepare roots).workbook = e.workbook := (prepareFrom_frame e {} roots).1

theorem prepare_outcomes (e : Engine) (roots : List CellKey) :
    (e.prepare roots).outcomes = e.outcomes := (prepareFrom_frame e {} roots).2.1

theorem prepare_isKnown (e : Engine) (roots : List CellKey) (c : CellKey) :
    (e.prepare roots).isKnown c = e.isKnown c := by
  rw [isKnown, isKnown, prepare_outcomes]

theorem prepare_value (e : Engine) (roots : List CellKey) : (e.prepare roots).value = e.value := by
  funext c
  rw [value, value, prepare_outcomes, prepare_workbook]

namespace Valid

variable {seen : CellKey → SheetName → Bool}

/-- Only cells with formulas are known. -/
theorem formula?_isSome (h : e.Valid seen) (hk : e.isKnown key) : (e.workbook.formula? key).isSome :=
  h.toConsistent.formula?_isSome (h.known_read key hk)

theorem prepare (h : e.Valid seen) (roots : List CellKey) : (e.prepare roots).Valid seen := by
  refine { h.toConsistent.prepareFrom {} roots with known_read := ?_, known_closed := ?_, known_due := ?_ }
  · intro k hk
    rw [prepare_isKnown] at hk
    exact (prepareFrom_frame e {} roots).2.2 k (h.known_read k hk)
  · intro k hk p hread hf
    rw [prepare_isKnown] at hk ⊢
    rw [prepare_workbook] at hread hf
    exact h.known_closed k hk p hread hf
  · intro k o ho
    rw [prepare_outcomes] at ho
    rw [prepare_workbook, prepare_value]
    exact h.known_due k o ho

/-- After a preparation every formula that the roots reach has been read. -/
theorem contains_prepare (h : e.Valid seen) {roots : List CellKey} {root c : CellKey}
    (hroot : root ∈ roots) (hreach : e.workbook.Reaches root c)
    (hf : (e.workbook.formula? c).isSome) : (e.prepare roots).formulas.contains c := by
  have hempty : ∀ c, ¬ c ∈ ({} : CellSet) := by simp
  have hexplored : e.Explored {} roots :=
    ⟨fun c hc => absurd hc (hempty c), fun c hc => absurd hc (hempty c)⟩
  obtain ⟨S, hS, hformula, hclosed⟩ := prepareFrom_closed h.toConsistent hexplored
  have hall : ∀ c, e.workbook.Reaches root c → (e.workbook.formula? c).isSome →
      S c ∨ e.isKnown c := by
    intro c hreach
    induction hreach with
    | refl => exact fun _ => hS root (Or.inr hroot)
    | tail _ hread ih =>
        intro hf'
        rcases ih (Workbook.formula?_isSome_of_reads hread) with ha | ha
        · exact hclosed _ ha _ hread
        · exact Or.inr (h.known_closed _ ha _ hread hf')
  rcases hall c hreach hf with hc | hc
  · exact hformula c hc hf
  · exact (prepareFrom_frame e {} roots).2.2 c (h.known_read c hc)

end Valid

end PaintQuote.Engine
