import PaintQuote.Proofs.Engine.Valid

/-!
# Writing to an engine

A write changes the contents of some cells of a workbook and may bring sheets into existence
(`Workbook.ChangedIn`).  What an engine still knows afterwards reads, directly or through others, none
of the changed cells, so every known cell is due the same as before (`Due.transfer`), given the sheets
that it has seen.  Every write keeps an engine valid.
-/

namespace PaintQuote

open Sheet Formula Engine

/-! ## What a write changes in a workbook -/

namespace Sheet.Workbook

/-- Two workbooks have the same names, and the same contents but for some cells. -/
structure ChangedIn (w w' : Workbook) (changed : List CellKey) : Prop where
  content : ∀ k, k ∉ changed → w'.content k = w.content k
  names : w'.names = w.names

variable {w w' : Workbook}

theorem withSheet_cells (w : Workbook) (sheet : SheetName) : (w.withSheet sheet).cells = w.cells := by
  unfold withSheet
  split <;> rfl

theorem content_withSheet (w : Workbook) (sheet : SheetName) (key : CellKey) :
    (w.withSheet sheet).content key = w.content key := by
  rw [content, content, withSheet_cells]

theorem withSheet_names (w : Workbook) (sheet : SheetName) : (w.withSheet sheet).names = w.names := by
  unfold withSheet
  split <;> rfl

theorem hasSheet_withSheet (w : Workbook) (sheet sheet' : SheetName) :
    (w.withSheet sheet).hasSheet sheet' = (w.hasSheet sheet' || sheet' == sheet) := by
  unfold withSheet
  split
  next h =>
    by_cases heq : sheet' = sheet
    · rw [heq, h]
      rfl
    · simp [heq]
  next => simp [hasSheet, beq_eq_decide, Bool.or_comm]

theorem set_changedIn (w : Workbook) (key : CellKey) (content : Content) :
    w.ChangedIn (w.set key content).1 (if (w.set key content).2 then [key] else []) := by
  have hcells := withSheet_cells w key.sheet
  have hnames := withSheet_names w key.sheet
  unfold set
  simp only []
  split
  next =>
    exact ⟨fun k _ => content_withSheet w key.sheet k, hnames⟩
  next =>
    split
    next =>
      refine ⟨?_, hnames⟩
      intro k hk
      rw [Workbook.content, Workbook.content, Keyed.get?_erase, hcells, if_neg]
      exact fun heq => hk (List.mem_singleton.2 heq)
    next =>
      refine ⟨?_, hnames⟩
      intro k hk
      rw [Workbook.content, Workbook.content, Keyed.get?_insert, hcells, if_neg]
      exact fun heq => hk (List.mem_singleton.2 heq)

theorem load_changedIn (entries : List (CellKey × Content)) :
    ∀ w : Workbook, w.ChangedIn (w.load entries).1 (w.load entries).2 := by
  induction entries with
  | nil => exact fun w => ⟨fun _ _ => rfl, rfl⟩
  | cons entry entries ih =>
      intro w
      obtain ⟨key, content⟩ := entry
      have hset := w.set_changedIn key content
      have hrest := ih (w.set key content).1
      refine ⟨?_, hrest.names.trans hset.names⟩
      intro k hk
      have hboth : k ∉ (if (w.set key content).2 then [key] else []) ∧
          k ∉ ((w.set key content).1.load entries).2 := by
        simp only [load] at hk
        split at hk
        next hchanged =>
          rw [if_pos hchanged, List.mem_singleton]
          exact not_or.1 (List.mem_cons.not.1 hk)
        next hchanged =>
          rw [if_neg hchanged]
          exact ⟨List.not_mem_nil, hk⟩
      exact (hrest.content k hboth.2).trans (hset.content k hboth.1)

/-! ## What stays the same -/

variable {key : CellKey}

theorem formula?_congr (hc : w'.content key = w.content key) : w'.formula? key = w.formula? key := by
  rw [formula?, formula?, hc]

theorem literal_congr (hc : w'.content key = w.content key) : w'.literal key = w.literal key := by
  rw [literal, literal, hc]

theorem references_congr (hc : w'.content key = w.content key) (hn : w'.names = w.names) :
    w'.references key = w.references key := by
  rw [references, references, expr?, expr?, formula?_congr hc, hn]

theorem name?_congr (hn : w'.names = w.names) : w'.name? = w.name? := by
  funext name
  rw [name?, name?, hn]

end Sheet.Workbook

namespace Engine

/-- A cell is due the same in two workbooks that have the same contents on cells which read only each
other. -/
theorem Due.transfer {w w' : Workbook} {P : CellKey → Prop} {hasSheet : SheetName → Bool}
    {value value' : CellKey → CellValue} {key : CellKey} {o : Outcome}
    (h : Due w hasSheet value key o) (hP : ∀ k p, P k → w.Reads k p → P p)
    (hcontent : ∀ k, P k → w'.content k = w.content k) (hnames : w'.names = w.names) (hkey : P key)
    (hvalue : ∀ p, w.Reads key p → value p = value' p) : Due w' hasSheet value' key o := by
  have hsame : ∀ a b, P a → (w.Reads a b ↔ w'.Reads a b) := by
    intro a b ha
    rw [Workbook.Reads, Workbook.Reads, Workbook.references_congr (hcontent a ha) hnames]
  have hreach : ∀ c, w.Reaches key c → P c := by
    intro c hc
    induction hc with
    | refl => exact hkey
    | tail _ hread ih => exact hP _ _ ih hread
  have hcircular : w.Circular key ↔ w'.Circular key := transGen_iff hsame hP hkey
  have hformula := Workbook.formula?_congr (hcontent key hkey)
  cases h with
  | literal hf =>
      rw [← Workbook.literal_congr (hcontent key hkey)]
      exact .literal (hformula.trans hf)
  | malformed hf hx => exact .malformed (hformula.trans hf) hx
  | circular hc hm =>
      refine .circular (hcircular.1 hc) ⟨hm.inOrder, ?_⟩
      intro c
      rw [hm.mem_iff, Workbook.Reaches, Workbook.Reaches, ← reflTransGen_iff hsame hP hkey]
      refine and_congr_right ?_
      intro hkc
      exact reflTransGen_iff hsame hP (hreach c hkc)
  | evaluated hf hx hn =>
      rw [outcomeOf_eq hf hx hvalue, ← Workbook.name?_congr hnames]
      exact .evaluated (hformula.trans hf) hx fun hc => hn (hcircular.2 hc)

/-! ## What an invalidation changes -/

/-- Forgetting contents forgets the formulas, the references and the outcomes of the cells. -/
theorem foldl_forgetContent (changed : List CellKey) :
    ∀ e : Engine, (changed.foldl forgetContent e).workbook = e.workbook ∧
      (∀ k, (changed.foldl forgetContent e).formulas.get? k =
        if k ∈ changed then none else e.formulas.get? k) ∧
      (∀ k, (changed.foldl forgetContent e).outcomes.get? k =
        if k ∈ changed then none else e.outcomes.get? k) ∧
      (∀ k, (changed.foldl forgetContent e).graph.precedents k =
        if k ∈ changed then [] else e.graph.precedents k) ∧
      (e.graph.Mirrored → (changed.foldl forgetContent e).graph.Mirrored) := by
  induction changed with
  | nil => exact fun e => ⟨rfl, fun _ => rfl, fun _ => rfl, fun _ => rfl, id⟩
  | cons key changed ih =>
      intro e
      obtain ⟨hworkbook, hformulas, houtcomes, hprecedents, hmirrored⟩ := ih (e.forgetContent key)
      rw [List.foldl_cons]
      refine ⟨hworkbook, ?_, ?_, ?_, ?_⟩
      · intro k
        rw [hformulas, forgetContent, Keyed.get?_erase]
        by_cases hk : k = key <;> simp [hk]
      · intro k
        rw [houtcomes, forgetContent, Keyed.get?_erase]
        by_cases hk : k = key <;> simp [hk]
      · intro k
        rw [hprecedents, forgetContent]
        by_cases hk : k = key
        · simp [hk, Graph.precedents_clearCell_self]
        · simp [hk, Graph.precedents_clearCell_of_ne]
      · intro h
        exact hmirrored (h.clearCell key)

/-- Forgetting outcomes forgets nothing else. -/
theorem foldl_forgetOutcome (cells : List CellKey) :
    ∀ e : Engine, (cells.foldl forgetOutcome e).workbook = e.workbook ∧
      (cells.foldl forgetOutcome e).formulas = e.formulas ∧
      (cells.foldl forgetOutcome e).graph = e.graph ∧
      ∀ k, (cells.foldl forgetOutcome e).outcomes.get? k =
        if k ∈ cells then none else e.outcomes.get? k := by
  induction cells with
  | nil => exact fun e => ⟨rfl, rfl, rfl, fun _ => rfl⟩
  | cons key cells ih =>
      intro e
      obtain ⟨hworkbook, hformulas, hgraph, houtcomes⟩ := ih (e.forgetOutcome key)
      rw [List.foldl_cons]
      refine ⟨hworkbook, hformulas, hgraph, ?_⟩
      intro k
      rw [houtcomes, forgetOutcome, Keyed.get?_erase]
      by_cases hk : k = key <;> simp [hk]

section

variable (e : Engine) (changed : List CellKey)

theorem invalidate_workbook : (e.invalidate changed).workbook = e.workbook :=
  (foldl_forgetOutcome _ _).1.trans (foldl_forgetContent changed e).1

theorem invalidate_formulas (k : CellKey) : (e.invalidate changed).formulas.get? k =
    if k ∈ changed then none else e.formulas.get? k := by
  rw [invalidate, (foldl_forgetOutcome _ _).2.1]
  exact (foldl_forgetContent changed e).2.1 k

theorem invalidate_precedents (k : CellKey) : (e.invalidate changed).graph.precedents k =
    if k ∈ changed then [] else e.graph.precedents k := by
  rw [invalidate, (foldl_forgetOutcome _ _).2.2.1]
  exact (foldl_forgetContent changed e).2.2.2.1 k

theorem invalidate_mirrored (h : e.graph.Mirrored) : (e.invalidate changed).graph.Mirrored := by
  rw [invalidate, (foldl_forgetOutcome _ _).2.2.1]
  exact (foldl_forgetContent changed e).2.2.2.2 h

/-- An invalidation forgets the outcomes of the changed cells and of those that read them, directly or
through others. -/
theorem invalidate_outcomes (k : CellKey) : (e.invalidate changed).outcomes.get? k =
    if k ∈ changed ∨ k ∈ e.graph.downstream changed then none else e.outcomes.get? k := by
  rw [invalidate, (foldl_forgetOutcome _ _).2.2.2, (foldl_forgetContent changed e).2.2.1]
  simp only [Std.TreeSet.mem_toList]
  by_cases hdown : k ∈ e.graph.downstream changed
  · simp [hdown]
  · simp [hdown]

end

/-- Defining a name forgets all that is known, and changes nothing else but the names. -/
theorem define_eq_ok {e e' : Engine} {name target : String} (hdefine : e.define name target = .ok e') :
    ∃ w, e.workbook.define name target = .ok w ∧
      e' = { e with workbook := w, formulas := {}, graph := {}, outcomes := {} } := by
  rw [Engine.define] at hdefine
  rw [Workbook.define]
  cases hname : DefinedName.ofText name target with
  | error error =>
      rw [hname] at hdefine
      cases hdefine
  | ok n =>
      rw [hname] at hdefine
      simp only [Except.bind, defineName] at hdefine ⊢
      cases hnames : e.workbook.defineName n with
      | error error =>
          rw [hnames] at hdefine
          cases hdefine
      | ok w =>
          rw [hnames] at hdefine
          cases hdefine
          exact ⟨w, rfl, rfl⟩

namespace Valid

variable {e : Engine} {seen seen' : CellKey → SheetName → Bool}

/-- The sheets that a cell has seen matter only while its outcome is known. -/
theorem congr_seen (h : e.Valid seen) (hseen : ∀ k, e.isKnown k → seen k = seen' k) :
    e.Valid seen' := by
  refine { h with known_due := ?_ }
  intro k o ho
  rw [← hseen k (isKnown_iff.2 ⟨o, ho⟩)]
  exact h.known_due k o ho

end Valid

/-! ## What is still known after a write -/

section

variable {e : Engine} {seen : CellKey → SheetName → Bool} {w : Workbook} {changed : List CellKey}

theorem contains_invalidate (e : Engine) (changed : List CellKey) (k : CellKey) :
    (e.invalidate changed).formulas.contains k ↔ k ∉ changed ∧ e.formulas.contains k := by
  rw [Keyed.contains_eq_isSome, invalidate_formulas, Keyed.contains_eq_isSome]
  by_cases hk : k ∈ changed <;> simp [hk]

theorem isKnown_invalidate (e : Engine) (changed : List CellKey) (k : CellKey) :
    (e.invalidate changed).isKnown k ↔
      e.isKnown k ∧ k ∉ changed ∧ k ∉ e.graph.downstream changed := by
  rw [isKnown, isKnown, Keyed.contains_eq_isSome, invalidate_outcomes, Keyed.contains_eq_isSome]
  by_cases hk : k ∈ changed ∨ k ∈ e.graph.downstream changed
  · rw [if_pos hk]
    refine iff_of_false (by simp) ?_
    rintro ⟨_, hc, hd⟩
    exact hk.elim hc hd
  · rw [if_neg hk]
    exact (and_iff_left (not_or.1 hk)).symm

/-- What a cell that is still known reads has not changed, and neither has what that reads. -/
theorem Valid.unchanged_of_reads (h : e.Valid seen) {k p : CellKey} (hk : e.isKnown k)
    (hdown : k ∉ e.graph.downstream changed) (hread : e.workbook.Reads k p) :
    p ∉ changed ∧ p ∉ e.graph.downstream changed := by
  have hread' : e.graph.Reads k p := h.toConsistent.reads_iff.2 ⟨h.known_read k hk, hread⟩
  refine ⟨?_, ?_⟩
  · exact fun hp => hdown ((Graph.mem_downstream_iff h.mirrored _ _).2 ⟨p, hp, .single hread'⟩)
  · intro hp
    obtain ⟨c, hc, hpc⟩ := (Graph.mem_downstream_iff h.mirrored _ _).1 hp
    exact hdown ((Graph.mem_downstream_iff h.mirrored _ _).2 ⟨c, hc, .head hread' hpc⟩)

/-- An engine that has forgotten the changed cells is consistent for the changed workbook. -/
theorem Consistent.invalidate (h : e.Consistent) (hw : e.workbook.ChangedIn w changed) :
    (({ e with workbook := w } : Engine).invalidate changed).Consistent := by
  refine ⟨?_, ?_, invalidate_mirrored { e with workbook := w } changed h.mirrored⟩
  · intro k r hr
    rw [invalidate_formulas] at hr
    split at hr
    next => cases hr
    next hk =>
      obtain ⟨text, hf, hreading⟩ := h.formulas k r hr
      rw [invalidate_workbook]
      refine ⟨text, (Workbook.formula?_congr (hw.content k hk)).trans hf, hreading.trans ?_⟩
      rw [readingOf, readingOf, hw.names]
  · intro k
    rw [invalidate_precedents, invalidate_workbook]
    simp only [contains_invalidate]
    by_cases hk : k ∈ changed
    · simp [hk]
    · have hreferences := Workbook.references_congr (hw.content k hk) hw.names
      simp [hk, hreferences, h.precedents]

/-- Cells that are still known read, directly or through others, only cells that are still known or
hold no formula. -/
theorem Valid.settled_invalidate (h : e.Valid seen) {c p : CellKey}
    (hc : (e.invalidate changed).isKnown c ∨ e.workbook.formula? c = none)
    (hread : e.workbook.Reads c p) :
    p ∉ changed ∧ ((e.invalidate changed).isKnown p ∨ e.workbook.formula? p = none) := by
  rcases hc with hc | hf
  · obtain ⟨hk, _, hdown⟩ := (isKnown_invalidate e changed c).1 hc
    obtain ⟨hpc, hpd⟩ := h.unchanged_of_reads hk hdown hread
    refine ⟨hpc, ?_⟩
    by_cases hf : (e.workbook.formula? p).isSome
    · exact Or.inl ((isKnown_invalidate e changed p).2 ⟨h.known_closed c hk p hread hf, hpc, hpd⟩)
    · exact Or.inr (Option.not_isSome_iff_eq_none.1 hf)
  · rw [Workbook.Reads, Workbook.references_none hf] at hread
    cases hread

end

namespace Valid

variable {e : Engine} {seen : CellKey → SheetName → Bool}

/-- An engine that has forgotten what depends on changed cells is valid for the changed workbook. -/
theorem invalidate (h : e.Valid seen) {w : Workbook} {changed : List CellKey}
    (hw : e.workbook.ChangedIn w changed) :
    (({ e with workbook := w } : Engine).invalidate changed).Valid seen := by
  have hworkbook := invalidate_workbook { e with workbook := w } changed
  have hknown := isKnown_invalidate { e with workbook := w } changed
  refine { h.toConsistent.invalidate hw with known_read := ?_, known_closed := ?_, known_due := ?_ }
  · intro k hk
    obtain ⟨hk, hc, _⟩ := (hknown k).1 hk
    exact (contains_invalidate { e with workbook := w } changed k).2 ⟨hc, h.known_read k hk⟩
  · intro k hk p hread hf
    obtain ⟨hk', hc, hd⟩ := (hknown k).1 hk
    rw [hworkbook] at hread hf
    rw [Workbook.Reads, Workbook.references_congr (hw.content k hc) hw.names] at hread
    obtain ⟨hpc, hpd⟩ := h.unchanged_of_reads hk' hd hread
    rw [Workbook.formula?_congr (hw.content p hpc)] at hf
    exact (hknown p).2 ⟨h.known_closed k hk' p hread hf, hpc, hpd⟩
  · intro k o ho
    obtain ⟨hk, hc, hd⟩ := (hknown k).1 (isKnown_iff.2 ⟨o, ho⟩)
    rw [invalidate_outcomes, if_neg (not_or.2 ⟨hc, hd⟩)] at ho
    rw [hworkbook]
    -- The cells that are not changed and still known, or hold no formula, read only each other.
    have hP : ∀ c p, (c ∉ changed ∧ ((e.invalidate changed).isKnown c ∨ e.workbook.formula? c = none)) →
        e.workbook.Reads c p →
        p ∉ changed ∧ ((e.invalidate changed).isKnown p ∨ e.workbook.formula? p = none) :=
      fun c p hc hread => h.settled_invalidate hc.2 hread
    refine (h.known_due k o ho).transfer hP (fun c hc => hw.content c hc.1) hw.names
      ⟨hc, Or.inl ((isKnown_invalidate e changed k).2 ⟨hk, hc, hd⟩)⟩ ?_
    intro p hread
    obtain ⟨hpc, hpd⟩ := h.unchanged_of_reads hk hd hread
    rw [Engine.value, Engine.value, invalidate_outcomes, if_neg (not_or.2 ⟨hpc, hpd⟩), hworkbook,
      Workbook.literal_congr (hw.content p hpc)]

/-! ## Every write -/

theorem load (h : e.Valid seen) (entries : List (CellKey × Content)) : (e.load entries).Valid seen :=
  h.invalidate (Workbook.load_changedIn entries e.workbook)

theorem setFormula (h : e.Valid seen) (key : CellKey) (text : String) :
    (e.setFormula key text).Valid seen := by
  unfold Engine.setFormula
  split
  next => exact h
  next =>
    have hset := e.workbook.set_changedIn key (.formula text)
    refine h.invalidate ⟨?_, hset.names⟩
    intro k hk
    refine hset.content k ?_
    split
    · exact hk
    · exact List.not_mem_nil

theorem define {e' : Engine} {name target : String} (hdefine : e.define name target = .ok e')
    (seen : CellKey → SheetName → Bool) : e'.Valid seen := by
  obtain ⟨w, -, rfl⟩ := define_eq_ok hdefine
  exact valid_of_empty seen rfl rfl rfl

end Valid

end Engine

end PaintQuote
