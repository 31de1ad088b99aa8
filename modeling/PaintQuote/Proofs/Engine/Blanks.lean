import PaintQuote.Proofs.Cache.Sessions
import PaintQuote.Proofs.Sheet.Targets
import PaintQuote.Proofs.Values.Singles

/-!
# Formulas that show nothing

A cell shows zero for a formula that comes to nothing, and any other value as it is (`Value.shown`).  An
array of one cell is taken for this cell only after that, so a formula that comes to the array of one
empty cell shows nothing (`Value.shown_eq_empty_iff`).  No name stands for a range of one cell
(`write_namesSpread`), so such an array is that of a range that the formula writes
(`exists_range_of_blank`).

The formulas of a session all show something if and only if none that is evaluated in it comes to such an
array (`Pool.shows_something_iff`).
-/

namespace PaintQuote

open Sheet Formula

/-! ## Ranges of one cell -/

namespace Sheet.Range

variable {r : Range}

theorem isSingle_iff : r.isSingle = true ↔ r.rowCount = 1 ∧ r.columnCount = 1 := by
  obtain ⟨⟨row, column⟩, ⟨row', column'⟩, hrow, hcolumn⟩ := r
  have hrows : row ≤ row' := hrow
  have hcolumns : column ≤ column' := hcolumn
  simp only [isSingle, rowCount, columnCount, beq_iff_eq, Address.mk.injEq]
  omega

/-- A range with the rows of a single value has one cell, and the value is of this cell. -/
theorem single_of_rows {f : Address → CellValue} {v : CellValue}
    (h : (r.rows.map fun row => row.map f) = [[v]]) : r.isSingle = true ∧ f r.start = v := by
  have hlength : r.rowCount = 1 := by simpa [rows] using congrArg List.length h
  have hrow : (r.rowCells 0).map f = [v] := by simpa [rows, hlength] using h
  have hwidth : r.columnCount = 1 := by simpa [rowCells] using congrArg List.length hrow
  exact ⟨isSingle_iff.2 ⟨hlength, hwidth⟩, by simpa [rowCells, hwidth] using hrow⟩

end Sheet.Range

/-! ## Names for ranges -/

/-- No name stands for a range of one cell. -/
def Sheet.NamesSpread (name? : String → Option DefinedName) : Prop :=
  ∀ s defined sheet area, name? s = some defined → defined.target = .range sheet area →
    area.isSingle = false

/-- A target that is read is no range of one cell, for this is read as the cell. -/
theorem Sheet.Target.isSingle_of_ofText {s : String} {sheet : SheetName} {area : Range}
    (h : Target.ofText s = .ok (.range sheet area)) : area.isSingle = false := by
  rcases Target.ofText_cases h with ⟨_, _, -, ⟨⟩⟩ | ⟨_, sheet', area', -, -, -, hrange⟩
  rw [Target.ofRange] at hrange
  split at hrange
  next => cases hrange
  next hsingle =>
    cases hrange
    exact Bool.eq_false_iff.2 hsingle

theorem Sheet.Workbook.define_namesSpread {w w' : Workbook} {name target : String}
    (h : NamesSpread w.name?) (hdefine : w.define name target = .ok w') : NamesSpread w'.name? := by
  obtain ⟨n, hread, rfl⟩ := eq_of_define hdefine
  intro s defined sheet area hs htarget
  rw [name?, NameTable.find?_insert] at hs
  split at hs
  next =>
    cases hs
    exact Target.isSingle_of_ofText (htarget ▸ (DefinedName.ofText_eq_iff.1 hread).2.2)
  next => exact h s defined sheet area hs htarget

/-- A write gives no range of one cell a name. -/
theorem Engine.write_namesSpread (e : Engine) (action : Action) :
    NamesSpread e.workbook.name? → NamesSpread (e.write action).workbook.name? := by
  refine write_keeps (P := fun w => NamesSpread w.name?) (fun w key content h => ?_) ?_ e action
  · exact Workbook.name?_congr (w.set_changedIn key content).names ▸ h
  · exact fun w w' name target h hdefine => Workbook.define_namesSpread h hdefine

/-! ## Arrays of one cell -/

namespace Formula

section

variable {c : Context} {log : Log} {v : CellValue}

/-- A range that comes to an array of one value is over the cell with this value. -/
theorem rangeValue_single {sheet? : Option SheetName} {area : Range}
    (h : ((c.rangeValue sheet? area).run log).1 = .array [[v]]) :
    ∃ sheet, c.resolve sheet? = .ok sheet ∧ area.isSingle = true ∧
      c.source.value ⟨sheet, area.start⟩ = v := by
  cases hsheet : c.resolve sheet? with
  | error e =>
      rw [Context.rangeValue, hsheet] at h
      cases h
  | ok sheet =>
      rw [Context.gives_rangeValue hsheet area log] at h
      exact ⟨sheet, rfl, Range.single_of_rows (Value.array.inj h)⟩

/-- A name does not come to an array of one value, unless it stands for a range of one cell. -/
theorem nameValue_not_single (hnames : NamesSpread c.source.name?) (s : String) :
    ((c.nameValue s).run log).1 ≠ .array [[v]] := by
  intro h
  unfold Context.nameValue at h
  split at h
  next => cases h
  next defined hdefined =>
    split at h
    next => exact absurd h (cellValue_single _ _ _ _)
    next sheet area htarget =>
      obtain ⟨-, -, hsingle, -⟩ := rangeValue_single h
      rw [hnames s defined sheet area hdefined htarget] at hsingle
      cases hsingle
    next => cases h

theorem ArrayItem.value_ne_empty (item : ArrayItem) : item.value ≠ .empty := by
  cases item with
  | literal l => cases l <;> nofun
  | negated n => nofun

/-- A formula that comes to the array of one empty cell hands on a range over this cell that it writes. -/
theorem exists_range_of_blank (hnames : NamesSpread c.source.name?) {e : Expr}
    (h : (evaluateAlone c e).1 = .array [[.empty]]) :
    ∃ r sheet, e.HandsOn (.range r) ∧ r.area.isSingle = true ∧ c.resolve r.sheet? = .ok sheet ∧
      c.source.value ⟨sheet, r.area.start⟩ = .empty := by
  have hrun : ((evaluate c e).run []).1 = .array [[.empty]] := h
  obtain ⟨t, ht, hkind, log', hvalue⟩ := exists_handsOn e hrun
  rcases hkind with ⟨r, rfl⟩ | ⟨s, rfl⟩ | ⟨items, rfl⟩
  · rw [evaluate, Logged.sparing_fst] at hvalue
    obtain ⟨sheet, hsheet, hsingle, hempty⟩ := rangeValue_single hvalue
    exact ⟨r, sheet, ht, hsingle, hsheet, hempty⟩
  · rw [evaluate, Logged.sparing_fst] at hvalue
    exact absurd hvalue (nameValue_not_single hnames s)
  · -- An array constant has no empty items.
    have hitems : (items.map fun row => row.map ArrayItem.value) = [[.empty]] := Value.array.inj hvalue
    have hmem : CellValue.empty ∈ (items.map fun row => row.map ArrayItem.value).flatten := by
      rw [hitems]
      exact List.mem_singleton_self _
    simp only [List.mem_flatten, List.mem_map] at hmem
    obtain ⟨_, ⟨row, -, rfl⟩, hrow⟩ := hmem
    obtain ⟨item, -, hitem⟩ := List.mem_map.1 hrow
    exact absurd hitem item.value_ne_empty

end

end Formula

namespace Engine

/-! ## What sessions show -/

/-- The value of the formula of an evaluation. -/
def Evaluation.result (x : Evaluation) : Value :=
  (evaluateAlone ⟨x.engine.source, x.key.sheet⟩ x.compiled.expr).1

theorem Evaluation.outcome_value (x : Evaluation) : x.outcome.value = x.result.shown :=
  outcomeOf_value _ _

namespace Pool

/-- An outcome that is remembered in a session shows nothing only if a formula that was evaluated before
came to the array of one empty cell. -/
theorem exists_blank_of_holds {capacity? : Option Nat} {events : List Event} {o : Outcome}
    (h : ((opening capacity?).reach events).Holds o) (ho : o.value = .empty) :
    ∃ x ∈ (opening capacity?).computed events, x.result = .array [[.empty]] := by
  rcases origin capacity? events h with ⟨error, rfl⟩ | ⟨x, hx, rfl⟩
  · cases ho
  · exact ⟨x, hx, Value.shown_eq_empty_iff.1 (x.outcome_value.symm.trans ho)⟩

theorem computed_namesSpread (capacity? : Option Nat) (events : List Event) :
    ∀ x ∈ (opening capacity?).computed events, NamesSpread x.engine.workbook.name? := by
  refine computed_keeps (P := fun w => NamesSpread w.name?) write_namesSpread events fun _ => ?_
  intro s defined sheet area hs
  simp [opening, start, Workbook.name?, NameTable.find?] at hs

/-- In a session no formula shows nothing if and only if none that is evaluated comes to the array of one
empty cell.  A formula that comes to nothing shows zero; one that comes to the array of one empty cell
shows nothing, and it hands on a range over this cell that it writes. -/
theorem shows_something_iff (capacity? : Option Nat) (events : List Event) :
    ((∀ before, before <+: events → ∀ i k o,
        (((opening capacity?).reach before).engine i).outcomes.get? k = some o → o.value ≠ .empty) ↔
      ∀ x ∈ (opening capacity?).computed events, x.result ≠ .array [[.empty]]) ∧
    ∀ x ∈ (opening capacity?).computed events,
      (x.result = .empty → x.outcome.value = .number 0) ∧
      (x.result = .array [[.empty]] → x.outcome.value = .empty ∧
        ∃ r sheet, x.compiled.expr.HandsOn (.range r) ∧ r.area.isSingle = true ∧
          sheet = r.sheet?.getD x.key.sheet ∧ x.engine.value ⟨sheet, r.area.start⟩ = .empty) := by
  refine ⟨⟨?_, ?_⟩, fun x hx => ⟨?_, ?_⟩⟩
  · intro hall x hx hblank
    obtain ⟨before, hbefore, i, ho⟩ := remembers events hx
    refine hall before hbefore i x.key x.outcome ho ?_
    rw [x.outcome_value, hblank]
    rfl
  · rintro hall before ⟨more, rfl⟩ i k o ho hempty
    obtain ⟨x, hx, hblank⟩ := exists_blank_of_holds ⟨i, Or.inl ⟨k, ho⟩⟩ hempty
    rw [computed_append] at hall
    exact hall x (List.mem_append_left _ hx) hblank
  · intro hnothing
    rw [x.outcome_value, hnothing]
    rfl
  · intro hblank
    refine ⟨?_, ?_⟩
    · rw [x.outcome_value, hblank]
      rfl
    · obtain ⟨r, sheet, hr, hsingle, hsheet, hempty⟩ :=
        exists_range_of_blank (computed_namesSpread capacity? events x hx) hblank
      exact ⟨r, sheet, hr, hsingle, AgreeOn.resolve_eq hsheet, hempty⟩

/-- An empty cell that is read by itself, by a choice and out of a range is shown as zero. -/
theorem shows_something_references :
    let key (column : Nat) : CellKey := ⟨.standard, ⟨0, column⟩⟩
    let events : List Event := [.act 0 (.load [(key 1, .formula "=A1"), (key 2, .formula "=IF(TRUE,A1)"),
      (key 3, .formula "=INDEX(A1:A2,1,1)")]), .act 0 (.evaluateAll [key 1, key 2, key 3])]
    (∀ before, before <+: events → ∀ i k o,
      (((opening (some 4)).reach before).engine i).outcomes.get? k = some o → o.value ≠ .empty) ∧
    ((opening (some 4)).computed events).map (fun x => (x.key, x.outcome.value)) =
      [(key 1, .number 0), (key 2, .number 0), (key 3, .number 0)] := by
  intro key events
  have hresult : ∀ x ∈ (opening (some 4)).computed events, x.result = .empty := by decide +kernel
  have hkeys : ((opening (some 4)).computed events).map (·.key) = [key 1, key 2, key 3] := by
    decide +kernel
  obtain ⟨hshows, hvalues⟩ := shows_something_iff (some 4) events
  refine ⟨hshows.2 fun x hx => ?_, ?_⟩
  · rw [hresult x hx]
    nofun
  · have hzero : ((opening (some 4)).computed events).map (fun x => (x.key, x.outcome.value)) =
        (((opening (some 4)).computed events).map (·.key)).map fun k => (k, .number 0) := by
      rw [List.map_map]
      exact List.map_congr_left fun x hx => congrArg (Prod.mk x.key) ((hvalues x hx).1 (hresult x hx))
    rw [hzero, hkeys]
    rfl

/-- An empty cell that is read as a range shows nothing, by itself and by a choice. -/
theorem range_shows_nothing :
    let key (column : Nat) : CellKey := ⟨.standard, ⟨0, column⟩⟩
    let e := ((opening none).reach [.act 0 (.load [(key 1, .formula "=A1:A1"),
      (key 2, .formula "=IF(TRUE,A1:A1)")]), .act 0 (.evaluateAll [key 1, key 2])]).engine 0
    e.outcomes.get? (key 1) = some (.ok .empty) ∧ e.outcomes.get? (key 2) = some (.ok .empty) := by
  decide +kernel

end Pool

end Engine

end PaintQuote
