import PaintQuote.Estimate.Estimator
import PaintQuote.Proofs.Engine.Writes

/-!
# Tables on a sheet

What is loaded into a workbook can be read back: a cell holds what was written to it, provided that
all that was written to it is the same (`Workbook.content_load`), the entries of a table are its items
at their places (`Layout.mem_table`), and the range over a table has its rows as its value
(`Formula.Context.rangeValue_table`).  Names that differ can all be defined, and are found again
(`Engine.foldlM_defineName`).
-/

namespace PaintQuote

open Sheet Formula Engine Estimate

/-! ## Contents after writes -/

namespace Sheet.Workbook

/-- A cell is written if what it holds does not agree, and then nothing else is touched. -/
theorem get?_set (w : Workbook) (key k : CellKey) (c : Content) :
    (w.set key c).1.cells.get? k =
      if k = key ∧ (w.content key).agrees c = false then (if c.isEmpty then none else some c)
      else w.cells.get? k := by
  have hcells := withSheet_cells w key.sheet
  simp only [set, content_withSheet]
  by_cases hagrees : (w.content key).agrees c = true
  · rw [if_pos hagrees, if_neg (by simp [hagrees]), hcells]
  · have hwrites : (w.content key).agrees c = false := Bool.eq_false_iff.2 hagrees
    rw [if_neg hagrees]
    simp only [hwrites, and_true]
    by_cases hempty : c.isEmpty = true
    · rw [if_pos hempty, if_pos hempty, Keyed.get?_erase, hcells]
    · rw [if_neg hempty, if_neg hempty, Keyed.get?_insert, hcells]

theorem content_set (w : Workbook) (key k : CellKey) (c : Content) :
    (w.set key c).1.content k =
      if k = key then if (w.content key).agrees c then w.content key else c else w.content k := by
  rw [content, get?_set]
  by_cases hk : k = key
  · subst hk
    cases hagrees : (w.content k).agrees c with
    | true =>
        rw [if_neg (by simp), if_pos rfl, if_pos rfl]
        rfl
    | false =>
        rw [if_pos ⟨rfl, rfl⟩, if_pos rfl, if_neg Bool.false_ne_true]
        cases hempty : c.isEmpty with
        | true => exact (beq_iff_eq.1 hempty).symm
        | false => rfl
  · rw [if_neg fun h => hk h.1, if_neg hk]
    rfl

theorem load_cons (w : Workbook) (key : CellKey) (c : Content) (entries : List Entry) :
    (w.load ((key, c) :: entries)).1 = ((w.set key c).1.load entries).1 := rfl

/-- A cell that holds something keeps it while only the same is written to it. -/
theorem content_load_of_same {k : CellKey} {c : Content} {entries : List Entry}
    (h : ∀ c', (k, c') ∈ entries → c' = c) :
    ∀ w : Workbook, w.content k = c → (w.load entries).1.content k = c := by
  induction entries with
  | nil => exact fun w hw => hw
  | cons entry entries ih =>
      obtain ⟨key, c'⟩ := entry
      intro w hw
      rw [load_cons]
      refine ih (fun c'' hc => h c'' (List.mem_cons_of_mem _ hc)) _ ?_
      rw [content_set]
      split
      next heq =>
        subst heq
        rw [hw, h c' List.mem_cons_self, if_pos c.agrees_self]
      next => exact hw

/-- A cell holds what was written to it, if it held something else and was written to in one way. -/
theorem content_load {k : CellKey} {c : Content} {entries : List Entry} (hmem : (k, c) ∈ entries)
    (h : ∀ c', (k, c') ∈ entries → c' = c) :
    ∀ w : Workbook, (w.content k).agrees c = false → (w.load entries).1.content k = c := by
  induction entries with
  | nil => cases hmem
  | cons entry entries ih =>
      obtain ⟨key, c'⟩ := entry
      intro w hw
      have hrest : ∀ c', (k, c') ∈ entries → c' = c := fun c' hc => h c' (List.mem_cons_of_mem _ hc)
      rw [load_cons]
      by_cases heq : k = key
      · subst heq
        refine content_load_of_same hrest _ ?_
        rw [content_set, if_pos rfl, h c' List.mem_cons_self, if_neg (Bool.eq_false_iff.1 hw)]
      · have hmem' : (k, c) ∈ entries := by
          rcases List.mem_cons.1 hmem with hhead | htail
          · exact absurd (congrArg Prod.fst hhead) heq
          · exact htail
        refine ih hmem' hrest _ ?_
        rw [content_set, if_neg heq]
        exact hw

theorem load_append (before after : List Entry) :
    ∀ w : Workbook, (w.load (before ++ after)).1 = ((w.load before).1.load after).1 := by
  induction before with
  | nil => exact fun _ => rfl
  | cons entry before ih =>
      intro w
      exact ih _

theorem hasSheet_set (w : Workbook) (key : CellKey) (c : Content) (s : SheetName) :
    (w.set key c).1.hasSheet s = (w.hasSheet s || s == key.sheet) := by
  rw [← hasSheet_withSheet]
  simp only [set]
  split
  next => rfl
  next =>
    split
    next => rfl
    next => rfl

theorem hasSheet_load (entries : List Entry) (s : SheetName) :
    ∀ w : Workbook, (w.load entries).1.hasSheet s =
      (w.hasSheet s || entries.any fun e => s == e.1.sheet) := by
  induction entries with
  | nil => exact fun w => (Bool.or_false _).symm
  | cons entry entries ih =>
      intro w
      obtain ⟨key, c⟩ := entry
      rw [load_cons, ih, hasSheet_set, List.any_cons, Bool.or_assoc]

end Sheet.Workbook

/-! ## Entries of tables -/

namespace Estimate.Layout

variable {sheet : SheetName} {start : Address} {rows : List (List Content)} {k : CellKey}
  {c c' : Content}

/-- The entries of a table are its items, each at its place. -/
theorem mem_table : (k, c) ∈ table sheet start rows ↔
    ∃ i j, k = ⟨sheet, ⟨start.row + i, start.column + j⟩⟩ ∧
      ∃ items, rows[i]? = some items ∧ items[j]? = some c := by
  simp only [table, row, List.mem_flatMap, List.mem_map, Prod.exists, Prod.mk.injEq,
    List.mem_zipIdx_iff_getElem?]
  constructor
  · rintro ⟨items, i, hi, d, j, hj, rfl, rfl⟩
    exact ⟨i, j, rfl, items, hi, hj⟩
  · rintro ⟨i, j, rfl, items, hi, hj⟩
    exact ⟨items, i, hi, c, j, hj, rfl, rfl⟩

theorem row_eq_table (contents : List Content) :
    row sheet start contents = table sheet start [contents] := by
  simp [table]

/-- No two items of a table have the same place. -/
theorem eq_of_mem_table (h : (k, c) ∈ table sheet start rows)
    (h' : (k, c') ∈ table sheet start rows) : c = c' := by
  obtain ⟨i, j, rfl, items, hi, hj⟩ := mem_table.1 h
  obtain ⟨i', j', heq, items', hi', hj'⟩ := mem_table.1 h'
  simp only [CellKey.mk.injEq, Address.mk.injEq, Nat.add_left_cancel_iff, true_and] at heq
  obtain ⟨rfl, rfl⟩ := heq
  rw [hi] at hi'
  cases hi'
  rw [hj] at hj'
  exact Option.some.inj hj'

/-- The places of a table whose rows have a width. -/
theorem within_of_mem_table {width : Nat} (hwidth : ∀ items ∈ rows, items.length = width)
    (h : (k, c) ∈ table sheet start rows) :
    k.sheet = sheet ∧ start.row ≤ k.address.row ∧ k.address.row < start.row + rows.length ∧
      start.column ≤ k.address.column ∧ k.address.column < start.column + width := by
  obtain ⟨i, j, rfl, items, hi, hj⟩ := mem_table.1 h
  have hrow := (List.getElem?_eq_some_iff.1 hi).1
  have hcolumn := (List.getElem?_eq_some_iff.1 hj).1
  rw [hwidth items (List.mem_of_getElem? hi)] at hcolumn
  exact ⟨rfl, Nat.le_add_right _ _, Nat.add_lt_add_left hrow _, Nat.le_add_right _ _,
    Nat.add_lt_add_left hcolumn _⟩

end Estimate.Layout

/-! ## Values of ranges -/

namespace Formula

theorem Logged.all_map_pure {α β : Type} (f : α → Logged β) (g : α → β) :
    ∀ as : List α, (∀ a ∈ as, f a = pure (g a)) → Logged.all (as.map f) = pure (as.map g)
  | [], _ => rfl
  | a :: as, h => by
      rw [List.map_cons, Logged.all, h a List.mem_cons_self,
        Logged.all_map_pure f g as fun b hb => h b (List.mem_cons_of_mem _ hb)]
      rfl

namespace Context

variable {c : Context} {sheet : SheetName}

/-- Reading a cell without an error notes nothing. -/
theorem readCell_eq_pure {key : CellKey} {v : CellValue} (h : c.source.value key = v)
    (hv : v.error? = none) : c.readCell key = pure v := by
  unfold readCell
  split
  next e he =>
    rw [← h, he] at hv
    cases hv
  next => rw [h]

theorem cellValue_eq_pure {address : Address} {v : CellValue}
    (hsheet : c.source.hasSheet sheet = true) (h : c.source.value ⟨sheet, address⟩ = v)
    (hv : v.error? = none) : c.cellValue (some sheet) address = pure (.scalar v) := by
  simp only [cellValue, resolve, if_pos hsheet]
  rw [readCell_eq_pure h hv]
  rfl

/-- The value of the range over a table is the rows of the table. -/
theorem rangeValue_table {area : Range} {rows : List (List CellValue)}
    (hsheet : c.source.hasSheet sheet = true) (hrows : rows.length = area.rowCount)
    (hwidth : ∀ items ∈ rows, items.length = area.columnCount)
    (hvalue : ∀ i j items v, rows[i]? = some items → items[j]? = some v →
      c.source.value ⟨sheet, ⟨area.start.row + i, area.start.column + j⟩⟩ = v)
    (herror : ∀ items ∈ rows, ∀ v ∈ items, v.error? = none) :
    c.rangeValue (some sheet) area = pure (.array rows) := by
  have hgrid : area.rows.map (fun cells => cells.map fun a => c.source.value ⟨sheet, a⟩) = rows := by
    refine List.ext_getElem (by simp [Range.rows, hrows]) fun i hi hi' => ?_
    have hitems := List.getElem?_eq_getElem hi'
    refine List.ext_getElem ?_ fun j hj hj' => ?_
    · simp [Range.rows, Range.rowCells, hwidth _ (List.getElem_mem hi')]
    · have := hvalue i j _ _ hitems (List.getElem?_eq_getElem hj')
      simpa [Range.rows, Range.rowCells] using this
  simp only [rangeValue, resolve, if_pos hsheet]
  rw [Logged.all_map_pure _ (fun cells => cells.map fun a => c.source.value ⟨sheet, a⟩), hgrid]
  · rfl
  · intro cells hcells
    refine Logged.all_map_pure _ _ _ fun a ha => readCell_eq_pure rfl ?_
    refine herror (cells.map fun a => c.source.value ⟨sheet, a⟩) ?_ _ (List.mem_map_of_mem ha)
    rw [← hgrid]
    exact List.mem_map_of_mem hcells

end Context

theorem Logged.sparing_pure (v : Value) : Logged.sparing (pure v) = pure v := by
  funext log
  show (if v.carriesError = true then pure v
    else Logged.keep log.length >>= fun _ => pure v : Logged Value) log = (v, log)
  split
  next => rfl
  next => exact congrArg (Prod.mk v) List.take_length

/-- A name whose target has a value has that value, and nothing is noted. -/
theorem evaluateAlone_name {c : Context} {name : String} {v : Value}
    (h : c.nameValue name = pure v) : evaluateAlone c (.name name) = (v, none) := by
  rw [evaluateAlone, evaluate, h, Logged.sparing_pure]
  rfl

end Formula

/-! ## Engines -/

namespace Engine

theorem load_workbook (e : Engine) (entries : List Entry) :
    (e.load entries).workbook = (e.workbook.load entries).1 := invalidate_workbook _ _

theorem load_outcomes {e : Engine} (h : ∀ k, e.outcomes.get? k = none) (entries : List Entry)
    (k : CellKey) : (e.load entries).outcomes.get? k = none := by
  rw [load, invalidate_outcomes]
  split
  next => rfl
  next => exact h k

/-- A name that is not taken is defined, and nothing is known afterwards. -/
theorem defineName_eq_ok {e : Engine} {n : DefinedName} (h : e.workbook.name? n.name = none) :
    ∃ e', e.defineName n = .ok e' ∧
      (∀ name, e'.workbook.name? name =
        if DefinedName.lookupKey name = DefinedName.lookupKey n.name then some n
        else e.workbook.name? name) ∧
      e'.workbook.cells = e.workbook.cells ∧ e'.workbook.sheets = e.workbook.sheets ∧
      ∀ k, e'.outcomes.get? k = none := by
  have hfree : e.workbook.names.contains (DefinedName.lookupKey n.name) = false := by
    rw [Std.TreeMap.contains_eq_isSome_getElem?, ← Std.TreeMap.get?_eq_getElem?]
    exact Option.isSome_eq_false_iff.2 (Option.isNone_iff_eq_none.2 h)
  let names := e.workbook.names.insert (DefinedName.lookupKey n.name) n
  let workbook : Workbook := { e.workbook with names }
  let e' : Engine := { e with workbook, formulas := {}, graph := {}, outcomes := {} }
  refine ⟨e', ?_, ?_, rfl, rfl, fun k => rfl⟩
  · simp only [defineName, Workbook.defineName, NameTable.define, hfree]
    rfl
  · exact NameTable.find?_insert e.workbook.names n

/-- Names that differ, also from those that there are, can all be defined. -/
theorem foldlM_defineName {names : List DefinedName} :
    ∀ {e : Engine}, (names.map fun n => DefinedName.lookupKey n.name).Nodup →
      (∀ n ∈ names, e.workbook.name? n.name = none) → (∀ k, e.outcomes.get? k = none) →
      ∃ e', names.foldlM defineName e = .ok e' ∧
        (∀ n ∈ names, e'.workbook.name? n.name = some n) ∧
        (∀ name, (∀ n ∈ names, DefinedName.lookupKey n.name ≠ DefinedName.lookupKey name) →
          e'.workbook.name? name = e.workbook.name? name) ∧
        e'.workbook.cells = e.workbook.cells ∧ e'.workbook.sheets = e.workbook.sheets ∧
        ∀ k, e'.outcomes.get? k = none := by
  induction names with
  | nil =>
      intro e _ _ houtcomes
      exact ⟨e, rfl, fun n hn => absurd hn List.not_mem_nil, fun _ _ => rfl, rfl, rfl, houtcomes⟩
  | cons n names ih =>
      intro e hdistinct hfree houtcomes
      obtain ⟨hnotin, htail⟩ := List.nodup_cons.1 hdistinct
      have hne : ∀ m ∈ names, DefinedName.lookupKey m.name ≠ DefinedName.lookupKey n.name :=
        fun m hm heq => hnotin (List.mem_map.2 ⟨m, hm, heq⟩)
      obtain ⟨e₁, hdefine, hname, hcells, hsheets, hunknown⟩ :=
        defineName_eq_ok (hfree n List.mem_cons_self)
      have hfree₁ : ∀ m ∈ names, e₁.workbook.name? m.name = none := by
        intro m hm
        rw [hname, if_neg (hne m hm)]
        exact hfree m (List.mem_cons_of_mem _ hm)
      obtain ⟨e', hfold, hfound, hother, hcells', hsheets', hunknown'⟩ := ih htail hfree₁ hunknown
      refine ⟨e', ?_, ?_, ?_, hcells'.trans hcells, hsheets'.trans hsheets, hunknown'⟩
      · rw [List.foldlM_cons, hdefine]
        exact hfold
      · intro m hm
        rcases List.mem_cons.1 hm with rfl | hm
        · rw [hother _ hne, hname, if_pos rfl]
        · exact hfound m hm
      · intro name hname'
        rw [hother name fun m hm => hname' m (List.mem_cons_of_mem _ hm), hname,
          if_neg (hname' n List.mem_cons_self).symm]

end Engine

end PaintQuote
