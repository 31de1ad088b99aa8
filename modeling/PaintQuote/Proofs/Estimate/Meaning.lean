import PaintQuote.Proofs.Engine.Writes
import PaintQuote.Proofs.Estimate.Cells
import PaintQuote.Proofs.Estimate.Inquiries

/-!
# What the cells of a page come to

A page has one meaning (`Page.meaning`), and an estimate reads its outputs off it
(`Page.shown_output`).  A cell in which something was written comes to that (`Page.value_of_literal`), a
cell with a formula to what the formula gives over the other cells (`Page.value_of_gives`), and the names
in a formula give the rates (`Page.gives_name`).

Pages that write the same to some cells come to the same there, if what else these cells read has the same
values (`Page.outcome_congr`).
-/

namespace PaintQuote

open Sheet Formula Engine Estimate

namespace Estimate

/-! ## Contents -/

namespace Layout

/-- The columns of a project that hold texts and numbers have at most seven cells in a row. -/
theorem length_projectRow {rows : List ProjectRow} {items : List Content}
    (h : items ∈ (["room", "area", "gallons", "hours", "good", "better", "best"].map text ::
      rows.map rowContents)) : items.length = 7 := by
  rcases List.mem_cons.1 h with rfl | h
  · rfl
  · obtain ⟨row, -, rfl⟩ := List.mem_map.1 h
    rfl

/-- A cell of a project is written to once. -/
theorem eq_of_mem_projectEntries {rows : List ProjectRow} {k : CellKey} {c c' : Content}
    (h : (k, c) ∈ projectEntries rows) (h' : (k, c') ∈ projectEntries rows) : c = c' := by
  have hapart : ∀ {d d' : Content}, (k, d) ∈ table projectSheet (place 'A' 1)
      (["room", "area", "gallons", "hours", "good", "better", "best"].map text :: rows.map rowContents) →
      (k, d') ∉ column projectSheet (place 'J' 2) ((totals rows.length).map .formula) := by
    intro d d' htable hcolumn
    have hlow : k.address.column < 0 + 7 :=
      (within_of_mem_table (fun _ => length_projectRow) htable).2.2.2.2
    obtain ⟨i, rfl, -⟩ := mem_column.1 hcolumn
    exact absurd hlow (by simp [place])
  rcases List.mem_append.1 h with h | h
  · rcases List.mem_append.1 h' with h' | h'
    · exact eq_of_mem_table h h'
    · exact absurd h' (hapart h)
  · rcases List.mem_append.1 h' with h' | h'
    · exact absurd h (hapart h')
    · exact eq_of_mem_table h h'

end Layout

namespace Page

/-- A cell of a page is written to once. -/
theorem eq_of_mem_entries {page : Page} {k : CellKey} {c c' : Content} (h : (k, c) ∈ page.entries)
    (h' : (k, c') ∈ page.entries) : c = c' := by
  cases page with
  | room r => exact Layout.eq_of_mem_roomEntries h h'
  | project rows => exact Layout.eq_of_mem_projectEntries h h'

/-! ## Outcomes -/

section

variable (base : Engine) (page : Page)

/-- What a cell comes to when all of a page has been evaluated. -/
def outcome (k : CellKey) : Outcome :=
  ((page.engine base).run none (page.engine base).workbook.cells.keys).1.shown k

/-- The value that a cell comes to. -/
def value (k : CellKey) : CellValue := (page.outcome base k).value

/-- The context of the formulas of a page. -/
def context : Context :=
  ⟨⟨page.value base, (page.engine base).workbook.hasSheet, (page.engine base).workbook.name?⟩, page.sheet⟩

/-- A reference on the sheet of a page gives what its cell comes to. -/
theorem gives_cell (r : CellReference) (hsheet : r.sheet? = none) :
    (Expr.cell r).Gives (page.context base) (.scalar (page.value base ⟨page.sheet, r.address⟩)) :=
  .cell hsheet

/-- A reference that is written with a column and a row gives what the cell comes to. -/
theorem gives_cellExpr {column : Char} {row : Nat} {v : CellValue}
    (h : page.value base ⟨page.sheet, Layout.place column row⟩ = v) :
    (Layout.cellExpr column row).Gives (page.context base) (.scalar v) :=
  h ▸ page.gives_cell base ⟨none, Layout.place column row, ⟨false, false⟩⟩ rfl

theorem gives_range (r : RangeReference) (hsheet : r.sheet? = none) :
    (Expr.range r).Gives (page.context base)
      (.array (r.area.rows.map fun row => row.map fun a => page.value base ⟨page.sheet, a⟩)) :=
  .range hsheet

end

section

variable {base : Engine} (hbare : Bare base) (page : Page)
include hbare

/-- The outcomes of the cells of a page are its meaning. -/
theorem meaning : (page.engine base).workbook.Meaning (page.outcome base) :=
  (page.engine_unread hbare).valid.meaning

/-- What is read off a page is what its outputs come to. -/
theorem shown_output {k : CellKey} (hk : k ∈ page.outputs) :
    (page.evaluated base).shown k = page.outcome base k := by
  obtain ⟨e, hrun, hvalid, hworkbook, -, hknown⟩ :=
    (page.engine_unread hbare).valid.run (fun _ _ => rfl) page.outputs
  have hmeaning := page.meaning hbare
  have hsettled : e.Settled k := by
    by_cases hf : ((page.engine base).workbook.formula? k).isSome
    · exact Or.inl (hknown k hk hf)
    · exact Or.inr (hworkbook ▸ Option.not_isSome_iff_eq_none.1 hf)
  rw [evaluated, hrun]
  rw [← hworkbook] at hvalid hmeaning
  exact hvalid.shown_eq_of hmeaning (fun k _ => hmeaning k) k hsettled

variable {page}

/-- A cell in which a value is written comes to it. -/
theorem value_of_literal {k : CellKey} {v : CellValue} (h : (k, .literal v) ∈ page.entries) :
    page.value base k = v := by
  have hcontent := engine_content hbare h fun c' h' => eq_of_mem_entries h' h
  have hf : (page.engine base).workbook.formula? k = none := by
    rw [Workbook.formula?, hcontent]
  rw [value, (page.meaning hbare k).eq_of_literal hf, Outcome.ok, Workbook.literal, hcontent]

omit hbare in
/-- A cell with a formula comes to what the formula gives. -/
theorem outcome_of_formula {rates : Rates} (hbase : ratesEngine rates = .ok base) {k : CellKey} {t : String}
    {e : Expr} (h : (k, .formula t) ∈ page.entries) (hx : Expr.ofText t = .ok e) :
    page.outcome base k = outcomeOf (page.context base) e := by
  have hbare := bare_of_ratesEngine hbase
  have hcontent := engine_content hbare h fun c' h' => eq_of_mem_entries h' h
  have houtcome := (page.meaning hbare k).eq_of_evaluated (formula?_eq_some.2 hcontent) hx
    (page.not_circular hbase k)
  rw [sheet_of_mem_entries h] at houtcome
  exact houtcome

/-- A cell whose formula cannot be read fails with its fault. -/
theorem outcome_of_malformed {k : CellKey} {t : String} {error : ParseError} (h : (k, .formula t) ∈ page.entries)
    (hx : Expr.ofText t = .error error) : page.outcome base k = .failed error.report :=
  (page.meaning hbare k).eq_of_malformed
    (formula?_eq_some.2 (engine_content hbare h fun _ h' => eq_of_mem_entries h' h)) hx

omit hbare in
/-- A cell with a formula shows the value that the formula gives. -/
theorem value_of_gives {rates : Rates} (hbase : ratesEngine rates = .ok base) {k : CellKey} {t : String}
    {e : Expr} {v : CellValue} (h : (k, .formula t) ∈ page.entries) (hx : Expr.ofText t = .ok e)
    (hv : v ≠ .empty) (hgives : e.Gives (page.context base) (.scalar v)) : page.value base k = v := by
  rw [value, outcome_of_formula hbase h hx]
  exact hgives.outcomeOf hv

/-! ## Rates -/

/-- The sheet of rates is as it was before a page was written. -/
theorem value_of_rates {k : CellKey} (hk : k.sheet = Layout.ratesSheet) :
    page.value base k = base.value k := by
  have hcontent := engine_content_of_unwritten base fun c hmem =>
    page.sheet_ne_rates ((sheet_of_mem_entries hmem).symm.trans hk)
  have hf := hbare.formula? k
  have hliteral := (page.meaning hbare k).eq_of_literal ((Workbook.formula?_congr hcontent).trans hf)
  rw [value, hliteral, Workbook.literal_congr hcontent,
    value_of_not_known (hbare.unread.valid.not_known_of_formula?_eq_none hf)]
  rfl

end

/-- A name in a formula gives what it gives beside the rates alone. -/
theorem gives_name {rates : Rates} {base : Engine} (hbase : ratesEngine rates = .ok base) {page : Page}
    {s : String} (hs : Layout.rateWords.contains s = true) {v : Value} {issue? : Option FormulaError}
    (h : readName base page.sheet s = (v, issue?)) : (Expr.name s).Gives (page.context base) v := by
  have hbare := bare_of_ratesEngine hbase
  have hnames : (page.engine base).workbook.names = base.workbook.names := by
    rw [engine, load_workbook, Workbook.load_names]
  have hsame : evaluate (page.context base) (.name s) = evaluate ⟨base.source, page.sheet⟩ (.name s) := by
    have hsheet : ∀ p ∈ (References.ofExpr base.workbook.names page.sheet (.name s)).cells,
        p.sheet = Layout.ratesSheet := by
      intro p hp
      cases References.mem_ofExpr_iff.1 hp with
      | name hd hp => exact sheet_of_rateWord hbase rfl hs hd hp
    have hname : ∀ s, (page.engine base).workbook.name? s = base.workbook.names.find? s := by
      intro s
      rw [Workbook.name?, hnames]
    refine @evaluate_congr _ _ base.workbook.names hname {} (.name s) ?_
    refine { sheet := rfl, value := fun p hp => ?_, hasSheet := fun p hp => ?_, target := fun s _ => ?_ }
    · exact value_of_rates hbare (hsheet p hp)
    · show (page.engine base).workbook.hasSheet p.sheet = base.workbook.hasSheet p.sheet
      rw [hsheet p hp, page.engine_hasSheet hbare, hbare.hasSheet, beq_self_eq_true, Bool.true_or]
    · show ((page.engine base).workbook.name? s).map _ = (base.workbook.name? s).map _
      rw [hname s]
      rfl
  refine .name ?_
  rw [evaluateAlone, hsame]
  exact congrArg Prod.fst h

section

variable {rates : Rates} {base : Engine} (hbase : ratesEngine rates = .ok base)
  (hvalid : rates.fault? = none)
include hbase hvalid

theorem publishes (sheet : SheetName) : Publishes rates base sheet :=
  (holds_of_ratesEngine hbase).2.publishes sheet hvalid

/-- The name of a single rate gives it. -/
theorem gives_rate {page : Page} {name : String} {rate : Decimal}
    (h : (name, rate) ∈ Layout.namedRates rates) :
    (Expr.name name).GivesNumber (page.context base) (some rate) := by
  have hnames : (Layout.namedRates rates).map (·.1) ++
      ["TIER_LABOR", "CONDITION_TABLE", "PAINT_TABLE", "DISCOUNTS"] = Layout.rateWords := rfl
  have hword : name ∈ Layout.rateWords := by
    rw [← hnames]
    exact List.mem_append_left _ (List.mem_map_of_mem h)
  have hread := (publishes hbase hvalid page.sheet).single (name, rate) h
  exact gives_name hbase (List.contains_iff_mem.2 hword) hread

end

/-! ## Pages that agree -/

section

variable {rates : Rates} {base : Engine} (hbase : ratesEngine rates = .ok base) {page page' : Page}
include hbase

/-- A cell holds the same on two pages that write the same to it. -/
theorem content_congr {k : CellKey} (h : ∀ c, (k, c) ∈ page.entries ↔ (k, c) ∈ page'.entries) :
    (page'.engine base).workbook.content k = (page.engine base).workbook.content k := by
  have hbare := bare_of_ratesEngine hbase
  by_cases hmem : ∃ c, (k, c) ∈ page.entries
  · obtain ⟨c, hc⟩ := hmem
    have hc' := (h c).1 hc
    rw [engine_content hbare hc fun _ h' => eq_of_mem_entries h' hc,
      engine_content hbare hc' fun _ h' => eq_of_mem_entries h' hc']
  · rw [engine_content_of_unwritten base fun c hc => hmem ⟨c, hc⟩,
      engine_content_of_unwritten base fun c hc => hmem ⟨c, (h c).2 hc⟩]

/-- Two pages on one sheet that write the same to some cells come to the same there, if all other cells that
these read have the same values on both pages.  The induction is on the depth of the cell. -/
theorem outcome_congr (hsheet : page.sheet = page'.sheet) {P : CellKey → Prop}
    (hentries : ∀ k, P k → ∀ c, (k, c) ∈ page.entries ↔ (k, c) ∈ page'.entries)
    (hP : ∀ k p, P k → (page.engine base).workbook.Reads k p →
      P p ∨ page.value base p = page'.value base p) :
    ∀ k, P k → page.outcome base k = page'.outcome base k := by
  have hbare := bare_of_ratesEngine hbase
  have hnames : (page'.engine base).workbook.names = (page.engine base).workbook.names := by
    rw [engine, engine, load_workbook, load_workbook, Workbook.load_names, Workbook.load_names]
  have hsheets : (page'.engine base).workbook.hasSheet = (page.engine base).workbook.hasSheet := by
    funext s
    rw [page'.engine_hasSheet hbare, page.engine_hasSheet hbare, hsheet]
  have hdue : ∀ k, P k → Due (page.engine base).workbook (page.engine base).workbook.hasSheet
      (page'.value base) k (page'.outcome base k) := by
    intro k hk
    have hcontent := content_congr hbase (hentries k hk)
    have hformula := Workbook.formula?_congr hcontent
    have hdue := page'.meaning hbare k
    rw [hsheets] at hdue
    generalize page'.outcome base k = o at hdue ⊢
    cases hdue with
    | literal hf =>
        rw [Workbook.literal_congr hcontent]
        exact .literal (hformula.symm.trans hf)
    | malformed hf hx => exact .malformed (hformula.symm.trans hf) hx
    | circular hc _ => exact absurd hc (page'.not_circular hbase k)
    | evaluated hf hx _ =>
        rw [Workbook.name?_congr hnames]
        exact .evaluated (hformula.symm.trans hf) hx (page.not_circular hbase k)
  intro k hk
  induction hd : (page.engine base).workbook.depth k using Nat.strong_induction_on generalizing k with
  | _ depth ih =>
      refine (page.meaning hbare k).unique ((hdue k hk).congr fun p hread => ?_)
      have hdepth := hd ▸ Workbook.depth_lt hread (page.not_circular hbase k)
      rcases hP k p hk hread with hp | hvalue
      · exact congrArg Outcome.value (ih _ hdepth p hp rfl).symm
      · exact hvalue.symm

end

end Page

/-! ## Readings -/

section

variable {base : Engine} (hbare : Bare base)
include hbare

theorem freshReadings_eq (r : Room) (o : RoomOutput) :
    freshReadings base r o = .ofOutcome ((Page.room r).outcome base o.key) (some r.name) o.label o.key := by
  rw [freshReadings, roomReadings, (Page.room r).shown_output hbare (List.mem_map_of_mem o.mem_all)]

theorem projectReadings_eq (rows : List ProjectRow) (o : ProjectOutput) :
    projectReadings ((Page.project rows).evaluated base) o =
      .ofOutcome ((Page.project rows).outcome base o.key) none o.label o.key := by
  rw [projectReadings, (Page.project rows).shown_output hbare (List.mem_map_of_mem o.mem_all)]

end

end Estimate

end PaintQuote
