import PaintQuote.Proofs.Estimate.Tables

/-!
# The sheet of rates

The rates are written in five blocks: the single rates, the prices of labor, and the tables of
conditions, paints and discounts.  Blocks share no cells, except that the table of conditions reaches
the row of the prices of labor when it has more than twelve rows, and then the name of the thirteenth
condition replaces the highest price of labor (`overlap_of_mem_entries`).

Every name of a rate reads that rate back, and every name of a table its rows.  The prices of labor
are read back exactly if there are at most twelve conditions (`rates_published_iff`).
-/

namespace PaintQuote.Estimate

open Sheet Formula Engine

/-- The tables of the rates do not reach past the end of their sheet. -/
def Rates.Fits (r : Rates) : Prop :=
  r.conditions.length < rowLimit ∧ r.paints.length < rowLimit ∧ r.discounts.length < rowLimit

instance (r : Rates) : Decidable r.Fits := inferInstanceAs (Decidable (_ ∧ _))

namespace Layout

/-! ## Blocks -/

/-- A block of the sheet of rates. -/
inductive Block where
  | single | labor | condition | paint | discount
deriving DecidableEq

namespace Block

/-- The first cell of a block, with its heading. -/
def start : Block → Address
  | single => place 'A' 2
  | labor => place 'A' laborRow
  | condition => place 'D' 1
  | paint => place 'G' 1
  | discount => place 'M' 1

/-- The number of columns of a block. -/
def width : Block → Nat
  | single => 2
  | labor => 4
  | condition => 2
  | paint => 5
  | discount => 2

/-- The rows of a block, with its headings. -/
def rows (r : Rates) : Block → List (List Content)
  | single => (namedRates r).map fun n => [text (Text.lower n.1), number n.2]
  | labor => [text "tier_labor" :: r.labor.toList.map number]
  | condition => [text "condition", text "multiplier"]
      :: r.conditions.map fun c => [text c.condition.name, number c.multiplier]
  | paint => [text "paint", text "coverage", text "good", text "better", text "best"]
      :: r.paints.map fun p => text p.paint.name :: number p.coverage :: p.price.toList.map number
  | discount => [text "min_rooms", text "discount"]
      :: r.sortedDiscounts.map fun d => [count d.rooms, number d.discount]

/-- What is written for a block. -/
def entries (r : Rates) (b : Block) : List Entry := table ratesSheet b.start (b.rows r)

end Block

theorem rateEntries_eq (r : Rates) :
    rateEntries r = (Block.single.entries r ++ Block.labor.entries r) ++
      (Block.condition.entries r ++ (Block.paint.entries r ++ Block.discount.entries r)) := by
  simp only [rateEntries, Block.entries, Block.rows, Block.start, row_eq_table, List.append_assoc]

theorem mem_rateEntries {r : Rates} {e : Entry} :
    e ∈ rateEntries r ↔ ∃ b : Block, e ∈ b.entries r := by
  rw [rateEntries_eq]
  simp only [List.mem_append]
  constructor
  · rintro ((h | h) | h | h | h)
    · exact ⟨.single, h⟩
    · exact ⟨.labor, h⟩
    · exact ⟨.condition, h⟩
    · exact ⟨.paint, h⟩
    · exact ⟨.discount, h⟩
  · rintro ⟨b, h⟩
    cases b with
    | single => exact Or.inl (Or.inl h)
    | labor => exact Or.inl (Or.inr h)
    | condition => exact Or.inr (Or.inl h)
    | paint => exact Or.inr (Or.inr (Or.inl h))
    | discount => exact Or.inr (Or.inr (Or.inr h))

variable {r : Rates} {b b' : Block} {k : CellKey} {c c' : Content}

theorem Block.length_of_mem_rows {items : List Content} (h : items ∈ b.rows r) :
    items.length = b.width := by
  cases b with
  | single =>
      obtain ⟨n, -, rfl⟩ := List.mem_map.1 h
      rfl
  | labor =>
      rw [List.mem_singleton.1 h]
      rfl
  | condition =>
      rcases List.mem_cons.1 h with rfl | h
      · rfl
      · obtain ⟨n, -, rfl⟩ := List.mem_map.1 h
        rfl
  | paint =>
      rcases List.mem_cons.1 h with rfl | h
      · rfl
      · obtain ⟨n, -, rfl⟩ := List.mem_map.1 h
        rfl
  | discount =>
      rcases List.mem_cons.1 h with rfl | h
      · rfl
      · obtain ⟨n, -, rfl⟩ := List.mem_map.1 h
        rfl

/-- Where a cell of a block lies; rows and columns count from zero. -/
def Block.Covers (r : Rates) : Block → Address → Prop
  | single, a => 1 ≤ a.row ∧ a.row < 12 ∧ a.column < 2
  | labor, a => a.row = 13 ∧ a.column < 4
  | condition, a => a.row ≤ r.conditions.length ∧ 3 ≤ a.column ∧ a.column < 5
  | paint, a => 6 ≤ a.column ∧ a.column < 11
  | discount, a => 12 ≤ a.column

theorem Block.covers_of_mem_entries (h : (k, c) ∈ b.entries r) :
    k.sheet = ratesSheet ∧ b.Covers r k.address := by
  obtain ⟨hsheet, hrow, hrow', hcolumn, hcolumn'⟩ :=
    within_of_mem_table (fun _ => length_of_mem_rows) h
  refine ⟨hsheet, ?_⟩
  cases b with
  | single =>
      have hlength : (single.rows r).length = 11 := rfl
      rw [hlength] at hrow'
      exact ⟨hrow, hrow', hcolumn'⟩
  | labor => exact ⟨Nat.le_antisymm (Nat.le_of_lt_succ hrow') hrow, hcolumn'⟩
  | condition =>
      have hlength : (condition.rows r).length = r.conditions.length + 1 := by simp [rows]
      rw [hlength] at hrow'
      have hlast : k.address.row < 0 + (r.conditions.length + 1) := hrow'
      exact ⟨by omega, hcolumn, hcolumn'⟩
  | paint => exact ⟨hcolumn, hcolumn'⟩
  | discount => exact hcolumn

/-- The cell of the highest price of labor. -/
def bestLabor : CellKey := ⟨ratesSheet, place 'D' laborRow⟩

theorem eq_bestLabor (hsheet : k.sheet = ratesSheet) (hrow : k.address.row = 13)
    (hcolumn : k.address.column = 3) : k = bestLabor := by
  obtain ⟨sheet, row, column⟩ := k
  cases hsheet
  cases hrow
  cases hcolumn
  rfl

/-- Two blocks share no cell but that of the highest price of labor, and that one only if there are
more than twelve conditions. -/
theorem overlap_of_mem_entries (h : (k, c) ∈ b.entries r) (h' : (k, c') ∈ b'.entries r) :
    b = b' ∨ k = bestLabor ∧ 12 < r.conditions.length ∧
      (b = .labor ∧ b' = .condition ∨ b = .condition ∧ b' = .labor) := by
  obtain ⟨hsheet, hcovers⟩ := Block.covers_of_mem_entries h
  obtain ⟨-, hcovers'⟩ := Block.covers_of_mem_entries h'
  by_cases hlabor : b = .labor ∧ b' = .condition
  · obtain ⟨rfl, rfl⟩ := hlabor
    simp only [Block.Covers] at hcovers hcovers'
    exact Or.inr ⟨eq_bestLabor hsheet hcovers.1 (by omega), by omega, Or.inl ⟨rfl, rfl⟩⟩
  by_cases hcondition : b = .condition ∧ b' = .labor
  · obtain ⟨rfl, rfl⟩ := hcondition
    simp only [Block.Covers] at hcovers hcovers'
    exact Or.inr ⟨eq_bestLabor hsheet hcovers'.1 (by omega), by omega, Or.inr ⟨rfl, rfl⟩⟩
  left
  cases b <;> cases b' <;> simp only [Block.Covers, reduceCtorEq, and_self, not_true] at * <;> omega

/-! ## Contents -/

/-- Texts and numbers are written, nothing else. -/
theorem Block.text_or_number (r : Rates) (b : Block) :
    ∀ items ∈ b.rows r, ∀ c ∈ items, (∃ s, c = text s) ∨ ∃ n, c = number n := by
  cases b <;> simp [rows, namedRates, text, number, count, Tiers.toList]

theorem empty_agrees_of_mem_entries (h : (k, c) ∈ b.entries r) :
    (Content.literal .empty).agrees c = false := by
  obtain ⟨i, j, -, items, hi, hj⟩ := mem_table.1 h
  rcases Block.text_or_number r b items (List.mem_of_getElem? hi) c (List.mem_of_getElem? hj) with
    ⟨s, rfl⟩ | ⟨n, rfl⟩
  · rfl
  · rfl

/-- What the sheet of rates holds. -/
def ratesContent (r : Rates) : CellKey → Content := (Workbook.empty.load (rateEntries r)).1.content

/-- A cell holds what is written for its block, unless the blocks overlap there. -/
theorem ratesContent_of_mem_entries (h : (k, c) ∈ b.entries r)
    (hk : k = bestLabor → r.conditions.length ≤ 12) : ratesContent r k = c := by
  refine Workbook.content_load (mem_rateEntries.2 ⟨b, h⟩) (fun c' h' => ?_) _
    (empty_agrees_of_mem_entries h)
  obtain ⟨b', h'⟩ := mem_rateEntries.1 h'
  rcases overlap_of_mem_entries h h' with rfl | ⟨hbest, hlength, -⟩
  · exact eq_of_mem_table h' h
  · exact absurd (hk hbest) (Nat.not_le.2 hlength)

theorem labor_mem_entries (r : Rates) :
    (bestLabor, number r.labor.best) ∈ Block.labor.entries r :=
  mem_table.2 ⟨0, 3, rfl, _, rfl, rfl⟩

theorem condition_mem_entries {rate : ConditionRate} (h : r.conditions[12]? = some rate) :
    (bestLabor, text rate.condition.name) ∈ Block.condition.entries r :=
  mem_table.2 ⟨13, 0, rfl, [text rate.condition.name, number rate.multiplier],
    by simp [Block.rows, h], rfl⟩

/-- The name of the thirteenth condition replaces the highest price of labor. -/
theorem ratesContent_bestLabor {rate : ConditionRate} (h : r.conditions[12]? = some rate) :
    ratesContent r bestLabor = text rate.condition.name := by
  have hlabor := labor_mem_entries r
  have hcondition := condition_mem_entries h
  have hbefore : (Workbook.empty.load
      (Block.single.entries r ++ Block.labor.entries r)).1.content bestLabor =
        number r.labor.best := by
    refine Workbook.content_load (List.mem_append_right _ hlabor) (fun c' h' => ?_) _ rfl
    rcases List.mem_append.1 h' with h' | h'
    · rcases overlap_of_mem_entries hlabor h' with heq | ⟨-, -, heq⟩
      · cases heq
      · simp at heq
    · exact eq_of_mem_table h' hlabor
  rw [ratesContent, rateEntries_eq, Workbook.load_append]
  refine Workbook.content_load (List.mem_append_left _ hcondition) (fun c' h' => ?_) _ ?_
  · have hblock : ∃ b : Block, (bestLabor, c') ∈ b.entries r ∧ b ≠ .labor := by
      rcases List.mem_append.1 h' with h' | h'
      · exact ⟨.condition, h', by decide⟩
      · rcases List.mem_append.1 h' with h' | h'
        · exact ⟨.paint, h', by decide⟩
        · exact ⟨.discount, h', by decide⟩
    obtain ⟨b, h', hb⟩ := hblock
    rcases overlap_of_mem_entries hcondition h' with rfl | ⟨-, -, ⟨hcl, -⟩ | ⟨-, hbl⟩⟩
    · exact eq_of_mem_table h' hcondition
    · cases hcl
    · exact absurd hbl hb
  · rw [hbefore]
    rfl

/-- Every block but the prices of labor stays as it is written. -/
theorem ratesContent_of_ne_labor (h : (k, c) ∈ b.entries r) (hb : b ≠ .labor) :
    ratesContent r k = c := by
  by_cases hshared : k = bestLabor ∧ 12 < r.conditions.length
  · obtain ⟨rfl, hlength⟩ := hshared
    have hrate := List.getElem?_eq_getElem hlength
    rw [ratesContent_bestLabor hrate]
    rcases overlap_of_mem_entries h (condition_mem_entries hrate) with rfl | ⟨-, -, ⟨hbl, -⟩ | ⟨-, hcl⟩⟩
    · exact eq_of_mem_table (condition_mem_entries hrate) h
    · exact absurd hbl hb
    · cases hcl
  · exact ratesContent_of_mem_entries h fun hk => Nat.not_lt.1 fun hlt => hshared ⟨hk, hlt⟩

/-! ## Names -/

/-- The cells below the heading of a table. -/
def tableArea (first last : Char) (rows : Nat) : Range :=
  Range.between (place first 2) (place last (max rows 1 + 1))

/-- The cells of the prices of labor. -/
def laborArea : Range := Range.between (place 'B' laborRow) (place 'D' laborRow)

/-- The names of the rates. -/
def definedNames (r : Rates) : List DefinedName :=
  singleNames r ++
    [⟨"TIER_LABOR", .range ratesSheet laborArea⟩,
      ⟨"CONDITION_TABLE", .range ratesSheet (tableArea 'D' 'E' r.conditions.length)⟩,
      ⟨"PAINT_TABLE", .range ratesSheet (tableArea 'G' 'K' r.paints.length)⟩,
      ⟨"DISCOUNTS", .range ratesSheet (tableArea 'M' 'N' r.discounts.length)⟩]

theorem tableTarget_eq_ok {first last : Char} {rows : Nat} (h : rows < rowLimit) :
    tableTarget first last rows = .ok (.range ratesSheet (tableArea first last rows)) := by
  refine if_pos ?_
  simp only [Range.between, place, rowLimit] at h ⊢
  omega

theorem rateNames_eq_ok (h : r.Fits) : rateNames r = .ok (definedNames r) := by
  rw [rateNames, tableTarget_eq_ok h.1, tableTarget_eq_ok h.2.1, tableTarget_eq_ok h.2.2]
  rfl

theorem definedNames_nodup (r : Rates) :
    ((definedNames r).map fun n => DefinedName.lookupKey n.name).Nodup := by
  have hnames : (definedNames r).map (·.name) =
      ["DOOR_AREA", "WINDOW_AREA", "PRODUCTIVITY", "OPENING_HOURS", "TRIM_SPEED", "TRIM_RATE",
        "MATERIAL_RATE", "PREP_FEE", "MARKUP", "MIN_CHARGE", "PROJECT_MINIMUM", "TIER_LABOR",
        "CONDITION_TABLE", "PAINT_TABLE", "DISCOUNTS"] := rfl
  have hkeys : (definedNames r).map (fun n => DefinedName.lookupKey n.name) =
      ((definedNames r).map (·.name)).map DefinedName.lookupKey := by simp
  rw [hkeys, hnames]
  decide +kernel

end Layout

/-! ## The engine -/

/-- The rates are written and named in the engine. -/
structure Holds (r : Rates) (e : Engine) : Prop where
  value : ∀ k v, Layout.ratesContent r k = .literal v → e.value k = v
  hasSheet : e.workbook.hasSheet Layout.ratesSheet = true
  name : ∀ n ∈ Layout.definedNames r, e.workbook.name? n.name = some n

theorem ratesEngine_eq_ok {r : Rates} (h : r.Fits) : ∃ e, ratesEngine r = .ok e ∧ Holds r e := by
  have hworkbook : (Engine.empty.load (Layout.rateEntries r)).workbook =
      (Workbook.empty.load (Layout.rateEntries r)).1 := load_workbook _ _
  have hunknown : ∀ k, (Engine.empty.load (Layout.rateEntries r)).outcomes.get? k = none :=
    load_outcomes (fun _ => rfl) _
  have hfree : ∀ n ∈ Layout.definedNames r,
      (Engine.empty.load (Layout.rateEntries r)).workbook.name? n.name = none := by
    intro n _
    rw [hworkbook, Workbook.name?_congr (Workbook.load_changedIn _ _).names]
    rfl
  obtain ⟨e, hfold, hname, -, hcells, hsheets, hunknown⟩ :=
    foldlM_defineName (Layout.definedNames_nodup r) hfree hunknown
  have hsheet : e.workbook.hasSheet Layout.ratesSheet = true := by
    have hwritten : (Layout.rateEntries r).any (fun entry => Layout.ratesSheet == entry.1.sheet) :=
      List.any_eq_true.2 ⟨_, Layout.mem_rateEntries.2 ⟨.labor, Layout.labor_mem_entries r⟩,
        beq_self_eq_true _⟩
    rw [Workbook.hasSheet, hsheets, ← Workbook.hasSheet, hworkbook, Workbook.hasSheet_load, hwritten,
      Bool.or_true]
  refine ⟨e, ?_, ?_, hsheet, hname⟩
  · rw [ratesEngine, Layout.rateNames_eq_ok h, ← hfold]
    simp only [bind, Except.bind]
  · intro k v hk
    have hcontent : e.workbook.content k = Layout.ratesContent r k := by
      rw [Workbook.content, hcells, hworkbook, Layout.ratesContent, Workbook.content]
    rw [Engine.value, hunknown]
    simp only [Workbook.literal, hcontent, hk]

/-! ## Reading the rates -/

/-- What a formula on a sheet reads under a name, with the error that explains it. -/
def readName (e : Engine) (sheet : SheetName) (name : String) : Value × Option FormulaError :=
  evaluateAlone ⟨e.source, sheet⟩ (.name name)

section

variable {r : Rates} {e : Engine} (sheet : SheetName)

/-- The value of a name is that of the range that it stands for. -/
theorem Holds.readName_range (h : Holds r e) {name : String} {area : Range}
    {rows : List (List CellValue)}
    (hname : ⟨name, .range Layout.ratesSheet area⟩ ∈ Layout.definedNames r)
    (hrows : rows.length = area.rowCount)
    (hwidth : ∀ items ∈ rows, items.length = area.columnCount)
    (hvalue : ∀ i j items v, rows[i]? = some items → items[j]? = some v →
      Layout.ratesContent r
        ⟨Layout.ratesSheet, ⟨area.start.row + i, area.start.column + j⟩⟩ = .literal v)
    (herror : ∀ items ∈ rows, ∀ v ∈ items, v.error? = none) :
    readName e sheet name = (.array rows, none) := by
  refine evaluateAlone_name ?_
  have hfound := h.name ⟨name, .range Layout.ratesSheet area⟩ hname
  simp only [Context.nameValue, Engine.source, hfound]
  exact Context.rangeValue_table h.hasSheet hrows hwidth
    (fun i j items v hi hj => h.value _ v (hvalue i j items v hi hj)) herror

/-- A table is read below its heading. -/
theorem Holds.readName_table (h : Holds r e) {name : String} {first last : Char}
    {rows : List (List CellValue)} {heading : List Content} {b : Layout.Block}
    (hname : ⟨name, .range Layout.ratesSheet (Layout.tableArea first last rows.length)⟩ ∈
      Layout.definedNames r)
    (hstart : b.start = Layout.place first 1)
    (hlast : last.toNat - 65 = first.toNat - 65 + (b.width - 1)) (hwidth : 0 < b.width)
    (hb : b.rows r = heading :: rows.map (·.map .literal)) (hempty : rows ≠ [])
    (hlabor : b ≠ .labor)
    (herror : ∀ items ∈ rows, ∀ v ∈ items, v.error? = none) :
    readName e sheet name = (.array rows, none) := by
  have hpositive := List.length_pos_iff.2 hempty
  have hitems : ∀ items ∈ rows, items.length = b.width := by
    intro items hitems
    have hmem : items.map .literal ∈ b.rows r := by
      rw [hb]
      exact List.mem_cons_of_mem _ (List.mem_map_of_mem hitems)
    simpa using Layout.Block.length_of_mem_rows hmem
  refine h.readName_range sheet hname ?_ ?_ ?_ herror
  · simp [Layout.tableArea, Range.rowCount, Range.between, Layout.place]
    omega
  · intro items hmem
    rw [hitems items hmem]
    simp [Layout.tableArea, Range.columnCount, Range.between, Layout.place]
    omega
  · intro i j items v hi hj
    refine Layout.ratesContent_of_ne_labor (Layout.mem_table.2 ⟨i + 1, j, ?_, items.map .literal, ?_, ?_⟩)
      hlabor
    · simp [hstart, Layout.tableArea, Range.between, Layout.place]
      omega
    · simp [hb, hi]
    · simp [hj]

/-- A single rate is read under its name. -/
theorem Holds.readName_single (h : Holds r e) {name : String} {rate : Decimal}
    (hrate : (name, rate) ∈ Layout.namedRates r) :
    readName e sheet name = (.scalar (.number rate), none) := by
  obtain ⟨i, hi⟩ := List.mem_iff_getElem?.1 hrate
  have hname : (⟨name, .cell ⟨Layout.ratesSheet, Layout.place 'B' (i + 2)⟩⟩ : DefinedName) ∈
      Layout.definedNames r := by
    refine List.mem_append_left _ (List.mem_map.2 ⟨((name, rate), i), ?_, rfl⟩)
    exact List.mem_zipIdx_iff_getElem?.2 hi
  have hcontent : Layout.ratesContent r ⟨Layout.ratesSheet, Layout.place 'B' (i + 2)⟩ =
      .literal (.number rate) := by
    refine Layout.ratesContent_of_ne_labor (b := .single) (Layout.mem_table.2 ⟨i, 1, ?_,
      [Layout.text (Text.lower name), Layout.number rate], ?_, rfl⟩) (by decide)
    · simp [Layout.Block.start, Layout.place]
      omega
    · simp [Layout.Block.rows, hi]
  refine evaluateAlone_name ?_
  have hfound := h.name _ hname
  simp only [Context.nameValue, Engine.source, hfound]
  exact Context.cellValue_eq_pure h.hasSheet (h.value _ _ hcontent) rfl

/-- The prices of labor, where the highest is whatever its cell holds. -/
theorem Holds.readName_labor (h : Holds r e) {v : CellValue}
    (hv : Layout.ratesContent r Layout.bestLabor = .literal v) (herror : v.error? = none) :
    readName e sheet "TIER_LABOR" =
      (.array [[.number r.labor.good, .number r.labor.better, v]], none) := by
  have hname : ⟨"TIER_LABOR", .range Layout.ratesSheet Layout.laborArea⟩ ∈
      Layout.definedNames r := by simp [Layout.definedNames]
  have hlower : ∀ j n, j < 2 → r.labor.toList[j]? = some n →
      Layout.ratesContent r ⟨Layout.ratesSheet, ⟨13, 1 + j⟩⟩ = .literal (.number n) := by
    intro j n hj hn
    refine Layout.ratesContent_of_mem_entries (b := .labor)
      (Layout.mem_table.2 ⟨0, 1 + j, ?_, _, rfl, ?_⟩) ?_
    · simp [Layout.Block.start, Layout.place, Layout.laborRow]
    · simp [Nat.add_comm 1 j, hn, Layout.number]
    · intro hbest
      have hcolumn : 1 + j = 3 := congrArg (·.address.column) hbest
      omega
  refine h.readName_range sheet hname rfl ?_ ?_ ?_
  · intro items hitems
    rw [List.mem_singleton.1 hitems]
    rfl
  · intro i j items w hi hj
    obtain ⟨rfl, rfl⟩ : i = 0 ∧ items = [.number r.labor.good, .number r.labor.better, v] := by
      cases i with
      | zero => exact ⟨rfl, (Option.some.inj hi).symm⟩
      | succ i => cases hi
    match j, hj with
    | 0, hj =>
        cases hj
        exact hlower 0 _ (by decide) rfl
    | 1, hj =>
        cases hj
        exact hlower 1 _ (by decide) rfl
    | 2, hj =>
        cases hj
        exact hv
  · intro items hitems w hw
    rw [List.mem_singleton.1 hitems] at hw
    rcases List.mem_cons.1 hw with rfl | hw
    · rfl
    rcases List.mem_cons.1 hw with rfl | hw
    · rfl
    rw [List.mem_singleton.1 hw]
    exact herror

end

/-! ## Published rates -/

namespace Rates

variable {r : Rates}

theorem conditions_ne_nil (h : r.fault? = none) : r.conditions ≠ [] := by
  rintro hnil
  simp only [fault?, Option.or_eq_none_iff] at h
  obtain ⟨-, -, hcondition, -⟩ := h
  simp [SurfaceCondition.all, conditionFault?, hnil] at hcondition

theorem paints_ne_nil (h : r.fault? = none) : r.paints ≠ [] := by
  rintro hnil
  simp only [fault?, Option.or_eq_none_iff] at h
  obtain ⟨hpaint, -⟩ := h
  simp [PaintType.all, paintFault?, hnil] at hpaint

theorem discounts_ne_nil (h : r.fault? = none) : r.discounts ≠ [] := by
  rintro hnil
  simp only [fault?, Option.or_eq_none_iff] at h
  obtain ⟨-, -, -, -, -, -, hdiscount⟩ := h
  simp [discountFault?, hnil] at hdiscount

/-- The rows of the table of conditions. -/
def conditionRows (r : Rates) : List (List CellValue) :=
  r.conditions.map fun c => [.text c.condition.name, .number c.multiplier]

/-- The rows of the table of paints. -/
def paintRows (r : Rates) : List (List CellValue) :=
  r.paints.map fun p => .text p.paint.name :: .number p.coverage :: p.price.toList.map .number

/-- The rows of the table of discounts, by rising number of rooms. -/
def discountRows (r : Rates) : List (List CellValue) :=
  r.sortedDiscounts.map fun d => [.number (.ofNat d.rooms.toNat), .number d.discount]

end Rates

/-- Formulas on a sheet read every single rate and the rows of every table under their names. -/
structure Publishes (r : Rates) (e : Engine) (sheet : SheetName) : Prop where
  single : ∀ n ∈ Layout.namedRates r, readName e sheet n.1 = (.scalar (.number n.2), none)
  conditions : readName e sheet "CONDITION_TABLE" = (.array r.conditionRows, none)
  paints : readName e sheet "PAINT_TABLE" = (.array r.paintRows, none)
  discounts : readName e sheet "DISCOUNTS" = (.array r.discountRows, none)

section

variable {r : Rates} {e : Engine} (sheet : SheetName)

theorem Holds.publishes (h : Holds r e) (hvalid : r.fault? = none) : Publishes r e sheet where
  single _ hn := h.readName_single sheet hn
  conditions := by
    have hname : ⟨"CONDITION_TABLE", .range Layout.ratesSheet
        (Layout.tableArea 'D' 'E' r.conditionRows.length)⟩ ∈ Layout.definedNames r := by
      simp [Layout.definedNames, Rates.conditionRows]
    have hrows : Layout.Block.condition.rows r =
        [Layout.text "condition", Layout.text "multiplier"] ::
          r.conditionRows.map (·.map .literal) := by
      simp [Layout.Block.rows, Rates.conditionRows, Layout.text, Layout.number]
    refine h.readName_table sheet hname rfl rfl (by decide) hrows ?_ (by decide) ?_
    · exact fun hnil => Rates.conditions_ne_nil hvalid (List.map_eq_nil_iff.1 hnil)
    · simp [Rates.conditionRows, CellValue.error?]
  paints := by
    have hname : ⟨"PAINT_TABLE", .range Layout.ratesSheet
        (Layout.tableArea 'G' 'K' r.paintRows.length)⟩ ∈ Layout.definedNames r := by
      simp [Layout.definedNames, Rates.paintRows]
    have hrows : Layout.Block.paint.rows r =
        ["paint", "coverage", "good", "better", "best"].map Layout.text ::
          r.paintRows.map (·.map .literal) := by
      simp [Layout.Block.rows, Rates.paintRows, Layout.text, Layout.number, Function.comp_def]
    refine h.readName_table sheet hname rfl rfl (by decide) hrows ?_ (by decide) ?_
    · exact fun hnil => Rates.paints_ne_nil hvalid (List.map_eq_nil_iff.1 hnil)
    · simp [Rates.paintRows, CellValue.error?, Tiers.toList]
  discounts := by
    have hname : ⟨"DISCOUNTS", .range Layout.ratesSheet
        (Layout.tableArea 'M' 'N' r.discountRows.length)⟩ ∈ Layout.definedNames r := by
      simp [Layout.definedNames, Rates.discountRows, Rates.sortedDiscounts]
    have hrows : Layout.Block.discount.rows r =
        [Layout.text "min_rooms", Layout.text "discount"] ::
          r.discountRows.map (·.map .literal) := by
      simp [Layout.Block.rows, Rates.discountRows, Layout.text, Layout.number, Layout.count]
    refine h.readName_table sheet hname rfl rfl (by decide) hrows ?_ (by decide) ?_
    · intro hnil
      have hsorted : r.sortedDiscounts = [] := List.map_eq_nil_iff.1 hnil
      have hlength : r.sortedDiscounts.length = r.discounts.length := List.length_mergeSort _
      rw [hsorted] at hlength
      exact Rates.discounts_ne_nil hvalid (List.length_eq_zero_iff.1 hlength.symm)
    · simp [Rates.discountRows, CellValue.error?]

/-- The prices of labor are read under their name exactly if there are at most twelve conditions. -/
theorem Holds.readName_labor_iff (h : Holds r e) :
    readName e sheet "TIER_LABOR" = (.array [r.labor.toList.map .number], none) ↔
      r.conditions.length ≤ 12 := by
  constructor
  · intro hread
    refine Nat.not_lt.1 fun hlength => ?_
    have hcontent := Layout.ratesContent_bestLabor (List.getElem?_eq_getElem hlength)
    rw [h.readName_labor sheet hcontent rfl] at hread
    simp [Tiers.toList] at hread
  · intro hlength
    have hcontent := Layout.ratesContent_of_mem_entries (Layout.labor_mem_entries r) fun _ => hlength
    exact h.readName_labor sheet hcontent rfl

end

/-- Every cell of the sheet is written in one way exactly if there are at most twelve conditions. -/
theorem Layout.rateEntries_agree_iff {r : Rates} :
    (∀ k c c', (k, c) ∈ rateEntries r → (k, c') ∈ rateEntries r → c = c') ↔
      r.conditions.length ≤ 12 := by
  constructor
  · intro hagree
    refine Nat.not_lt.1 fun hlength => ?_
    have hcondition := condition_mem_entries (List.getElem?_eq_getElem hlength)
    have heq := hagree _ _ _ (mem_rateEntries.2 ⟨_, labor_mem_entries r⟩)
      (mem_rateEntries.2 ⟨_, hcondition⟩)
    simp [number, text] at heq
  · intro hlength k c c' h h'
    obtain ⟨b, h⟩ := mem_rateEntries.1 h
    obtain ⟨b', h'⟩ := mem_rateEntries.1 h'
    rcases overlap_of_mem_entries h h' with rfl | ⟨-, hlong, -⟩
    · exact eq_of_mem_table h h'
    · exact absurd hlength (Nat.not_le.2 hlong)

/-- In an engine with rates that have no fault, every single rate and every row of the tables of
conditions, paints and discounts is read under its name.  The prices of labor are read under theirs,
and no cell is written in two ways, exactly if there are at most twelve conditions. -/
theorem rates_published_iff {r : Rates} (hvalid : r.fault? = none) (hfits : r.Fits) :
    ∃ e, ratesEngine r = .ok e ∧ (∀ sheet, Publishes r e sheet) ∧
      (∀ sheet, readName e sheet "TIER_LABOR" = (.array [r.labor.toList.map .number], none) ↔
        r.conditions.length ≤ 12) ∧
      ((∀ k c c', (k, c) ∈ Layout.rateEntries r → (k, c') ∈ Layout.rateEntries r → c = c') ↔
        r.conditions.length ≤ 12) := by
  obtain ⟨e, he, hholds⟩ := ratesEngine_eq_ok hfits
  exact ⟨e, he, fun sheet => hholds.publishes sheet hvalid,
    fun sheet => hholds.readName_labor_iff sheet, Layout.rateEntries_agree_iff⟩

/-- The usual rates are all read under their names. -/
theorem usual_published : Rates.usual.fault? = none ∧ Rates.usual.Fits ∧
    ∃ e, ratesEngine .usual = .ok e ∧ Publishes .usual e Layout.roomSheet ∧
      readName e Layout.roomSheet "TIER_LABOR" =
        (.array [[.number (Decimal.scaled 25 1), .number (Decimal.scaled 35 1), .number 5]], none) := by
  have hvalid : Rates.usual.fault? = none := by decide +kernel
  have hfits : Rates.usual.Fits := by decide
  obtain ⟨e, he, hpublishes, hlabor, -⟩ := rates_published_iff hvalid hfits
  exact ⟨hvalid, hfits, e, he, hpublishes _, (hlabor _).2 (by decide)⟩

/-- The usual rates with ten further rates for poor walls. -/
def Rates.crowded : Rates :=
  { Rates.usual with conditions := Rates.usual.conditions ++ List.replicate 10 ⟨.poor, 1⟩ }

/-- The thirteenth condition takes the cell of the highest price of labor, which is not read back. -/
theorem crowded_not_published : Rates.crowded.fault? = none ∧ Rates.crowded.Fits ∧
    (∃ e, ratesEngine .crowded = .ok e ∧
      readName e Layout.roomSheet "TIER_LABOR" =
        (.array [[.number (Decimal.scaled 25 1), .number (Decimal.scaled 35 1), .text "poor"]],
          none)) ∧
    (Layout.bestLabor, Layout.number 5) ∈ Layout.rateEntries .crowded ∧
    (Layout.bestLabor, Layout.text "poor") ∈ Layout.rateEntries .crowded := by
  have hfits : Rates.crowded.Fits := by decide
  have hrate : Rates.crowded.conditions[12]? = some ⟨.poor, 1⟩ := by decide +kernel
  obtain ⟨e, he, hholds⟩ := ratesEngine_eq_ok hfits
  refine ⟨by decide +kernel, hfits, ⟨e, he, ?_⟩, ?_, ?_⟩
  · exact hholds.readName_labor _ (Layout.ratesContent_bestLabor hrate) rfl
  · exact Layout.mem_rateEntries.2 ⟨_, Layout.labor_mem_entries .crowded⟩
  · exact Layout.mem_rateEntries.2 ⟨_, Layout.condition_mem_entries hrate⟩

end PaintQuote.Estimate
