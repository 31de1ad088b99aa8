import PaintQuote.Proofs.Engine.Representation
import PaintQuote.Proofs.Estimate.Trees
import PaintQuote.Proofs.Values.Gives

/-!
# The cells of a page

On a page every formula reads cells above it, in the order of `Page.height`, or cells on the sheet of
rates (`Page.reads_cases`), so that no cell lies on a cycle (`Page.not_circular`).
-/

namespace PaintQuote

open Sheet Formula Engine Estimate

/-! ## Cycles -/

/-- No cell lies on a cycle if formulas read cells of lower rank only. -/
theorem Sheet.Workbook.not_circular_of_rank {w : Workbook} (rank : CellKey → Nat)
    (h : ∀ k p, w.Reads k p → rank p < rank k) (k : CellKey) : ¬ w.Circular k := by
  have hfall : ∀ k p, Relation.TransGen w.Reads k p → rank p < rank k := by
    intro k p hreads
    induction hreads with
    | single hread => exact h _ _ hread
    | tail _ hread ih => exact Nat.lt_trans (h _ _ hread) ih
  exact fun hk => Nat.lt_irrefl _ (hfall k k hk)

/-! ## References in a tree -/

namespace Formula.Expr

variable (cell : CellReference → Bool) (range : RangeReference → Bool) (name : String → Bool)

mutual

/-- Whether the references in a tree are all among those allowed. -/
def refersBy : Expr → Bool
  | .cell r => cell r
  | .range r => range r
  | .name s => name s
  | .binary _ left right => left.refersBy && right.refersBy
  | .negate operand => operand.refersBy
  | .percent operand => operand.refersBy
  | .call _ arguments => refersAllBy arguments
  | .literal _ | .array _ => true

/-- Whether the references in trees are all among those allowed. -/
def refersAllBy : List Expr → Bool
  | [] => true
  | e :: es => e.refersBy && refersAllBy es

end

theorem refersAllBy_iff {es : List Expr} :
    refersAllBy cell range name es = true ↔ ∀ e ∈ es, e.refersBy cell range name = true := by
  induction es with
  | nil => simp [refersAllBy]
  | cons e es ih => simp [refersAllBy, ih]

variable {cell range name} {names : NameTable} {sheet : SheetName} {p : CellKey} {e : Expr}

/-- A cell to which a tree refers is that of an allowed reference. -/
theorem refersTo_cases (h : RefersTo names sheet p e) (he : e.refersBy cell range name = true) :
    (∃ r, cell r = true ∧ p = ⟨r.sheet?.getD sheet, r.address⟩) ∨
      (∃ r, range r = true ∧ p.sheet = r.sheet?.getD sheet ∧ r.area.contains p.address) ∨
      ∃ s d, name s = true ∧ names.find? s = some d ∧ p ∈ d.target.cells := by
  induction h with
  | cell hp => exact Or.inl ⟨_, he, hp⟩
  | range hsheet hp => exact Or.inr (Or.inl ⟨_, he, hsheet, hp⟩)
  | name hd hp => exact Or.inr (Or.inr ⟨_, _, he, hd, hp⟩)
  | left _ ih => exact ih (Bool.and_eq_true_iff.1 he).1
  | right _ ih => exact ih (Bool.and_eq_true_iff.1 he).2
  | negate _ ih => exact ih he
  | percent _ ih => exact ih he
  | argument ha _ ih => exact ih ((refersAllBy_iff cell range name).1 he _ ha)

end Formula.Expr

namespace Estimate

/-! ## Names of rates -/

namespace Layout

/-- The names under which formulas reach the rates. -/
def rateWords : List String :=
  ["DOOR_AREA", "WINDOW_AREA", "PRODUCTIVITY", "OPENING_HOURS", "TRIM_SPEED", "TRIM_RATE", "MATERIAL_RATE",
    "PREP_FEE", "MARKUP", "MIN_CHARGE", "PROJECT_MINIMUM", "TIER_LABOR", "CONDITION_TABLE", "PAINT_TABLE",
    "DISCOUNTS"]

theorem definedNames_name (r : Rates) : (definedNames r).map (·.name) = rateWords := rfl

theorem sheet_of_mem_target {r : Rates} {n : DefinedName} (hn : n ∈ definedNames r) {p : CellKey}
    (hp : p ∈ n.target.cells) : p.sheet = ratesSheet := by
  have harea : ∀ area : Range, p ∈ (Target.range ratesSheet area).cells → p.sheet = ratesSheet := by
    intro area hp
    obtain ⟨a, -, rfl⟩ := List.mem_map.1 hp
    rfl
  rcases List.mem_append.1 hn with hn | hn
  · obtain ⟨m, -, rfl⟩ := List.mem_map.1 hn
    rw [List.mem_singleton.1 hp]
  · simp only [List.mem_cons, List.not_mem_nil, or_false] at hn
    rcases hn with rfl | rfl | rfl | rfl <;> exact harea _ hp

theorem tableTarget_ok {first last : Char} {rows : Nat} {target : Target}
    (h : tableTarget first last rows = .ok target) : rows < rowLimit := by
  unfold tableTarget at h
  simp only at h
  split at h
  next hlast =>
    have hstop : max rows 1 < rowLimit := by
      refine Nat.lt_of_le_of_lt ?_ hlast
      simp only [Range.between, place]
      omega
    exact Nat.lt_of_le_of_lt (Nat.le_max_left _ _) hstop
  next => cases h

end Layout

/-- Rates that are written fit on their sheet, and are read there. -/
theorem holds_of_ratesEngine {r : Rates} {base : Engine} (h : ratesEngine r = .ok base) :
    r.Fits ∧ Holds r base := by
  have hfits : r.Fits := by
    obtain ⟨names, hnames, -⟩ := Reader.bind_eq_ok.1 h
    obtain ⟨_, hconditions, hnames⟩ := Reader.bind_eq_ok.1 hnames
    obtain ⟨_, hpaints, hnames⟩ := Reader.bind_eq_ok.1 hnames
    obtain ⟨_, hdiscounts, -⟩ := Reader.bind_eq_ok.1 hnames
    exact ⟨Layout.tableTarget_ok hconditions, Layout.tableTarget_ok hpaints, Layout.tableTarget_ok hdiscounts⟩
  obtain ⟨e, he, hholds⟩ := ratesEngine_eq_ok hfits
  rw [h] at he
  cases he
  exact ⟨hfits, hholds⟩

/-! ## What the formulas of a page read -/

namespace Layout

/-- How high up a cell of a room is in the order of reading. -/
def roomHeight (a : Address) : Nat :=
  if a.column = 3 then a.row + 1 else if a.column = 5 then measures.length + 1 else 0

/-- How high up a cell of a project is in the order of reading. -/
def projectHeight (a : Address) : Nat := if a.column = 9 then a.row else 0

/-- A formula of a room may read what is below it, but not the name. -/
def roomAllows (k p : Address) : Bool := decide (roomHeight p < roomHeight k) && p != ⟨0, 1⟩

/-- A formula of a project may read what is below it, but only the formula that counts reads names. -/
def projectAllows (k p : Address) : Bool :=
  decide (projectHeight p < projectHeight k) && (p.column != 0 || k == ⟨4, 9⟩)

/-- Whether the references in a tree at a cell of a room are all allowed. -/
def roomRefers (k : Address) : Expr → Bool :=
  Expr.refersBy (fun r => r.sheet?.isNone && roomAllows k r.address) (fun _ => false) rateWords.contains

/-- Whether the references in a tree at a cell of a project are all allowed. -/
def projectRefers (k : Address) : Expr → Bool :=
  Expr.refersBy (fun r => r.sheet?.isNone && projectAllows k r.address)
    (fun r => r.sheet?.isNone && (decide (r.area.stop.column < 7) &&
      (decide (0 < r.area.start.column) || k == ⟨4, 9⟩))) rateWords.contains

theorem roomRefers_measures {row : Nat} {e : Expr} (he : measureExprs[row]? = some e) :
    roomRefers ⟨row, 3⟩ e = true := by
  have hall : ∀ x ∈ measureExprs.zipIdx, roomRefers ⟨x.2, 3⟩ x.1 = true := by decide
  exact hall (e, row) (List.mem_zipIdx_iff_getElem?.2 he)

theorem roomRefers_tiers {e : Expr} (he : e ∈ tierExprs) (row : Nat) : roomRefers ⟨row, 5⟩ e = true := by
  have hall : ∀ e ∈ tierExprs, roomRefers ⟨0, 5⟩ e = true := by decide
  exact hall e he

theorem projectRefers_totals {rooms row : Nat} {e : Expr} (he : (totalExprs rooms)[row]? = some e) :
    projectRefers ⟨1 + row, 9⟩ e = true := by
  match row, he with
  | 0, he => cases he; rfl
  | 1, he => cases he; rfl
  | 2, he => cases he; rfl
  | 3, he => cases he; rfl
  | 4, he => cases he; rfl
  | 5, he => cases he; rfl
  | 6, he => cases he; rfl
  | 7, he => cases he; rfl

end Layout

namespace Page

/-- How high up a cell of a page is in the order of reading. -/
def height : Page → Address → Nat
  | room _ => Layout.roomHeight
  | project _ => Layout.projectHeight

/-- Whether a formula of a page may read a cell of the page. -/
def allows : Page → Address → Address → Bool
  | room _ => Layout.roomAllows
  | project _ => Layout.projectAllows

theorem height_lt_of_allows {page : Page} {k p : Address} (h : page.allows k p = true) :
    page.height p < page.height k := by
  cases page with
  | room r => exact of_decide_eq_true (Bool.and_eq_true_iff.1 h).1
  | project rows => exact of_decide_eq_true (Bool.and_eq_true_iff.1 h).1

section

variable {rates : Rates} {base : Engine} (hbase : ratesEngine rates = .ok base) {page : Page} {k p : CellKey}
include hbase

omit hbase in
/-- The formulas of a project with their cells. -/
theorem mem_projectEntries_formula {rows : List ProjectRow} {t : String}
    (h : (k, .formula t) ∈ Layout.projectEntries rows) :
    ∃ i, k = ⟨Layout.projectSheet, ⟨1 + i, 9⟩⟩ ∧ (Layout.totals rows.length)[i]? = some t := by
  simp only [Layout.projectEntries, List.mem_append, Layout.mem_table, Layout.mem_column] at h
  rcases h with ⟨i, j, -, items, hi, hj⟩ | ⟨i, rfl, hi⟩
  · have hitems := List.mem_of_getElem? hi
    have hc := List.mem_of_getElem? hj
    simp only [List.mem_cons, List.mem_map] at hitems
    rcases hitems with rfl | ⟨row, -, rfl⟩
    · obtain ⟨s, -, hs⟩ := List.mem_map.1 hc
      cases hs
    · simp [Layout.rowContents, Layout.text, Tiers.toList] at hc
  · obtain ⟨s, hs, heq⟩ := Option.map_eq_some_iff.1 (List.getElem?_map ▸ hi)
    cases heq
    exact ⟨i, rfl, hs⟩

/-- What a name of the rates stands for is on their sheet. -/
theorem sheet_of_rateWord {names : NameTable} (hnames : names = base.workbook.names) {s : String}
    {d : DefinedName} (hs : Layout.rateWords.contains s = true) (hd : names.find? s = some d)
    (hp : p ∈ d.target.cells) : p.sheet = Layout.ratesSheet := by
  have hname := (holds_of_ratesEngine hbase).2.name
  rw [List.contains_iff_mem, ← Layout.definedNames_name rates] at hs
  obtain ⟨n, hn, rfl⟩ := List.mem_map.1 hs
  have hfound : names.find? n.name = some n := hnames ▸ hname n hn
  rw [hfound] at hd
  cases hd
  exact Layout.sheet_of_mem_target hn hp

omit hbase in
theorem exists_getElem?_of_forall₂ {α β : Type} {R : α → β → Prop} {xs : List α} {ys : List β}
    (h : List.Forall₂ R xs ys) {i : Nat} {x : α} (hx : xs[i]? = some x) :
    ∃ y, ys[i]? = some y ∧ R x y := by
  have hrel := Functions.forall₂_getElem? h i
  rw [hx] at hrel
  generalize hy : ys[i]? = y? at hrel
  cases hrel with
  | some hxy => exact ⟨_, rfl, hxy⟩

omit hbase in
/-- The references in a formula of a room are all allowed. -/
theorem roomRefers_of_mem_entries {r : Room} {t : String} {e : Expr}
    (h : (k, .formula t) ∈ Layout.roomEntries r) (hx : Expr.ofText t = .ok e) :
    Layout.roomRefers k.address e = true := by
  rcases mem_roomEntries_formula h with ⟨i, rfl, hi⟩ | ⟨i, rfl, hi⟩
  · obtain ⟨e', he', hx'⟩ := exists_getElem?_of_forall₂ Layout.ofText_measures hi
    rw [hx] at hx'
    cases hx'
    exact Layout.roomRefers_measures he'
  · obtain ⟨e', he', hx'⟩ := exists_getElem?_of_forall₂ Layout.ofText_tierFormulas hi
    rw [hx] at hx'
    cases hx'
    exact Layout.roomRefers_tiers (List.mem_of_getElem? he') _

omit hbase in
/-- The references in a formula of a project are all allowed. -/
theorem projectRefers_of_mem_entries {rows : List ProjectRow} {t : String} {e : Expr}
    (h : (k, .formula t) ∈ Layout.projectEntries rows) (hx : Expr.ofText t = .ok e) :
    Layout.projectRefers k.address e = true := by
  obtain ⟨i, rfl, hi⟩ := mem_projectEntries_formula h
  obtain ⟨e', he', hx'⟩ := exists_getElem?_of_forall₂ (Layout.eq_of_ofText_totals rows.length) hi
  cases hx' e hx
  exact Layout.projectRefers_totals he'

/-- A formula of a page reads rates, or what it may read on the page. -/
theorem reads_cases (h : (page.engine base).workbook.Reads k p) : k.sheet = page.sheet ∧
    (p.sheet = Layout.ratesSheet ∨ p.sheet = page.sheet ∧ page.allows k.address p.address = true) := by
  obtain ⟨t, hf⟩ := Option.isSome_iff_exists.1 (Workbook.formula?_isSome_of_reads h)
  have hentry := page.engine_formula? (bare_of_ratesEngine hbase) hf
  have hsheet := sheet_of_mem_entries hentry
  have hnames : (page.engine base).workbook.names = base.workbook.names := by
    rw [engine, load_workbook, Workbook.load_names]
  refine ⟨hsheet, ?_⟩
  cases hx : Expr.ofText t with
  | error error =>
      rw [Workbook.Reads, Workbook.references_error hf hx] at h
      cases h
  | ok e =>
      have hrefers := (Workbook.reads_iff hf hx).1 h
      cases page with
      | room r =>
          rcases Expr.refersTo_cases hrefers (roomRefers_of_mem_entries hentry hx) with
            ⟨c, hc, rfl⟩ | ⟨c, hc, -⟩ | ⟨s, d, hs, hd, hp⟩
          · obtain ⟨hnone, hallows⟩ := Bool.and_eq_true_iff.1 hc
            rw [Option.isNone_iff_eq_none.1 hnone]
            exact Or.inr ⟨hsheet, hallows⟩
          · cases hc
          · exact Or.inl (sheet_of_rateWord hbase hnames hs hd hp)
      | project rows =>
          rcases Expr.refersTo_cases hrefers (projectRefers_of_mem_entries hentry hx) with
            ⟨c, hc, rfl⟩ | ⟨c, hc, hpsheet, hp⟩ | ⟨s, d, hs, hd, hp⟩
          · obtain ⟨hnone, hallows⟩ := Bool.and_eq_true_iff.1 hc
            rw [Option.isNone_iff_eq_none.1 hnone]
            exact Or.inr ⟨hsheet, hallows⟩
          · simp only [Bool.and_eq_true, Bool.or_eq_true, decide_eq_true_eq] at hc
            obtain ⟨hnone, hlast, hfirst⟩ := hc
            simp only [Range.contains, decide_eq_true_eq] at hp
            rw [Option.isNone_iff_eq_none.1 hnone] at hpsheet
            refine Or.inr ⟨hpsheet.trans hsheet, ?_⟩
            obtain ⟨i, rfl, -⟩ := mem_projectEntries_formula hentry
            have hlow : Layout.projectHeight p.address = 0 := if_neg (by omega)
            simp only [allows, Layout.projectAllows, hlow, Bool.and_eq_true, Bool.or_eq_true,
              decide_eq_true_eq]
            refine ⟨by simp [Layout.projectHeight], hfirst.imp (fun hfirst => ?_) id⟩
            exact bne_iff_ne.2 (by omega)
          · exact Or.inl (sheet_of_rateWord hbase hnames hs hd hp)

/-- No cell of a page lies on a cycle. -/
theorem not_circular (page : Page) (k : CellKey) : ¬ (page.engine base).workbook.Circular k := by
  refine Workbook.not_circular_of_rank
    (fun k => if k.sheet = page.sheet then page.height k.address + 1 else 0) (fun k p h => ?_) k
  obtain ⟨hk, hp | ⟨hp, hallows⟩⟩ := reads_cases hbase h
  · rw [if_neg (hp ▸ page.sheet_ne_rates.symm), if_pos hk]
    exact Nat.succ_pos _
  · rw [if_pos hp, if_pos hk]
    exact Nat.succ_lt_succ (height_lt_of_allows hallows)

end

end Page

end Estimate

end PaintQuote
