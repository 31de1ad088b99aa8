import PaintQuote.Estimate.Estimator
import PaintQuote.Proofs.Cache.Akin
import PaintQuote.Proofs.Estimate.Formulas
import PaintQuote.Proofs.Estimate.RateSheet

/-!
# The sheets that an estimate evaluates

An estimate writes a *page* beside the rates, that of a room or that of a project, and has it evaluated
by an engine that knows nothing yet.  So every evaluation is one of a formula of the page, and two
evaluations under one key, whichever pages they belong to, have outcomes that are equal up to the form
of a number (`uniform_of_drawn`).
-/

namespace PaintQuote

open Sheet Formula Engine Estimate

/-! ## Workbooks after writes -/

namespace Sheet.Workbook

theorem load_names (w : Workbook) (entries : List Entry) : (w.load entries).1.names = w.names :=
  (w.load_changedIn entries).names

/-- A cell holds what it held, or something that was written to it. -/
theorem content_load_cases (k : CellKey) (entries : List Entry) : ∀ w : Workbook,
    (w.load entries).1.content k = w.content k ∨ (k, (w.load entries).1.content k) ∈ entries := by
  induction entries with
  | nil => exact fun w => Or.inl rfl
  | cons entry entries ih =>
      obtain ⟨key, c⟩ := entry
      intro w
      rw [load_cons]
      rcases ih (w.set key c).1 with hcontent | hmem
      · rw [hcontent, content_set]
        split
        next heq =>
          split
          next =>
            rw [heq]
            exact Or.inl rfl
          next =>
            rw [heq]
            exact Or.inr List.mem_cons_self
        next => exact Or.inl rfl
      · exact Or.inr (List.mem_cons_of_mem _ hmem)

/-- Entries on one sheet add this sheet. -/
theorem hasSheet_load_of_sheet {entries : List Entry} {sheet : SheetName} (hne : entries ≠ [])
    (hentries : ∀ k c, (k, c) ∈ entries → k.sheet = sheet) (w : Workbook) (s : SheetName) :
    (w.load entries).1.hasSheet s = (w.hasSheet s || s == sheet) := by
  have hany : (entries.any fun entry => s == entry.1.sheet) = (s == sheet) := by
    obtain ⟨⟨k, c⟩, hfirst⟩ := List.exists_mem_of_ne_nil entries hne
    rw [Bool.eq_iff_iff, List.any_eq_true]
    constructor
    · rintro ⟨⟨k, c⟩, hentry, hs⟩
      rw [← hentries k c hentry]
      exact hs
    · intro hs
      exact ⟨(k, c), hfirst, by rw [hentries k c hfirst]; exact hs⟩
  rw [hasSheet_load, hany]

namespace Akin

variable {w w' : Workbook}

theorem set (h : w.Akin w') (key : CellKey) {c c' : Content} (hc : c.agrees c' = true) :
    (w.set key c).1.Akin (w'.set key c').1 := by
  have hsame : (w.content key).agrees c = (w'.content key).agrees c' := by
    rw [Bool.eq_iff_iff]
    constructor
    · intro hw
      exact Content.agrees_trans (Content.agrees_symm (h.content key)) (Content.agrees_trans hw hc)
    · intro hw'
      exact Content.agrees_trans (h.content key) (Content.agrees_trans hw' (Content.agrees_symm hc))
  refine ⟨?_, fun s => ?_, fun k => ?_⟩
  · rw [(w.set_changedIn key c).names, (w'.set_changedIn key c').names]
    exact h.names
  · rw [hasSheet_set, hasSheet_set, h.hasSheet]
  · rw [content_set, content_set, hsame]
    split
    next =>
      split
      next => exact h.content key
      next => exact hc
    next => exact h.content k

/-- Two entries are for one cell, with contents that agree. -/
def Writes (a b : Entry) : Prop := a.1 = b.1 ∧ a.2.agrees b.2 = true

theorem load {entries entries' : List Entry} (hentries : List.Forall₂ Writes entries entries') :
    ∀ {w w' : Workbook}, w.Akin w' → (w.load entries).1.Akin (w'.load entries').1 := by
  induction hentries with
  | nil => exact fun h => h
  | @cons a b _ _ hab _ ih =>
      obtain ⟨key, c⟩ := a
      obtain ⟨key', c'⟩ := b
      obtain ⟨rfl, hc⟩ := hab
      exact fun h => ih (h.set key hc)

end Akin

end Sheet.Workbook

/-! ## Engines that know nothing -/

namespace Engine

/-- An engine has read no formula and knows no outcome. -/
structure Unread (e : Engine) : Prop where
  formulas : e.formulas = {}
  graph : e.graph = {}
  outcomes : e.outcomes = {}

namespace Unread

variable {e e' : Engine}

theorem invalidate (h : e.Unread) (changed : List CellKey) : (e.invalidate changed).Unread := by
  have hcontent : ∀ (e : Engine) (key : CellKey), e.Unread → (e.forgetContent key).Unread := by
    intro e key h
    refine ⟨?_, ?_, ?_⟩
    · rw [forgetContent, h.formulas]
      rfl
    · rw [forgetContent, h.graph]
      rfl
    · rw [forgetContent, h.outcomes]
      rfl
  have houtcome : ∀ (e : Engine) (key : CellKey), e.Unread → (e.forgetOutcome key).Unread := by
    intro e key h
    refine ⟨h.formulas, h.graph, ?_⟩
    rw [forgetOutcome, h.outcomes]
    rfl
  have hfold : ∀ (f : Engine → CellKey → Engine),
      (∀ (e : Engine) (key : CellKey), e.Unread → (f e key).Unread) →
        ∀ (keys : List CellKey) (e : Engine), e.Unread → (keys.foldl f e).Unread := by
    intro f hf keys
    induction keys with
    | nil => exact fun _ h => h
    | cons key keys ih => exact fun e h => ih _ (hf e key h)
  exact hfold _ houtcome _ _ (hfold _ hcontent changed e h)

theorem load (h : e.Unread) (entries : List Entry) : (e.load entries).Unread := by
  have hworkbook : ({ e with workbook := (e.workbook.load entries).1 } : Engine).Unread :=
    ⟨h.formulas, h.graph, h.outcomes⟩
  exact hworkbook.invalidate _

theorem valid (h : e.Unread) : e.Valid fun _ => e.workbook.hasSheet :=
  valid_of_empty _ h.formulas h.graph h.outcomes

/-- Engines that know nothing are akin if their workbooks are. -/
theorem akin (h : e.Unread) (h' : e'.Unread) (S : Outcome → Outcome → Prop)
    (hworkbook : e.workbook.Akin e'.workbook) : e.Akin S e' := by
  refine ⟨hworkbook, h.formulas.trans h'.formulas.symm, h.graph.trans h'.graph.symm, fun k => ?_⟩
  rw [h.outcomes, h'.outcomes]
  exact .none

end Unread

end Engine

namespace Estimate

/-! ## Rates -/

/-- An engine knows nothing and holds no formula, and all that it holds is on the sheet of rates. -/
structure Bare (e : Engine) : Prop where
  unread : e.Unread
  grounded : e.workbook.Grounded
  hasSheet : ∀ s, e.workbook.hasSheet s = (s == Layout.ratesSheet)
  formula? : ∀ k, e.workbook.formula? k = none

/-- Names leave an engine as bare as it was. -/
theorem Bare.foldlM_defineName (names : List DefinedName) : ∀ {e e' : Engine}, Bare e →
    names.foldlM Engine.defineName e = .ok e' → Bare e' := by
  induction names with
  | nil =>
      intro e e' h hfold
      cases hfold
      exact h
  | cons name names ih =>
      intro e e' h hfold
      rw [List.foldlM_cons, Engine.defineName] at hfold
      cases hdefine : e.workbook.defineName name with
      | error error =>
          rw [hdefine] at hfold
          cases hfold
      | ok workbook =>
          rw [hdefine] at hfold
          refine ih ?_ hfold
          unfold Workbook.defineName at hdefine
          cases hnames : e.workbook.names.define name with
          | error error =>
              rw [hnames] at hdefine
              cases hdefine
          | ok names =>
              rw [hnames] at hdefine
              cases hdefine
              exact ⟨⟨rfl, rfl, rfl⟩, h.grounded, h.hasSheet, h.formula?⟩

theorem mem_rateEntries_literal {r : Rates} {k : CellKey} {t : String} :
    (k, .formula t) ∉ Layout.rateEntries r := by
  intro h
  obtain ⟨b, h⟩ := Layout.mem_rateEntries.1 h
  obtain ⟨i, j, -, items, hi, hj⟩ := Layout.mem_table.1 h
  rcases Layout.Block.text_or_number r b items (List.mem_of_getElem? hi) _ (List.mem_of_getElem? hj) with
    ⟨s, hs⟩ | ⟨n, hn⟩
  · cases hs
  · cases hn

theorem formula?_eq_some {w : Workbook} {k : CellKey} {t : String} :
    w.formula? k = some t ↔ w.content k = .formula t := by
  unfold Workbook.formula?
  cases w.content k <;> simp

theorem bare_of_ratesEngine {r : Rates} {e : Engine} (h : ratesEngine r = .ok e) : Bare e := by
  have hempty : Engine.empty.Unread := ⟨rfl, rfl, rfl⟩
  have hgrounded : Workbook.empty.Grounded := by
    intro k hk
    cases hk
  have hloaded : Bare (Engine.empty.load (Layout.rateEntries r)) := by
    refine ⟨hempty.load _, ?_, fun s => ?_, fun k => ?_⟩
    · rw [load_workbook]
      exact hgrounded.load _
    · have hsheet : ∀ k c, (k, c) ∈ Layout.rateEntries r → k.sheet = Layout.ratesSheet := by
        intro k c h
        obtain ⟨b, h⟩ := Layout.mem_rateEntries.1 h
        exact (Layout.Block.covers_of_mem_entries h).1
      have hne : Layout.rateEntries r ≠ [] := List.cons_ne_nil _ _
      rw [load_workbook]
      exact Workbook.hasSheet_load_of_sheet hne hsheet Workbook.empty s
    · refine Option.eq_none_iff_forall_ne_some.2 fun t ht => ?_
      rw [load_workbook, formula?_eq_some] at ht
      rcases Workbook.content_load_cases k (Layout.rateEntries r) Workbook.empty with hempty | hmem
      · rw [show (Engine.empty.workbook.load (Layout.rateEntries r)).1.content k = _ from hempty] at ht
        cases ht
      · rw [show (Workbook.empty.load (Layout.rateEntries r)).1.content k = _ from ht] at hmem
        exact mem_rateEntries_literal hmem
  unfold ratesEngine at h
  cases hnames : Layout.rateNames r with
  | error error =>
      rw [hnames] at h
      cases h
  | ok names =>
      rw [hnames] at h
      exact hloaded.foldlM_defineName names h

/-! ## Pages -/

/-- What an estimate writes beside the rates. -/
inductive Page where
  /-- The sheet of a room. -/
  | room (room : Room)
  /-- The sheet of a project. -/
  | project (rows : List ProjectRow)

namespace Page

/-- The sheet of a page. -/
def sheet : Page → SheetName
  | room _ => Layout.roomSheet
  | project _ => Layout.projectSheet

/-- The entries of a page. -/
def entries : Page → List Entry
  | room r => Layout.roomEntries r
  | project rows => Layout.projectEntries rows

/-- The formulas on a page. -/
def formulas : Page → List String
  | room _ => Layout.roomFormulas
  | project rows => Layout.totals rows.length

/-- The cells of a page that are asked for. -/
def outputs : Page → List CellKey
  | room _ => RoomOutput.all.map (·.key)
  | project _ => ProjectOutput.all.map (·.key)

/-- An engine that has been given a page. -/
def engine (base : Engine) (page : Page) : Engine := base.load page.entries

/-- The engine that has evaluated a page without a cache. -/
def evaluated (base : Engine) (page : Page) : Engine :=
  ((page.engine base).run none page.outputs).1

/-- The evaluations that a page comes to without a cache. -/
def evaluations (base : Engine) (page : Page) : List Evaluation :=
  (page.engine base).evaluationsOf (.evaluateAll page.outputs)

end Page

namespace Layout

theorem mem_column {sheet : SheetName} {start : Address} {contents : List Content} {k : CellKey}
    {c : Content} : (k, c) ∈ column sheet start contents ↔
      ∃ i, k = ⟨sheet, ⟨start.row + i, start.column⟩⟩ ∧ contents[i]? = some c := by
  rw [column, mem_table]
  constructor
  · rintro ⟨i, j, rfl, items, hi, hj⟩
    rw [List.getElem?_map, Option.map_eq_some_iff] at hi
    obtain ⟨a, ha, rfl⟩ := hi
    obtain ⟨rfl, rfl⟩ : j = 0 ∧ a = c := by
      cases j with
      | zero => exact ⟨rfl, Option.some.inj hj⟩
      | succ j => cases hj
    exact ⟨i, rfl, ha⟩
  · rintro ⟨i, rfl, hi⟩
    exact ⟨i, 0, rfl, [c], by rw [List.getElem?_map, hi]; rfl, rfl⟩

end Layout

namespace Page

variable {page : Page} {k : CellKey} {c : Content} {t : String}

/-- No page is the sheet of rates. -/
theorem sheet_ne_rates (page : Page) : page.sheet ≠ Layout.ratesSheet := by
  cases page <;> (simp only [sheet]; decide)

/-- The entries of a page are for cells on its sheet. -/
theorem sheet_of_mem_entries (h : (k, c) ∈ page.entries) : k.sheet = page.sheet := by
  cases page with
  | room r =>
      simp only [entries, Layout.roomEntries, List.mem_append, Layout.mem_column] at h
      rcases h with ((⟨i, rfl, -⟩ | ⟨i, rfl, -⟩) | ⟨i, rfl, -⟩) | ⟨i, rfl, -⟩ <;> rfl
  | project rows =>
      simp only [entries, Layout.projectEntries, List.mem_append, Layout.mem_column, Layout.mem_table] at h
      rcases h with ⟨i, j, rfl, -⟩ | ⟨i, rfl, -⟩ <;> rfl

/-- A cell holds what it held if a page writes nothing to it. -/
theorem engine_content_of_unwritten (base : Engine) (h : ∀ c, (k, c) ∉ page.entries) :
    (page.engine base).workbook.content k = base.workbook.content k := by
  rw [engine, load_workbook]
  exact (Workbook.content_load_cases k page.entries base.workbook).resolve_right (h _)

/-- The formulas of a room with their cells. -/
theorem mem_roomEntries_formula {r : Room} (h : (k, .formula t) ∈ Layout.roomEntries r) :
    (∃ i, k = ⟨Layout.roomSheet, ⟨i, 3⟩⟩ ∧ Layout.measures[i]? = some t) ∨
      ∃ i, k = ⟨Layout.roomSheet, ⟨1 + i, 5⟩⟩ ∧ Layout.priceFormulas.toList[i]? = some t := by
  have hliteral : Content.formula t ∉ Layout.roomContents r ∧
      Content.formula t ∉ Tiers.names.toList.map Layout.text := by
    simp [Layout.roomContents, Layout.text, Layout.number, Layout.count, Layout.flag, Tiers.toList]
  simp only [Layout.roomEntries, List.mem_append, Layout.mem_column] at h
  rcases h with ((⟨i, rfl, hi⟩ | ⟨i, rfl, hi⟩) | ⟨i, rfl, hi⟩) | ⟨i, rfl, hi⟩
  · exact absurd (List.mem_of_getElem? hi) hliteral.1
  · obtain ⟨s, hs, heq⟩ := Option.map_eq_some_iff.1 (List.getElem?_map ▸ hi)
    cases heq
    exact Or.inl ⟨i, by simp [Layout.place], hs⟩
  · exact absurd (List.mem_of_getElem? hi) hliteral.2
  · obtain ⟨s, hs, heq⟩ := Option.map_eq_some_iff.1 (List.getElem?_map ▸ hi)
    cases heq
    exact Or.inr ⟨i, rfl, hs⟩

/-- A formula stands in one cell of the sheet of a room. -/
theorem eq_of_mem_roomEntries {r r' : Room} {k' : CellKey} (h : (k, .formula t) ∈ Layout.roomEntries r)
    (h' : (k', .formula t) ∈ Layout.roomEntries r') : k = k' := by
  have hdistinct : Layout.roomFormulas.Nodup := by decide +kernel
  obtain ⟨hmeasures, hprices, hdisjoint⟩ := List.nodup_append.1 hdistinct
  have hplace : ∀ {texts : List String} {i j : Nat}, texts.Nodup → texts[i]? = some t →
      texts[j]? = some t → i = j := by
    intro texts i j htexts hi hj
    obtain ⟨hlt, hi'⟩ := List.getElem?_eq_some_iff.1 hi
    exact (List.getElem?_inj hlt htexts).1 (hi.trans hj.symm)
  rcases mem_roomEntries_formula h with ⟨i, rfl, hi⟩ | ⟨i, rfl, hi⟩
  · rcases mem_roomEntries_formula h' with ⟨j, rfl, hj⟩ | ⟨j, rfl, hj⟩
    · rw [hplace hmeasures hi hj]
    · exact absurd rfl (hdisjoint t (List.mem_of_getElem? hi) t (List.mem_of_getElem? hj))
  · rcases mem_roomEntries_formula h' with ⟨j, rfl, hj⟩ | ⟨j, rfl, hj⟩
    · exact absurd rfl (hdisjoint t (List.mem_of_getElem? hj) t (List.mem_of_getElem? hi))
    · rw [hplace hprices hi hj]

theorem mem_formulas_of_mem_entries (h : (k, .formula t) ∈ page.entries) : t ∈ page.formulas := by
  cases page with
  | room r =>
      rcases mem_roomEntries_formula h with ⟨i, -, hi⟩ | ⟨i, -, hi⟩
      · exact List.mem_append_left _ (List.mem_of_getElem? hi)
      · exact List.mem_append_right _ (List.mem_of_getElem? hi)
  | project rows =>
      simp only [entries, Layout.projectEntries, List.mem_append, Layout.mem_table, Layout.mem_column] at h
      rcases h with ⟨i, j, -, items, hi, hj⟩ | ⟨i, -, hi⟩
      · have hitems := List.mem_of_getElem? hi
        have hc := List.mem_of_getElem? hj
        simp only [List.mem_cons, List.mem_map] at hitems
        rcases hitems with rfl | ⟨row, -, rfl⟩
        · obtain ⟨s, -, hs⟩ := List.mem_map.1 hc
          cases hs
        · simp [Layout.rowContents, Layout.text, Tiers.toList] at hc
      · obtain ⟨s, hs, heq⟩ := Option.map_eq_some_iff.1 (List.getElem?_map ▸ hi)
        cases heq
        exact List.mem_of_getElem? hs

/-- Pages with a formula in common are on one sheet. -/
theorem sheet_eq_of_mem_formulas {page' : Page} (h : t ∈ page.formulas) (h' : t ∈ page'.formulas) :
    page.sheet = page'.sheet := by
  cases page with
  | room r =>
      cases page' with
      | room r' => rfl
      | project rows => exact absurd h' (Layout.not_mem_totals_of_mem_roomFormulas _ h)
  | project rows =>
      cases page' with
      | room r => exact absurd h (Layout.not_mem_totals_of_mem_roomFormulas _ h')
      | project rows' => rfl

theorem isUniform_of_mem_formulas (h : t ∈ page.formulas) {e : Expr} (he : Expr.ofText t = .ok e) :
    e.isUniform = true := by
  cases page with
  | room r => exact Layout.isUniform_of_mem_roomFormulas h he
  | project rows => exact Layout.isUniform_of_mem_totals rows.length h he

/-! ### Engines with a page -/

section

variable {base : Engine} (hbase : Bare base) (page : Page)
include hbase

theorem engine_unread : (page.engine base).Unread := hbase.unread.load _

omit hbase in
theorem entries_ne_nil : page.entries ≠ [] := by
  cases page with
  | room r => exact List.cons_ne_nil _ _
  | project rows => exact List.cons_ne_nil _ _

theorem engine_hasSheet (s : SheetName) :
    (page.engine base).workbook.hasSheet s = (s == Layout.ratesSheet || s == page.sheet) := by
  rw [engine, load_workbook, Workbook.hasSheet_load_of_sheet page.entries_ne_nil
    (fun _ _ h => sheet_of_mem_entries h), hbase.hasSheet]

theorem engine_formula? {k : CellKey} {t : String}
    (hf : (page.engine base).workbook.formula? k = some t) : (k, .formula t) ∈ page.entries := by
  rw [engine, load_workbook, formula?_eq_some] at hf
  rcases Workbook.content_load_cases k page.entries base.workbook with hcontent | hmem
  · have hnone := hbase.formula? k
    rw [Option.eq_none_iff_forall_ne_some] at hnone
    exact absurd (formula?_eq_some.2 (hcontent.symm.trans hf)) (hnone t)
  · rw [hf] at hmem
    exact hmem

/-- An evaluation of a page is sound, and by an engine with the names and sheets of the page. -/
theorem sound_of_mem_evaluations {x : Evaluation} (hx : x ∈ page.evaluations base) :
    x.Sound ∧ x.engine.workbook = (page.engine base).workbook := by
  refine ⟨evaluationsOf_sound (page.engine_unread hbase).valid ?_ _ x hx, ?_⟩
  · rw [engine, load_workbook]
    exact hbase.grounded.load _
  · exact (evaluations_learned _ hx).1.workbook.trans (prepare_workbook _ _)

/-- An evaluation of a page is of a formula of the page. -/
theorem mem_entries_of_mem_evaluations {x : Evaluation} (hx : x ∈ page.evaluations base) :
    (x.key, .formula x.compiled.text) ∈ page.entries := by
  obtain ⟨hsound, hworkbook⟩ := page.sound_of_mem_evaluations hbase hx
  have hf := hsound.reading.1
  rw [hworkbook] at hf
  exact page.engine_formula? hbase hf

end

/-! ### Evaluations of pages -/

/-- An evaluation is one of a page beside given rates. -/
def Drawn (base : Engine) (x : Evaluation) : Prop := ∃ page : Page, x ∈ page.evaluations base

/-- What is common to the evaluations of a page. -/
structure Draws (base : Engine) (page : Page) (x : Evaluation) : Prop where
  sound : x.Sound
  sheet : x.key.sheet = page.sheet
  formula : x.compiled.text ∈ page.formulas
  hasSheet : ∀ s, x.engine.workbook.hasSheet s = (s == Layout.ratesSheet || s == page.sheet)
  names : x.engine.workbook.names = base.workbook.names

section

variable {base : Engine} (hbase : Bare base)
include hbase

theorem draws_of_mem_evaluations {x : Evaluation} (hx : x ∈ page.evaluations base) :
    page.Draws base x := by
  obtain ⟨hsound, hworkbook⟩ := page.sound_of_mem_evaluations hbase hx
  have hentry := page.mem_entries_of_mem_evaluations hbase hx
  refine ⟨hsound, sheet_of_mem_entries hentry, mem_formulas_of_mem_entries hentry, fun s => ?_, ?_⟩
  · rw [hworkbook, engine_hasSheet hbase]
  · rw [hworkbook, engine, load_workbook, Workbook.load_names]

theorem Drawn.sound {x : Evaluation} (hx : Drawn base x) : x.Sound := by
  obtain ⟨page, hx⟩ := hx
  exact (draws_of_mem_evaluations hbase hx).sound

/-- Evaluations of pages with one key differ at most in the forms of the numbers that they read. -/
theorem Drawn.near {x y : Evaluation} (hx : Drawn base x) (hy : Drawn base y)
    (hkey : x.cacheKey = y.cacheKey) : x.Near y := by
  obtain ⟨page, hx⟩ := hx
  obtain ⟨page', hy⟩ := hy
  have hdx := draws_of_mem_evaluations hbase hx
  have hdy := draws_of_mem_evaluations hbase hy
  obtain ⟨htext, -⟩ := (Evaluation.cacheKey_eq_iff hdx.sound hdy.sound).1 hkey
  have hsheet : page.sheet = page'.sheet :=
    sheet_eq_of_mem_formulas hdx.formula (htext ▸ hdy.formula)
  refine ⟨?_, fun p _ => ?_, fun s _ => ?_⟩
  · rw [hdx.sheet, hdy.sheet, hsheet]
  · rw [hdx.hasSheet, hdy.hasSheet, hsheet]
  · rw [Evaluation.target?, Evaluation.target?, Workbook.name?, Workbook.name?, hdx.names, hdy.names]

/-- Evaluations of pages cannot tell equal numbers apart, and have like outcomes under one key. -/
theorem uniform_of_drawn {xs : List Evaluation} (hxs : ∀ x ∈ xs, Drawn base x) : Uniform xs := by
  have huniform : ∀ x ∈ xs, x.compiled.expr.isUniform = true := by
    intro x hx
    obtain ⟨page, hx⟩ := hxs x hx
    have hdraws := draws_of_mem_evaluations hbase hx
    exact isUniform_of_mem_formulas hdraws.formula hdraws.sound.reading.2.1
  refine ⟨huniform, fun x hx y hy hkey => ?_⟩
  exact ((hxs x hx).near hbase (hxs y hy) hkey).outcome_like ((hxs x hx).sound hbase)
    ((hxs y hy).sound hbase) hkey (huniform x hx)

/-- The evaluations of a room have different keys. -/
theorem eq_of_cacheKey_eq {r : Room} {x y : Evaluation} (hx : x ∈ (room r).evaluations base)
    (hy : y ∈ (room r).evaluations base) (hkey : x.cacheKey = y.cacheKey) : x = y := by
  obtain ⟨hsx, -⟩ := (room r).sound_of_mem_evaluations hbase hx
  obtain ⟨hsy, -⟩ := (room r).sound_of_mem_evaluations hbase hy
  obtain ⟨htext, -⟩ := (Evaluation.cacheKey_eq_iff hsx hsy).1 hkey
  have hex := (room r).mem_entries_of_mem_evaluations hbase hx
  have hey := (room r).mem_entries_of_mem_evaluations hbase hy
  rw [← htext] at hey
  have hdistinct : (((room r).evaluations base).map (·.key)).Nodup :=
    List.pairwise_map.2 (evaluations_pairwise _ _)
  exact List.inj_on_of_nodup_map hdistinct hx hy (eq_of_mem_roomEntries hex hey)

/-- A room comes to no more evaluations than it has formulas. -/
theorem length_evaluations_le (r : Room) :
    ((room r).evaluations base).length ≤ Layout.roomFormulas.length := by
  have hentry := fun x (hx : x ∈ (room r).evaluations base) => (room r).mem_entries_of_mem_evaluations hbase hx
  have hdistinct : (((room r).evaluations base).map (·.compiled.text)).Nodup := by
    refine List.pairwise_map.2 ((evaluations_pairwise _ _).imp_of_mem fun hx hy hne heq => hne ?_)
    exact eq_of_mem_roomEntries (hentry _ hx) (heq ▸ hentry _ hy)
  have hsubset : ((room r).evaluations base).map (·.compiled.text) ⊆ Layout.roomFormulas := by
    intro t ht
    obtain ⟨x, hx, rfl⟩ := List.mem_map.1 ht
    exact (mem_formulas_of_mem_entries (hentry x hx) : x.compiled.text ∈ (room r).formulas)
  rw [← List.length_map (f := (·.compiled.text))]
  exact (List.subperm_of_subset hdistinct hsubset).length_le

end

end Page

end Estimate

end PaintQuote
