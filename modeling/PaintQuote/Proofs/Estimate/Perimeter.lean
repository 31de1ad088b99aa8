import PaintQuote.Proofs.Engine.Representation
import PaintQuote.Proofs.Estimate.Pages

/-!
# The perimeter of a room

Without a cache, the perimeter is what its formula gives over the measurements as they were given
(`HoldsRoom.shown_perimeter`), so that it has the form that they have.
-/

namespace PaintQuote

open Sheet Formula Engine Estimate

/-! ## Cells on no cycle -/

namespace Sheet.Workbook

variable {w : Workbook} {k : CellKey}

/-- A cell on a cycle reads a cell on a cycle. -/
theorem Circular.exists_reads (h : w.Circular k) : ∃ p, w.Reads k p ∧ w.Circular p := by
  obtain ⟨p, hread, hback⟩ := Relation.TransGen.head'_iff.1 h
  exact ⟨p, hread, Relation.TransGen.tail' hback hread⟩

theorem not_circular_of_reads (h : ∀ p, w.Reads k p → ¬ w.Circular p) : ¬ w.Circular k := by
  intro hk
  obtain ⟨p, hread, hp⟩ := hk.exists_reads
  exact h p hread hp

theorem reads_iff {text : String} {e : Expr} (hf : w.formula? k = some text)
    (hx : Expr.ofText text = .ok e) {p : CellKey} : w.Reads k p ↔ RefersTo w.names k.sheet p e := by
  rw [Reads, references_ok hf hx, Std.TreeSet.mem_toList, References.mem_ofExpr_iff]

end Sheet.Workbook

namespace Engine

/-- Contexts agree on a tree without names if they agree on the cells that it refers to. -/
theorem Agree.of_refersTo {names : NameTable} {sheet : SheetName} {e : Expr} {c c' : Context}
    (hsheet : c.sheet = c'.sheet) (hnames : (References.ofExpr names sheet e).names = {})
    (hreads : ∀ p, RefersTo names sheet p e → c.source.value p = c'.source.value p ∧
      c.source.hasSheet p.sheet = c'.source.hasSheet p.sheet) :
    Agree (References.ofExpr names sheet e) c c' := by
  have hempty : ∀ s : String, s ∉ ({} : Std.TreeSet String) := fun _ => Std.TreeSet.not_mem_emptyc
  refine { sheet := hsheet, value := fun p hp => ?_, hasSheet := fun p hp => ?_, target := fun s hs => ?_ }
  · exact (hreads p (References.mem_ofExpr_iff.1 hp)).1
  · exact (hreads p (References.mem_ofExpr_iff.1 hp)).2
  · rw [hnames] at hs
    exact absurd hs (hempty _)

/-- An engine shows what a formula gives in any context that agrees with it on what the formula reads. -/
theorem Valid.shown_eq {e : Engine} {seen : CellKey → SheetName → Bool} (h : e.Valid seen) {k : CellKey}
    (hk : e.Settled k) {text : String} {expr : Expr} (hf : e.workbook.formula? k = some text)
    (hx : Expr.ofText text = .ok expr) (hn : ¬ e.workbook.Circular k) {c : Context}
    (hagree : Agree (References.ofExpr e.workbook.names k.sheet expr)
      ⟨⟨e.value, seen k, e.workbook.name?⟩, k.sheet⟩ c) : e.shown k = outcomeOf c expr := by
  rw [(h.shown_due hk).eq_of_evaluated hf hx hn]
  simp only [shown_value]
  exact outcomeOf_congr (fun _ => rfl) expr hagree

end Engine

/-- What agrees with nothing is nothing. -/
theorem Sheet.Content.eq_empty_of_agrees {c : Content} (h : (Content.literal .empty).agrees c = true) :
    c = .literal .empty := by
  cases c with
  | literal v => rw [← beq_iff_eq.1 h]
  | formula t => cases h

namespace Estimate

/-! ## Formulas -/

namespace Layout

theorem ofText_measurable : Expr.ofText "=AND(B2>0,B3>0,B4>0,B9>=1)" = .ok measurableExpr :=
  (List.forall₂_cons.1 ofText_measures).1

theorem ofText_perimeter : Expr.ofText "=IF(D1,2*(B2+B3),NA())" = .ok perimeterExpr :=
  (List.forall₂_cons.1 (List.forall₂_cons.1 ofText_measures).2).1

section

variable {names : NameTable} {sheet : SheetName} {p : CellKey}

theorem refersTo_cellExpr {column : Char} {row : Nat} (h : RefersTo names sheet p (cellExpr column row)) :
    p = ⟨sheet, place column row⟩ := by
  cases h with
  | cell h => exact h

theorem not_refersTo_countExpr {n : Nat} : ¬ RefersTo names sheet p (countExpr n) := nofun

theorem refersTo_measurableExpr (h : RefersTo names sheet p measurableExpr) :
    p ∈ [⟨sheet, place 'B' 2⟩, ⟨sheet, place 'B' 3⟩, ⟨sheet, place 'B' 4⟩, ⟨sheet, place 'B' 9⟩] := by
  cases h with
  | argument ha h =>
      simp only [List.mem_cons, List.not_mem_nil, or_false] at ha ⊢
      rcases ha with rfl | rfl | rfl | rfl <;>
        · cases h with
          | left h => simp [refersTo_cellExpr h]
          | right h => exact absurd h not_refersTo_countExpr

theorem refersTo_perimeterExpr (h : RefersTo names sheet p perimeterExpr) :
    p ∈ [⟨sheet, place 'D' 1⟩, ⟨sheet, place 'B' 2⟩, ⟨sheet, place 'B' 3⟩] := by
  cases h with
  | argument ha h =>
      simp only [List.mem_cons, List.not_mem_nil, or_false] at ha ⊢
      rcases ha with rfl | rfl | rfl
      · exact Or.inl (refersTo_cellExpr h)
      · cases h with
        | left h => exact absurd h not_refersTo_countExpr
        | right h =>
            cases h with
            | left h => exact Or.inr (Or.inl (refersTo_cellExpr h))
            | right h => exact Or.inr (Or.inr (refersTo_cellExpr h))
      · cases h with
        | argument ha => cases ha

end

/-! ## Contents of a room -/

/-- The columns of a room, each with its first cell. -/
def roomColumns (r : Room) : List (Address × List Content) :=
  [(place 'B' 1, roomContents r), (place 'D' 1, measures.map .formula),
    (place 'E' 2, Tiers.names.toList.map text), (place 'F' 2, priceFormulas.toList.map .formula)]

theorem mem_roomEntries {r : Room} {k : CellKey} {c : Content} :
    (k, c) ∈ roomEntries r ↔ ∃ a ∈ roomColumns r, (k, c) ∈ column roomSheet a.1 a.2 := by
  simp [roomEntries, roomColumns]

/-- A cell of a room is written to once. -/
theorem eq_of_mem_roomEntries {r : Room} {k : CellKey} {c c' : Content} (h : (k, c) ∈ roomEntries r)
    (h' : (k, c') ∈ roomEntries r) : c = c' := by
  have hcolumns : ((roomColumns r).map (·.1.column)).Nodup := by
    show [1, 3, 4, 5].Nodup
    decide
  obtain ⟨a, ha, h⟩ := mem_roomEntries.1 h
  obtain ⟨b, hb, h'⟩ := mem_roomEntries.1 h'
  obtain ⟨i, rfl, hi⟩ := mem_column.1 h
  obtain ⟨j, heq, hj⟩ := mem_column.1 h'
  simp only [CellKey.mk.injEq, Address.mk.injEq, true_and] at heq
  obtain ⟨hrow, hcolumn⟩ := heq
  have hab : a = b := List.inj_on_of_nodup_map hcolumns ha hb hcolumn
  subst hab
  rw [Nat.add_left_cancel hrow, hj] at hi
  exact (Option.some.inj hi).symm

/-- The outputs of a room are cells with formulas. -/
theorem exists_formula (r : Room) (o : RoomOutput) : ∃ t, (o.key, .formula t) ∈ roomEntries r := by
  have hcell : o.key ∈ (column roomSheet (place 'D' 1) (measures.map .formula) ++
      column roomSheet (place 'F' 2) (priceFormulas.toList.map .formula)).map (·.1) := by
    cases o <;> decide
  obtain ⟨⟨k, c⟩, hentry, hk⟩ := List.mem_map.1 hcell
  have hformula : ∀ start (texts : List String), (k, c) ∈ column roomSheet start (texts.map .formula) →
      ∃ t, c = .formula t := by
    intro start texts h
    obtain ⟨i, -, hi⟩ := mem_column.1 h
    obtain ⟨t, -, ht⟩ := Option.map_eq_some_iff.1 (List.getElem?_map ▸ hi)
    exact ⟨t, ht.symm⟩
  cases hk
  rcases List.mem_append.1 hentry with h | h
  · obtain ⟨t, rfl⟩ := hformula _ _ h
    exact ⟨t, mem_roomEntries.2 ⟨_, .tail _ (.head _), h⟩⟩
  · obtain ⟨t, rfl⟩ := hformula _ _ h
    exact ⟨t, mem_roomEntries.2 ⟨_, .tail _ (.tail _ (.tail _ (.head _))), h⟩⟩

/-- What a formula of a room reads, with the room taken to be measurable: every cell outside the column
of the room is true. -/
def roomValue (r : Room) (p : CellKey) : CellValue :=
  if p.address.column = 1 then
    match (roomContents r)[p.address.row]? with
    | some (.literal v) => v
    | _ => .empty
  else .boolean true

/-- The context of a formula of a room that can be measured. -/
def roomContext (r : Room) : Context := ⟨⟨roomValue r, fun _ => true, fun _ => none⟩, roomSheet⟩

end Layout

namespace Page

section

variable {base : Engine} (hbare : Bare base)
include hbare

/-- A cell of a page holds what is written to it, if nothing else is. -/
theorem engine_content {page : Page} {k : CellKey} {c : Content} (h : (k, c) ∈ page.entries)
    (hsame : ∀ c', (k, c') ∈ page.entries → c' = c) : (page.engine base).workbook.content k = c := by
  have hempty : base.workbook.content k = .literal .empty := by
    refine Workbook.content_of_not_hasSheet hbare.grounded ?_
    rw [hbare.hasSheet, sheet_of_mem_entries h, beq_eq_false_iff_ne.2 page.sheet_ne_rates]
  rw [engine, load_workbook]
  cases hc : (Content.literal .empty).agrees c with
  | false => exact Workbook.content_load h hsame _ (hempty ▸ hc)
  | true =>
      rcases Workbook.content_load_cases k page.entries base.workbook with hcontent | hmem
      · rw [hcontent, hempty, Content.eq_empty_of_agrees hc]
      · exact hsame _ hmem

variable (r : Room)

/-- A cell of a room holds what is written to it. -/
theorem room_content {k : CellKey} {c : Content} (h : (k, c) ∈ Layout.roomEntries r) :
    ((room r).engine base).workbook.content k = c :=
  engine_content hbare h fun _ h' => Layout.eq_of_mem_roomEntries h' h

theorem room_formula? {row : Nat} {t : String} (h : Layout.measures[row]? = some t) :
    ((room r).engine base).workbook.formula? ⟨Layout.roomSheet, ⟨row, 3⟩⟩ = some t := by
  refine formula?_eq_some.2 (room_content hbare r ?_)
  refine Layout.mem_roomEntries.2 ⟨_, List.mem_cons_of_mem _ List.mem_cons_self, ?_⟩
  exact Layout.mem_column.2 ⟨row, by simp [Layout.place], by rw [List.getElem?_map, h]; rfl⟩

theorem room_value {row : Nat} {v : CellValue} (h : (Layout.roomContents r)[row]? = some (.literal v)) :
    ((room r).engine base).workbook.content ⟨Layout.roomSheet, ⟨row, 1⟩⟩ = .literal v := by
  refine room_content hbare r ?_
  refine Layout.mem_roomEntries.2 ⟨_, List.mem_cons_self, ?_⟩
  exact Layout.mem_column.2 ⟨row, by simp [Layout.place], h⟩

end

end Page

/-! ## What an engine shows for a room -/

/-- An engine holds the measurements of a room and the formulas that measure it. -/
structure HoldsRoom (r : Room) (e : Engine) : Prop where
  valid : e.Valid fun _ => e.workbook.hasSheet
  hasSheet : e.workbook.hasSheet Layout.roomSheet = true
  given : ∀ row v, (Layout.roomContents r)[row]? = some (.literal v) →
    e.workbook.content ⟨Layout.roomSheet, ⟨row, 1⟩⟩ = .literal v
  measure : ∀ row t, Layout.measures[row]? = some t →
    e.workbook.formula? ⟨Layout.roomSheet, ⟨row, 3⟩⟩ = some t

namespace HoldsRoom

variable {r : Room} {e : Engine} (h : HoldsRoom r e)
include h

/-- An engine shows the measurements of a room as they were given. -/
theorem value {row : Nat} {v : CellValue} (hv : (Layout.roomContents r)[row]? = some (.literal v)) :
    ¬ e.workbook.Circular ⟨Layout.roomSheet, ⟨row, 1⟩⟩ ∧
      e.value ⟨Layout.roomSheet, ⟨row, 1⟩⟩ = Layout.roomValue r ⟨Layout.roomSheet, ⟨row, 1⟩⟩ := by
  have hcontent := h.given row v hv
  have hf : e.workbook.formula? ⟨Layout.roomSheet, ⟨row, 1⟩⟩ = none := by
    rw [Workbook.formula?, hcontent]
  refine ⟨Due.not_circular_of_literal hf, ?_⟩
  rw [value_of_not_known (h.valid.not_known_of_formula?_eq_none hf), Workbook.literal, hcontent,
    Layout.roomValue, if_pos rfl, hv]

/-- An engine shows what a formula gives in the context of the room, if it shows what the context has
for the cells that the formula reads. -/
theorem shown_eq {row : Nat} {t : String} {expr : Expr} (ht : Layout.measures[row]? = some t)
    (hx : Expr.ofText t = .ok expr)
    (hnames : (References.ofExpr e.workbook.names Layout.roomSheet expr).names = {})
    (hreads : ∀ p, RefersTo e.workbook.names Layout.roomSheet p expr → p.sheet = Layout.roomSheet ∧
      ¬ e.workbook.Circular p ∧ (e.Settled ⟨Layout.roomSheet, ⟨row, 3⟩⟩ → e.value p = Layout.roomValue r p)) :
    ¬ e.workbook.Circular ⟨Layout.roomSheet, ⟨row, 3⟩⟩ ∧
      (e.Settled ⟨Layout.roomSheet, ⟨row, 3⟩⟩ →
        e.shown ⟨Layout.roomSheet, ⟨row, 3⟩⟩ = outcomeOf (Layout.roomContext r) expr) := by
  have hf := h.measure row t ht
  have hn : ¬ e.workbook.Circular ⟨Layout.roomSheet, ⟨row, 3⟩⟩ := by
    refine Workbook.not_circular_of_reads fun p hp => ?_
    exact (hreads p ((Workbook.reads_iff hf hx).1 hp)).2.1
  refine ⟨hn, fun hk => h.valid.shown_eq hk hf hx hn ?_⟩
  refine .of_refersTo rfl hnames fun p hp => ?_
  obtain ⟨hsheet, -, hvalue⟩ := hreads p hp
  refine ⟨hvalue hk, ?_⟩
  rw [hsheet]
  exact h.hasSheet

/-- What a formula of a room reads in its column is settled. -/
theorem reads_given {row : Nat} (row' : Nat) {v : CellValue} {p : CellKey}
    (hv : (Layout.roomContents r)[row']? = some (.literal v)) (hp : p = ⟨Layout.roomSheet, ⟨row', 1⟩⟩) :
    p.sheet = Layout.roomSheet ∧ ¬ e.workbook.Circular p ∧
      (e.Settled ⟨Layout.roomSheet, ⟨row, 3⟩⟩ → e.value p = Layout.roomValue r p) := by
  rw [hp]
  exact ⟨rfl, (h.value hv).1, fun _ => (h.value hv).2⟩

theorem shown_measurable :
    ¬ e.workbook.Circular ⟨Layout.roomSheet, ⟨0, 3⟩⟩ ∧
      (e.Settled ⟨Layout.roomSheet, ⟨0, 3⟩⟩ → e.shown ⟨Layout.roomSheet, ⟨0, 3⟩⟩ =
        outcomeOf (Layout.roomContext r) Layout.measurableExpr) := by
  refine h.shown_eq rfl Layout.ofText_measurable rfl fun p hp => ?_
  have hp := Layout.refersTo_measurableExpr hp
  simp only [List.mem_cons, List.not_mem_nil, or_false] at hp
  rcases hp with hp | hp | hp | hp
  · exact h.reads_given 1 rfl hp
  · exact h.reads_given 2 rfl hp
  · exact h.reads_given 3 rfl hp
  · exact h.reads_given 8 rfl hp

/-- The perimeter of a room that can be measured is what its formula gives over the measurements. -/
theorem shown_perimeter
    (hmeasurable : outcomeOf (Layout.roomContext r) Layout.measurableExpr = .ok (.boolean true))
    (hk : e.Settled ⟨Layout.roomSheet, ⟨1, 3⟩⟩) : e.shown ⟨Layout.roomSheet, ⟨1, 3⟩⟩ =
      outcomeOf (Layout.roomContext r) Layout.perimeterExpr := by
  obtain ⟨hn, hshown⟩ := h.shown_measurable
  refine (h.shown_eq rfl Layout.ofText_perimeter rfl fun p hp => ?_).2 hk
  have hread := (Workbook.reads_iff (h.measure 1 _ rfl) Layout.ofText_perimeter).2 hp
  have hp := Layout.refersTo_perimeterExpr hp
  simp only [List.mem_cons, List.not_mem_nil, or_false] at hp
  rcases hp with rfl | hp | hp
  · refine ⟨rfl, hn, fun hk => ?_⟩
    rw [← shown_value]
    show (e.shown ⟨Layout.roomSheet, ⟨0, 3⟩⟩).value = _
    rw [hshown (h.valid.settled_closed hk hread), hmeasurable]
    rfl
  · exact h.reads_given 1 rfl hp
  · exact h.reads_given 2 rfl hp

end HoldsRoom

/-- An engine that has evaluated the page of a room holds the room, and knows its outputs. -/
theorem holdsRoom_evaluated {base : Engine} (hbare : Bare base) (r : Room) :
    HoldsRoom r ((Page.room r).evaluated base) ∧
      ∀ o : RoomOutput, ((Page.room r).evaluated base).isKnown o.key := by
  obtain ⟨e, hrun, hvalid, hworkbook, -, hknown⟩ :=
    ((Page.room r).engine_unread hbare).valid.run (fun _ _ => rfl) (Page.room r).outputs
  have he : (Page.room r).evaluated base = e := by rw [Page.evaluated, hrun]
  rw [he]
  refine ⟨⟨?_, ?_, fun row v hv => ?_, fun row t ht => ?_⟩, fun o => ?_⟩
  · rw [hworkbook]
    exact hvalid
  · rw [hworkbook, Page.engine_hasSheet hbare]
    rfl
  · rw [hworkbook]
    exact Page.room_value hbare r hv
  · rw [hworkbook]
    exact Page.room_formula? hbare r ht
  · have houtput : o.key ∈ (Page.room r).outputs := List.mem_map_of_mem o.mem_all
    obtain ⟨t, ht⟩ := Layout.exists_formula r o
    have hf := formula?_eq_some.2 (Page.room_content hbare r ht)
    exact hknown o.key houtput (Option.isSome_of_eq_some hf)

end Estimate

end PaintQuote
