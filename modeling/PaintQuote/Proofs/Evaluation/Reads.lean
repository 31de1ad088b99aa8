import PaintQuote.Engine.References
import PaintQuote.Formula.Evaluation

/-!
# What an evaluation reads

An expression asks three things: the values of the cells that are collected as its references, what
the names in it stand for, and whether those sheets exist with which its references and the targets
of its names are qualified.  Nothing else can show in its value or in the log.  A function is given
its arguments as computations and no way to read, so the statement needs no case for each function
(`evaluate_of_agreeOn`).
-/

namespace PaintQuote.Engine

open Sheet Formula

/-! ## References grow -/

namespace References

/-- References are among others. -/
structure Within (r r' : References) : Prop where
  cells : ∀ p ∈ r.cells, p ∈ r'.cells
  names : ∀ s ∈ r.names, s ∈ r'.names

theorem Within.refl (r : References) : r.Within r := ⟨fun _ h => h, fun _ h => h⟩

theorem Within.trans {r r' r'' : References} (h : r.Within r') (h' : r'.Within r'') :
    r.Within r'' := by
  refine ⟨?_, ?_⟩
  · intro p hp
    exact h'.cells p (h.cells p hp)
  · intro s hs
    exact h'.names s (h.names s hs)

theorem mem_addCells {r : References} {cells : List CellKey} {p : CellKey} :
    p ∈ (r.addCells cells).cells ↔ p ∈ cells ∨ p ∈ r.cells := Keyed.mem_foldl_insert r.cells p cells

theorem within_addCells (r : References) (cells : List CellKey) : r.Within (r.addCells cells) :=
  ⟨fun _ hp => mem_addCells.2 (Or.inr hp), fun _ hs => hs⟩

theorem within_addName (r : References) (names : NameTable) (name : String) :
    r.Within (r.addName names name) := by
  refine ⟨?_, ?_⟩
  · exact (r.within_addCells _).cells
  · intro s hs
    exact Std.TreeSet.mem_insert.2 (Or.inr hs)

/-- The cells of a defined name are collected with it. -/
theorem mem_addName {r : References} {names : NameTable} {name : String} {defined : DefinedName}
    (h : names.find? name = some defined) {p : CellKey} (hp : p ∈ defined.target.cells) :
    p ∈ (r.addName names name).cells := by
  refine mem_addCells.2 (Or.inl ?_)
  rw [h]
  exact hp

mutual

/-- Collecting the references of an expression loses none. -/
theorem within_collect (names : NameTable) (sheet : SheetName) :
    ∀ (r : References) (e : Expr), r.Within (collect names sheet r e)
  | r, .literal _ => Within.refl r
  | r, .cell _ => r.within_addCells _
  | r, .range _ => r.within_addCells _
  | r, .name s => r.within_addName names s
  | r, .binary _ left right =>
      (within_collect names sheet r left).trans (within_collect names sheet _ right)
  | r, .negate operand => within_collect names sheet r operand
  | r, .percent operand => within_collect names sheet r operand
  | r, .call _ arguments => within_collectAll names sheet r arguments
  | r, .array _ => Within.refl r

theorem within_collectAll (names : NameTable) (sheet : SheetName) :
    ∀ (r : References) (es : List Expr), r.Within (collectAll names sheet r es)
  | r, [] => Within.refl r
  | r, e :: es => (within_collect names sheet r e).trans (within_collectAll names sheet _ es)

end

end References

end PaintQuote.Engine

namespace PaintQuote.Formula.Expr

open Sheet

/-! ## Names and qualifiers -/

mutual

/-- The names in an expression, as they are written. -/
def names : Expr → List String
  | .name s => [s]
  | .binary _ left right => left.names ++ right.names
  | .negate operand => operand.names
  | .percent operand => operand.names
  | .call _ arguments => namesAll arguments
  | .literal _ | .cell _ | .range _ | .array _ => []

/-- The names in expressions. -/
def namesAll : List Expr → List String
  | [] => []
  | e :: es => e.names ++ namesAll es

end

mutual

/-- The sheets with which the references in an expression, and the targets of the names in it, are
qualified. -/
def qualifiers (table : NameTable) : Expr → List SheetName
  | .cell r => r.sheet?.toList
  | .range r => r.sheet?.toList
  | .name s => ((table.find? s).bind (·.target.sheet?)).toList
  | .binary _ left right => left.qualifiers table ++ right.qualifiers table
  | .negate operand => operand.qualifiers table
  | .percent operand => operand.qualifiers table
  | .call _ arguments => qualifiersAll table arguments
  | .literal _ | .array _ => []

/-- The sheets with which expressions are qualified. -/
def qualifiersAll (table : NameTable) : List Expr → List SheetName
  | [] => []
  | e :: es => e.qualifiers table ++ qualifiersAll table es

end

end PaintQuote.Formula.Expr

namespace PaintQuote.Engine

open Sheet Formula

/-! ## Agreement -/

/-- Two contexts give the same answers about the given cells, names and sheets. -/
structure AgreeOn (cells : CellSet) (names : List String) (sheets : List SheetName)
    (c c' : Context) : Prop where
  sheet : c.sheet = c'.sheet
  value : ∀ p ∈ cells, c.source.value p = c'.source.value p
  target : ∀ s ∈ names, (c.source.name? s).map (·.target) = (c'.source.name? s).map (·.target)
  hasSheet : ∀ s ∈ sheets, c.source.hasSheet s = c'.source.hasSheet s

namespace AgreeOn

variable {cells cells' : CellSet} {names names' : List String} {sheets sheets' : List SheetName}
  {c c' : Context}

theorem mono (h : AgreeOn cells' names' sheets' c c') (hcells : ∀ p ∈ cells, p ∈ cells')
    (hnames : names ⊆ names') (hsheets : sheets ⊆ sheets') : AgreeOn cells names sheets c c' where
  sheet := h.sheet
  value p hp := h.value p (hcells p hp)
  target s hs := h.target s (hnames hs)
  hasSheet s hs := h.hasSheet s (hsheets hs)

/-! ## Reading -/

theorem readCell (h : AgreeOn cells names sheets c c') {p : CellKey} (hp : p ∈ cells) :
    c.readCell p = c'.readCell p := by
  unfold Context.readCell
  rw [h.value p hp]

theorem resolve (h : AgreeOn cells names sheets c c') {sheet? : Option SheetName}
    (hs : ∀ s ∈ sheet?, s ∈ sheets) : c.resolve sheet? = c'.resolve sheet? := by
  cases sheet? with
  | none => exact congrArg Except.ok h.sheet
  | some sheet =>
      have hsheet : c.source.hasSheet sheet = c'.source.hasSheet sheet := h.hasSheet _ (hs _ rfl)
      simp only [Context.resolve, hsheet]

theorem resolve_eq {sheet? : Option SheetName} {sheet : SheetName}
    (h : c.resolve sheet? = .ok sheet) : sheet = sheet?.getD c.sheet := by
  cases sheet? with
  | none =>
      cases h
      rfl
  | some sheet' =>
      simp only [Context.resolve] at h
      split at h
      · cases h
        rfl
      · cases h

theorem cellValue (h : AgreeOn cells names sheets c c') {sheet? : Option SheetName}
    {address : Address} (hs : ∀ s ∈ sheet?, s ∈ sheets)
    (hp : ⟨sheet?.getD c.sheet, address⟩ ∈ cells) :
    c.cellValue sheet? address = c'.cellValue sheet? address := by
  unfold Context.cellValue
  rw [← h.resolve hs]
  cases hresolve : c.resolve sheet? with
  | ok sheet =>
      have hread := h.readCell (resolve_eq hresolve ▸ hp)
      simp only [hread]
  | error e => rfl

theorem rangeValue (h : AgreeOn cells names sheets c c') {sheet? : Option SheetName} {area : Range}
    (hs : ∀ s ∈ sheet?, s ∈ sheets)
    (hp : ∀ address ∈ area.cells, ⟨sheet?.getD c.sheet, address⟩ ∈ cells) :
    c.rangeValue sheet? area = c'.rangeValue sheet? area := by
  unfold Context.rangeValue
  rw [← h.resolve hs]
  cases hresolve : c.resolve sheet? with
  | ok sheet =>
      have hrows : (area.rows.map fun row =>
          Logged.all (row.map fun address => c.readCell ⟨sheet, address⟩)) =
          area.rows.map fun row =>
            Logged.all (row.map fun address => c'.readCell ⟨sheet, address⟩) := by
        refine List.map_congr_left ?_
        intro row hrow
        refine congrArg Logged.all (List.map_congr_left ?_)
        intro address haddress
        have hcell : address ∈ area.cells := by
          rw [Range.cells_eq_flatten]
          exact List.mem_flatten.2 ⟨row, hrow, haddress⟩
        exact h.readCell (resolve_eq hresolve ▸ hp address hcell)
      simp only [hrows]
  | error e => rfl

theorem nameValue {table : NameTable} {s : String} (h : AgreeOn cells names sheets c c')
    (htable : c.source.name? s = table.find? s) (hs : s ∈ names)
    (hsheets : ∀ d, table.find? s = some d → ∀ sheet ∈ d.target.sheet?, sheet ∈ sheets)
    (hcells : ∀ d, table.find? s = some d → ∀ p ∈ d.target.cells, p ∈ cells) :
    c.nameValue s = c'.nameValue s := by
  have htarget := h.target s hs
  unfold Context.nameValue
  cases hdefined : c.source.name? s with
  | none =>
      rw [hdefined] at htarget
      rw [Option.map_eq_none_iff.1 htarget.symm]
  | some d =>
      rw [hdefined] at htarget
      obtain ⟨d', hd', heq⟩ := Option.map_eq_some_iff.1 htarget.symm
      have hsheet := hsheets d (htable.symm.trans hdefined)
      have hread := hcells d (htable.symm.trans hdefined)
      rw [hd']
      simp only [heq]
      cases htgt : d.target with
      | cell key =>
          rw [htgt] at hsheet hread
          exact h.cellValue hsheet (hread key List.mem_cons_self)
      | range sheet area =>
          rw [htgt] at hsheet hread
          refine h.rangeValue hsheet ?_
          intro address haddress
          exact hread _ (List.mem_map_of_mem haddress)
      | constant v => rfl

end AgreeOn

/-! ## Evaluation -/

section

variable {c c' : Context} {table : NameTable}

mutual

/-- Contexts that agree on what an expression asks give it one value and one log. -/
theorem evaluate_of_agreeOn :
    ∀ {r : References} (e : Expr), (∀ s ∈ e.names, c.source.name? s = table.find? s) →
      AgreeOn (References.collect table c.sheet r e).cells e.names (e.qualifiers table) c c' →
        Formula.evaluate c e = Formula.evaluate c' e
  | r, .literal l, _, _ => by rw [Formula.evaluate, Formula.evaluate]
  | r, .array rows, _, _ => by rw [Formula.evaluate, Formula.evaluate]
  | r, .cell reference, _, h => by
      rw [Formula.evaluate, Formula.evaluate, h.cellValue]
      · intro s hs
        exact Option.mem_toList.2 hs
      · exact References.mem_addCells.2 (Or.inl List.mem_cons_self)
  | r, .range reference, _, h => by
      rw [Formula.evaluate, Formula.evaluate, h.rangeValue]
      · intro s hs
        exact Option.mem_toList.2 hs
      · intro address haddress
        exact References.mem_addCells.2 (Or.inl (List.mem_map_of_mem haddress))
  | r, .name s, htable, h => by
      rw [Formula.evaluate, Formula.evaluate,
        h.nameValue (htable s List.mem_cons_self) List.mem_cons_self]
      · intro d hd sheet hsheet
        rw [Expr.qualifiers, hd]
        exact Option.mem_toList.2 hsheet
      · intro d hd p hp
        exact References.mem_addName hd hp
  | r, .binary o left right, htable, h => by
      rw [Expr.names, List.forall_mem_append] at htable
      have hleft := evaluate_of_agreeOn left htable.1
        (h.mono (References.within_collect table c.sheet _ right).cells
          (List.subset_append_left _ _) (List.subset_append_left _ _))
      have hright := evaluate_of_agreeOn right htable.2
        (h.mono (fun _ hp => hp) (List.subset_append_right _ _) (List.subset_append_right _ _))
      rw [Formula.evaluate, Formula.evaluate, hleft, hright]
  | r, .negate operand, htable, h => by
      have hoperand := evaluate_of_agreeOn operand htable h
      rw [Formula.evaluate, Formula.evaluate, hoperand]
  | r, .percent operand, htable, h => by
      have hoperand := evaluate_of_agreeOn operand htable h
      rw [Formula.evaluate, Formula.evaluate, hoperand]
  | r, .call function arguments, htable, h => by
      have harguments := evaluateEach_of_agreeOn arguments htable h
      rw [Formula.evaluate, Formula.evaluate, harguments]

theorem evaluateEach_of_agreeOn :
    ∀ {r : References} (es : List Expr), (∀ s ∈ Expr.namesAll es, c.source.name? s = table.find? s) →
      AgreeOn (References.collectAll table c.sheet r es).cells (Expr.namesAll es)
        (Expr.qualifiersAll table es) c c' → evaluateEach c es = evaluateEach c' es
  | r, [], _, _ => by rw [evaluateEach, evaluateEach]
  | r, e :: es, htable, h => by
      rw [Expr.namesAll, List.forall_mem_append] at htable
      have hhead := evaluate_of_agreeOn e htable.1
        (h.mono (References.within_collectAll table c.sheet _ es).cells
          (List.subset_append_left _ _) (List.subset_append_left _ _))
      have htail := evaluateEach_of_agreeOn es htable.2
        (h.mono (fun _ hp => hp) (List.subset_append_right _ _) (List.subset_append_right _ _))
      rw [evaluateEach, evaluateEach, hhead, htail]

end

/-- Two sources that agree on the cells collected as the references of a formula, on what the names
in it stand for, and on the sheets with which it or a target of its names is qualified, give it one
value and note the same errors.  `table` is where the references looked the names up. -/
theorem evaluate_eq_of_same_answers (e : Expr) (sheet : SheetName) (source source' : Source)
    (table : NameTable) (htable : ∀ s ∈ e.names, source.name? s = table.find? s)
    (hvalue : ∀ p ∈ (References.ofExpr table sheet e).cells, source.value p = source'.value p)
    (hname : ∀ s ∈ e.names, source.name? s = source'.name? s)
    (hsheet : ∀ s ∈ e.qualifiers table, source.hasSheet s = source'.hasSheet s) (log : Log) :
    (Formula.evaluate ⟨source, sheet⟩ e).run log = (Formula.evaluate ⟨source', sheet⟩ e).run log := by
  have hagree : AgreeOn (References.ofExpr table sheet e).cells e.names (e.qualifiers table)
      ⟨source, sheet⟩ ⟨source', sheet⟩ := by
    refine { sheet := rfl, value := hvalue, target := ?_, hasSheet := hsheet }
    intro s hs
    exact congrArg (Option.map (·.target)) (hname s hs)
  have htable' : ∀ s ∈ e.names, (Context.mk source sheet).source.name? s = table.find? s := htable
  rw [evaluate_of_agreeOn e htable' hagree]

/-- Sources that differ outside of what `=IF(S!A1>0,SUM(A1:B2,rate),#N/A)` asks: in the cells below
its range, in the sheet `U`, and in another name. -/
theorem evaluate_beside_other_cells :
    let e : Expr := .call "IF"
      [.binary .greater (.cell ⟨some ⟨"S"⟩, ⟨0, 0⟩, {}⟩) (.literal (.number 0)),
        .call "SUM" [.range ⟨none, .between ⟨0, 0⟩ ⟨1, 1⟩, {}, {}⟩, .name "rate"],
        .literal (.error .notAvailable)]
    let table : NameTable := ({} : NameTable).insert "RATE" ⟨"RATE", .cell ⟨⟨"T"⟩, ⟨1, 1⟩⟩⟩
    let source : Source := ⟨fun _ => .number 1, fun s => s != ⟨"U"⟩, table.find?⟩
    let source' : Source :=
      ⟨fun p => if p.address.row < 2 then .number 1 else .error .reference, fun _ => true,
        fun s => if s = "rate" then table.find? s else some ⟨s, .constant (.number 2)⟩⟩
    (∀ s ∈ e.names, source.name? s = table.find? s) ∧
    (∀ p ∈ (References.ofExpr table .standard e).cells, source.value p = source'.value p) ∧
    (∀ s ∈ e.names, source.name? s = source'.name? s) ∧
    (∀ s ∈ e.qualifiers table, source.hasSheet s = source'.hasSheet s) ∧
    (Formula.evaluate ⟨source, .standard⟩ e).run [] =
      (Formula.evaluate ⟨source', .standard⟩ e).run [] := by
  intro e table source source'
  have htable : ∀ s ∈ e.names, source.name? s = table.find? s := by decide +kernel
  have hcells : ∀ p ∈ (References.ofExpr table .standard e).cells.toList,
      source.value p = source'.value p := by decide +kernel
  have hvalue : ∀ p ∈ (References.ofExpr table .standard e).cells,
      source.value p = source'.value p := fun p hp => hcells p (Std.TreeSet.mem_toList.2 hp)
  have hname : ∀ s ∈ e.names, source.name? s = source'.name? s := by decide +kernel
  have hsheet : ∀ s ∈ e.qualifiers table, source.hasSheet s = source'.hasSheet s := by
    decide +kernel
  exact ⟨htable, hvalue, hname, hsheet,
    evaluate_eq_of_same_answers e .standard source source' table htable hvalue hname hsheet []⟩

end

end PaintQuote.Engine
