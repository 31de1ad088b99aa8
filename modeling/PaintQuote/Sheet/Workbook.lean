import PaintQuote.Sheet.Content
import PaintQuote.Sheet.DefinedName
import PaintQuote.Sheet.Keyed

/-!
# Workbooks

A workbook holds the contents of cells, the sheets that exist, and defined names.  Writing to a cell
brings its sheet into existence, and writing nothing empties the cell; a cell without content is not
stored.  `set` says whether the content of the cell changed, and `load` writes many cells and lists
the keys of those writes that changed something.
-/

namespace PaintQuote.Sheet

/-- Defined names by the form under which they are looked up. -/
abbrev NameTable := Std.TreeMap String DefinedName

/-- The contents of cells, sheets and names. -/
structure Workbook where
  /-- The sheets, oldest first. -/
  sheets : List SheetName := []
  /-- The contents of the cells that have any. -/
  cells : Std.TreeMap CellKey Content := {}
  /-- The defined names. -/
  names : NameTable := {}

namespace NameTable

/-- The defined name with the given name, in any case. -/
def find? (names : NameTable) (name : String) : Option DefinedName :=
  names.get? (DefinedName.lookupKey name)

/-- The table with a further name, unless that name is taken. -/
def define (names : NameTable) (name : DefinedName) : Except ReferenceError NameTable :=
  let key := DefinedName.lookupKey name.name
  if names.contains key then .error (.duplicateName name.name) else .ok (names.insert key name)

theorem find?_insert (names : NameTable) (n : DefinedName) (name : String) :
    find? (names.insert (DefinedName.lookupKey n.name) n) name =
      if DefinedName.lookupKey name = DefinedName.lookupKey n.name then some n
      else names.find? name := by
  simp only [find?, Std.TreeMap.get?_eq_getElem?, Std.TreeMap.getElem?_insert,
    Std.LawfulEqOrd.compare_eq_iff_eq]
  simp only [eq_comm]

end NameTable

namespace Workbook

/-- The workbook without sheets. -/
def empty : Workbook := {}

instance : Inhabited Workbook := ⟨empty⟩

/-! ## Reading -/

/-- Whether a sheet exists. -/
def hasSheet (w : Workbook) (sheet : SheetName) : Bool := w.sheets.contains sheet

/-- What a cell holds. -/
def content (w : Workbook) (key : CellKey) : Content := (w.cells.get? key).getD (.literal .empty)

/-- The literal that a cell holds; a cell with a formula has none and reads as empty. -/
def literal (w : Workbook) (key : CellKey) : CellValue :=
  match w.content key with
  | .literal v => v
  | .formula _ => .empty

/-- The formula that a cell holds. -/
def formula? (w : Workbook) (key : CellKey) : Option String :=
  match w.content key with
  | .literal _ => none
  | .formula text => some text

/-- Only cells with contents hold formulas. -/
theorem mem_keys_of_formula? {w : Workbook} {key : CellKey} (h : (w.formula? key).isSome) :
    key ∈ w.cells.keys := by
  rw [Std.TreeMap.mem_keys, ← Std.TreeMap.contains_iff_mem, Keyed.contains_eq_isSome]
  unfold formula? content at h
  cases hc : w.cells.get? key with
  | none =>
      rw [hc] at h
      cases h
  | some content => rfl

/-- The defined name with the given name, in any case. -/
def name? (w : Workbook) (name : String) : Option DefinedName := w.names.find? name

/-! ## Writing -/

/-- The workbook with a sheet in it. -/
def withSheet (w : Workbook) (sheet : SheetName) : Workbook :=
  if w.hasSheet sheet then w else { w with sheets := w.sheets ++ [sheet] }

/-- Writes a cell, and says whether its content changed. -/
def set (w : Workbook) (key : CellKey) (content : Content) : Workbook × Bool :=
  let w := w.withSheet key.sheet
  if (w.content key).agrees content then (w, false)
  else if content.isEmpty then ({ w with cells := w.cells.erase key }, true)
  else ({ w with cells := w.cells.insert key content }, true)

/-- Writes cells in turn, and lists the keys of the writes that changed something. -/
def load (w : Workbook) : List (CellKey × Content) → Workbook × List CellKey
  | [] => (w, [])
  | (key, content) :: rest =>
      let (w, changed) := w.set key content
      let (w, keys) := w.load rest
      (w, if changed then key :: keys else keys)

/-- Defines a name. -/
def defineName (w : Workbook) (name : DefinedName) : Except ReferenceError Workbook :=
  (w.names.define name).map fun names => { w with names }

/-- Defines a name whose target is written in a text. -/
def define (w : Workbook) (name target : String) : Except ReferenceError Workbook :=
  (DefinedName.ofText name target).bind w.defineName

/-- A definition adds the name under the form in which it is looked up, and changes nothing else. -/
theorem eq_of_define {w w' : Workbook} {name target : String} (h : w.define name target = .ok w') :
    ∃ n, DefinedName.ofText name target = .ok n ∧
      w' = { w with names := w.names.insert (DefinedName.lookupKey n.name) n } := by
  rw [define] at h
  cases hread : DefinedName.ofText name target with
  | error error =>
      rw [hread] at h
      cases h
  | ok n =>
      rw [hread] at h
      simp only [Except.bind, defineName, NameTable.define] at h
      split at h
      next => cases h
      next =>
        cases h
        exact ⟨n, rfl, rfl⟩

end Workbook

end PaintQuote.Sheet
