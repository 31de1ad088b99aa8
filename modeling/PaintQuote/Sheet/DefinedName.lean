import PaintQuote.Sheet.CellKey
import PaintQuote.Sheet.CellValue
import PaintQuote.Sheet.Range
import PaintQuote.Text.Classes

/-!
# Defined names

A name for a cell, a range or a constant.  Names are formed so that they cannot be taken for an
address or a logical value, and are looked up in any case.
-/

namespace PaintQuote.Sheet

open Text

/-- What a name stands for. -/
inductive Target where
  /-- A cell. -/
  | cell (key : CellKey)
  /-- A range of a sheet. -/
  | range (sheet : SheetName) (area : Range)
  /-- A value. -/
  | constant (value : CellValue)
deriving DecidableEq, Repr

/-- A name and what it stands for. -/
structure DefinedName where
  /-- The name as it was defined. -/
  name : String
  /-- What it stands for. -/
  target : Target
deriving DecidableEq, Repr

namespace Target

/-- The text of a target. -/
def toText : Target → String
  | cell key => key.toText
  | range sheet area => sheet.toText ++ "!" ++ area.toText
  | constant (.text s) => "\"" ++ s ++ "\""
  | constant v => v.toText

/-- The cells that a target covers, row by row. -/
def cells : Target → List CellKey
  | cell key => [key]
  | range sheet area => area.cells.map fun a => ⟨sheet, a⟩
  | constant _ => []

/-- The number of cells that a target covers. -/
def cellCount : Target → Nat
  | cell _ => 1
  | range _ area => area.cellCount
  | constant _ => 0

/-- The first cells that a target covers, row by row. -/
def firstCells (count : Nat) : Target → List CellKey
  | cell key => [key].take count
  | range sheet area => (area.firstCells count).map fun a => ⟨sheet, a⟩
  | constant _ => []

/-- The sheet that a target lies on. -/
def sheet? : Target → Option SheetName
  | cell key => some key.sheet
  | range sheet _ => some sheet
  | constant _ => none

/-- The target for a range; a range of one cell is that cell. -/
def ofRange (sheet : SheetName) (area : Range) : Target :=
  if area.isSingle then .cell ⟨sheet, area.start⟩ else .range sheet area

/-- The constant written in a text: a text between quotes, a logical value or a number. -/
def constant? (body : List Char) : Option CellValue :=
  let s := String.ofList body
  ((between? '"' body).map fun inner => .text (String.ofList inner)).or
    (((CellValue.booleanOfText? s).map .boolean).or ((Decimal.ofText? s).map .number))

/-- The target written in a text: a constant, or a range or cell after the name of its sheet. -/
def ofText (s : String) : Except ReferenceError Target :=
  let body := trim s.toList
  let body := trim ((afterLead? ['='] body).getD body)
  match constant? body with
  | some value => .ok (.constant value)
  | none =>
      match cutLast? '!' body with
      | none => .error (.name (.noSheet s))
      | some (sheet, reference) => do
          let sheet ← SheetName.ofChars sheet
          let area ← Range.ofChars reference
          .ok (ofRange sheet area)

end Target

namespace DefinedName

/-- Whether a text is formed as a name: a letter, underscore or backslash, then letters, digits,
underscores and points. -/
def isWellFormed : List Char → Bool
  | [] => false
  | c :: rest =>
      (isAlphabetic c || c == '_' || c == '\\')
        && rest.all fun d => isAlphanumeric d || d == '_' || d == '.'

/-- Why a text is no name, if it is none. -/
def fault? (name : String) : Option NameFault :=
  if !isWellFormed name.toList then some (.malformed name)
  else if (Address.ofText name).toBool then some (.address name)
  else if (CellValue.booleanOfText? name).isSome then some (.reserved name)
  else none

/-- The name with the given target. -/
def ofTarget (name : String) (target : Target) : Except ReferenceError DefinedName :=
  match fault? name with
  | some fault => .error (.name fault)
  | none => .ok ⟨name, target⟩

/-- The name whose target is written in a text.  A fault of the target comes first. -/
def ofText (name target : String) : Except ReferenceError DefinedName := do
  let target ← Target.ofText target
  ofTarget name target

/-- The form under which a name is looked up. -/
def lookupKey (name : String) : String := upper name

example : (ofText "DOOR_AREA" "=Rates!$B$2").toOption.map (·.target.toText) = some "RATES!B2" := by
  decide +kernel
example : (ofText "TAX1" "0.0725").toOption = none := by decide +kernel
example : (ofText "TAX" "0.0725").toOption.map (·.target) =
    some (.constant (.number (Decimal.scaled 725 4))) := by decide +kernel

end DefinedName

end PaintQuote.Sheet
