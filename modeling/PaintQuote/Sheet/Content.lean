import PaintQuote.Sheet.CellValue
import PaintQuote.Text.Blank

/-!
# Cell contents

What is put into a cell: a literal value or the text of a formula.  `ofInput` reads what a person
types, where numbers, logical values and errors are recognised; `ofString` takes any text but a
formula as text.
-/

namespace PaintQuote.Sheet

open Text

/-- What is put into a cell. -/
inductive Content where
  /-- A value that stands for itself. -/
  | literal (value : CellValue)
  /-- A formula, with or without its equals sign. -/
  | formula (text : String)
deriving DecidableEq, Repr

namespace Content

instance : Inhabited Content := ⟨literal .empty⟩

/-- Whether two contents are the same: values that agree, or one formula. -/
def agrees : Content → Content → Bool
  | literal v, literal w => v.agrees w
  | formula s, formula t => s == t
  | _, _ => false

@[simp] theorem agrees_self (c : Content) : c.agrees c := by
  cases c <;> simp [agrees]

/-- Whether the content is nothing. -/
def isEmpty (c : Content) : Bool := c == literal .empty

/-- The value that a typed text, without blanks at its ends, stands for, if it is not just text. -/
def valueOfInput? (s : String) : Option CellValue :=
  if s.isEmpty then some .empty
  else
    ((CellValue.booleanOfText? s).map .boolean).or
      (((Decimal.ofText? s).map .number).or ((ErrorValue.ofText? s).map .error))

/-- The content of a cell into which a text is typed. -/
def ofInput (s : String) : Content :=
  let body := trim s.toList
  if body.head? = some '=' then formula (String.ofList body)
  else literal ((valueOfInput? (String.ofList body)).getD (.text s))

/-- The content for a text that is a formula if it starts with an equals sign, and else itself. -/
def ofString (s : String) : Content :=
  if (trimStart s.toList).head? = some '=' then formula (trimmed s) else literal (.text s)

example : ofInput " 1.50 " = literal (.number (Decimal.scaled 150 2)) := by decide +kernel
example : ofInput " =A1 " = formula "=A1" := by decide +kernel
example : ofInput " satin" = literal (.text " satin") := by decide +kernel
example : ofString "12" = literal (.text "12") := by decide +kernel

end Content

end PaintQuote.Sheet
