import PaintQuote.Sheet.ReferenceError
import PaintQuote.Text.Blank
import PaintQuote.Text.Case
import PaintQuote.Text.Cut

/-!
# Sheet names

A sheet is known by its name in upper case.  A name that could be taken for something else in a
reference is written between quotes, with its own quotes doubled.
-/

namespace PaintQuote.Sheet

open Text

/-- The largest number of characters of a sheet name as given. -/
def sheetNameLimit : Nat := 31

/-- The name of a sheet. -/
structure SheetName where
  /-- The name in upper case. -/
  text : String
deriving DecidableEq, Repr

namespace SheetName

/-- The sheet that a reference means when nothing else says so. -/
def standard : SheetName := ⟨"SHEET1"⟩

/-- Whether a character separates parts of a reference, and so has no place in a sheet name. -/
def isSeparator (c : Char) : Bool :=
  c == '[' || c == ']' || c == ':' || c == '*' || c == '?' || c == '/' || c == '\\' || c == '!'

/-- The sheet name written in a text, with blanks and then quotes taken off its ends. -/
def ofChars (cs : List Char) : Except ReferenceError SheetName :=
  let name := stripMarks '\'' (trim cs)
  if name.isEmpty then .error (.sheetName .empty)
  else if sheetNameLimit < name.length then
    .error (.sheetName (.tooLong sheetNameLimit (String.ofList name)))
  else
    match name.find? isSeparator with
    | some c => .error (.sheetName (.badCharacter c (String.ofList name)))
    | none => .ok ⟨String.ofList (upperChars name)⟩

/-- The sheet name written in a text. -/
def ofText (s : String) : Except ReferenceError SheetName := ofChars s.toList

/-- Whether a text is formed as a word: a letter or underscore, then letters, digits, underscores
and points, all ASCII. -/
def isWord : List Char → Bool
  | [] => false
  | c :: rest =>
      (c.isAlpha || c == '_') && rest.all fun d => d.isAlphanum || d == '_' || d == '.'

/-- Whether the name is written between quotes. -/
def needsQuotes (name : SheetName) : Bool := !isWord name.text.toList

/-- The name as it stands in a reference. -/
def chars (name : SheetName) : List Char :=
  if name.needsQuotes then '\'' :: (double '\'' name.text.toList ++ ['\'']) else name.text.toList

/-- The name as it stands in a reference. -/
def toText (name : SheetName) : String := String.ofList name.chars

instance : Ord SheetName := ⟨fun a b => compare a.text b.text⟩

example : (ofText " 'living room' ").toOption.map toText = some "'LIVING ROOM'" := by decide +kernel
example : (ofText "room.2").toOption.map toText = some "ROOM.2" := by decide +kernel
example : (ofText "a/b").toOption = none := by decide +kernel

end SheetName

end PaintQuote.Sheet
