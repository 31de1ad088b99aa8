/-!
# Errors of references and names

Why a text is not an address, a range, a sheet name or a defined name.  An error is its cause;
`message` is the one place that words it.
-/

namespace PaintQuote.Sheet

/-- What keeps a text from being an address. -/
inductive AddressFault where
  /-- Nothing but blanks. -/
  | blank
  /-- A text that does not start with letters. -/
  | noLetters (text : String)
  /-- No letters where a column is wanted. -/
  | emptyLetters
  /-- A character that is no letter of a column. -/
  | badLetter (letter : Char)
  /-- A text that stops after the letters. -/
  | noRow (text : String)
  /-- A text whose row is no number, or one too large to be stored. -/
  | badRow (text : String)
  /-- A text with row zero. -/
  | rowZero (text : String)
  /-- A text without a sheet where one is wanted. -/
  | noSheet (text : String)
deriving DecidableEq, Repr

/-- What keeps a text from being a sheet name. -/
inductive SheetNameFault where
  /-- Nothing but blanks and quotes. -/
  | empty
  /-- More characters than a sheet name may have. -/
  | tooLong (limit : Nat) (name : String)
  /-- A character that separates parts of a reference. -/
  | badCharacter (character : Char) (name : String)
deriving DecidableEq, Repr

/-- What keeps a text from being a defined name. -/
inductive NameFault where
  /-- A target that is neither a constant nor on a sheet. -/
  | noSheet (target : String)
  /-- A text that is not formed as a name. -/
  | malformed (name : String)
  /-- A text that is also an address. -/
  | address (name : String)
  /-- A text that is also a logical value. -/
  | reserved (name : String)
deriving DecidableEq, Repr

/-- What is wrong with a reference or a name. -/
inductive ReferenceError where
  /-- A text is no address. -/
  | address (fault : AddressFault)
  /-- A corner of a range is no address. -/
  | range (text : String) (corner : ReferenceError)
  /-- A row index is past the last row. -/
  | row (index last : Nat)
  /-- A column is past the last column. -/
  | column (letters : String) (last : Nat)
  /-- A text is no sheet name. -/
  | sheetName (fault : SheetNameFault)
  /-- A text is no defined name, or its target is none. -/
  | name (fault : NameFault)
  /-- A name is taken. -/
  | duplicateName (name : String)
deriving DecidableEq, Repr

/-- The wording of a fault of an address. -/
def AddressFault.message : AddressFault → String
  | blank => "empty address"
  | noLetters text => "no column letters in '" ++ text ++ "'"
  | emptyLetters => "empty column letters"
  | badLetter letter => "invalid column letter '" ++ letter.toString ++ "'"
  | noRow text => "no row number in '" ++ text ++ "'"
  | badRow text => "invalid row number in '" ++ text ++ "'"
  | rowZero text => "row number must be >= 1 in '" ++ text ++ "'"
  | noSheet text => "missing sheet name in '" ++ text ++ "'"

/-- The wording of a fault of a sheet name. -/
def SheetNameFault.message : SheetNameFault → String
  | empty => "Sheet name cannot be empty"
  | tooLong limit name => "Sheet name too long (max " ++ toString limit ++ " characters): " ++ name
  | badCharacter character name =>
      "Sheet name contains invalid character '" ++ character.toString ++ "': " ++ name

/-- The wording of a fault of a defined name. -/
def NameFault.message : NameFault → String
  | noSheet target => "'" ++ target ++ "' must be sheet-qualified"
  | malformed name => "'" ++ name ++ "' is not a valid name"
  | address name => "'" ++ name ++ "' conflicts with a cell address"
  | reserved name => "'" ++ name ++ "' is reserved"

/-- The wording of an error. -/
def ReferenceError.message : ReferenceError → String
  | address fault => "Invalid cell address: " ++ fault.message
  | range text corner => "Invalid cell range: '" ++ text ++ "': " ++ corner.message
  | row index last => "Row index " ++ toString index ++ " out of bounds (max: " ++ toString last ++ ")"
  | column letters last =>
      "Column " ++ letters ++ " out of bounds (max index: " ++ toString last ++ ")"
  | sheetName fault => "Invalid sheet name: " ++ fault.message
  | name fault => "Invalid named range: " ++ fault.message
  | duplicateName taken => "Named range already exists: " ++ taken

end PaintQuote.Sheet
