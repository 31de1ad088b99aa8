import PaintQuote.Json.Number

/-!
# Reading JSON texts

From characters to a value, with the grammar of JSON: no comments, no trailing commas, no leading
zeros and no control characters in texts.  What stands inside brackets is a value again, one level
further down, and a text has fewer levels than characters.
-/

namespace PaintQuote.Json

/-- Reads a part of a text from its first characters and leaves the others. -/
abbrev Reader (α : Type) := List Char → Option (α × List Char)

namespace Reader

/-! ## Blanks and texts -/

/-- Whether a character may stand between the parts of a value. -/
def isSpace (c : Char) : Bool := c == ' ' || c == '\n' || c == '\t' || c == '\r'

/-- The text without the blanks at its start. -/
def skipSpace (cs : List Char) : List Char := cs.dropWhile isSpace

/-- The value of a hexadecimal digit. -/
def hexValue? (c : Char) : Option Nat :=
  if c.isDigit then some (c.toNat - '0'.toNat)
  else if 'a' ≤ c ∧ c ≤ 'f' then some (c.toNat - 'a'.toNat + 10)
  else if 'A' ≤ c ∧ c ≤ 'F' then some (c.toNat - 'A'.toNat + 10)
  else none

/-- The number written in four hexadecimal digits. -/
def hexUnit? (a b c d : Char) : Option Nat := do
  let a ← hexValue? a
  let b ← hexValue? b
  let c ← hexValue? c
  let d ← hexValue? d
  some (((a * 16 + b) * 16 + c) * 16 + d)

/-- The character that a letter after a backslash stands for. -/
def escaped? : Char → Option Char
  | '"' => some '"'
  | '\\' => some '\\'
  | '/' => some '/'
  | 'b' => some '\x08'
  | 'f' => some '\x0c'
  | 'n' => some '\n'
  | 'r' => some '\r'
  | 't' => some '\t'
  | _ => none

/-- A piece of a text: a character, or half of a surrogate pair. -/
inductive Piece where
  /-- A character. -/
  | character (c : Char)
  /-- Half of a surrogate pair. -/
  | surrogate (unit : Nat)
deriving DecidableEq, Repr

/-- The piece for a number of 16 bits. -/
def pieceOfUnit (unit : Nat) : Piece :=
  if 0xD800 ≤ unit ∧ unit ≤ 0xDFFF then .surrogate unit else .character (Char.ofNat unit)

/-- Reads the pieces of a text up to its closing quote. -/
def pieces : List Char → Option (List Piece × List Char)
  | [] => none
  | '"' :: rest => some ([], rest)
  | '\\' :: 'u' :: a :: b :: c :: d :: rest => do
      let unit ← hexUnit? a b c d
      let (ps, rest) ← pieces rest
      some (pieceOfUnit unit :: ps, rest)
  | '\\' :: c :: rest => do
      let c ← escaped? c
      let (ps, rest) ← pieces rest
      some (.character c :: ps, rest)
  | c :: rest =>
      if c.toNat < 0x20 ∨ c = '\\' then none
      else do
        let (ps, rest) ← pieces rest
        some (.character c :: ps, rest)

/-- The characters of pieces, in which surrogates have to stand in pairs. -/
def joined? : List Piece → Option (List Char)
  | [] => some []
  | .character c :: ps => (joined? ps).map (c :: ·)
  | .surrogate high :: .surrogate low :: ps =>
      if high ≤ 0xDBFF ∧ 0xDC00 ≤ low then
        (joined? ps).map (Char.ofNat (0x10000 + (high - 0xD800) * 0x400 + (low - 0xDC00)) :: ·)
      else none
  | .surrogate _ :: _ => none

/-- Reads a text after its opening quote; there may be no way to read its pieces as characters. -/
def quoted : Reader (Option String) := fun cs =>
  (pieces cs).map fun p => ((joined? p.1).map String.ofList, p.2)

/-! ## Numbers -/

/-- The digits at the start of a text, and what follows them. -/
def digits (cs : List Char) : List Char × List Char := (cs.takeWhile Char.isDigit,
  cs.drop (cs.takeWhile Char.isDigit).length)

/-- Digits of which there has to be one. -/
def someDigits : Reader (List Char) := fun cs =>
  let (ds, rest) := digits cs
  if ds.isEmpty then none else some (ds, rest)

/-- The whole part of a number, which starts with zero only if it is zero. -/
def wholePart : Reader (List Char) := fun cs => do
  let (ds, rest) ← someDigits cs
  if ds.head? = some '0' ∧ ds.length ≠ 1 then none else some (ds, rest)

/-- The fraction of a number, if there is one. -/
def fractionPart : Reader (Option (List Char))
  | '.' :: rest => (someDigits rest).map fun p => (some p.1, p.2)
  | cs => some (none, cs)

/-- The exponent of a number after its mark: whether it is negative, and its digits. -/
def signedDigits : Reader (Bool × List Char)
  | '-' :: rest => (someDigits rest).map fun p => ((true, p.1), p.2)
  | '+' :: rest => (someDigits rest).map fun p => ((false, p.1), p.2)
  | cs => (someDigits cs).map fun p => ((false, p.1), p.2)

/-- The exponent of a number, if there is one. -/
def exponentPart : Reader (Option (Bool × List Char))
  | c :: rest =>
      if c = 'e' ∨ c = 'E' then (signedDigits rest).map fun p => (some p.1, p.2)
      else some (none, c :: rest)
  | [] => some (none, [])

/-- Reads a number after its sign. -/
def number (negative : Bool) : Reader Json := fun cs => do
  let (whole, rest) ← wholePart cs
  let (fraction?, rest) ← fractionPart rest
  let (exponent?, rest) ← exponentPart rest
  some (ofNumber ⟨negative, whole, fraction?, exponent?⟩, rest)

/-! ## Values -/

/-- Reads a value, given the reader for the values inside it, that is not in brackets. -/
def simple : Reader Json
  | 'n' :: 'u' :: 'l' :: 'l' :: rest => some (.null, rest)
  | 't' :: 'r' :: 'u' :: 'e' :: rest => some (.boolean true, rest)
  | 'f' :: 'a' :: 'l' :: 's' :: 'e' :: rest => some (.boolean false, rest)
  | '"' :: rest => (quoted rest).map fun p => ((p.1.map Json.string).getD .unreadable, p.2)
  | '-' :: rest => number true rest
  | cs => number false cs

/-- Reads the items of a list after the first, up to the closing bracket; there are no more than the
first argument says. -/
def moreItems (value : Reader Json) : Nat → Reader (List Json)
  | 0, _ => none
  | bound + 1, cs =>
      match skipSpace cs with
      | ']' :: rest => some ([], rest)
      | ',' :: rest => do
          let (j, rest) ← value (skipSpace rest)
          let (js, rest) ← moreItems value bound rest
          some (j :: js, rest)
      | _ => none

/-- Reads the items of a list after its opening bracket. -/
def items (value : Reader Json) : Reader (List Json) := fun cs =>
  match skipSpace cs with
  | ']' :: rest => some ([], rest)
  | start => do
      let (j, rest) ← value start
      let (js, rest) ← moreItems value (rest.length + 1) rest
      some (j :: js, rest)

/-- Reads a member of an object: its name, a colon and its value. -/
def member (value : Reader Json) : Reader (Option String × Json)
  | '"' :: rest => do
      let (name, rest) ← quoted rest
      match skipSpace rest with
      | ':' :: rest => do
          let (j, rest) ← value (skipSpace rest)
          some ((name, j), rest)
      | _ => none
  | _ => none

/-- Reads the members of an object after the first, up to the closing brace; there are no more than
the first argument says. -/
def moreMembers (value : Reader Json) : Nat → Reader (List (Option String × Json))
  | 0, _ => none
  | bound + 1, cs =>
      match skipSpace cs with
      | '\x7d' :: rest => some ([], rest)
      | ',' :: rest => do
          let (m, rest) ← member value (skipSpace rest)
          let (ms, rest) ← moreMembers value bound rest
          some (m :: ms, rest)
      | _ => none

/-- Reads the members of an object after its opening brace. -/
def members (value : Reader Json) : Reader (List (Option String × Json)) := fun cs =>
  match skipSpace cs with
  | '\x7d' :: rest => some ([], rest)
  | start => do
      let (m, rest) ← member value start
      let (ms, rest) ← moreMembers value (rest.length + 1) rest
      some (m :: ms, rest)

/-- The object of members; without all of their names it cannot be read. -/
def objectOf (ms : List (Option String × Json)) : Json :=
  match ms.mapM fun m => m.1.map fun name => (name, m.2) with
  | some ms => .object ms
  | none => .unreadable

/-- Reads a value with fewer levels of brackets than the first argument says. -/
def value : Nat → Reader Json
  | 0, _ => none
  | depth + 1, cs =>
      match cs with
      | '[' :: rest => (items (value depth) rest).map fun p => (.array p.1, p.2)
      | '\x7b' :: rest => (members (value depth) rest).map fun p => (objectOf p.1, p.2)
      | cs => simple cs

end Reader

/-- The value that a text is, with blanks at its ends. -/
def ofText? (s : String) : Option Json := do
  let (j, rest) ← Reader.value (s.length + 1) (Reader.skipSpace s.toList)
  if (Reader.skipSpace rest).isEmpty then some j else none

end PaintQuote.Json
