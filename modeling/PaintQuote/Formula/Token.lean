import PaintQuote.Decimal.Text
import PaintQuote.Formula.Expr
import PaintQuote.Text.Classes

/-!
# Tokens

The words of a formula.  A formula is cut into tokens from the left, blanks between them are
skipped, and each token keeps the number of bytes before it.  A stretch that is no token becomes an
`invalid` one with its fault, so cutting never fails; the reader of the tokens decides what that
means.

`Token.read` takes the token that starts with a given character and says how many further
characters belong to it.  `Tokens.scan` walks over the characters once and skips those.
-/

namespace PaintQuote.Formula

open Sheet Text

/-! ## Tokens and their faults -/

/-- Why a stretch of a formula is no token. -/
inductive TokenFault where
  /-- A character that starts nothing. -/
  | character (c : Char)
  /-- A text without its closing quote. -/
  | openText
  /-- A sheet name without its closing quote. -/
  | openSheet
  /-- A sheet name in quotes that no mark follows. -/
  | sheetMark (name : String)
  /-- A number that is too long or too large. -/
  | number (text : String)
  /-- A number sign that starts no error literal. -/
  | errorLiteral (text : String)
  /-- A word with a dollar sign that is no address. -/
  | reference (text : String)
deriving DecidableEq, Repr

/-- A word of a formula. -/
inductive Token where
  /-- A constant. -/
  | literal (l : Literal)
  /-- A function or a defined name. -/
  | word (text : String)
  /-- A text that has the shape of an address. -/
  | reference (text : String)
  /-- A sheet in front of a reference, with its mark. -/
  | sheet (name : String)
  /-- The symbol of an operator between operands; plus and minus are signs too. -/
  | operator (o : BinaryOperator)
  /-- A percent sign. -/
  | percent
  /-- The colon of a range. -/
  | colon
  /-- A comma between arguments or items. -/
  | comma
  /-- A semicolon between rows. -/
  | semicolon
  /-- An opening parenthesis. -/
  | leftParenthesis
  /-- A closing parenthesis. -/
  | rightParenthesis
  /-- An opening brace. -/
  | leftBrace
  /-- A closing brace. -/
  | rightBrace
  /-- A stretch that is no token. -/
  | invalid (fault : TokenFault)
deriving DecidableEq, Repr

/-- The tokens of a formula, each with the number of bytes before it, up to the end. -/
inductive Tokens where
  /-- The end of the formula. -/
  | stop (position : Nat)
  /-- A token and those after it. -/
  | next (position : Nat) (token : Token) (rest : Tokens)
deriving DecidableEq, Repr

/-- The wording of a fault. -/
def TokenFault.message : TokenFault → String
  | character c => "Unexpected character '" ++ c.toString ++ "'"
  | openText => "Unterminated string literal"
  | openSheet => "Unterminated sheet name"
  | sheetMark name => "Expected '!' after sheet name '" ++ name ++ "'"
  | number text => "Invalid number '" ++ text ++ "'"
  | errorLiteral text => "Unknown error literal '" ++ text ++ "'"
  | reference text => "Malformed reference '" ++ text ++ "'"

/-- How a literal is spoken of. -/
def Literal.describe : Literal → String
  | number n => "number " ++ n.toText
  | text s => "string \"" ++ s ++ "\""
  | boolean b => CellValue.booleanText b
  | error e => "error " ++ e.literal

/-- How a token is spoken of. -/
def Token.describe : Token → String
  | literal l => l.describe
  | word text => "'" ++ text ++ "'"
  | reference text => "reference " ++ text
  | sheet name => "sheet " ++ name ++ "!"
  | operator o => "'" ++ o.symbol ++ "'"
  | percent => "'%'"
  | colon => "':'"
  | comma => "','"
  | semicolon => "';'"
  | leftParenthesis => "'('"
  | rightParenthesis => "')'"
  | leftBrace => "'\x7b'"
  | rightBrace => "'\x7d'"
  | invalid fault => fault.message

namespace Tokens

/-- The number of bytes before the first token, or before the end. -/
def position : Tokens → Nat
  | stop position => position
  | next position _ _ => position

/-- The number of tokens. -/
def length : Tokens → Nat
  | stop _ => 0
  | next _ _ rest => rest.length + 1

/-- The tokens without their positions. -/
def toList : Tokens → List Token
  | stop _ => []
  | next _ token rest => token :: rest.toList

end Tokens

namespace Token

/-! ## Quoted text -/

/-- The text up to a closing mark, where a doubled mark stands for itself, and the number of
characters up to and with the closing mark. -/
def quoted? (mark : Char) : List Char → Option (List Char × Nat)
  | [] => none
  | [c] => if c = mark then some ([], 1) else none
  | c :: d :: rest =>
      if c = mark then
        if d = mark then (quoted? mark rest).map fun p => (mark :: p.1, p.2 + 2)
        else some ([], 1)
      else (quoted? mark (d :: rest)).map fun p => (c :: p.1, p.2 + 1)

/-- Reads a text after its opening quote. -/
def readText (rest : List Char) : Token × Nat :=
  match quoted? '"' rest with
  | some (cs, count) => (.literal (.text (String.ofList cs)), count)
  | none => (.invalid .openText, rest.length)

/-- Reads a sheet name after its opening quote. -/
def readQuotedSheet (rest : List Char) : Token × Nat :=
  match quoted? '\'' rest with
  | some (cs, count) =>
      if (rest.drop count).head? = some '!' then (.sheet (String.ofList cs), count + 1)
      else (.invalid (.sheetMark (String.ofList cs)), count)
  | none => (.invalid .openSheet, rest.length)

/-! ## Numbers -/

/-- Whether a text starts with a digit. -/
def startsWithDigit : List Char → Bool
  | c :: _ => c.isDigit
  | [] => false

/-- The exponent at the start of a text: its mark, its sign and its digits. -/
def exponentChars : List Char → List Char
  | c :: rest =>
      if c = 'e' ∨ c = 'E' then
        match rest with
        | s :: digits =>
            if (s = '+' ∨ s = '-') ∧ startsWithDigit digits then
              c :: s :: digits.takeWhile Char.isDigit
            else if s.isDigit then c :: (s :: digits).takeWhile Char.isDigit
            else []
        | [] => []
      else []
  | [] => []

/-- The fraction at the start of a text: its point and its digits. -/
def fractionChars : List Char → List Char
  | '.' :: rest => '.' :: rest.takeWhile Char.isDigit
  | _ => []

/-- The parts of the number at the start of a text: its digits with the fraction, and its
exponent. -/
def numberChars (cs : List Char) : List Char × List Char :=
  let whole := cs.takeWhile Char.isDigit
  let fraction := fractionChars (cs.drop whole.length)
  (whole ++ fraction, exponentChars (cs.drop (whole.length + fraction.length)))

/-- Reads the number at the start of a text. -/
def readNumber (cs : List Char) : Token × Nat :=
  let (mantissa, exponent) := numberChars cs
  let written := mantissa ++ exponent
  let padded := if mantissa.head? = some '.' then '0' :: written else written
  let number := if exponent.isEmpty then Decimal.read? padded else Decimal.readScientific? padded
  match number with
  | some n => (.literal (.number n), written.length - 1)
  | none => (.invalid (.number (String.ofList written)), written.length - 1)

/-! ## Errors -/

/-- Whether a text starts with the literal of an error, in any case. -/
def startsWithError (cs : List Char) (e : ErrorValue) : Bool :=
  let literal := e.literal.toList
  (cs.take literal.length).map Char.toUpper == literal

/-- The error whose literal a text starts with; there is one at most, since no literal starts
another. -/
def leadingError? (cs : List Char) : Option ErrorValue := ErrorValue.all.find? (startsWithError cs)

/-- Whether a character may stand in what looks like an error literal. -/
def isErrorChar (c : Char) : Bool := c.isAlphanum || c == '!' || c == '/' || c == '?'

/-- Reads the error literal at the start of a text; `rest` is the text without its number sign. -/
def readError (rest : List Char) : Token × Nat :=
  match leadingError? ('#' :: rest) with
  | some e => (.literal (.error e), e.literal.length - 1)
  | none =>
      let further := rest.takeWhile isErrorChar
      (.invalid (.errorLiteral (String.ofList ('#' :: further))), further.length)

/-! ## Words -/

/-- Whether a character starts a word. -/
def startsWord (c : Char) : Bool := isAlphabetic c || c == '_' || c == '$' || c == '\\'

/-- Whether a character goes on with a word. -/
def continuesWord (c : Char) : Bool :=
  isAlphanumeric c || c == '_' || c == '$' || c == '.' || c == '\\'

/-- Whether a text has the shape of an address: letters and digits, each with an optional dollar
sign in front. -/
def hasAddressShape (cs : List Char) : Bool :=
  let fromLetters := Address.afterDollar cs
  let letters := fromLetters.takeWhile Char.isAlpha
  let digits := Address.afterDollar (fromLetters.drop letters.length)
  !letters.isEmpty && !digits.isEmpty && digits.all Char.isDigit

/-- The token for a word, given whether a parenthesis follows.  What a parenthesis follows is a
function, also if it looks like an address or a logical value. -/
def ofWord (cs : List Char) (called : Bool) : Token :=
  let upperCase := upperChars cs
  if upperCase = "TRUE".toList ∧ called = false then .literal (.boolean true)
  else if upperCase = "FALSE".toList ∧ called = false then .literal (.boolean false)
  else if hasAddressShape cs ∧ called = false then .reference (String.ofList cs)
  else if cs.contains '$' then .invalid (.reference (String.ofList cs))
  else .word (String.ofList cs)

/-- Reads the word or sheet name that starts with a character. -/
def readWord (c : Char) (rest : List Char) : Token × Nat :=
  let further := rest.takeWhile continuesWord
  let after := (rest.drop further.length).head?
  if after = some '!' then (.sheet (String.ofList (c :: further)), further.length + 1)
  else (ofWord (c :: further) (after == some '('), further.length)

/-! ## Symbols -/

/-- The token that is one character, and that no further character changes. -/
def ofSymbol? : Char → Option Token
  | '+' => some (.operator .add)
  | '-' => some (.operator .subtract)
  | '*' => some (.operator .multiply)
  | '/' => some (.operator .divide)
  | '^' => some (.operator .power)
  | '&' => some (.operator .concatenate)
  | '=' => some (.operator .equal)
  | '%' => some .percent
  | ':' => some .colon
  | ',' => some .comma
  | ';' => some .semicolon
  | '(' => some .leftParenthesis
  | ')' => some .rightParenthesis
  | '\x7b' => some .leftBrace
  | '\x7d' => some .rightBrace
  | _ => none

/-- Reads what follows a less-than sign. -/
def readLess : List Char → Token × Nat
  | '=' :: _ => (.operator .lessEqual, 1)
  | '>' :: _ => (.operator .notEqual, 1)
  | _ => (.operator .less, 0)

/-- Reads what follows a greater-than sign. -/
def readGreater : List Char → Token × Nat
  | '=' :: _ => (.operator .greaterEqual, 1)
  | _ => (.operator .greater, 0)

/-- The token that starts with a character, and the number of characters of `rest` that belong to
it. -/
def read (c : Char) (rest : List Char) : Token × Nat :=
  match ofSymbol? c with
  | some token => (token, 0)
  | none =>
      if c = '<' then readLess rest
      else if c = '>' then readGreater rest
      else if c = '"' then readText rest
      else if c = '\'' then readQuotedSheet rest
      else if c.isDigit || (c == '.' && startsWithDigit rest) then readNumber (c :: rest)
      else if c = '#' then readError rest
      else if startsWord c then readWord c rest
      else (.invalid (.character c), 0)

end Token

/-! ## Cutting a text into tokens -/

namespace Tokens

/-- The tokens of a text that `position` bytes precede, whose first `skip` characters belong to a
token already read. -/
def scan (position : Nat) : Nat → List Char → Tokens
  | _, [] => stop position
  | skip + 1, c :: rest => scan (position + c.utf8Size) skip rest
  | 0, c :: rest =>
      if isBlank c then scan (position + c.utf8Size) 0 rest
      else
        let (token, further) := Token.read c rest
        next position token (scan (position + c.utf8Size) further rest)

/-- The tokens of a text. -/
def ofChars (cs : List Char) : Tokens := scan 0 0 cs

/-- Skipping characters is leaving them out. -/
theorem scan_skip (position skip : Nat) (cs : List Char) :
    scan position skip cs = scan (position + byteLength (cs.take skip)) 0 (cs.drop skip) := by
  induction skip generalizing position cs with
  | zero => simp
  | succ skip ih =>
      cases cs with
      | nil => simp [scan]
      | cons c rest =>
          rw [scan, ih]
          simp [Nat.add_assoc]

example : (ofChars "A1 <= $b$2".toList).toList =
    [.reference "A1", .operator .lessEqual, .reference "$b$2"] := by decide +kernel
example : (ofChars "'My Room'!A1".toList).toList = [.sheet "My Room", .reference "A1"] := by
  decide +kernel
example : (ofChars "#div/0!/1.5E2".toList).toList =
    [.literal (.error .divisionByZero), .operator .divide, .literal (.number 150)] := by
  decide +kernel
example : (ofChars "log10(".toList).toList = [.word "log10", .leftParenthesis] := by decide +kernel

end Tokens

end PaintQuote.Formula
