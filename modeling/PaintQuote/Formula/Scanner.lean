import PaintQuote.Formula.Token

/-!
# Scanning by byte positions

The scanner holds no characters but a position, the number of bytes before the next character, and sees
the text through slices that start there.  A slice that starts past the end or inside a character does
not exist; then the scan fails, which is `none` throughout this module.  Each position is sliced at when
the scanner goes on from it, so a scan that does not fail has stood between characters all the time.

There are no more lexemes than bytes, and a scan for which that is not enough fails too.
-/

namespace PaintQuote.Formula

open Sheet Text

/-- A token with the positions at which it starts and stops. -/
structure Lexeme where
  /-- The number of bytes before the token. -/
  start : Nat
  /-- The token. -/
  token : Token
  /-- The number of bytes up to the end of the token. -/
  stop : Nat
deriving DecidableEq, Repr

namespace Scanner

variable (text : List Char)

/-! ## Looking ahead -/

/-- The character that is `offset` characters after a position, if the text is that long. -/
def peekAt (position offset : Nat) : Option (Option Char) :=
  (sliceFrom? position text).map fun rest => rest[offset]?

/-- The next character, unless the text is at its end. -/
def peek (position : Nat) : Option (Option Char) := peekAt text position 0

/-- The position after the next character. -/
def advance (position : Nat) : Option Nat :=
  (peek text position).map fun
    | some c => position + c.utf8Size
    | none => position

theorem le_of_peek {text : List Char} {position : Nat} {c : Char}
    (h : peek text position = some (some c)) : position + c.utf8Size ≤ byteLength text := by
  obtain ⟨rest, hslice, hrest⟩ := Option.map_eq_some_iff.1 h
  obtain ⟨before, rfl, rfl⟩ := sliceFrom?_eq_some_iff.1 hslice
  cases rest with
  | nil => cases hrest
  | cons d rest =>
      cases hrest
      rw [byteLength_append, byteLength_cons]
      omega

/-- The position after the characters of a class. -/
def skipWhile (p : Char → Bool) (position : Nat) : Option Nat :=
  match _h : peek text position with
  | none => none
  | some none => some position
  | some (some c) => if p c then skipWhile p (position + c.utf8Size) else some position
termination_by byteLength text - position
decreasing_by
  have hle := le_of_peek _h
  have hpos := c.utf8Size_pos
  omega

/-! ## Quoted text -/

/-- The characters up to a closing mark, after those already read, and the position after the mark;
without a closing mark there are none, and the position is the end. -/
def quotedFrom (mark : Char) (position : Nat) (read : List Char) : Option (Option (List Char) × Nat) :=
  match _h : peek text position with
  | none => none
  | some none => some (none, position)
  | some (some c) =>
      if c = mark then
        match peekAt text position 1 with
        | none => none
        | some next =>
            if next = some mark then
              quotedFrom mark (position + c.utf8Size + mark.utf8Size) (read ++ [mark])
            else some (some read, position + c.utf8Size)
      else quotedFrom mark (position + c.utf8Size) (read ++ [c])
termination_by byteLength text - position
decreasing_by
  all_goals
    have hle := le_of_peek _h
    have hpos := c.utf8Size_pos
    omega

/-- Scans a text from its opening quote. -/
def scanText (start : Nat) : Option (Token × Nat) := do
  let opened ← advance text start
  let (cs?, stop) ← quotedFrom text '"' opened []
  match cs? with
  | some cs => some (.literal (.text (String.ofList cs)), stop)
  | none => some (.invalid .openText, stop)

/-- Scans a sheet name from its opening quote. -/
def scanQuotedSheet (start : Nat) : Option (Token × Nat) := do
  let opened ← advance text start
  let (cs?, stop) ← quotedFrom text '\'' opened []
  match cs? with
  | none => some (.invalid .openSheet, stop)
  | some cs =>
      let next ← peek text stop
      if next = some '!' then
        let marked ← advance text stop
        some (.sheet (String.ofList cs), marked)
      else some (.invalid (.sheetMark (String.ofList cs)), stop)

/-! ## Numbers -/

/-- The position after a fraction, if one comes next. -/
def scanFraction (position : Nat) : Option Nat := do
  let next ← peek text position
  if next = some '.' then
    let pointed ← advance text position
    skipWhile text Char.isDigit pointed
  else some position

/-- Whether an exponent comes first in a text: its mark, and then a digit or a sign and a digit. -/
def marksExponent (rest : List Char) : Bool :=
  rest[0]?.any (fun c => c == 'e' || c == 'E') &&
    (rest[1]?.any Char.isDigit ||
      rest[1]?.any (fun c => c == '+' || c == '-') && rest[2]?.any Char.isDigit)

/-- The position after the sign that may come next. -/
def scanSign (position : Nat) : Option Nat := do
  let next ← peek text position
  if next.any fun c => c == '+' || c == '-' then advance text position else some position

/-- Whether an exponent comes next, and the position after it. -/
def scanExponent (position : Nat) : Option (Bool × Nat) := do
  let rest ← sliceFrom? position text
  if marksExponent rest then
    let marked ← advance text position
    let signed ← scanSign text marked
    let stop ← skipWhile text Char.isDigit signed
    some (true, stop)
  else some (false, position)

/-- Scans a number from its first digit, or from its point. -/
def scanNumber (start : Nat) : Option (Token × Nat) := do
  let whole ← skipWhile text Char.isDigit start
  let mantissa ← scanFraction text whole
  let (scientific, stop) ← scanExponent text mantissa
  let written ← slice? start stop text
  let padded := if written.head? = some '.' then '0' :: written else written
  match if scientific then Decimal.readScientific? padded else Decimal.read? padded with
  | some n => some (.literal (.number n), stop)
  | none => some (.invalid (.number (String.ofList written)), stop)

/-! ## Errors and words -/

/-- Whether a text starts with the bytes of the literal of an error, in any case. -/
def literalAt (rest : List Char) (e : ErrorValue) : Bool :=
  match splitAt? e.literal.utf8ByteSize rest with
  | some (lead, _) => lead.map Char.toUpper == e.literal.toList
  | none => false

/-- Scans an error literal from its number sign; the text starts with one literal at most. -/
def scanError (start : Nat) : Option (Token × Nat) := do
  let rest ← sliceFrom? start text
  match ErrorValue.all.find? (literalAt rest) with
  | some e => some (.literal (.error e), start + e.literal.utf8ByteSize)
  | none =>
      let signed ← advance text start
      let stop ← skipWhile text Token.isErrorChar signed
      let written ← slice? start stop text
      some (.invalid (.errorLiteral (String.ofList written)), stop)

/-- Scans a word, or the name of a sheet with its mark. -/
def scanWord (start : Nat) : Option (Token × Nat) := do
  let stop ← skipWhile text Token.continuesWord start
  let written ← slice? start stop text
  let next ← peek text stop
  if next = some '!' then
    let marked ← advance text stop
    some (.sheet (String.ofList written), marked)
  else some (Token.ofWord written (next == some '('), stop)

/-! ## Tokens -/

/-- Scans a token that is one character. -/
def scanOne (token : Token) (start : Nat) : Option (Token × Nat) :=
  (advance text start).map fun stop => (token, stop)

/-- Scans a less-than sign with what belongs to it. -/
def scanLess (start : Nat) : Option (Token × Nat) := do
  let stop ← advance text start
  let next ← peek text stop
  if next = some '=' then scanOne text (.operator .lessEqual) stop
  else if next = some '>' then scanOne text (.operator .notEqual) stop
  else some (.operator .less, stop)

/-- Scans a greater-than sign with what belongs to it. -/
def scanGreater (start : Nat) : Option (Token × Nat) := do
  let stop ← advance text start
  let next ← peek text stop
  if next = some '=' then scanOne text (.operator .greaterEqual) stop
  else some (.operator .greater, stop)

/-- Scans the token that starts with the next character. -/
def scanFrom (c : Char) (start : Nat) : Option (Token × Nat) := do
  let second ← peekAt text start 1
  match Token.ofSymbol? c with
  | some token => scanOne text token start
  | none =>
      if c = '<' then scanLess text start
      else if c = '>' then scanGreater text start
      else if c = '"' then scanText text start
      else if c = '\'' then scanQuotedSheet text start
      else if c.isDigit || (c == '.' && second.any Char.isDigit) then scanNumber text start
      else if c = '#' then scanError text start
      else if Token.startsWord c then scanWord text start
      else scanOne text (.invalid (.character c)) start

/-- The lexeme after the blanks that come next, or the position of the end. -/
def next (position : Nat) : Option (Nat ⊕ Lexeme) := do
  let start ← skipWhile text isBlank position
  let first ← peek text start
  match first with
  | none => some (.inl start)
  | some c =>
      let (token, stop) ← scanFrom text c start
      some (.inr ⟨start, token, stop⟩)

/-- The lexemes from a position on, of which there are fewer than the first argument says, and the
position of the end. -/
def lexemesFrom : Nat → Nat → Option (List Lexeme × Nat)
  | 0, _ => none
  | bound + 1, position => do
      match ← next text position with
      | .inl finish => some ([], finish)
      | .inr lexeme =>
          let (rest, finish) ← lexemesFrom bound lexeme.stop
          some (lexeme :: rest, finish)

/-- The lexemes of a text and the position of its end. -/
def lexemes : Option (List Lexeme × Nat) := lexemesFrom text (byteLength text + 1) 0

end Scanner

/-- The tokens of lexemes up to the end. -/
def Tokens.ofLexemes (finish : Nat) : List Lexeme → Tokens
  | [] => stop finish
  | lexeme :: rest => next lexeme.start lexeme.token (ofLexemes finish rest)

theorem Tokens.length_ofLexemes (finish : Nat) (lexemes : List Lexeme) :
    (ofLexemes finish lexemes).length = lexemes.length := by
  induction lexemes with
  | nil => rfl
  | cons l lexemes ih => exact congrArg (· + 1) ih

end PaintQuote.Formula
