import PaintQuote.Formula.Error
import PaintQuote.Formula.Printer
import PaintQuote.Formula.Token

/-!
# Reading formulas

From tokens to trees.  The binary operators form five levels, from comparisons to powers, each a
chain that groups to the left.  Inside them come the signs in front of an operand, the percent signs
after it, at most one colon between two cells, and the primary expressions.

Each reader takes the reader of its parts as an argument, and `expression` ties the knot: what
stands between parentheses is an expression again, one level further down, and a formula has fewer
levels than tokens.  Every error carries the position of the token at which it was noticed.
-/

namespace PaintQuote.Formula

open Sheet Text

/-! ## Errors -/

/-- Why tokens are no formula. -/
inductive ParseFault where
  /-- There are none. -/
  | empty
  /-- A stretch is no token. -/
  | token (fault : TokenFault)
  /-- The formula stops too early. -/
  | unexpectedEnd
  /-- A token has no place where it stands. -/
  | unexpected (token : Token)
  /-- One token is wanted, and another or the end is found. -/
  | expected (wanted : Token) (found : Option Token)
  /-- A colon does not stand between cells. -/
  | rangeCorners
  /-- The corners of a range lie on two sheets. -/
  | rangeSheets
  /-- The rows of an array have different lengths. -/
  | raggedArray
  /-- A text in front of a mark is no sheet name. -/
  | sheetName (error : ReferenceError)
  /-- No cell follows the name of a sheet. -/
  | sheetAlone
  /-- A text in the shape of an address is none. -/
  | reference (text : String) (error : ReferenceError)
deriving DecidableEq, Repr

/-- A fault and the number of bytes before the token at which it was noticed. -/
structure ParseError where
  /-- The number of bytes. -/
  position : Nat
  /-- The fault. -/
  fault : ParseFault
deriving DecidableEq, Repr

/-- The wording of a fault. -/
def ParseFault.message : ParseFault → String
  | empty => "Empty formula"
  | token fault => fault.message
  | unexpectedEnd => "Unexpected end of formula"
  | unexpected found => "Unexpected " ++ found.describe
  | expected wanted found =>
      "Expected " ++ wanted.describe ++ ", found "
        ++ (found.map Token.describe).getD "end of formula"
  | rangeCorners => "Range operator requires cell references on both sides"
  | rangeSheets => "Range references must be on the same sheet"
  | raggedArray => "Array rows must have the same number of items"
  | sheetName error => error.message
  | sheetAlone => "Expected cell reference after sheet name"
  | reference text error => "Invalid cell reference '" ++ text ++ "': " ++ error.message

/-- The error as it is reported. -/
def ParseError.report (e : ParseError) : FormulaError := .parse e.position e.fault.message

/-! ## Readers -/

/-- Reads a part of a formula from its first tokens and leaves the others. -/
abbrev Reader (α : Type) := Tokens → Except ParseError (α × Tokens)

namespace Reader

/-- The error for tokens of which the first has no place. -/
def unexpected : Tokens → ParseError
  | .stop position => ⟨position, .unexpectedEnd⟩
  | .next position (.invalid fault) _ => ⟨position, .token fault⟩
  | .next position token _ => ⟨position, .unexpected token⟩

/-- The tokens after one that has to come first. -/
def expect (wanted : Token) : Tokens → Except ParseError Tokens
  | .stop position => .error ⟨position, .expected wanted none⟩
  | .next position token rest =>
      if token = wanted then .ok rest
      else
        match token with
        | .invalid fault => .error ⟨position, .token fault⟩
        | _ => .error ⟨position, .expected wanted (some token)⟩

/-! ## References -/

/-- The cell written in a text that has the shape of an address. -/
def cellReference (sheet? : Option SheetName) (position : Nat) (text : String) :
    Except ParseError CellReference :=
  match Address.ofText text with
  | .error error => .error ⟨position, .reference text error⟩
  | .ok address =>
      .ok ⟨sheet?, address,
        ⟨text.toList.head? == some '$', (text.toList.drop 1).contains '$'⟩⟩

/-- Reads the cell after the name of a sheet. -/
def qualifiedCell (position : Nat) (name : String) : Reader Expr := fun tokens =>
  match SheetName.ofText name with
  | .error error => .error ⟨position, .sheetName error⟩
  | .ok sheet =>
      match tokens with
      | .next position (.reference text) rest => do
          let r ← cellReference (some sheet) position text
          .ok (.cell r, rest)
      | _ => .error ⟨tokens.position, .sheetAlone⟩

/-- The sheet of a range with the given sheets at its corners; the second corner may leave it
out. -/
def rangeSheet? : Option SheetName → Option SheetName → Option (Option SheetName)
  | sheet?, none => some sheet?
  | some a, some b => if a = b then some (some a) else none
  | none, some _ => none

/-- Reads a primary expression, or two cells with a colon between them. -/
def range (primary : Reader Expr) : Reader Expr := fun tokens => do
  let (left, rest) ← primary tokens
  match rest with
  | .next colon .colon after =>
      let (right, rest) ← primary after
      match left, right with
      | .cell a, .cell b =>
          match rangeSheet? a.sheet? b.sheet? with
          | some sheet? =>
              .ok (.range ⟨sheet?, .between a.address b.address, a.anchors, b.anchors⟩, rest)
          | none => .error ⟨after.position, .rangeSheets⟩
      | _, _ => .error ⟨colon, .rangeCorners⟩
  | _ => .ok (left, rest)

/-! ## Operators -/

/-- The expression with the percent signs that follow it. -/
def percents : Expr → Tokens → Expr × Tokens
  | e, .next _ .percent rest => percents (.percent e) rest
  | e, tokens => (e, tokens)

/-- Reads an operand with the signs in front of it and the percent signs after it.  A plus changes
nothing. -/
def signed (operand : Reader Expr) : Reader Expr
  | .next _ (.operator .subtract) rest => do
      let (e, rest) ← signed operand rest
      .ok (.negate e, rest)
  | .next _ (.operator .add) rest => signed operand rest
  | tokens => do
      let (e, rest) ← operand tokens
      .ok (percents e rest)

/-- Reads the operators of one precedence that follow a left operand, each with its right operand;
there are no more than the first argument says. -/
def chainFrom (precedence : Nat) (operand : Reader Expr) : Nat → Expr → Reader Expr
  | bound + 1, left, .next position (.operator o) rest =>
      if o.precedence = precedence then do
        let (right, rest) ← operand rest
        chainFrom precedence operand bound (.binary o left right) rest
      else .ok (left, .next position (.operator o) rest)
  | _, left, tokens => .ok (left, tokens)

/-- Reads operands with operators of one precedence between them. -/
def chain (precedence : Nat) (operand : Reader Expr) : Reader Expr := fun tokens => do
  let (left, rest) ← operand tokens
  chainFrom precedence operand rest.length left rest

/-! ## Arrays and calls -/

/-- Reads an item of an array constant. -/
def arrayItem : Reader ArrayItem
  | .next _ (.operator .subtract) (.next _ (.literal (.number n)) rest) => .ok (.negated n, rest)
  | .next _ (.operator .subtract) rest => .error (unexpected rest)
  | .next _ (.literal l) rest => .ok (.literal l, rest)
  | tokens => .error (unexpected tokens)

/-- Reads the items of an array constant up to its closing brace: those left in the row and the rows
after it.  There are no more than the first argument says. -/
def arrayRows : Nat → Reader (List ArrayItem × List (List ArrayItem))
  | 0, tokens => .error (unexpected tokens)
  | bound + 1, tokens => do
      let (item, rest) ← arrayItem tokens
      match rest with
      | .next _ .comma after =>
          let ((row, rows), rest) ← arrayRows bound after
          .ok ((item :: row, rows), rest)
      | .next _ .semicolon after =>
          let ((row, rows), rest) ← arrayRows bound after
          .ok (([item], row :: rows), rest)
      | .next _ .rightBrace _ => .ok (([item], []), rest)
      | _ => .error (unexpected rest)

/-- Reads an array constant after its opening brace. -/
def array : Reader Expr := fun tokens => do
  let ((row, rows), rest) ← arrayRows (tokens.length + 1) tokens
  if rows.all fun r => r.length == row.length then
    let rest ← expect .rightBrace rest
    .ok (.array (row :: rows), rest)
  else .error ⟨rest.position, .raggedArray⟩

/-- Reads further arguments, each after a comma, and the closing parenthesis; there are no more
than the first argument says. -/
def moreArguments (expression : Reader Expr) : Nat → Reader (List Expr)
  | bound + 1, .next _ .comma rest => do
      let (e, rest) ← expression rest
      let (es, rest) ← moreArguments expression bound rest
      .ok (e :: es, rest)
  | _, tokens => do
      let rest ← expect .rightParenthesis tokens
      .ok ([], rest)

/-- Reads the arguments of a call after its opening parenthesis. -/
def arguments (expression : Reader Expr) : Reader (List Expr)
  | .next _ .rightParenthesis rest => .ok ([], rest)
  | tokens => do
      let (e, rest) ← expression tokens
      let (es, rest) ← moreArguments expression rest.length rest
      .ok (e :: es, rest)

/-! ## Expressions -/

/-- Reads a primary expression, given the reader for what stands between parentheses. -/
def primary (expression : Reader Expr) : Reader Expr
  | .next _ (.literal l) rest => .ok (.literal l, rest)
  | .next _ .leftParenthesis rest => do
      let (e, rest) ← expression rest
      let rest ← expect .rightParenthesis rest
      .ok (e, rest)
  | .next _ .leftBrace rest => array rest
  | .next position (.sheet name) rest => qualifiedCell position name rest
  | .next position (.reference text) rest => do
      let r ← cellReference none position text
      .ok (.cell r, rest)
  | .next _ (.word function) (.next _ .leftParenthesis rest) => do
      let (es, rest) ← arguments expression rest
      .ok (.call (upper function) es, rest)
  | .next _ (.word name) rest => .ok (.name name, rest)
  | tokens => .error (unexpected tokens)

/-- Reads an expression over the given primary expressions. -/
def expressionOver (primary : Reader Expr) : Reader Expr :=
  chain 1 (chain 2 (chain 3 (chain 4 (chain 5 (signed (range primary))))))

/-- Reads an expression with fewer levels of parentheses than the first argument says. -/
def expression : Nat → Reader Expr
  | 0, tokens => .error (unexpected tokens)
  | depth + 1, tokens => expressionOver (primary (expression depth)) tokens

end Reader

/-! ## Formulas -/

namespace Expr

/-- The tree of which the tokens are all. -/
def ofTokens (tokens : Tokens) : Except ParseError Expr :=
  match tokens with
  | .stop _ => .error ⟨0, .empty⟩
  | .next _ _ _ => do
      let (e, rest) ← Reader.expression (tokens.length + 1) tokens
      match rest with
      | .stop _ => .ok e
      | .next _ _ _ => .error (Reader.unexpected rest)

/-- A formula without blanks at its ends and without its equals sign. -/
def body (cs : List Char) : List Char := (afterLead? ['='] (trim cs)).getD (trim cs)

/-- The tree of a formula. -/
def ofText (s : String) : Except ParseError Expr := ofTokens (.ofChars (body s.toList))

example : (ofText "=1-2-3").toOption.map toText = some "=1-2-3" := by decide +kernel
example : (ofText "sum($b1:a$2, -2%)").toOption.map toText = some "=SUM($A1:B$2,-2%)" := by
  decide +kernel
example : (match ofText "=1+" with | .ok _ => none | .error e => some e) =
    some ⟨2, .unexpectedEnd⟩ := by decide +kernel
example : (match ofText "=\x7b1,2;3\x7d" with | .ok _ => none | .error e => some e) =
    some ⟨6, .raggedArray⟩ := by decide +kernel

end Expr

end PaintQuote.Formula
