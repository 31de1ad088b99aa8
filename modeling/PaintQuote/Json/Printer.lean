import PaintQuote.Json.Basic
import PaintQuote.Binary64.Text

/-!
# Writing JSON texts

A value is written on one line, or on lines indented by two blanks a level.  Quotes, backslashes and
control characters in texts are escaped, and everything else stands as it is.
-/

namespace PaintQuote.Json

/-! ## Texts -/

/-- A hexadecimal digit. -/
def hexDigit (n : Nat) : Char := if n < 10 then Char.ofNat (48 + n) else Char.ofNat (87 + n)

/-- A character as it stands between quotes. -/
def escape (c : Char) : List Char :=
  match c with
  | '"' => ['\\', '"']
  | '\\' => ['\\', '\\']
  | '\x08' => ['\\', 'b']
  | '\x0c' => ['\\', 'f']
  | '\n' => ['\\', 'n']
  | '\r' => ['\\', 'r']
  | '\t' => ['\\', 't']
  | c =>
      if c.toNat < 0x20 then ['\\', 'u', '0', '0', hexDigit (c.toNat / 16), hexDigit (c.toNat % 16)]
      else [c]

/-- A text between quotes. -/
def quote (s : String) : String := String.ofList ('"' :: (s.toList.flatMap escape ++ ['"']))

/-- A value that holds no others. -/
def writeSimple : Json → String
  | null | unreadable | array _ | object _ => "null"
  | boolean b => if b then "true" else "false"
  | integer n => toString n
  | real x => x.toText
  | string s => quote s

/-! ## On one line -/

mutual
/-- The text of a value on one line. -/
def compact : Json → String
  | array items => "[" ++ String.intercalate "," (compactItems items) ++ "]"
  | object members => "\x7b" ++ String.intercalate "," (compactMembers members) ++ "\x7d"
  | j => writeSimple j

/-- The texts of items on one line. -/
def compactItems : List Json → List String
  | [] => []
  | j :: js => compact j :: compactItems js

/-- The texts of members on one line. -/
def compactMembers : List (String × Json) → List String
  | [] => []
  | (name, j) :: ms => (quote name ++ ":" ++ compact j) :: compactMembers ms
end

/-! ## On indented lines -/

/-- The start of a line at a level. -/
def newLine (level : Nat) : String := "\n" ++ String.ofList (List.replicate (2 * level) ' ')

/-- Parts between brackets, each on a line of its own. -/
def block (level : Nat) (first last : String) (parts : List String) : String :=
  if parts.isEmpty then first ++ last
  else
    first ++ newLine (level + 1) ++ String.intercalate ("," ++ newLine (level + 1)) parts
      ++ newLine level ++ last

mutual
/-- The text of a value on lines at a level. -/
def indented (level : Nat) : Json → String
  | array items => block level "[" "]" (indentedItems (level + 1) items)
  | object members => block level "\x7b" "\x7d" (indentedMembers (level + 1) members)
  | j => writeSimple j

/-- The texts of items on lines at a level. -/
def indentedItems (level : Nat) : List Json → List String
  | [] => []
  | j :: js => indented level j :: indentedItems level js

/-- The texts of members on lines at a level. -/
def indentedMembers (level : Nat) : List (String × Json) → List String
  | [] => []
  | (name, j) :: ms => (quote name ++ ": " ++ indented level j) :: indentedMembers level ms
end

/-- The text of a value on indented lines. -/
def pretty (j : Json) : String := indented 0 j

end PaintQuote.Json
