import PaintQuote.Binary64.Basic

/-!
# JSON values

The value of a JSON text.  A number without fraction and exponent that fits a machine word is kept as
a whole number, any other as a binary one.  Members of an object are kept in order, with their
repetitions.  Some values are well formed and yet cannot be read, such as a number that is too large
or a text with half of a surrogate pair; they are kept as `unreadable`, since a reader may pass over
them.
-/

namespace PaintQuote

/-- A JSON value. -/
inductive Json where
  /-- Nothing. -/
  | null
  /-- A logical value. -/
  | boolean (b : Bool)
  /-- A whole number. -/
  | integer (n : Int)
  /-- A number with a fraction or exponent, or beyond a machine word. -/
  | real (x : Binary64)
  /-- A text. -/
  | string (s : String)
  /-- A list of values. -/
  | array (items : List Json)
  /-- Named values. -/
  | object (members : List (String × Json))
  /-- A value that is well formed and cannot be read. -/
  | unreadable
deriving Repr

namespace Json

instance : Inhabited Json := ⟨null⟩

/-- The last member with a name. -/
def get? (j : Json) (name : String) : Option Json :=
  match j with
  | object members => (members.reverse.find? fun m => m.1 == name).map (·.2)
  | _ => none

/-- The text that a value is. -/
def string? : Json → Option String
  | string s => some s
  | _ => none

/-- The items of a list. -/
def items? : Json → Option (List Json)
  | array items => some items
  | _ => none

/-- A value that may be missing, as null. -/
def ofOption {α : Type} (write : α → Json) : Option α → Json
  | some a => write a
  | none => null

/-- A natural number. -/
def natural (n : Nat) : Json := integer n

end Json

end PaintQuote
