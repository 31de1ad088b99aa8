import PaintQuote.Binary64.Decimal
import PaintQuote.Json.Basic

/-!
# Records in JSON

A record is written as an object with a member for each field, or as a list of its fields in order.
In an object other members are passed over, and no field may stand twice.  In a list fields at the
end may be left out, and nothing may follow the last field.

The readers below answer with nothing for a value of another kind or out of range.
-/

namespace PaintQuote

namespace Json

/-! ## Simple values -/

/-- The logical value that a value is. -/
def boolean? : Json → Option Bool
  | boolean b => some b
  | _ => none

/-- The natural number below a limit that a value is. -/
def below? (limit : Nat) : Json → Option Nat
  | integer n => if 0 ≤ n ∧ n < limit then some n.toNat else none
  | _ => none

/-- The word of 32 bits that a value is. -/
def word? (j : Json) : Option UInt32 := (j.below? UInt32.size).map UInt32.ofNat

/-- The items of a list, each of them read. -/
def list? {α : Type} (read : Json → Option α) (j : Json) : Option (List α) :=
  j.items?.bind fun items => items.mapM read

/-- The choice that a value names: as a text, or as the only member of an object, with nothing in
it. -/
def choice? {α : Type} (ofName? : String → Option α) : Json → Option α
  | string s => ofName? s
  | object [(s, null)] => ofName? s
  | _ => none

/-! ## Records -/

/-- The fields of a record that are there, with their values. -/
abbrev Record := List (String × Json)

/-- The record with the given fields that a value is. -/
def record? (fields : List String) : Json → Option Record
  | object members =>
      let known := members.filter fun m => fields.contains m.1
      if (known.map (·.1)).Nodup then some known else none
  | array items => if items.length ≤ fields.length then some (fields.zip items) else none
  | _ => none

/-- A field that has to be there. -/
def Record.field? {α : Type} (r : Record) (read : Json → Option α) (name : String) : Option α :=
  (r.lookup name).bind read

/-- A field that may be left out. -/
def Record.fieldOr? {α : Type} (r : Record) (read : Json → Option α) (default : α) (name : String) :
    Option α :=
  match r.lookup name with
  | some j => read j
  | none => some default

/-! ## Repeated members -/

/-- The members without those that are repeated later on. -/
def lastOnly : List (String × Json) → List (String × Json)
  | [] => []
  | m :: ms => if ms.any fun n => n.1 == m.1 then lastOnly ms else m :: lastOnly ms

mutual
/-- The value with only the last of the members of one name, on every level. -/
def distinct : Json → Json
  | array items => array (distinctItems items)
  | object members => object (lastOnly (distinctMembers members))
  | j => j

/-- The items with only the last of the members of one name. -/
def distinctItems : List Json → List Json
  | [] => []
  | j :: js => distinct j :: distinctItems js

/-- The members, each with only the last of the members of one name. -/
def distinctMembers : List (String × Json) → List (String × Json)
  | [] => []
  | (name, j) :: ms => (name, distinct j) :: distinctMembers ms
end

end Json

/-- The decimal that a value is: a number, or a text. -/
def Decimal.ofJson? : Json → Option Decimal
  | .integer n => some (ofInt n)
  | .real x => ofShortest? x
  | .string s => ofText? s
  | _ => none

end PaintQuote
