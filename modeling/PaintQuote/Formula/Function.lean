import PaintQuote.Formula.Log

/-!
# Functions

What a function of formulas is: a name in upper case, the numbers of arguments it takes, and what it
does.  Most functions are given the values of their arguments.  A lazy one is given its arguments as
computations, and runs those that it needs.
-/

namespace PaintQuote.Formula

open Sheet

/-- A value, or why there is none. -/
abbrev Answer := Except FormulaError Value

/-- What a function does. -/
inductive Implementation where
  /-- It works on values. -/
  | eager (answer : List Value → Answer)
  /-- It runs the arguments that it needs. -/
  | lazy (answer : List (Logged Value) → Logged Answer)

/-- A function of formulas. -/
structure Function where
  /-- The name, in upper case. -/
  name : String
  /-- The least number of arguments. -/
  least : Nat
  /-- The greatest number of arguments, if there is one. -/
  most? : Option Nat
  /-- What it does. -/
  implementation : Implementation

namespace Function

/-- Whether a function takes the given number of arguments. -/
def takes (f : Function) (count : Nat) : Bool :=
  decide (f.least ≤ count) && (f.most?.map fun most => decide (count ≤ most)).getD true

/-- The wording of the numbers of arguments that a function takes. -/
def arity (f : Function) : String :=
  match f.most? with
  | some most =>
      if most = f.least then toString most else toString f.least ++ ".." ++ toString most
  | none => "at least " ++ toString f.least

/-- Why a function does not take the given number of arguments, if it does not. -/
def arityError? (f : Function) (count : Nat) : Option FormulaError :=
  if f.takes count then none else some (.argumentCount f.name f.arity count)

/-- Whether a function is lazy. -/
def isLazy (f : Function) : Bool :=
  match f.implementation with
  | .eager _ => false
  | .lazy _ => true

end Function

/-! ## Arguments by place

A function is called only with as many arguments as it takes, so these read the arguments that are
there and answer with nothing for a list that is too short. -/

/-- What a function without arguments does. -/
def withNone (answer : Answer) : List Value → Answer := fun _ => answer

/-- What a function of one argument does. -/
def withOne (answer : Value → Answer) : List Value → Answer
  | v :: _ => answer v
  | [] => .ok .empty

/-- What a function of one argument and an optional one does. -/
def withOneOrTwo (answer : Value → Option Value → Answer) : List Value → Answer
  | v :: vs => answer v vs.head?
  | [] => .ok .empty

/-- What a function of one argument and two optional ones does. -/
def withOneToThree (answer : Value → Option Value → Option Value → Answer) : List Value → Answer
  | v :: vs => answer v vs[0]? vs[1]?
  | [] => .ok .empty

/-- What a function of two arguments does. -/
def withTwo (answer : Value → Value → Answer) : List Value → Answer
  | v :: w :: _ => answer v w
  | _ => .ok .empty

/-- What a function of two arguments and an optional one does. -/
def withTwoOrThree (answer : Value → Value → Option Value → Answer) : List Value → Answer
  | v :: w :: vs => answer v w vs.head?
  | _ => .ok .empty

/-- What a function of three arguments does. -/
def withThree (answer : Value → Value → Value → Answer) : List Value → Answer
  | u :: v :: w :: _ => answer u v w
  | _ => .ok .empty

/-- What a function of three arguments and an optional one does. -/
def withThreeOrFour (answer : Value → Value → Value → Option Value → Answer) :
    List Value → Answer
  | u :: v :: w :: vs => answer u v w vs.head?
  | _ => .ok .empty

end PaintQuote.Formula
