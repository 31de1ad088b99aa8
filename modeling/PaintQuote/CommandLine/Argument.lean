import PaintQuote.Text.Cut

/-!
# Command-line arguments

What each argument of a command says: a value, or an option by its name, with two dashes, or by its
letter, with one.  The value of an option stands in the same argument, after an equals sign or right
after the letter, or it is the argument that follows, which then must not look like an option.
Letters without values may share an argument, and after two dashes alone everything is a value.
-/

namespace PaintQuote.CommandLine

open Text

/-- An option that a command knows. -/
structure OptionForm where
  /-- The name. -/
  name : String
  /-- The letter, if there is one. -/
  letter? : Option Char := none
  /-- Whether the option has a value. -/
  hasValue : Bool := true
deriving DecidableEq, Repr

/-- What an argument says. -/
inductive Argument where
  /-- A value of the command itself, which belongs to no option. -/
  | operand (s : String)
  /-- An option with its value. -/
  | option (name value : String)
  /-- An option without a value. -/
  | flag (name : String)
deriving DecidableEq, Repr

namespace Argument

/-- What a single argument says, taken by itself. -/
inductive Part where
  /-- Everything that it says. -/
  | complete (arguments : List Argument)
  /-- An option at its end, whose value is the next argument. -/
  | pending (arguments : List Argument) (name : String)
deriving DecidableEq, Repr

/-- What the name of an option and the text after its equals sign say. -/
def ofName? (forms : List OptionForm) (name : String) (attached? : Option (List Char)) :
    Option Part := do
  let form ← forms.find? fun f => f.name == name
  match form.hasValue, attached? with
  | true, some value => some (.complete [.option name (String.ofList value)])
  | true, none => some (.pending [] name)
  | false, some _ => none
  | false, none => some (.complete [.flag name])

/-- What letters say, the last of which may be followed by its value. -/
def ofLetters? (forms : List OptionForm) : List Char → Option Part
  | [] => some (.complete [])
  | letter :: rest => do
      let form ← forms.find? fun f => f.letter? == some letter
      if form.hasValue then
        match rest with
        | [] => some (.pending [] form.name)
        | '=' :: value => some (.complete [.option form.name (String.ofList value)])
        | value => some (.complete [.option form.name (String.ofList value)])
      else
        match ← ofLetters? forms rest with
        | .complete arguments => some (.complete (.flag form.name :: arguments))
        | .pending arguments name => some (.pending (.flag form.name :: arguments) name)

/-- What an argument says, unless it is an option that is not known. -/
def part? (forms : List OptionForm) (s : String) : Option Part :=
  match s.toList with
  | '-' :: '-' :: cs =>
      match cutFirst? '=' cs with
      | some (name, value) => ofName? forms (String.ofList name) (some value)
      | none => ofName? forms (String.ofList cs) none
  | '-' :: c :: cs => ofLetters? forms (c :: cs)
  | _ => some (.complete [.operand s])

/-- Whether an argument may be the value of the option before it. -/
def mayFollow (s : String) : Bool :=
  match s.toList with
  | '-' :: _ :: _ => false
  | _ => true

/-- What the arguments of a command say. -/
def ofList? (forms : List OptionForm) : List String → Option (List Argument)
  | [] => some []
  | s :: rest =>
      if s = "--" then some (rest.map operand)
      else
        match part? forms s, rest with
        | none, _ => none
        | some (.complete arguments), rest => (ofList? forms rest).map (arguments ++ ·)
        | some (.pending arguments name), s :: rest =>
            if mayFollow s then
              (ofList? forms rest).map fun others => arguments ++ .option name s :: others
            else none
        | some (.pending _ _), [] => none

/-! ## Looking up -/

/-- The values of the command itself. -/
def operands (arguments : List Argument) : List String :=
  arguments.filterMap fun
    | operand s => some s
    | _ => none

/-- The values of an option, in the order in which they are given. -/
def optionValues (name : String) (arguments : List Argument) : List String :=
  arguments.filterMap fun
    | option n v => if n = name then some v else none
    | _ => none

/-- The value of an option that may be given once; there is no answer if it is repeated. -/
def single? (name : String) (arguments : List Argument) : Option (Option String) :=
  match optionValues name arguments with
  | [] => some none
  | [v] => some (some v)
  | _ => none

/-- Whether an option is given; there is no answer if it is repeated. -/
def flag? (name : String) (arguments : List Argument) : Option Bool :=
  match arguments.count (flag name) with
  | 0 => some false
  | 1 => some true
  | _ => none

end Argument

end PaintQuote.CommandLine
