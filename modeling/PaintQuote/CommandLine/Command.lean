import PaintQuote.CommandLine.Argument

/-!
# Commands

What the program can be asked to do, and how the arguments say so.
-/

namespace PaintQuote.CommandLine

/-- The evaluation of a formula. -/
structure EvalRequest where
  /-- The formula. -/
  formula : String
  /-- What is put into cells first, each as a cell, an equals sign and a content. -/
  assignments : List String
  /-- The sheet of cells that name none. -/
  sheet : String
  /-- The cell that holds the formula. -/
  cell : String
deriving DecidableEq, Repr

/-- The estimate of the rooms in a file. -/
structure EstimateRequest where
  /-- The file with the rooms. -/
  input : String
  /-- The file with the options, if there is one. -/
  config? : Option String
  /-- Whether no results of formulas are to be kept. -/
  isForgetful : Bool
  /-- Whether a single room is to be estimated, instead of a project. -/
  isSingle : Bool
  /-- The file for the estimate, if it is not just shown. -/
  output? : Option String
deriving DecidableEq, Repr

/-- What the program can be asked to do. -/
inductive Command where
  /-- To show how it is used. -/
  | help
  /-- To show its version. -/
  | version
  /-- To show the usual options. -/
  | defaults
  /-- To evaluate a formula. -/
  | eval (request : EvalRequest)
  /-- To estimate rooms. -/
  | estimate (request : EstimateRequest)
deriving DecidableEq, Repr

/-- How the program is used. -/
def usage : String :=
  "Usage: paintbox <COMMAND>\n\n"
    ++ "  defaults\n"
    ++ "  eval <FORMULA> [--set <CELL=VALUE>]... [--sheet <SHEET>] [--cell <CELL>]\n"
    ++ "  estimate <INPUT> [--config <FILE>] [--no-cache] [--single] [--output <FILE>]\n"

namespace Command

/-- The option by which every command shows how it is used. -/
def helpForm : OptionForm := { name := "help", letter? := some 'h', hasValue := false }

/-- The options of `eval`. -/
def evalForms : List OptionForm :=
  [{ name := "set", letter? := some 's' }, { name := "sheet" }, { name := "cell" }, helpForm]

/-- The options of `estimate`. -/
def estimateForms : List OptionForm :=
  [{ name := "config", letter? := some 'c' }, { name := "no-cache", hasValue := false },
    { name := "single", hasValue := false }, { name := "output", letter? := some 'o' }, helpForm]

/-- The name of a file, which must not be empty. -/
def fileName? (s : String) : Option String := if s.isEmpty then none else some s

/-- The name of a file, if one is given. -/
def optionalFileName? : Option String → Option (Option String)
  | none => some none
  | some s => (fileName? s).map some

/-- The only value of a command. -/
def onlyOperand? (arguments : List Argument) : Option String :=
  match Argument.operands arguments with
  | [s] => some s
  | _ => none

/-- The command that arguments stand for, or a call for help. -/
def unlessHelp (arguments : List Argument) (command? : Option Command) : Option Command :=
  if arguments.contains (.flag helpForm.name) then some help else command?

/-- The request that the arguments of `eval` make. -/
def evalRequest? (arguments : List Argument) : Option EvalRequest := do
  let formula ← onlyOperand? arguments
  let sheet? ← Argument.single? "sheet" arguments
  let cell? ← Argument.single? "cell" arguments
  some ⟨formula, Argument.optionValues "set" arguments, sheet?.getD "Sheet1", cell?.getD "Z1"⟩

/-- The request that the arguments of `estimate` make. -/
def estimateRequest? (arguments : List Argument) : Option EstimateRequest := do
  let input ← (onlyOperand? arguments).bind fileName?
  let config? ← (Argument.single? "config" arguments).bind optionalFileName?
  let isForgetful ← Argument.flag? "no-cache" arguments
  let isSingle ← Argument.flag? "single" arguments
  let output? ← (Argument.single? "output" arguments).bind optionalFileName?
  some { input, config?, isForgetful, isSingle, output? }

/-- The command with the given name, for the arguments that follow it. -/
def ofName? (name : String) (arguments : List String) : Option Command :=
  match name with
  | "help" => some help
  | "defaults" => do
      let arguments ← Argument.ofList? [helpForm] arguments
      unlessHelp arguments (if arguments.isEmpty then some defaults else none)
  | "eval" => do
      let arguments ← Argument.ofList? evalForms arguments
      unlessHelp arguments ((evalRequest? arguments).map eval)
  | "estimate" => do
      let arguments ← Argument.ofList? estimateForms arguments
      unlessHelp arguments ((estimateRequest? arguments).map estimate)
  | _ => none

/-- The command that all arguments of the program make. -/
def ofList? : List String → Option Command
  | [] => none
  | first :: rest =>
      if first = "--version" then some version
      else if first = "--help" then some help
      else
        match first.toList with
        | '-' :: 'V' :: _ => some version
        | '-' :: 'h' :: _ => some help
        | _ => ofName? first rest

end Command

end PaintQuote.CommandLine
