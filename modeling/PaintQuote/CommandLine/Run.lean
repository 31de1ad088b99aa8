import PaintQuote.CommandLine.Command
import PaintQuote.Estimate.Estimator
import PaintQuote.Estimate.Interchange
import PaintQuote.Json.Printer
import PaintQuote.Json.Reader

/-!
# Running commands

What a command prints and writes.  A command reaches files only through the two operations of
`Files`, so that it can be run on files that are not on a disk.
-/

namespace PaintQuote.CommandLine

open Sheet Estimate

/-- How a program reaches files. -/
structure Files (m : Type → Type) where
  /-- The text of a file, if it can be read. -/
  read? : String → m (Option String)
  /-- Writes a file, and says whether it could. -/
  write : String → String → m Bool

/-- What a program did. -/
structure Outcome where
  /-- Zero if all went well. -/
  status : Nat
  /-- The text printed. -/
  output : String
  /-- The warnings and errors printed. -/
  messages : String
deriving DecidableEq, Repr

/-! ## Errors -/

/-- Why a command failed. -/
inductive CommandError where
  /-- A file that cannot be read. -/
  | unreadable (file : String)
  /-- A file that cannot be written. -/
  | unwritable (file : String)
  /-- A file that holds no options. -/
  | noOptions (file : String)
  /-- A file that holds no rooms. -/
  | noRooms (file : String)
  /-- Options with a fault. -/
  | badOptions (e : EstimateError)
  /-- Not a single room where one is wanted. -/
  | notSingle (rooms : Nat)
  /-- An estimate that cannot be made. -/
  | noEstimate (e : EstimateError)
  /-- A sheet without a proper name. -/
  | badSheet (e : ReferenceError)
  /-- An assignment without an equals sign. -/
  | noContent (assignment : String)
  /-- A text that is no cell. -/
  | badCell (text : String) (e : ReferenceError)
deriving DecidableEq, Repr

namespace CommandError

/-- The wording of an error. -/
def message : CommandError → String
  | unreadable file => "Failed to read '" ++ file ++ "'"
  | unwritable file => "Failed to write '" ++ file ++ "'"
  | noOptions file => "Invalid config '" ++ file ++ "'"
  | noRooms file => "Invalid room file '" ++ file ++ "'"
  | badOptions _ => "Invalid calculator options"
  | notSingle rooms => "--single needs exactly one room, found " ++ toString rooms
  | noEstimate e => e.message
  | badSheet _ => "Invalid sheet name"
  | noContent assignment => "Expected CELL=VALUE, got '" ++ assignment ++ "'"
  | badCell text _ => "Invalid cell '" ++ text ++ "'"

/-- What lies behind an error. -/
def cause? : CommandError → Option String
  | badOptions e => some e.message
  | badSheet e | badCell _ e => some e.message
  | _ => none

/-- The text printed for an error. -/
def report (e : CommandError) : String :=
  "Error: " ++ e.message ++ "\n"
    ++ (e.cause?.map fun cause => "\nCaused by:\n    " ++ cause ++ "\n").getD ""

end CommandError

namespace Outcome

/-- The outcome of a command that went well. -/
def ok (output : String) (messages : String := "") : Outcome := ⟨0, output, messages⟩

/-- The outcome of a command that failed after some messages. -/
def failed (e : CommandError) (messages : String := "") : Outcome := ⟨1, "", messages ++ e.report⟩

/-- The outcome for arguments that make no command. -/
def misused : Outcome := ⟨2, "", usage⟩

/-- The outcome of a command that may have failed. -/
def ofExcept : Except CommandError Outcome → Outcome
  | .ok outcome => outcome
  | .error e => failed e

end Outcome

/-! ## Formulas -/

namespace EvalRequest

/-- The cell that a text means. -/
def cellKey (sheet : SheetName) (text : String) : Except CommandError CellKey :=
  (CellKey.ofTextOn sheet text).mapError (.badCell text)

/-- The cell and the content of an assignment. -/
def entry (sheet : SheetName) (assignment : String) : Except CommandError Entry :=
  match Text.cutFirst? '=' assignment.toList with
  | none => .error (.noContent assignment)
  | some (cell, content) =>
      (cellKey sheet (String.ofList (Text.trim cell))).map fun key =>
        (key, Content.ofInput (String.ofList content))

/-- Evaluates a formula. -/
def run (r : EvalRequest) : Except CommandError Outcome := do
  let sheet ← (SheetName.ofText r.sheet).mapError CommandError.badSheet
  let entries ← r.assignments.mapM (entry sheet)
  let target ← cellKey sheet r.cell
  let (v, e, _) := (Engine.empty.load entries).evaluate none target (some r.formula)
  let messages :=
    match e.issue? target with
    | some issue => target.toText ++ ": " ++ issue.message ++ "\n"
    | none => ""
  .ok (.ok (v.toText ++ "\n") messages)

end EvalRequest

/-! ## Estimates -/

namespace EstimateRequest

variable {m : Type → Type} [Monad m]

/-- The value in a file, which is named in errors. -/
def load {α : Type} (files : Files m) (file : String) (read : Json → Option α)
    (e : CommandError) : ExceptT CommandError m α := do
  match ← files.read? file with
  | none => throw (.unreadable file)
  | some text =>
      match (Json.ofText? text).bind read with
      | some a => pure a
      | none => throw e

/-- The estimator that a request wants. -/
def estimator (files : Files m) (r : EstimateRequest) : ExceptT CommandError m Estimator := do
  let options ←
    match r.config? with
    | some file => load files file Options.ofJson? (.noOptions file)
    | none => pure .usual
  let options := if r.isForgetful then { options with keepsResults := false } else options
  ExceptT.mk (pure ((Estimator.ofOptions options).mapError CommandError.badOptions))

/-- The estimate of a single room or of a project, and the number of failures in it. -/
def estimate (e : Estimator) (isSingle : Bool) (rooms : List Room) :
    Except CommandError (Json × Nat) :=
  match isSingle, rooms with
  | true, [room] =>
      ((e.room room).mapError CommandError.noEstimate).map fun r =>
        (r.1.toJson, r.1.failures.length)
  | true, rooms => .error (.notSingle rooms.length)
  | false, rooms =>
      ((e.project rooms).mapError CommandError.noEstimate).map fun r =>
        (r.1.toJson, r.1.failures.length)

/-- The warning about failures. -/
def warning (failures : Nat) : String :=
  if failures = 0 then "" else "Warning: " ++ toString failures ++ " cells failed to evaluate\n"

/-- Shows an estimate or writes it to a file. -/
def deliver (files : Files m) (r : EstimateRequest) (rooms : Nat) (json : Json) (failures : Nat) :
    m Outcome := do
  let text := json.pretty ++ "\n"
  match r.output? with
  | none => pure (.ok text (warning failures))
  | some file =>
      if ← files.write file text then
        pure (.ok "" (warning failures ++ "Wrote estimate for " ++ toString rooms ++ " rooms to '"
          ++ file ++ "'\n"))
      else pure (.failed (.unwritable file) (warning failures))

/-- Estimates the rooms in a file. -/
def run (files : Files m) (r : EstimateRequest) : ExceptT CommandError m Outcome := do
  let e ← estimator files r
  let rooms ← load files r.input (Json.list? Room.ofJson?) (.noRooms r.input)
  let (json, failures) ← ExceptT.mk (pure (estimate e r.isSingle rooms))
  ExceptT.lift (deliver files r rooms.length json failures)

end EstimateRequest

/-! ## The program -/

/-- Runs a command. -/
def Command.run {m : Type → Type} [Monad m] (files : Files m) : Command → m Outcome
  | help => pure (.ok usage)
  | version => pure (.ok "paintbox 0.1.0\n")
  | defaults => pure (.ok (Options.usual.toJson.pretty ++ "\n"))
  | eval request => pure (.ofExcept request.run)
  | estimate request => do
      let result ← (request.run files).run
      pure (.ofExcept result)

/-- Runs the program with its arguments. -/
def run {m : Type → Type} [Monad m] (files : Files m) (arguments : List String) : m Outcome :=
  match Command.ofList? arguments with
  | some command => command.run files
  | none => pure .misused

end PaintQuote.CommandLine
