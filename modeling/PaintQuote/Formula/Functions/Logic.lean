import PaintQuote.Formula.Functions.Arguments
import PaintQuote.Formula.Operator

/-!
# Logical functions

Conjunction and its relatives work on all of their arguments.  The choosing functions are lazy: they
run the arguments that decide, in order, and the one that is chosen.  The errors noted by a value
that gives way to its replacement are forgotten.
-/

namespace PaintQuote.Formula.Functions

open Sheet

/-! ## Connectives -/

/-- Whether all logical values are true. -/
def conjunction (vs : List Value) : Answer := (logicals vs).map fun bs => .boolean (bs.all id)

/-- Whether one logical value is true. -/
def disjunction (vs : List Value) : Answer := (logicals vs).map fun bs => .boolean (bs.any id)

/-- Whether the number of true logical values is odd. -/
def parity (vs : List Value) : Answer :=
  (logicals vs).map fun bs => .boolean ((bs.filter id).length % 2 == 1)

/-- The opposite of a logical value. -/
def negation (v : Value) : Answer := v.toBool.map fun b => .boolean (!b)

/-! ## Choices -/

/-- The answer of a computation. -/
def answerOf (run : Logged Value) : Logged Answer := do
  let v ← run
  pure (.ok v)

/-- The second argument if the first is true, else the third or false. -/
def choice : List (Logged Value) → Logged Answer
  | test :: yes :: no => do
      let v ← test
      match v.toBool with
      | .error e => pure (.error e)
      | .ok true => answerOf yes
      | .ok false =>
          match no with
          | run :: _ => answerOf run
          | [] => pure (.ok (.boolean false))
  | _ => pure (.ok .empty)

/-- The argument after the first true one, among pairs of arguments. -/
def firstTrue : List (Logged Value) → Logged Answer
  | test :: yes :: rest => do
      let v ← test
      match v.toBool with
      | .error e => pure (.error e)
      | .ok true => answerOf yes
      | .ok false => firstTrue rest
  | _ => pure (.ok (.error .notAvailable))

/-- The argument after the first true one; the arguments have to come in pairs. -/
def choices (runs : List (Logged Value)) : Logged Answer :=
  if runs.length % 2 = 1 then
    pure (.error (.argumentCount "IFS" "condition/value pairs" runs.length))
  else firstTrue runs

/-- The first argument, or the second if the first is an error of the given kind. -/
def replacing (caught : ErrorValue → Bool) : List (Logged Value) → Logged Answer
  | run :: other :: _ => do
      let (v, mark) ← Logged.marked run
      match v with
      | .error e =>
          if caught e then
            Logged.keep mark
            answerOf other
          else pure (.ok v)
      | v => pure (.ok v)
  | _ => pure (.ok .empty)

/-- The first argument, or the second if the first is an error. -/
def replacingErrors : List (Logged Value) → Logged Answer := replacing fun _ => true

/-- The first argument, or the second if the first is not available. -/
def replacingMissing : List (Logged Value) → Logged Answer := replacing (· == .notAvailable)

/-- Whether a value is a case for another: they are of one kind, or one is nothing, and neither
comes before the other. -/
def isCaseFor (v w : Value) : Bool :=
  (Value.sameKind v w || v == .empty || w == .empty) && v.compareTo w == .eq

/-- The argument after the first case for a value, or the last argument if it stands alone. -/
def firstCase (v : Value) : List (Logged Value) → Logged Answer
  | test :: yes :: rest => do
      let w ← test
      match w with
      | .error e => pure (.ok (.error e))
      | w => if isCaseFor v w then answerOf yes else firstCase v rest
  | [otherwise] => answerOf otherwise
  | [] => pure (.ok (.error .notAvailable))

/-- The argument after the first case for the first argument. -/
def switch : List (Logged Value) → Logged Answer
  | subject :: cases => do
      let v ← subject
      match v with
      | .error e => pure (.ok (.error e))
      | v => firstCase v cases
  | [] => pure (.ok .empty)

end PaintQuote.Formula.Functions
