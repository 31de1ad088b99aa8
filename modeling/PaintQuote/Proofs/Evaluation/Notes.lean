import PaintQuote.Proofs.Values.Evaluation
import PaintQuote.Proofs.Values.Singles

/-!
# What is noted

A computation puts the errors that it notes after those that were noted before, and neither its result nor
what it notes depends on these (`Logged.Notes`).  There is a rule for each way in which computations are
put together.

What a call notes is what its arguments note at some places, one after the other (`callAnswer_notesAt`).  A
function of values keeps what all of its arguments note.  A choosing function keeps what those note that it
reaches, except for a value that it replaces (`Function.keptPlaces`).
-/

namespace PaintQuote.Formula

open Sheet Functions

/-! ## Computations -/

namespace Logged

variable {α β : Type}

/-- A computation has a result and notes errors, after those that were noted before and whatever these
are. -/
def Notes (run : Logged α) (a : α) (issues : Log) : Prop := ∀ log, run.run log = (a, log ++ issues)

/-- The result of a computation before which nothing was noted. -/
def value (run : Logged α) : α := (run.run []).1

/-- The errors that a computation notes if nothing was noted before. -/
def issues (run : Logged α) : Log := (run.run []).2

/-- A computation only puts errors after those that were noted before, and does not depend on these. -/
def Appends (run : Logged α) : Prop := Notes run (value run) (issues run)

namespace Notes

variable {run : Logged α} {a : α} {b : β} {l m : Log}

theorem value_eq (h : Notes run a l) : value run = a := congrArg Prod.fst (h [])

theorem issues_eq (h : Notes run a l) : issues run = l := congrArg Prod.snd (h [])

theorem appends (h : Notes run a l) : Appends run := by
  rw [Appends, h.value_eq, h.issues_eq]
  exact h

theorem pure (a : α) : Notes (Pure.pure a) a [] := fun log => by
  rw [List.append_nil]
  rfl

theorem bind {f : α → Logged β} (h : Notes run a l) (hf : Notes (f a) b m) :
    Notes (run >>= f) b (l ++ m) := fun log => by
  rw [StateT.run_bind, h, ← List.append_assoc]
  exact hf _

theorem note (e : FormulaError) : Notes (Logged.note e) () [e] := fun _ => rfl

theorem fail (e : FormulaError) : Notes (Logged.fail e) (.error e.cellError) [e] := (note e).bind (pure _)

/-- Computations in order note what each of them notes. -/
theorem all_map {f : α → Logged β} {g : α → β} {l : α → Log} :
    ∀ {as : List α}, (∀ a ∈ as, Notes (f a) (g a) (l a)) →
      Notes (Logged.all (as.map f)) (as.map g) (as.flatMap l)
  | [], _ => pure []
  | a :: as, h => by
      have hrest := all_map fun b hb => h b (List.mem_cons_of_mem a hb)
      have hlog : (a :: as).flatMap l = l a ++ (as.flatMap l ++ []) := by
        rw [List.append_nil, List.flatMap_cons]
      rw [hlog]
      exact (h a List.mem_cons_self).bind (hrest.bind (pure _))

theorem all {runs : List (Logged α)} (h : ∀ run ∈ runs, Appends run) :
    Notes (Logged.all runs) (runs.map value) (runs.flatMap issues) := by
  have hall := all_map (f := id) h
  rwa [List.map_id] at hall

/-- What follows a computation is told how many errors had been noted before it. -/
theorem marked {f : α × Nat → Logged β} (h : Notes run a l)
    (hf : ∀ log, (f (a, log.length)).run (log ++ l) = (b, log ++ m)) :
    Notes (Logged.marked run >>= f) b m := fun log => by
  -- The mark is how long the log was before, so what is kept up to it is just that log.
  have hmarked : (Logged.marked run).run log = ((a, log.length), log ++ l) :=
    congrArg (fun r : α × Log => ((r.1, log.length), r.2)) (h log)
  rw [StateT.run_bind, hmarked]
  exact hf log

/-- What was noted since is forgotten. -/
theorem keep {run : Logged α} (h : Notes run a m) (log : Log) :
    (Logged.keep log.length >>= fun _ => run).run (log ++ l) = (a, log ++ m) := by
  have hkeep : (Logged.keep log.length).run (log ++ l) = ((), log) :=
    congrArg (Prod.mk ()) (List.take_left' rfl)
  rw [StateT.run_bind, hkeep]
  exact h log

theorem sparing {run : Logged Value} {v : Value} (h : Notes run v l) :
    Notes (Logged.sparing run) v (if v.carriesError then l else []) := by
  refine h.marked fun log => ?_
  simp only []
  split
  next => rfl
  next => exact (pure v).keep log

end Notes

/-- What follows a computation has to be the same only for its value. -/
theorem Appends.bind_congr {run : Logged α} {f g : α → Logged β} (h : Appends run)
    (hfg : f (value run) = g (value run)) : run >>= f = run >>= g := by
  funext log
  show (f (run.run log).1).run (run.run log).2 = (g (run.run log).1).run (run.run log).2
  rw [h, hfg]

theorem Appends.marked_congr {run : Logged α} {f g : α × Nat → Logged β} (h : Appends run)
    (hfg : ∀ mark, f (value run, mark) = g (value run, mark)) :
    Logged.marked run >>= f = Logged.marked run >>= g := by
  funext log
  show (f ((run.run log).1, log.length)).run (run.run log).2 =
    (g ((run.run log).1, log.length)).run (run.run log).2
  rw [h, hfg]

theorem Appends.sparing {run : Logged Value} (h : Appends run) : Appends (Logged.sparing run) :=
  (Notes.sparing h).appends

end Logged

open Logged

/-! ## Settled answers -/

/-- The error that an answer is, if it is one. -/
def raised : Answer → Log
  | .ok _ => []
  | .error e => [e]

theorem Logged.Notes.settle (a : Answer) : Notes (Logged.settle a) (settled a) (raised a) := by
  cases a with
  | ok v => exact .pure v
  | error e => exact .fail e

/-! ## Reading -/

namespace Context

variable {c : Context} {sheet? : Option SheetName} {sheet : SheetName}

/-- What is noted where a cell is read: the error in it, if there is one. -/
def readIssues (c : Context) (key : CellKey) : Log :=
  ((c.source.value key).error?.map (.propagated key.toText)).toList

theorem readCell_notes (c : Context) (key : CellKey) :
    Notes (c.readCell key) (c.source.value key) (c.readIssues key) := by
  unfold readCell readIssues
  generalize c.source.value key = v
  cases v with
  | error e => exact (Notes.note _).bind (.pure _)
  | _ => exact .pure _

theorem cellValue_notes (hsheet : c.resolve sheet? = .ok sheet) (address : Address) :
    Notes (c.cellValue sheet? address) (.scalar (c.source.value ⟨sheet, address⟩))
      (c.readIssues ⟨sheet, address⟩) := by
  rw [cellValue, hsheet, ← (c.readIssues _).append_nil]
  exact (c.readCell_notes _).bind (.pure _)

theorem rangeValue_notes (hsheet : c.resolve sheet? = .ok sheet) (area : Range) :
    Notes (c.rangeValue sheet? area)
      (.array (area.rows.map fun row => row.map fun address => c.source.value ⟨sheet, address⟩))
      (area.rows.flatMap fun row => row.flatMap fun address => c.readIssues ⟨sheet, address⟩) := by
  rw [rangeValue, hsheet, ← (area.rows.flatMap _).append_nil]
  exact (Notes.all_map fun _ _ => .all_map fun _ _ => c.readCell_notes _).bind (.pure _)

theorem cellValue_appends (c : Context) (sheet? : Option SheetName) (address : Address) :
    Appends (c.cellValue sheet? address) := by
  cases hsheet : c.resolve sheet? with
  | ok sheet => exact (cellValue_notes hsheet address).appends
  | error e =>
      rw [cellValue, hsheet]
      exact (Notes.fail e).appends

theorem rangeValue_appends (c : Context) (sheet? : Option SheetName) (area : Range) :
    Appends (c.rangeValue sheet? area) := by
  cases hsheet : c.resolve sheet? with
  | ok sheet => exact (rangeValue_notes hsheet area).appends
  | error e =>
      rw [rangeValue, hsheet]
      exact (Notes.fail e).appends

theorem nameValue_appends (c : Context) (name : String) : Appends (c.nameValue name) := by
  unfold nameValue
  split
  next => exact (Notes.fail _).appends
  next =>
    split
    next => exact c.cellValue_appends _ _
    next => exact c.rangeValue_appends _ _
    next => exact (Notes.pure _).appends

end Context

/-! ## Places of arguments -/

namespace Functions

/-- The places of the arguments that a choice reaches: its test, and the branch that is taken. -/
def choicePlaces : List Value → List Nat
  | test :: _ :: no =>
      0 :: match test.toBool with
        | .error _ => []
        | .ok true => [1]
        | .ok false => if no.isEmpty then [] else [2]
  | _ => []

/-- The places among pairs of arguments that are reached: the tests up to the first that is true, and what
stands after it. -/
def firstTruePlaces : List Value → List Nat
  | test :: _ :: rest =>
      0 :: match test.toBool with
        | .error _ => []
        | .ok true => [1]
        | .ok false => (firstTruePlaces rest).map (· + 2)
  | _ => []

/-- The places of the arguments that a choice among pairs reaches: none, if they do not come in pairs. -/
def choicesPlaces (vs : List Value) : List Nat :=
  if vs.length % 2 = 1 then [] else firstTruePlaces vs

/-- Whether a value is an error of the given kind. -/
def isCaught (caught : ErrorValue → Bool) : Value → Bool
  | .error e => caught e
  | _ => false

/-- The places of the arguments that a replacement reaches: its fallback only if the value is caught. -/
def replacingPlaces (caught : ErrorValue → Bool) : List Value → List Nat
  | v :: _ :: _ => if isCaught caught v then [0, 1] else [0]
  | _ => []

/-- The places of the arguments whose errors stay noted in a replacement. -/
def unreplacedPlaces (caught : ErrorValue → Bool) : List Value → List Nat
  | v :: _ :: _ => if isCaught caught v then [1] else [0]
  | _ => []

/-- The places among pairs of arguments that are reached: the tests up to the first that is a case for a
value, and what stands after it, or else the last argument if it stands alone. -/
def casePlaces (v : Value) : List Value → List Nat
  | test :: _ :: rest =>
      0 :: match test.error? with
        | some _ => []
        | none => if isCaseFor v test then [1] else (casePlaces v rest).map (· + 2)
  | [_] => [0]
  | [] => []

/-- The places of the arguments that a choice among cases reaches: all but the first only if this is no
error. -/
def switchPlaces : List Value → List Nat
  | subject :: cases =>
      0 :: match subject.error? with
        | some _ => []
        | none => (casePlaces subject cases).map (· + 1)
  | [] => []

/-- The places of the arguments that a choice by number reaches: the number, and the choice with this
number. -/
def choosePlaces : List Value → List Nat
  | number :: choices =>
      0 :: match number.toNumber with
        | .error _ => []
        | .ok n => ((choiceAt? n.trunc (List.range choices.length)).map (· + 1)).toList
  | [] => []

end Functions

namespace Function

/-- The places of the arguments that a function reaches, given the values of all of them. -/
def reachedPlaces (f : Function) (vs : List Value) : List Nat :=
  match f.name with
  | "CHOOSE" => choosePlaces vs
  | "IF" => choicePlaces vs
  | "IFERROR" => replacingPlaces (fun _ => true) vs
  | "IFNA" => replacingPlaces (· == .notAvailable) vs
  | "IFS" => choicesPlaces vs
  | "SWITCH" => switchPlaces vs
  | _ => List.range vs.length

/-- The places of the arguments whose errors stay noted: those that a function reaches, unless their value
is replaced. -/
def keptPlaces (f : Function) (vs : List Value) : List Nat :=
  match f.name with
  | "IFERROR" => unreplacedPlaces (fun _ => true) vs
  | "IFNA" => unreplacedPlaces (· == .notAvailable) vs
  | _ => f.reachedPlaces vs

end Function

/-! ## What is noted at places -/

/-- What the computations at places note. -/
def issuesAt (runs : List (Logged Value)) (places : List Nat) : Log :=
  places.flatMap fun place => (runs[place]?).elim [] issues

@[simp] theorem issuesAt_nil (runs : List (Logged Value)) : issuesAt runs [] = [] := rfl

@[simp] theorem issuesAt_cons (runs : List (Logged Value)) (place : Nat) (places : List Nat) :
    issuesAt runs (place :: places) = (runs[place]?).elim [] issues ++ issuesAt runs places := rfl

theorem issuesAt_map_add (before runs : List (Logged Value)) (places : List Nat) :
    issuesAt (before ++ runs) (places.map (· + before.length)) = issuesAt runs places := by
  simp only [issuesAt, List.flatMap_map]
  refine congrArg (fun f => places.flatMap f) (funext fun place => ?_)
  rw [List.getElem?_append_right (Nat.le_add_left _ _), Nat.add_sub_cancel]

theorem issuesAt_range : ∀ runs : List (Logged Value),
    issuesAt runs (List.range runs.length) = runs.flatMap issues
  | [] => rfl
  | run :: runs => by
      have hrest := issuesAt_map_add [run] runs (List.range runs.length)
      rw [List.length_cons, List.range_succ_eq_map, issuesAt_cons, List.flatMap_cons,
        ← issuesAt_range runs]
      exact congrArg (issues run ++ ·) hrest

/-! ## Choosing functions -/

/-- A function of computations notes what they note at places that their values decide. -/
def NotesAt (answer : List (Logged Value) → Logged Answer) (places : List Value → List Nat) : Prop :=
  ∀ runs, (∀ run ∈ runs, Appends run) → ∃ a, Notes (answer runs) a (issuesAt runs (places (runs.map value)))

namespace Functions

variable {run : Logged Value} {runs : List (Logged Value)} {places : List Nat}

/-- A computation that comes first notes what stands at the first place. -/
theorem first_notes {f : Value → Logged Answer} (h : Appends run)
    (hf : ∃ a, Notes (f (value run)) a (issuesAt (run :: runs) places)) :
    ∃ a, Notes (run >>= f) a (issuesAt (run :: runs) (0 :: places)) := hf.imp fun _ ha => h.bind ha

theorem answerOf_notes {place : Nat} (hrun : runs[place]? = some run) (h : Appends run) :
    Notes (answerOf run) (.ok (value run)) (issuesAt runs [place]) := by
  rw [issuesAt_cons, hrun]
  exact h.bind (.pure _)

theorem choice_notesAt : NotesAt choice choicePlaces
  | [], _ => ⟨_, .pure _⟩
  | [_], _ => ⟨_, .pure _⟩
  | test :: yes :: no, h => by
      refine first_notes (h test (by simp)) ?_
      cases (value test).toBool with
      | error e => exact ⟨_, .pure _⟩
      | ok b =>
          cases b with
          | true => exact ⟨_, answerOf_notes rfl (h yes (by simp))⟩
          | false =>
              cases no with
              | nil => exact ⟨_, .pure _⟩
              | cons other rest => exact ⟨_, answerOf_notes rfl (h other (by simp))⟩

theorem firstTrue_notesAt : NotesAt firstTrue firstTruePlaces
  | [], _ => ⟨_, .pure _⟩
  | [_], _ => ⟨_, .pure _⟩
  | test :: yes :: rest, h => by
      have hrest := firstTrue_notesAt rest fun run hrun => h run (by simp [hrun])
      -- The places of the later pairs are counted from behind this one.
      rw [← issuesAt_map_add [test, yes]] at hrest
      refine first_notes (h test (by simp)) ?_
      cases (value test).toBool with
      | error e => exact ⟨_, .pure _⟩
      | ok b =>
          cases b with
          | true => exact ⟨_, answerOf_notes rfl (h yes (by simp))⟩
          | false => exact hrest

theorem choices_notesAt : NotesAt choices choicesPlaces := by
  intro runs h
  unfold choices choicesPlaces
  rw [List.length_map]
  split
  next => exact ⟨_, .pure _⟩
  next => exact firstTrue_notesAt runs h

/-- A replacement forgets what was noted by the value that it catches. -/
theorem replacing_cons (caught : ErrorValue → Bool) (run other : Logged Value) (rest : List (Logged Value)) :
    replacing caught (run :: other :: rest) = Logged.marked run >>= fun found =>
      if isCaught caught found.1 then Logged.keep found.2 >>= fun _ => answerOf other
      else pure (.ok found.1) := by
  refine congrArg (Logged.marked run >>= ·) (funext fun found => ?_)
  rcases found with ⟨⟨v⟩ | rows, mark⟩
  · cases v <;> rfl
  · rfl

theorem replacing_notesAt (caught : ErrorValue → Bool) :
    NotesAt (replacing caught) (unreplacedPlaces caught)
  | [], _ => ⟨_, .pure _⟩
  | [_], _ => ⟨_, .pure _⟩
  | run :: other :: rest, h => by
      have hrun : Appends run := h run (by simp)
      have hother : Notes (answerOf other) (.ok (value other)) (issuesAt (run :: other :: rest) [1]) :=
        answerOf_notes rfl (h other (by simp))
      rw [replacing_cons]
      refine ⟨if isCaught caught (value run) then .ok (value other) else .ok (value run),
        hrun.marked fun log => ?_⟩
      simp only [List.map_cons, unreplacedPlaces]
      cases isCaught caught (value run) with
      | true => exact hother.keep log
      | false =>
          show _ = (Except.ok (value run), log ++ (issues run ++ []))
          rw [List.append_nil]
          rfl

/-- A choice among cases ends at a case that is an error. -/
theorem firstCase_cons (v : Value) (test yes : Logged Value) (rest : List (Logged Value)) :
    firstCase v (test :: yes :: rest) = test >>= fun w =>
      match w.error? with
      | some e => pure (.ok (.error e))
      | none => if isCaseFor v w then answerOf yes else firstCase v rest := by
  refine congrArg (test >>= ·) (funext fun w => ?_)
  rcases w with ⟨v⟩ | rows
  · cases v <;> rfl
  · rfl

theorem switch_cons (subject : Logged Value) (cases : List (Logged Value)) :
    switch (subject :: cases) = subject >>= fun v =>
      match v.error? with
      | some e => pure (.ok (.error e))
      | none => firstCase v cases := by
  refine congrArg (subject >>= ·) (funext fun w => ?_)
  rcases w with ⟨v⟩ | rows
  · cases v <;> rfl
  · rfl

theorem firstCase_notesAt (v : Value) : NotesAt (firstCase v) (casePlaces v)
  | [], _ => ⟨_, .pure _⟩
  | [otherwise], h => ⟨_, answerOf_notes rfl (h otherwise (by simp))⟩
  | test :: yes :: rest, h => by
      have hrest := firstCase_notesAt v rest fun run hrun => h run (by simp [hrun])
      rw [← issuesAt_map_add [test, yes]] at hrest
      rw [firstCase_cons]
      refine first_notes (h test (by simp)) ?_
      cases (value test).error? with
      | some e => exact ⟨_, .pure _⟩
      | none =>
          cases isCaseFor v (value test) with
          | true => exact ⟨_, answerOf_notes rfl (h yes (by simp))⟩
          | false => exact hrest

theorem switch_notesAt : NotesAt switch switchPlaces
  | [], _ => ⟨_, .pure _⟩
  | subject :: cases, h => by
      have hcases := firstCase_notesAt (value subject) cases fun run hrun => h run (by simp [hrun])
      rw [← issuesAt_map_add [subject]] at hcases
      rw [switch_cons]
      refine first_notes (h subject (by simp)) ?_
      cases (value subject).error? with
      | some e => exact ⟨_, .pure _⟩
      | none => exact hcases

/-- A choice by number is the one at the place with the number. -/
theorem choiceAt?_eq_bind {α : Type} (number : Decimal) (choices : List α) :
    choiceAt? number choices =
      (choiceAt? number (List.range choices.length)).bind fun place => choices[place]? := by
  unfold choiceAt?
  split
  next n _ =>
    rcases Nat.lt_or_ge n choices.length with h | h
    · rw [List.getElem?_range h]
      rfl
    · rw [List.getElem?_eq_none h, List.getElem?_eq_none (by simpa using h)]
      rfl
  next => rfl

theorem choiceAt?_range_lt {number : Decimal} {count place : Nat}
    (h : choiceAt? number (List.range count) = some place) : place < count :=
  List.mem_range.1 (mem_of_choiceAt? h)

theorem choose_notesAt : NotesAt choose choosePlaces
  | [], _ => ⟨_, .pure _⟩
  | number :: choices, h => by
      refine first_notes (h number (by simp)) ?_
      cases (value number).toNumber with
      | error e => exact ⟨_, .pure _⟩
      | ok n =>
          simp only [List.length_map, choiceAt?_eq_bind n.trunc choices]
          cases hplace : choiceAt? n.trunc (List.range choices.length) with
          | none => exact ⟨_, .pure _⟩
          | some place =>
              have hlt := choiceAt?_range_lt hplace
              simp only [Option.bind_some, List.getElem?_eq_getElem hlt]
              exact ⟨_, answerOf_notes (List.getElem?_eq_getElem (by simpa using hlt)) (h _ (by simp))⟩

end Functions

/-! ## Calls -/

/-- The functions of computations in the library, with their names. -/
theorem lazy_named : ∀ f ∈ library, ∀ answer, f.implementation = .lazy answer →
    (f.name = "CHOOSE" ∧ answer = choose) ∨ (f.name = "IF" ∧ answer = choice) ∨
    (f.name = "IFERROR" ∧ answer = replacingErrors) ∨ (f.name = "IFNA" ∧ answer = replacingMissing) ∨
    (f.name = "IFS" ∧ answer = choices) ∨ (f.name = "SWITCH" ∧ answer = switch) := by
  unfold library
  simp only [List.forall_mem_cons]
  simp [Function.eager, Function.deferred, eq_comm]

/-- The functions of values in the library have other names. -/
theorem eager_named : ∀ f ∈ library, ∀ answer, f.implementation = .eager answer →
    f.name ∉ ["CHOOSE", "IF", "IFERROR", "IFNA", "IFS", "SWITCH"] := by
  unfold library
  simp only [List.forall_mem_cons]
  simp [Function.eager, Function.deferred]

/-- A function of computations notes what they note at the places that it keeps. -/
theorem lazy_notesAt {f : Function} (hf : f ∈ library) {answer : List (Logged Value) → Logged Answer}
    (hanswer : f.implementation = .lazy answer) : NotesAt answer f.keptPlaces := by
  obtain ⟨name, least, most?, implementation⟩ := f
  rcases lazy_named _ hf answer hanswer with
    ⟨rfl, rfl⟩ | ⟨rfl, rfl⟩ | ⟨rfl, rfl⟩ | ⟨rfl, rfl⟩ | ⟨rfl, rfl⟩ | ⟨rfl, rfl⟩
  · exact choose_notesAt
  · exact choice_notesAt
  · exact replacing_notesAt _
  · exact replacing_notesAt _
  · exact choices_notesAt
  · exact switch_notesAt

/-- A function of values reaches all of its arguments. -/
theorem reachedPlaces_eager {f : Function} (hf : f ∈ library) {answer : List Value → Answer}
    (hanswer : f.implementation = .eager answer) (vs : List Value) :
    f.reachedPlaces vs = List.range vs.length := by
  have hname := eager_named f hf answer hanswer
  simp only [List.mem_cons, List.not_mem_nil, or_false, not_or] at hname
  obtain ⟨hchoose, hif, hiferror, hifna, hifs, hswitch⟩ := hname
  unfold Function.reachedPlaces
  split
  all_goals first | contradiction | rfl

/-- A function of values keeps what all of its arguments note. -/
theorem keptPlaces_eager {f : Function} (hf : f ∈ library) {answer : List Value → Answer}
    (hanswer : f.implementation = .eager answer) (vs : List Value) :
    f.keptPlaces vs = List.range vs.length := by
  have hname := eager_named f hf answer hanswer
  simp only [List.mem_cons, List.not_mem_nil, or_false, not_or] at hname
  obtain ⟨-, -, hiferror, hifna, -, -⟩ := hname
  unfold Function.keptPlaces
  split
  next => contradiction
  next => contradiction
  next => exact reachedPlaces_eager hf hanswer vs

/-- The answer of a call, whose own error is not noted yet. -/
def callAnswer (name : String) (arguments : List (Logged Value)) : Logged Answer :=
  match function? name with
  | none => pure (.error (.unknownFunction name))
  | some f =>
      match f.arityError? arguments.length with
      | some e => pure (.error e)
      | none =>
          match f.implementation with
          | .lazy answer => answer arguments
          | .eager answer => do
              let vs ← Logged.all arguments
              pure (answer vs)

theorem callFunction_eq_bind (name : String) (arguments : List (Logged Value)) :
    callFunction name arguments = callAnswer name arguments >>= Logged.settle := by
  unfold callFunction callAnswer
  cases function? name with
  | none => rfl
  | some f =>
      simp only []
      cases f.arityError? arguments.length with
      | some e => rfl
      | none => cases f.implementation <;> rfl

/-- Places of the arguments of a call: none, if there is no such function or it does not take as many. -/
def placesBy (places : Function → List Value → List Nat) (name : String) (vs : List Value) : List Nat :=
  match function? name with
  | none => []
  | some f => if f.takes vs.length then places f vs else []

/-- The places of the arguments that a call reaches, given the values of all of them. -/
def reachedBy : String → List Value → List Nat := placesBy Function.reachedPlaces

/-- The places of the arguments of a call whose errors stay noted, given the values of all of them. -/
def keptBy : String → List Value → List Nat := placesBy Function.keptPlaces

/-- A call notes what its arguments note at the places that its function keeps. -/
theorem callAnswer_notesAt (name : String) : NotesAt (callAnswer name) (keptBy name) := by
  intro runs h
  unfold callAnswer keptBy placesBy
  cases hfunction : function? name with
  | none => exact ⟨_, .pure _⟩
  | some f =>
      have hf := mem_library_of_function? hfunction
      simp only [Function.arityError?, List.length_map]
      cases f.takes runs.length with
      | false => exact ⟨_, .pure _⟩
      | true =>
          cases hanswer : f.implementation with
          | lazy answer => exact lazy_notesAt hf hanswer runs h
          | eager answer =>
              refine ⟨answer (runs.map value), ?_⟩
              simp only [if_true]
              rw [keptPlaces_eager hf hanswer, List.length_map, issuesAt_range,
                ← (runs.flatMap issues).append_nil]
              exact (Notes.all h).bind (.pure _)

end PaintQuote.Formula
