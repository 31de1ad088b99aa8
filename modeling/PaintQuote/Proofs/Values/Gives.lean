import PaintQuote.Engine.Basic
import PaintQuote.Proofs.Decimal.Units
import PaintQuote.Proofs.Values.Like

/-!
# What a formula gives

A tree *gives* a value in a context if evaluating it has this value, whatever errors were noted before
(`Expr.Gives`).  There is a rule for each kind of tree, so the value of a formula is found along its tree.
What its cell shows depends on this value alone (`outcomeOf_value`).

Most formulas compute with numbers, and have no number only if a result has no decimal.  Such a *checked*
number is carried from one formula to the next as a number or as the error of numbers, and the rules for
operators and functions carry it along (`CellValue.checked`).
-/

namespace PaintQuote

open Sheet

/-- The value of a computation that may have no decimal. -/
def Sheet.CellValue.checked : Option Decimal → CellValue
  | some n => .number n
  | none => .error .number

theorem Sheet.CellValue.checked_ne_empty (n? : Option Decimal) : CellValue.checked n? ≠ .empty := by
  cases n? <;> nofun

namespace Formula

open Functions

/-! ## Computations -/

namespace Logged

/-- What is forgotten is no part of the value. -/
theorem sparing_fst (run : Logged Value) (log : Log) :
    ((Logged.sparing run).run log).1 = (run.run log).1 := by
  show ((if (run.run log).1.carriesError then Pure.pure (run.run log).1
    else Logged.keep log.length >>= fun _ => Pure.pure (run.run log).1 : Logged Value).run
      (run.run log).2).1 = (run.run log).1
  split
  next => rfl
  next => rfl

/-- A computation has a value, whatever was noted before. -/
def Gives {α : Type} (run : Logged α) (a : α) : Prop := ∀ log, (run.run log).1 = a

namespace Gives

variable {α β : Type}

theorem pure (a : α) : Gives (Pure.pure a) a := fun _ => rfl

theorem bind {run : Logged α} {f : α → Logged β} {a : α} {b : β} (h : Gives run a) (hf : Gives (f a) b) :
    Gives (run >>= f) b := by
  intro log
  show ((f (run.run log).1).run (run.run log).2).1 = b
  rw [h]
  exact hf _

theorem fail (e : FormulaError) : Gives (Logged.fail e) (.error e.cellError) := fun _ => rfl

theorem settle (a : Answer) : Gives (Logged.settle a) (settled a) := settle_fst a

theorem sparing {run : Logged Value} {v : Value} (h : Gives run v) : Gives (Logged.sparing run) v :=
  fun log => (sparing_fst run log).trans (h log)

theorem all {runs : List (Logged α)} {as : List α} (h : List.Forall₂ Gives runs as) :
    Gives (Logged.all runs) as := by
  induction h with
  | nil => exact pure []
  | cons h _ ih => exact h.bind (ih.bind (pure _))

theorem all_map {f : α → Logged β} {g : α → β} (h : ∀ a, Gives (f a) (g a)) (as : List α) :
    Gives (Logged.all (as.map f)) (as.map g) :=
  all (List.forall₂_map_left_iff.2 (List.forall₂_map_right_iff.2 (List.forall₂_same.2 fun a _ => h a)))

theorem unique {run : Logged α} {a b : α} (h : Gives run a) (h' : Gives run b) : a = b :=
  (h []).symm.trans (h' [])

end Gives

end Logged

/-! ## Reading -/

namespace Context

variable {c : Context} {sheet? : Option SheetName} {sheet : SheetName}

theorem gives_readCell (c : Context) (key : CellKey) :
    Logged.Gives (c.readCell key) (c.source.value key) := by
  intro log
  unfold readCell
  split
  next e he =>
    rw [he]
    rfl
  next => rfl

theorem gives_cellValue (hsheet : c.resolve sheet? = .ok sheet) (address : Address) :
    Logged.Gives (c.cellValue sheet? address) (.scalar (c.source.value ⟨sheet, address⟩)) := by
  rw [cellValue, hsheet]
  exact (c.gives_readCell _).bind (.pure _)

theorem gives_rangeValue (hsheet : c.resolve sheet? = .ok sheet) (area : Range) :
    Logged.Gives (c.rangeValue sheet? area)
      (.array (area.rows.map fun row => row.map fun address => c.source.value ⟨sheet, address⟩)) := by
  rw [rangeValue, hsheet]
  exact (Logged.Gives.all_map (fun _ => .all_map (fun _ => c.gives_readCell _) _) _).bind (.pure _)

/-- A name has a value in every context. -/
theorem exists_gives_nameValue (c : Context) (name : String) : ∃ v, Logged.Gives (c.nameValue name) v := by
  have hresolved : ∀ sheet, ∃ r, c.resolve (some sheet) = r := fun _ => ⟨_, rfl⟩
  unfold nameValue
  split
  next => exact ⟨_, .fail _⟩
  next defined _ =>
    split
    next key _ =>
      obtain ⟨r, hr⟩ := hresolved key.sheet
      cases r with
      | ok sheet => exact ⟨_, gives_cellValue hr _⟩
      | error e =>
          rw [cellValue, hr]
          exact ⟨_, .fail e⟩
    next sheet area _ =>
      obtain ⟨r, hr⟩ := hresolved sheet
      cases r with
      | ok sheet => exact ⟨_, gives_rangeValue hr _⟩
      | error e =>
          rw [rangeValue, hr]
          exact ⟨_, .fail e⟩
    next v _ => exact ⟨_, .pure _⟩

end Context

/-! ## What a cell shows -/

/-- What a cell shows whose formula has a value: zero for nothing. -/
def Value.shown : Value → CellValue
  | .empty => .number 0
  | v => v.toCell

theorem Value.shown_eq_empty_iff {v : Value} : v.shown = .empty ↔ v = .array [[.empty]] := by
  constructor
  · intro h
    unfold shown at h
    split at h
    next => cases h
    next hne =>
      unfold toCell at h
      split at h
      next => exact absurd (congrArg Value.scalar h) hne
      next => rw [h]
      next => cases h
  · rintro rfl
    rfl

theorem shownValue_toCell (c : Context) (e : Expr) :
    (Engine.shownValue c e).1.toCell = (evaluateAlone c e).1.shown := by
  unfold Engine.shownValue evaluateAlone
  rw [StateT.run_bind]
  generalize (evaluate c e).run [] = r
  obtain ⟨v, log⟩ := r
  cases v with
  | scalar w => cases w <;> rfl
  | array rows => rcases rows with _ | ⟨_ | ⟨w, _ | ⟨w', row⟩⟩, _ | ⟨row', rows⟩⟩ <;> rfl

/-- A formula that comes to nothing shows zero, and any other shows its value as a cell has it. -/
theorem outcomeOf_value (c : Context) (e : Expr) :
    (Engine.outcomeOf c e).value = (evaluateAlone c e).1.shown := by
  rw [← shownValue_toCell]
  unfold Engine.outcomeOf
  simp only []
  generalize (Engine.shownValue c e).1.toCell = v
  generalize (Engine.shownValue c e).2.head? = issue?
  cases v with
  | error e => cases issue? <;> rfl
  | _ => rfl

/-! ## Trees -/

namespace Expr

/-- A tree has a value in a context, whatever was noted before. -/
def Gives (c : Context) (e : Expr) (v : Value) : Prop := Logged.Gives (evaluate c e) v

namespace Gives

variable {c : Context}

theorem literal (l : Literal) : Gives c (.literal l) (.scalar l.value) := .pure _

/-- A reference without a sheet means the sheet of the formula. -/
theorem cell {r : CellReference} (hsheet : r.sheet? = none) :
    Gives c (.cell r) (.scalar (c.source.value ⟨c.sheet, r.address⟩)) := by
  refine .sparing (Context.gives_cellValue ?_ r.address)
  rw [hsheet]
  rfl

theorem range {r : RangeReference} (hsheet : r.sheet? = none) :
    Gives c (.range r)
      (.array (r.area.rows.map fun row => row.map fun address => c.source.value ⟨c.sheet, address⟩)) := by
  refine .sparing (Context.gives_rangeValue ?_ r.area)
  rw [hsheet]
  rfl

/-- A name that stands alone has its value within any formula. -/
theorem name {s : String} {v : Value} (h : (evaluateAlone c (.name s)).1 = v) : Gives c (.name s) v := by
  obtain ⟨w, hw⟩ := c.exists_gives_nameValue s
  have hname : Gives c (.name s) w := .sparing hw
  have heq : w = v := (hname []).symm.trans h
  exact heq ▸ hname

theorem binary {o : BinaryOperator} {left right : Expr} {u v w : Value} (hleft : Gives c left v)
    (hright : Gives c right w) (hu : settled (o.apply v w) = u) : Gives c (.binary o left right) u :=
  .sparing (hleft.bind (hright.bind (hu ▸ .settle _)))

theorem each {es : List Expr} {vs : List Value} (h : List.Forall₂ (Gives c) es vs) :
    List.Forall₂ Logged.Gives (evaluateEach c es) vs := by
  induction h with
  | nil => exact .nil
  | cons h _ ih => exact .cons h ih

/-- A function on values is given the values of its arguments. -/
theorem call {function : String} {f : Function} {answer : List Value → Answer} {arguments : List Expr}
    {vs : List Value} {v : Value} (hf : function? function = some f)
    (hcount : f.arityError? vs.length = none) (hanswer : f.implementation = .eager answer)
    (h : List.Forall₂ (Gives c) arguments vs) (hv : settled (answer vs) = v) :
    Gives c (.call function arguments) v := by
  have hruns := each h
  refine .sparing ?_
  rw [callFunction, hf]
  simp only [hruns.length_eq, hcount, hanswer]
  exact (Logged.Gives.all hruns).bind (hv ▸ .settle _)

/-- A choice has the value of the argument that its test chooses. -/
theorem choice {test yes no : Expr} {v w : Value} {b : Bool} (htest : Gives c test v)
    (hbool : v.toBool = .ok b) (hchosen : Gives c (if b then yes else no) w) :
    Gives c (.call "IF" [test, yes, no]) w := by
  have hf : function? "IF" = some (.deferred "IF" 2 (some 3) Functions.choice) := rfl
  have hanswer : Logged.Gives
      (Functions.choice [evaluate c test, evaluate c yes, evaluate c no]) (.ok w : Answer) := by
    refine htest.bind ?_
    simp only [hbool]
    cases b with
    | true => exact hchosen.bind (.pure _)
    | false => exact hchosen.bind (.pure _)
  refine .sparing ?_
  rw [callFunction, hf]
  exact hanswer.bind (.settle _)

end Gives

/-- A cell shows the value that its formula gives, unless this is nothing or an array. -/
theorem Gives.outcomeOf {c : Context} {e : Expr} {v : CellValue} (h : Gives c e (.scalar v))
    (hv : v ≠ .empty) : (Engine.outcomeOf c e).value = v := by
  have hvalue : (evaluateAlone c e).1 = .scalar v := h []
  rw [outcomeOf_value, hvalue]
  cases v with
  | empty => exact absurd rfl hv
  | _ => rfl

end Expr

/-! ## Checked numbers -/

theorem Functions.greater_eq (m n : Decimal) : greater m n = if n.less m then m else n := by
  simp only [greater, Decimal.compare_eq_gt_iff]

theorem settled_numberOr (n? : Option Decimal) : settled (numberOr n?) = .scalar (.checked n?) := by
  cases n? <;> rfl

namespace Expr

/-- A tree has a checked number as its value. -/
abbrev GivesNumber (c : Context) (e : Expr) (n? : Option Decimal) : Prop := Gives c e (.scalar (.checked n?))

namespace GivesNumber

variable {c : Context} {x y : Expr} {a b : Option Decimal}

theorem literal (n : Decimal) : GivesNumber c (.literal (.number n)) (some n) := Gives.literal _

theorem of_eq (hx : GivesNumber c x a) (h : a = b) : GivesNumber c x b := h ▸ hx

theorem binary {o : BinaryOperator} {operation : Decimal → Decimal → Option Decimal}
    (hx : GivesNumber c x a) (hy : GivesNumber c y b)
    (ho : ∀ m ∈ a, ∀ n ∈ b, o.onValues (.number m) (.number n) = numberOr (operation m n)) :
    GivesNumber c (.binary o x y) (do let m ← a; let n ← b; operation m n) := by
  have hvalue : settled (o.apply (.scalar (.checked a)) (.scalar (.checked b))) =
      .scalar (.checked (do let m ← a; let n ← b; operation m n)) := by
    cases a with
    | none => cases b <;> rfl
    | some m =>
        cases b with
        | none => rfl
        | some n => exact (congrArg settled (ho m rfl n rfl)).trans (settled_numberOr _)
  exact Gives.binary hx hy hvalue

theorem add (hx : GivesNumber c x a) (hy : GivesNumber c y b) :
    GivesNumber c (.binary .add x y) (do let m ← a; let n ← b; m.add? n) :=
  hx.binary hy fun _ _ _ _ => rfl

theorem subtract (hx : GivesNumber c x a) (hy : GivesNumber c y b) :
    GivesNumber c (.binary .subtract x y) (do let m ← a; let n ← b; m.sub? n) :=
  hx.binary hy fun _ _ _ _ => rfl

theorem multiply (hx : GivesNumber c x a) (hy : GivesNumber c y b) :
    GivesNumber c (.binary .multiply x y) (do let m ← a; let n ← b; m.mul? n) :=
  hx.binary hy fun _ _ _ _ => rfl

theorem divide (hx : GivesNumber c x a) (hy : GivesNumber c y b) (hb : ∀ n ∈ b, n.isZero = false) :
    GivesNumber c (.binary .divide x y) (do let m ← a; let n ← b; m.div? n) :=
  hx.binary hy fun _ _ n hn => by
    show BinaryOperator.quotient _ n = _
    rw [BinaryOperator.quotient, hb n hn]
    rfl

theorem greatest (hx : GivesNumber c x a) (hy : GivesNumber c y b) :
    GivesNumber c (.call "MAX" [x, y]) (do let m ← a; let n ← b; some (greater m n)) := by
  have hvalue : settled (maximum [.scalar (.checked a), .scalar (.checked b)]) =
      .scalar (.checked (do let m ← a; let n ← b; some (greater m n))) := by
    cases a <;> cases b <;> rfl
  exact Gives.call rfl rfl rfl (.cons hx (.cons hy .nil)) hvalue

theorem round (hx : GivesNumber c x a) :
    GivesNumber c (.call "ROUND" [x, .literal (.number 2)]) (a.map fun n => n.round 2 .halfAway) := by
  have hvalue : settled (roundBy .halfAway (.scalar (.checked a)) (.number 2)) =
      .scalar (.checked (a.map fun n => n.round 2 .halfAway)) := by
    cases a <;> rfl
  exact Gives.call rfl rfl rfl (.cons hx (.cons (Gives.literal _) .nil)) hvalue

theorem ceiling (hx : GivesNumber c x a) :
    GivesNumber c (.call "CEILING" [x, .literal (.number 1)])
      (do let n ← a; let q ← n.div? 1; q.ceil.mul? 1) := by
  have hvalue : settled (Functions.ceiling (.scalar (.checked a)) (.number 1)) =
      .scalar (.checked (do let n ← a; let q ← n.div? 1; q.ceil.mul? 1)) := by
    cases a with
    | none => rfl
    | some n =>
        have hsigns : signsClash n 1 = false := Bool.and_false _
        show settled (if signsClash n 1 then _ else snap n 1 Decimal.ceil) = _
        rw [hsigns, if_neg Bool.false_ne_true, snap]
        show _ = Value.scalar (.checked (n.div? 1 >>= fun q => q.ceil.mul? 1))
        cases n.div? 1 with
        | none => rfl
        | some q => exact settled_numberOr _
  exact Gives.call rfl rfl rfl (.cons hx (.cons (Gives.literal _) .nil)) hvalue

end GivesNumber

end Expr

end Formula

end PaintQuote
