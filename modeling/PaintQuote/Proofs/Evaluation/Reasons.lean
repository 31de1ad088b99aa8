import PaintQuote.Proofs.Evaluation.Origins

/-!
# Operators keep the reason

An operator hands on the first error among its operands, in the order in which they were evaluated, and
its own answers are no error values (`Expr.HandsErrors`).  So the earliest error explains the result of
every formula that is made of operators between cells and constants, as long as no constant is an error:
these are noted nowhere (`issue_explains_of_isPlain`).
-/

namespace PaintQuote.Formula

open Sheet Functions Logged

/-! ## Answers of operators -/

theorem Value.error?_scalar (c : CellValue) : (Value.scalar c).error? = c.error? := by cases c <;> rfl

theorem Value.error?_eq_none {v : Value} (h : v.carriesError = false) : v.error? = none := by
  cases v with
  | scalar c =>
      cases c with
      | error e => cases h
      | _ => rfl
  | array rows => rfl

/-- An answer is an error, or its value carries none. -/
def CleanAnswer (a : Answer) : Prop := ∀ v, a = .ok v → v.carriesError = false

namespace CleanAnswer

variable {α : Type} {x : Except FormulaError α} {f : α → Answer} {a b : Answer}

theorem error (e : FormulaError) : CleanAnswer (.error e) := nofun

theorem ok {v : Value} (h : v.carriesError = false) : CleanAnswer (.ok v) := by
  rintro _ ⟨⟩
  exact h

theorem bind (h : ∀ a, CleanAnswer (f a)) : CleanAnswer (x >>= f) := by
  cases x with
  | error e => exact error e
  | ok a => exact h a

theorem map {g : α → Value} (h : ∀ a, (g a).carriesError = false) : CleanAnswer (x.map g) := by
  cases x with
  | error e => exact error e
  | ok a => exact ok (h a)

theorem ite {p : Prop} [Decidable p] (ha : CleanAnswer a) (hb : CleanAnswer b) :
    CleanAnswer (if p then a else b) := by
  split
  next => exact ha
  next => exact hb

theorem numberOr (n : Option Decimal) : CleanAnswer (numberOr n) := by
  cases n with
  | none => exact error _
  | some n => exact ok rfl

end CleanAnswer

theorem power_clean (base exponent : Decimal) : CleanAnswer (power base exponent) := by
  unfold power
  split
  next =>
    split
    next => exact .error _
    next => exact .error _
    next => exact .ok rfl
  next =>
    refine .ite ?_ (.ite (.error _) (.numberOr _))
    split
    next => exact .numberOr _
    next => exact .error _

theorem arithmetic_clean {operation : Decimal → Decimal → Answer} (h : ∀ m n, CleanAnswer (operation m n))
    (v w : Value) : CleanAnswer (BinaryOperator.arithmetic operation v w) :=
  .bind fun m => .bind fun n => h m n

theorem joined_clean (v w : Value) : CleanAnswer (BinaryOperator.joined v w) := by
  unfold BinaryOperator.joined
  split
  next => exact .ok rfl
  next => exact .error _

theorem onValues_clean (o : BinaryOperator) (v w : Value) : CleanAnswer (o.onValues v w) := by
  cases o with
  | add | subtract | multiply => exact arithmetic_clean (fun _ _ => .numberOr _) v w
  | divide => exact arithmetic_clean (fun _ _ => .ite (.error _) (.numberOr _)) v w
  | power => exact arithmetic_clean power_clean v w
  | concatenate => exact joined_clean v w
  | _ => exact .ok rfl

/-- What an operation makes of operands, the first error among which is known: it hands that error on, and
otherwise answers with no error value. -/
def Handed (error? : Option ErrorValue) (a : Answer) : Prop :=
  match error? with
  | some e => a = .ok (.error e)
  | none => CleanAnswer a

theorem apply_handed (o : BinaryOperator) (v w : Value) : Handed (v.error?.or w.error?) (o.apply v w) := by
  unfold BinaryOperator.apply
  cases v.error? with
  | some e => rfl
  | none =>
      cases w.error? with
      | some e => rfl
      | none => exact onValues_clean o v w

theorem negated_handed (v : Value) : Handed v.error? (negated v) := by
  have hclean : ∀ w : Value, CleanAnswer (w.toNumber.map fun n => .number (-n)) := fun _ => .map fun _ => rfl
  rcases v with c | rows
  · cases c with
    | error e => rfl
    | number n => exact hclean (.number n)
    | text s => exact hclean (.text s)
    | boolean b => exact hclean (.boolean b)
    | empty => exact hclean .empty
  · exact hclean (.array rows)

theorem hundredth_handed (v : Value) : Handed v.error? (hundredth v) := by
  rcases v with c | rows
  · cases c with
    | error e => rfl
    | _ => exact CleanAnswer.bind fun _ => .numberOr _
  · exact CleanAnswer.bind fun _ => .numberOr _

/-! ## Reasons -/

namespace Expr

variable {c : Context} {e : Expr} {a : Answer}

/-- The earliest error that an expression notes is the one that its value is, if it is one. -/
def HasReason (c : Context) (e : Expr) : Prop :=
  (e.issuesIn c).head?.map FormulaError.cellError = (e.valueIn c).error?

/-- The earliest error along expressions is the first of them that is an error. -/
theorem HasReason.each {es : List Expr} (h : ∀ e ∈ es, e.HasReason c) :
    (es.flatMap (issuesIn c)).head?.map FormulaError.cellError = es.findSome? fun e => (e.valueIn c).error? := by
  rw [List.head?_flatMap, List.map_findSome?]
  induction es with
  | nil => rfl
  | cons e es ih =>
      obtain ⟨he, hes⟩ := List.forall_mem_cons.1 h
      rw [List.findSome?_cons, List.findSome?_cons, ih hes, Function.comp_apply, he]

/-- An operation that hands on the first error among its operands keeps the reason. -/
theorem HasReason.of_operands (hown : e.own c = Logged.settle a) (hkept : e.keptOperands c = e.operands)
    (hanswer : Handed (e.operands.findSome? fun x => (x.valueIn c).error?) a)
    (hoperands : ∀ x ∈ e.operands, x.HasReason c) : e.HasReason c := by
  have hvalue : e.valueIn c = settled a := by rw [valueIn_eq, hown, (Notes.settle a).value_eq]
  have hbefore := HasReason.each hoperands
  rw [HasReason, issuesIn_eq, hkept, hown, (Notes.settle a).issues_eq, hvalue]
  cases herror : e.operands.findSome? fun x => (x.valueIn c).error? with
  | some error =>
      rw [herror] at hbefore hanswer
      obtain rfl : a = .ok (.error error) := hanswer
      show (e.operands.flatMap (issuesIn c) ++ []).head?.map FormulaError.cellError = some error
      rw [List.append_nil, hbefore]
  | none =>
      rw [herror] at hbefore hanswer
      rw [Option.map_eq_none_iff] at hbefore
      cases a with
      | error reason =>
          show (e.operands.flatMap (issuesIn c) ++ [reason]).head?.map FormulaError.cellError = _
          rw [List.head?_append, hbefore]
          rfl
      | ok v =>
          have hclean : v.carriesError = false := hanswer v rfl
          rw [settled, hclean, Value.error?_eq_none hclean]
          rfl

/-- A formula is made of operators between cells and constants, and no constant is an error. -/
def isPlain : Expr → Bool
  | .literal (.error _) => false
  | .literal _ | .cell _ => true
  | .binary _ left right => left.isPlain && right.isPlain
  | .negate operand => operand.isPlain
  | .percent operand => operand.isPlain
  | .range _ | .name _ | .call _ _ | .array _ => false

theorem hasReason_cell (r : CellReference) : (Expr.cell r).HasReason c := by
  rw [HasReason, issuesIn_eq, valueIn_eq]
  show (if (c.cellValue r.sheet? r.address).value.carriesError then [] ++ (c.cellValue r.sheet? r.address).issues
    else []).head?.map FormulaError.cellError = (c.cellValue r.sheet? r.address).value.error?
  cases hsheet : c.resolve r.sheet? with
  | ok sheet =>
      have hnotes := Context.cellValue_notes hsheet r.address
      have hread := c.head?_readIssues ⟨sheet, r.address⟩
      rw [hnotes.value_eq, hnotes.issues_eq, List.nil_append, Value.error?_scalar]
      cases herror : (c.source.value ⟨sheet, r.address⟩).error? with
      | none => rw [if_neg (by simp [Value.carriesError, herror]), List.head?_nil, Option.map_none]
      | some error => rw [if_pos (by simp [Value.carriesError, herror]), hread, herror]
  | error e =>
      rw [Context.cellValue, hsheet]
      rfl

theorem hasReason_of_isPlain : ∀ e : Expr, e.isPlain = true → e.HasReason c
  | .literal l, h => by
      cases l with
      | error e => cases h
      | _ => rfl
  | .cell r, _ => hasReason_cell r
  | .binary o left right, h => by
      rw [isPlain, Bool.and_eq_true] at h
      have hanswer := apply_handed o (left.valueIn c) (right.valueIn c)
      refine .of_operands rfl rfl ?_ (List.forall_mem_cons.2
        ⟨hasReason_of_isPlain left h.1, List.forall_mem_singleton.2 (hasReason_of_isPlain right h.2)⟩)
      rw [operands, List.findSome?_cons, List.findSome?_singleton]
      cases hleft : (left.valueIn c).error? with
      | none => simpa only [hleft, Option.none_or] using hanswer
      | some error => simpa only [hleft, Option.some_or] using hanswer
  | .negate operand, h => by
      refine .of_operands rfl rfl ?_ (List.forall_mem_singleton.2 (hasReason_of_isPlain operand h))
      rw [operands, List.findSome?_singleton]
      exact negated_handed _
  | .percent operand, h => by
      refine .of_operands rfl rfl ?_ (List.forall_mem_singleton.2 (hasReason_of_isPlain operand h))
      rw [operands, List.findSome?_singleton]
      exact hundredth_handed _

end Expr

/-- The earliest error explains the result of a formula that is made of operators between cells and constants
that are no errors, and there is one only if the result is an error. -/
theorem issue_explains_of_isPlain (c : Context) {e : Expr} (h : e.isPlain = true) :
    (evaluateAlone c e).2.map FormulaError.cellError = (evaluateAlone c e).1.error? :=
  e.hasReason_of_isPlain h

end PaintQuote.Formula
