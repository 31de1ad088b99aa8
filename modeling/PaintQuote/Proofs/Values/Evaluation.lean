import PaintQuote.Formula.Evaluation
import PaintQuote.Proofs.Values.Library

/-!
# Formulas over equal values

Over cells with equal values a formula has equal values and notes the same errors, whatever the forms of
the numbers in the cells, unless it calls a function that tells equal numbers apart (`evaluate_agree`).
Those are the three that see the sign of a zero, the remainder, and the choice by number, which spells
its number in an error.  A rounding up to multiples of a constant other than zero is not among them.
-/

namespace PaintQuote.Formula

open Sheet Functions

/-! ## Computations that agree -/

/-- Two computations note the same errors and have related results. -/
def AgreeLogged {α β : Type} (R : α → β → Prop) (run : Logged α) (run' : Logged β) : Prop :=
  ∀ log, R (run.run log).1 (run'.run log).1 ∧ (run.run log).2 = (run'.run log).2

namespace AgreeLogged

variable {α β γ δ : Type} {R : α → β → Prop} {S : γ → δ → Prop} {run : Logged α} {run' : Logged β}

theorem pure {a : α} {b : β} (h : R a b) : AgreeLogged R (Pure.pure a) (Pure.pure b) :=
  fun _ => ⟨h, rfl⟩

theorem bind {f : α → Logged γ} {g : β → Logged δ} (h : AgreeLogged R run run')
    (hfg : ∀ a b, R a b → AgreeLogged S (f a) (g b)) : AgreeLogged S (run >>= f) (run' >>= g) := by
  intro log
  obtain ⟨hvalue, hlog⟩ := h log
  have hrest := hfg _ _ hvalue (run'.run log).2
  show S ((f (run.run log).1).run (run.run log).2).1 _ ∧
    ((f (run.run log).1).run (run.run log).2).2 = _
  rw [hlog]
  exact hrest

/-- A computation that two computations start with. -/
theorem bind_left (run : Logged α) {f : α → Logged γ} {g : α → Logged δ}
    (hfg : ∀ a, AgreeLogged S (f a) (g a)) : AgreeLogged S (run >>= f) (run >>= g) :=
  fun _ => hfg _ _

theorem refl {R : α → α → Prop} (hR : ∀ a, R a a) (run : Logged α) : AgreeLogged R run run :=
  fun _ => ⟨hR _, rfl⟩

theorem imp {S : α → β → Prop} (h : AgreeLogged R run run') (hRS : ∀ a b, R a b → S a b) :
    AgreeLogged S run run' := fun log => ⟨hRS _ _ (h log).1, (h log).2⟩

theorem settle {a b : Answer} (h : SameAnswer a b) :
    AgreeLogged Value.Like (Logged.settle a) (Logged.settle b) := by
  cases h with
  | ok h => exact pure h
  | error e => exact refl Value.Like.refl _

theorem marked (h : AgreeLogged R run run') :
    AgreeLogged (fun p q => R p.1 q.1 ∧ p.2 = q.2) (Logged.marked run) (Logged.marked run') :=
  fun log => ⟨⟨(h log).1, rfl⟩, (h log).2⟩

theorem all {runs : List (Logged α)} {runs' : List (Logged β)}
    (h : List.Forall₂ (AgreeLogged R) runs runs') :
    AgreeLogged (List.Forall₂ R) (Logged.all runs) (Logged.all runs') := by
  induction h with
  | nil => exact pure .nil
  | cons h _ ih => exact h.bind fun _ _ hab => ih.bind fun _ _ hrest => pure (.cons hab hrest)

end AgreeLogged

theorem any_error_eq {vs ws : List CellValue} (h : List.Forall₂ CellValue.Like vs ws) :
    (vs.any fun v => v.error?.isSome) = ws.any fun v => v.error?.isSome := by
  induction h with
  | nil => rfl
  | cons h _ ih => rw [List.any_cons, List.any_cons, h.error?_eq, ih]

theorem Value.Like.carriesError_eq {v w : Value} (h : v.Like w) : v.carriesError = w.carriesError := by
  cases h with
  | scalar h => exact congrArg Option.isSome h.error?_eq
  | array h => exact any_error_eq (List.rel_flatten h)

theorem AgreeLogged.sparing {run run' : Logged Value} (h : AgreeLogged Value.Like run run') :
    AgreeLogged Value.Like (Logged.sparing run) (Logged.sparing run') := by
  refine h.marked.bind ?_
  rintro ⟨v, mark⟩ ⟨w, mark'⟩ ⟨hvw, hmark⟩
  obtain rfl : mark = mark' := hmark
  simp only [Value.Like.carriesError_eq hvw]
  split
  next => exact .pure hvw
  next => exact .bind_left _ fun _ => .pure hvw

/-! ## Functions of computations -/

/-- Arguments that agree, as computations. -/
abbrev SameRuns : List (Logged Value) → List (Logged Value) → Prop :=
  List.Forall₂ (AgreeLogged Value.Like)

section Runs

variable {runs runs' : List (Logged Value)}

theorem answerOf_agree {run run' : Logged Value} (h : AgreeLogged Value.Like run run') :
    AgreeLogged SameAnswer (answerOf run) (answerOf run') :=
  h.bind fun _ _ hvw => .pure (.ok hvw)

theorem choice_agree (h : SameRuns runs runs') : AgreeLogged SameAnswer (choice runs) (choice runs') := by
  cases h with
  | nil => exact .pure (.refl _)
  | cons htest h =>
      cases h with
      | nil => exact .pure (.refl _)
      | cons hyes hno =>
          refine htest.bind fun v w hvw => ?_
          rw [hvw.toBool_eq]
          cases w.toBool with
          | error e => exact .pure (.refl _)
          | ok b =>
              cases b with
              | true => exact answerOf_agree hyes
              | false =>
                  cases hno with
                  | nil => exact .pure (.refl _)
                  | cons hrun => exact answerOf_agree hrun

theorem firstTrue_agree : ∀ {runs runs' : List (Logged Value)}, SameRuns runs runs' →
    AgreeLogged SameAnswer (firstTrue runs) (firstTrue runs')
  | _, _, .nil => .pure (.refl _)
  | _, _, .cons _ .nil => .pure (.refl _)
  | _, _, .cons htest (.cons hyes hrest) => by
      refine htest.bind fun v w hvw => ?_
      rw [hvw.toBool_eq]
      cases w.toBool with
      | error e => exact .pure (.refl _)
      | ok b =>
          cases b with
          | true => exact answerOf_agree hyes
          | false => exact firstTrue_agree hrest

theorem choices_agree (h : SameRuns runs runs') :
    AgreeLogged SameAnswer (choices runs) (choices runs') := by
  simp only [choices, h.length_eq]
  split
  next => exact .pure (.refl _)
  next => exact firstTrue_agree h

theorem replacing_agree (caught : ErrorValue → Bool) (h : SameRuns runs runs') :
    AgreeLogged SameAnswer (replacing caught runs) (replacing caught runs') := by
  cases h with
  | nil => exact .pure (.refl _)
  | cons hrun h =>
      cases h with
      | nil => exact .pure (.refl _)
      | cons hother =>
          refine hrun.marked.bind ?_
          rintro ⟨v, mark⟩ ⟨w, mark'⟩ ⟨hvw, hmark⟩
          obtain rfl : mark = mark' := hmark
          cases hvw with
          | array h => exact .pure (.ok (.array h))
          | @scalar c _ h =>
              cases h with
              | number h => exact .pure (.ok (.number h))
              | refl =>
                  cases c with
                  | error e =>
                      simp only []
                      split
                      next => exact .bind_left _ fun _ => answerOf_agree hother
                      next => exact .pure (.refl _)
                  | _ => exact .pure (.refl _)

theorem isCaseFor_eq {v w v' w' : Value} (hv : v.Like v') (hw : w.Like w') :
    isCaseFor v w = isCaseFor v' w' := by
  have hkind : Value.sameKind v w = Value.sameKind v' w' := by
    cases hv with
    | array => cases hw <;> rfl
    | scalar hc =>
        cases hw with
        | array => rfl
        | scalar hd => rw [Value.sameKind, Value.sameKind, hc.kind_eq, hd.kind_eq]
  have hempty : ∀ {v w : Value}, v.Like w → (v == Value.empty) = (w == Value.empty) := by
    intro v w h
    cases h with
    | array => rfl
    | scalar h => simp only [Bool.beq_eq_decide_eq, Value.scalar.injEq, h.eq_empty_iff]
  rw [isCaseFor, isCaseFor, hkind, hempty hv, hempty hw, Value.compareTo_of_like hv hw]

theorem firstCase_agree {v v' : Value} (hv : v.Like v') :
    ∀ {runs runs' : List (Logged Value)}, SameRuns runs runs' →
      AgreeLogged SameAnswer (firstCase v runs) (firstCase v' runs')
  | _, _, .nil => .pure (.refl _)
  | _, _, .cons hrun .nil => answerOf_agree hrun
  | _ :: yes :: rest, _ :: yes' :: rest', .cons htest (.cons hyes hrest) => by
      refine htest.bind fun w w' hw => ?_
      have hcase : AgreeLogged SameAnswer
          (if isCaseFor v w then answerOf yes else firstCase v rest)
          (if isCaseFor v' w' then answerOf yes' else firstCase v' rest') := by
        rw [isCaseFor_eq hv hw]
        split
        next => exact answerOf_agree hyes
        next => exact firstCase_agree hv hrest
      cases hw with
      | array => exact hcase
      | @scalar c _ h =>
          cases h with
          | number => exact hcase
          | refl =>
              cases c with
              | error e => exact .pure (.refl _)
              | _ => exact hcase

theorem switch_agree (h : SameRuns runs runs') :
    AgreeLogged SameAnswer (switch runs) (switch runs') := by
  cases h with
  | nil => exact .pure (.refl _)
  | cons hsubject hcases =>
      refine hsubject.bind fun v w hvw => ?_
      have hfirst := firstCase_agree hvw hcases
      cases hvw with
      | array => exact hfirst
      | @scalar c _ h =>
          cases h with
          | number => exact hfirst
          | refl =>
              cases c with
              | error e => exact .pure (.refl _)
              | _ => exact hfirst

end Runs

/-! ## Functions that cannot tell equal numbers apart -/

/-- The functions that may tell equal numbers apart, or speak of them differently. -/
def particular : List String := ["CEILING", "CHOOSE", "FLOOR", "MOD", "SQRT"]

/-- The second of two arguments is a number other than zero. -/
def hasFirmSignificance : List Expr → Bool
  | [_, .literal (.number n)] => !n.isZero
  | _ => false

/-- A call cannot tell equal numbers apart. -/
def isUniformCall (name : String) (arguments : List Expr) : Bool :=
  match function? name with
  | none => true
  | some f =>
      !particular.contains f.name || (f.name == "CEILING" && hasFirmSignificance arguments)

mutual

/-- No call in an expression can tell equal numbers apart. -/
def Expr.isUniform : Expr → Bool
  | .binary _ left right => left.isUniform && right.isUniform
  | .negate operand => operand.isUniform
  | .percent operand => operand.isUniform
  | .call function arguments => isUniformCall function arguments && Expr.areUniform arguments
  | .literal _ | .cell _ | .range _ | .name _ | .array _ => true

/-- No call in expressions can tell equal numbers apart. -/
def Expr.areUniform : List Expr → Bool
  | [] => true
  | e :: es => e.isUniform && Expr.areUniform es

end

theorem mem_library_of_function? {name : String} {f : Function} (h : function? name = some f) :
    f ∈ library := by
  rcases Option.or_eq_some_iff.1 h with h | ⟨-, h⟩
  · exact List.mem_of_find?_eq_some h
  · exact List.mem_of_find?_eq_some h

/-- The functions of computations in the library. -/
theorem lazy_cases : ∀ f ∈ library, ∀ answer, f.implementation = .lazy answer →
    f.name = "CHOOSE" ∨ answer = choice ∨ answer = replacingErrors ∨ answer = replacingMissing ∨
      answer = choices ∨ answer = switch := by
  unfold library
  simp only [List.forall_mem_cons]
  simp [Function.eager, Function.deferred, eq_comm]

/-- A function of computations, other than the choice by number, answers computations that agree with
answers that agree. -/
theorem lazy_agree {f : Function} (hf : f ∈ library) {answer : List (Logged Value) → Logged Answer}
    (hanswer : f.implementation = .lazy answer) (hname : f.name ≠ "CHOOSE")
    {runs runs' : List (Logged Value)} (h : SameRuns runs runs') :
    AgreeLogged SameAnswer (answer runs) (answer runs') := by
  rcases lazy_cases f hf answer hanswer with hchoose | rfl | rfl | rfl | rfl | rfl
  · exact absurd hchoose hname
  · exact choice_agree h
  · exact replacing_agree _ h
  · exact replacing_agree _ h
  · exact choices_agree h
  · exact switch_agree h

/-- The arguments of a function agree, and it cannot tell them apart. -/
structure Indistinct (name : String) (vs ws : List Value) : Prop where
  same : SameArguments vs ws
  oneZero : OneZero name vs ws
  exact : Exact name vs
  exact' : Exact name ws

theorem indistinct_of_not_mem {name : String} (hname : name ∉ particular) {vs ws : List Value}
    (h : SameArguments vs ws) : Indistinct name vs ws := by
  simp only [particular, List.mem_cons, List.not_mem_nil, or_false, not_or] at hname
  obtain ⟨hceiling, -, hfloor, hmod, hroot⟩ := hname
  refine ⟨h, ⟨fun heq => absurd heq hroot, ?_⟩, fun heq => absurd heq hmod, fun heq => absurd heq hmod⟩
  rintro (heq | heq)
  · exact absurd heq hceiling
  · exact absurd heq hfloor

/-- Rounding up to multiples of a number other than zero sees no sign of a zero. -/
theorem indistinct_ceiling {v w : Value} {n : Decimal} (hn : n.isZero = false) (h : v.Like w) :
    Indistinct "CEILING" [v, .number n] [w, .number n] := by
  refine ⟨.cons h (.cons (.refl _) .nil), ⟨fun heq => absurd heq (by decide), ?_⟩,
    fun heq => absurd heq (by decide), fun heq => absurd heq (by decide)⟩
  intro _ _ _ _ m _ hm _ hzero
  cases hm
  rw [hn] at hzero
  cases hzero

/-- A function that is called on computations which agree gives values that agree. -/
theorem callFunction_agree {name : String} {runs runs' : List (Logged Value)} (h : SameRuns runs runs')
    (hcall : ∀ f, function? name = some f → f.name ≠ "CHOOSE" ∧
      AgreeLogged (Indistinct f.name) (Logged.all runs) (Logged.all runs')) :
    AgreeLogged Value.Like (callFunction name runs) (callFunction name runs') := by
  unfold callFunction
  cases hfunction : function? name with
  | none => exact .refl .refl _
  | some f =>
      obtain ⟨hname, hall⟩ := hcall f hfunction
      have hf := mem_library_of_function? hfunction
      simp only [h.length_eq]
      cases f.arityError? runs'.length with
      | some e => exact .refl .refl _
      | none =>
          cases himplementation : f.implementation with
          | lazy answer =>
              exact (lazy_agree hf himplementation hname h).bind fun _ _ hanswer => .settle hanswer
          | eager answer =>
              refine hall.bind fun vs ws hargs => .settle ?_
              exact library_congruent f hf answer himplementation hargs.same hargs.oneZero hargs.exact
                hargs.exact'

/-! ## Contexts -/

/-- Two contexts have the same sheets and names, and equal values in their cells. -/
structure Context.Like (c c' : Context) : Prop where
  sheet : c.sheet = c'.sheet
  value : ∀ p, (c.source.value p).Like (c'.source.value p)
  hasSheet : ∀ s, c.source.hasSheet s = c'.source.hasSheet s
  name? : ∀ s, c.source.name? s = c'.source.name? s

namespace Context.Like

variable {c c' : Context}

theorem readCell (h : c.Like c') (key : CellKey) :
    AgreeLogged CellValue.Like (c.readCell key) (c'.readCell key) := by
  have hvalue := h.value key
  unfold Context.readCell
  generalize c.source.value key = v at hvalue ⊢
  generalize c'.source.value key = w at hvalue ⊢
  cases hvalue with
  | number h => exact .pure (.number h)
  | refl => exact .refl .refl _

theorem resolve (h : c.Like c') (sheet? : Option SheetName) : c.resolve sheet? = c'.resolve sheet? := by
  cases sheet? with
  | none => exact congrArg Except.ok h.sheet
  | some sheet => simp only [Context.resolve, h.hasSheet]

theorem cellValue (h : c.Like c') (sheet? : Option SheetName) (address : Address) :
    AgreeLogged Value.Like (c.cellValue sheet? address) (c'.cellValue sheet? address) := by
  unfold Context.cellValue
  rw [h.resolve]
  cases c'.resolve sheet? with
  | ok sheet => exact (h.readCell _).bind fun _ _ hvw => .pure (.scalar hvw)
  | error e => exact .refl .refl _

theorem rangeValue (h : c.Like c') (sheet? : Option SheetName) (area : Range) :
    AgreeLogged Value.Like (c.rangeValue sheet? area) (c'.rangeValue sheet? area) := by
  unfold Context.rangeValue
  rw [h.resolve]
  cases c'.resolve sheet? with
  | error e => exact .refl .refl _
  | ok sheet =>
      refine AgreeLogged.bind (.all (R := List.Forall₂ CellValue.Like) ?_) fun _ _ hrows =>
        .pure (.array hrows)
      refine List.forall₂_map_left_iff.2 (List.forall₂_map_right_iff.2 (List.forall₂_same.2 ?_))
      intro row _
      refine .all (List.forall₂_map_left_iff.2 (List.forall₂_map_right_iff.2 (List.forall₂_same.2 ?_)))
      exact fun address _ => h.readCell _

theorem nameValue (h : c.Like c') (name : String) :
    AgreeLogged Value.Like (c.nameValue name) (c'.nameValue name) := by
  unfold Context.nameValue
  rw [h.name?]
  cases c'.source.name? name with
  | none => exact .refl .refl _
  | some defined =>
      simp only []
      cases defined.target with
      | cell key => exact h.cellValue _ _
      | range sheet area => exact h.rangeValue _ _
      | constant v => exact .refl .refl _

end Context.Like

/-! ## Expressions -/

section

variable {c c' : Context}

/-- The significance of a rounding stands in the formula. -/
theorem all_evaluateEach_significance (c : Context) (a : Expr) (n : Decimal) :
    Logged.all (evaluateEach c [a, .literal (.number n)]) =
      evaluate c a >>= fun v => pure [v, .number n] := by
  rw [evaluateEach, evaluateEach, evaluateEach, evaluate]
  rfl

/-- A call that cannot tell equal numbers apart is given arguments that it cannot tell apart. -/
theorem uniformCall_indistinct {name : String} {arguments : List Expr}
    (huniform : isUniformCall name arguments = true)
    (h : SameRuns (evaluateEach c arguments) (evaluateEach c' arguments)) :
    ∀ f, function? name = some f → f.name ≠ "CHOOSE" ∧
      AgreeLogged (Indistinct f.name) (Logged.all (evaluateEach c arguments))
        (Logged.all (evaluateEach c' arguments)) := by
  intro f hf
  simp only [isUniformCall, hf, Bool.or_eq_true, Bool.not_eq_true', Bool.and_eq_true,
    beq_iff_eq] at huniform
  rcases huniform with hname | ⟨hname, hfirm⟩
  · have hmem : f.name ∉ particular := by simpa using hname
    refine ⟨?_, (AgreeLogged.all h).imp fun _ _ => indistinct_of_not_mem hmem⟩
    rintro heq
    exact hmem (heq ▸ by decide)
  · refine ⟨by rw [hname]; decide, ?_⟩
    unfold hasFirmSignificance at hfirm
    split at hfirm
    next a n =>
      have hn : n.isZero = false := by simpa using hfirm
      rw [evaluateEach, evaluateEach] at h
      rw [all_evaluateEach_significance, all_evaluateEach_significance, hname]
      cases h with
      | cons h _ => exact h.bind fun v w hvw => .pure (indistinct_ceiling hn hvw)
    next => cases hfirm

mutual

/-- Over equal values an expression has equal values and notes the same errors, if no call in it can
tell equal numbers apart. -/
theorem evaluate_agree (h : c.Like c') : ∀ e : Expr, e.isUniform = true →
    AgreeLogged Value.Like (evaluate c e) (evaluate c' e)
  | .literal l, _ => by
      rw [evaluate, evaluate]
      exact .refl .refl _
  | .array rows, _ => by
      rw [evaluate, evaluate]
      exact .refl .refl _
  | .cell r, _ => by
      rw [evaluate, evaluate]
      exact (h.cellValue _ _).sparing
  | .range r, _ => by
      rw [evaluate, evaluate]
      exact (h.rangeValue _ _).sparing
  | .name s, _ => by
      rw [evaluate, evaluate]
      exact (h.nameValue s).sparing
  | .binary o left right, huniform => by
      rw [Expr.isUniform, Bool.and_eq_true] at huniform
      have hleft := evaluate_agree h left huniform.1
      have hright := evaluate_agree h right huniform.2
      rw [evaluate, evaluate]
      exact (hleft.bind fun _ _ hv => hright.bind fun _ _ hw => .settle (o.apply_agree hv hw)).sparing
  | .negate operand, huniform => by
      have hoperand := evaluate_agree h operand huniform
      rw [evaluate, evaluate]
      exact (hoperand.bind fun _ _ hv => .settle (negated_agree hv)).sparing
  | .percent operand, huniform => by
      have hoperand := evaluate_agree h operand huniform
      rw [evaluate, evaluate]
      exact (hoperand.bind fun _ _ hv => .settle (hundredth_agree hv)).sparing
  | .call function arguments, huniform => by
      rw [Expr.isUniform, Bool.and_eq_true] at huniform
      have harguments := evaluateEach_agree h arguments huniform.2
      rw [evaluate, evaluate]
      exact (callFunction_agree harguments (uniformCall_indistinct huniform.1 harguments)).sparing

theorem evaluateEach_agree (h : c.Like c') : ∀ es : List Expr, Expr.areUniform es = true →
    SameRuns (evaluateEach c es) (evaluateEach c' es)
  | [], _ => by
      rw [evaluateEach, evaluateEach]
      exact .nil
  | e :: es, huniform => by
      rw [Expr.areUniform, Bool.and_eq_true] at huniform
      rw [evaluateEach, evaluateEach]
      exact .cons (evaluate_agree h e huniform.1) (evaluateEach_agree h es huniform.2)

end

end

end PaintQuote.Formula
