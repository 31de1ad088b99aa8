import Mathlib.Data.List.Forall2
import PaintQuote.Formula.Functions.Arguments
import PaintQuote.Proofs.Decimal.Operations

/-!
# Values that agree

Two values agree if they are the same but for the scales and signs of zero of their numbers.  What
functions read from their arguments agrees too: a conversion of agreeing values gives equal numbers,
or one error for both (`AgreeBy`).  Texts come from normal forms, and so the texts of agreeing values
are one text, also in the wording of errors.
-/

namespace PaintQuote

open Sheet

/-! ## Values of cells -/

namespace Sheet.CellValue

/-- The same value but for the form of a number. -/
inductive Like : CellValue → CellValue → Prop where
  /-- Two forms of one number. -/
  | number {m n : Decimal} : m.same n → Like (.number m) (.number n)
  /-- One value. -/
  | refl (v : CellValue) : Like v v

theorem like_iff {v w : CellValue} : Like v w ↔ v.agrees w = true := by
  constructor
  · intro h
    cases h with
    | number h => exact h
    | refl => exact agrees_self v
  · intro h
    cases v with
    | number m =>
        cases w with
        | number n => exact .number h
        | _ => simp [agrees] at h
    | _ =>
        obtain rfl := beq_iff_eq.1 h
        exact .refl _

namespace Like

variable {v w : CellValue}

theorem kind_eq (h : Like v w) : v.kind = w.kind := by
  cases h <;> rfl

theorem toText_eq (h : Like v w) : v.toText = w.toText := by
  cases h with
  | number h => exact Decimal.toPlain_of_same h
  | refl => rfl

theorem error?_eq (h : Like v w) : v.error? = w.error? := by
  cases h <;> rfl

theorem symm (h : Like v w) : Like w v := by
  cases h with
  | number h => exact .number (Decimal.same_symm h)
  | refl => exact .refl _

theorem eq_empty_iff (h : Like v w) : v = .empty ↔ w = .empty := by
  cases h <;> simp

end Like

end Sheet.CellValue

namespace Formula

/-! ## Values -/

namespace Value

/-- The same value but for the forms of its numbers. -/
inductive Like : Value → Value → Prop where
  /-- Two values of cells. -/
  | scalar {v w : CellValue} : v.Like w → Like (.scalar v) (.scalar w)
  /-- Two arrays of one shape. -/
  | array {rows rows' : List (List CellValue)} :
      List.Forall₂ (List.Forall₂ CellValue.Like) rows rows' → Like (.array rows) (.array rows')

theorem agreeRow_iff {vs ws : List CellValue} :
    agreeRow vs ws = true ↔ List.Forall₂ CellValue.Like vs ws := by
  induction vs generalizing ws with
  | nil => cases ws <;> simp [agreeRow]
  | cons v vs ih =>
      cases ws with
      | nil => simp [agreeRow]
      | cons w ws =>
          rw [agreeRow, Bool.and_eq_true, ih, ← CellValue.like_iff, List.forall₂_cons]

theorem agreeRows_iff {rows rows' : List (List CellValue)} :
    agreeRows rows rows' = true ↔ List.Forall₂ (List.Forall₂ CellValue.Like) rows rows' := by
  induction rows generalizing rows' with
  | nil => cases rows' <;> simp [agreeRows]
  | cons row rows ih =>
      cases rows' with
      | nil => simp [agreeRows]
      | cons row' rows' =>
          rw [agreeRows, Bool.and_eq_true, ih, agreeRow_iff, List.forall₂_cons]

theorem like_iff {v w : Value} : Like v w ↔ v.agrees w = true := by
  cases v with
  | scalar v =>
      cases w with
      | scalar w =>
          rw [agrees, ← CellValue.like_iff]
          exact ⟨fun | .scalar h => h, .scalar⟩
      | array rows => exact ⟨nofun, nofun⟩
  | array rows =>
      cases w with
      | scalar w => exact ⟨nofun, nofun⟩
      | array rows' =>
          rw [agrees, agreeRows_iff]
          exact ⟨fun | .array h => h, .array⟩

theorem Like.refl (v : Value) : Like v v := by
  have hrow : ∀ vs : List CellValue, List.Forall₂ CellValue.Like vs vs := fun vs =>
    List.forall₂_same.2 fun v _ => .refl v
  cases v with
  | scalar v => exact .scalar (.refl v)
  | array rows => exact .array (List.forall₂_same.2 fun row _ => hrow row)

theorem Like.symm {v w : Value} (h : Like v w) : Like w v := by
  have hrow : ∀ vs ws, List.Forall₂ CellValue.Like vs ws → List.Forall₂ CellValue.Like ws vs :=
    fun _ _ h => (h.imp fun _ _ h => CellValue.Like.symm h).flip
  cases h with
  | scalar h => exact .scalar h.symm
  | array h => exact .array (h.imp hrow).flip

theorem Like.number {m n : Decimal} (h : m.same n) : Like (.number m) (.number n) :=
  .scalar (.number h)

theorem Like.error?_eq {v w : Value} (h : Like v w) : v.error? = w.error? := by
  cases h with
  | scalar h => cases h <;> rfl
  | array => rfl

theorem Like.grid {v w : Value} (h : Like v w) :
    List.Forall₂ (List.Forall₂ CellValue.Like) v.grid w.grid := by
  cases h with
  | scalar h => exact .cons (.cons h .nil) .nil
  | array h => exact h

theorem Like.cells {v w : Value} (h : Like v w) : List.Forall₂ CellValue.Like v.cells w.cells := by
  cases h with
  | scalar h => exact .cons h .nil
  | array h => exact List.rel_flatten h

end Value

/-! ## Results -/

/-- Two results are related, or they are one error. -/
inductive AgreeBy {ε α β : Type} (R : α → β → Prop) : Except ε α → Except ε β → Prop where
  /-- Related results. -/
  | ok {a : α} {b : β} : R a b → AgreeBy R (.ok a) (.ok b)
  /-- One error. -/
  | error (e : ε) : AgreeBy R (.error e) (.error e)

namespace AgreeBy

variable {ε α β γ δ : Type} {R : α → β → Prop} {S : γ → δ → Prop}

theorem bind_of_eq {x : Except ε α} {y : Except ε β} {f : α → Except ε γ} {g : β → Except ε δ}
    (h : AgreeBy R x y)
    (hfg : ∀ a b, x = .ok a → y = .ok b → R a b → AgreeBy S (f a) (g b)) :
    AgreeBy S (x >>= f) (y >>= g) := by
  cases h with
  | ok h => exact hfg _ _ rfl rfl h
  | error e => exact .error e

theorem bind {x : Except ε α} {y : Except ε β} {f : α → Except ε γ} {g : β → Except ε δ}
    (h : AgreeBy R x y) (hfg : ∀ a b, R a b → AgreeBy S (f a) (g b)) :
    AgreeBy S (x >>= f) (y >>= g) :=
  h.bind_of_eq fun a b _ _ => hfg a b

/-- One result that two computations go on from. -/
theorem bind_left (x : Except ε α) {f : α → Except ε γ} {g : α → Except ε δ}
    (hfg : ∀ a, AgreeBy S (f a) (g a)) : AgreeBy S (x >>= f) (x >>= g) := by
  cases x with
  | ok a => exact hfg a
  | error e => exact .error e

theorem map {x : Except ε α} {y : Except ε β} {f : α → γ} {g : β → δ}
    (h : AgreeBy R x y) (hfg : ∀ a b, R a b → S (f a) (g b)) : AgreeBy S (x.map f) (y.map g) := by
  cases h with
  | ok h => exact .ok (hfg _ _ h)
  | error e => exact .error e

/-- What is equal agrees. -/
theorem of_eq {R : α → α → Prop} (hR : ∀ a, R a a) {x y : Except ε α} (h : x = y) :
    AgreeBy R x y := by
  subst h
  cases x with
  | ok a => exact .ok (hR a)
  | error e => exact .error e

theorem eq {x y : Except ε α} (h : AgreeBy (· = ·) x y) : x = y := by
  cases h with
  | ok h => rw [h]
  | error => rfl

theorem foldlM {step : α → γ → Except ε α} {step' : β → δ → Except ε β}
    (hstep : ∀ {a b x y}, R a b → S x y → AgreeBy R (step a x) (step' b y))
    {xs : List γ} {ys : List δ} (h : List.Forall₂ S xs ys) {a : α} {b : β} (hab : R a b) :
    AgreeBy R (xs.foldlM step a) (ys.foldlM step' b) := by
  induction h generalizing a b with
  | nil => exact .ok hab
  | cons h _ ih => exact (hstep hab h).bind fun _ _ hxy => ih hxy

end AgreeBy

/-- Answers that agree. -/
abbrev SameAnswer : Answer → Answer → Prop := AgreeBy Value.Like

theorem SameAnswer.refl (a : Answer) : SameAnswer a a := .of_eq Value.Like.refl rfl

theorem SameAnswer.of_eq {a b : Answer} (h : a = b) : SameAnswer a b :=
  AgreeBy.of_eq Value.Like.refl h

/-- The value that is shown for an answer. -/
def settled : Answer → Value
  | .ok v => v
  | .error e => .error e.cellError

theorem settle_fst (a : Answer) (log : Log) : (Logged.settle a log).1 = settled a := by
  cases a <;> rfl

theorem SameAnswer.settled {a b : Answer} (h : SameAnswer a b) : (settled a).Like (settled b) := by
  cases h with
  | ok h => exact h
  | error e => exact .refl _

/-- Numbers that are equal. -/
abbrev SameNumber : Decimal → Decimal → Prop := fun m n => m.same n = true

theorem orNumberError_agree {α β : Type} {R : α → β → Prop} {a : Option α} {b : Option β}
    (h : Option.Rel R a b) : AgreeBy R (orNumberError a) (orNumberError b) := by
  cases h with
  | none => exact .error _
  | some h => exact .ok h

/-! ## Conversions -/

theorem Value.toNumber_eq_ok_iff {v : Value} {n : Decimal} :
    v.toNumber = .ok n ↔ v.number? = some n := by
  cases v with
  | array rows => simp [Value.toNumber, Value.number?]
  | scalar v =>
      cases v with
      | text s =>
          simp only [Value.toNumber]
          cases (Value.text s).number? <;> simp
      | _ => simp [Value.toNumber, Value.number?]

namespace Value.Like

variable {v w : Value}

theorem toNumber (h : v.Like w) : AgreeBy SameNumber v.toNumber w.toNumber := by
  cases h with
  | scalar h =>
      cases h with
      | number h => exact .ok h
      | refl => exact .of_eq Decimal.same_self rfl
  | array => exact .error _

theorem number?_same (h : v.Like w) : Decimal.SameResult v.number? w.number? := by
  cases h with
  | scalar h =>
      cases h with
      | number h => exact .some h
      | refl => exact Decimal.SameResult.refl _
  | array => exact .none

theorem number?_eq (h : v.Like w) {m : Decimal} (hv : v.number? = some m) :
    ∃ n, w.number? = some n ∧ m.same n = true := by
  have hnumber := h.number?_same
  rw [hv] at hnumber
  generalize hw : w.number? = n? at hnumber
  cases hnumber with
  | some h => exact ⟨_, rfl, h⟩

theorem same_of_number? (h : v.Like w) {m n : Decimal} (hv : v.number? = some m)
    (hw : w.number? = some n) : m.same n = true := by
  obtain ⟨n', hn', hsame⟩ := h.number?_eq hv
  cases hn'.symm.trans hw
  exact hsame

theorem toBool_eq (h : v.Like w) : v.toBool = w.toBool := by
  cases h with
  | scalar h =>
      cases h with
      | number h => simp only [Value.toBool, Value.bool?, Decimal.isZero_of_same h]
      | refl => rfl
  | array => rfl

theorem textArgument_eq (h : v.Like w) : textArgument v = textArgument w := by
  cases h with
  | scalar h =>
      cases h with
      | number h => exact congrArg Except.ok (Decimal.toPlain_of_same h)
      | refl => rfl
  | array => rfl

theorem wholeNumber_eq (h : v.Like w) : wholeNumber v = wholeNumber w := by
  refine AgreeBy.eq (h.toNumber.bind fun m n hmn => .of_eq (fun _ => rfl) ?_)
  exact congrArg orNumberError (Decimal.toInt64?_of_same (Decimal.quantize_same hmn 0 .towardZero))

end Value.Like

/-- Optional arguments that agree. -/
abbrev SameOptional : Option Value → Option Value → Prop := Option.Rel Value.Like

namespace SameOptional

variable {v w : Option Value}

theorem wholeOrDefault_eq (h : SameOptional v w) (otherwise : Int) :
    wholeOrDefault v otherwise = wholeOrDefault w otherwise := by
  cases h with
  | none => rfl
  | some h => exact h.wholeNumber_eq

theorem numberOrDefault (h : SameOptional v w) (otherwise : Decimal) :
    AgreeBy SameNumber (numberOrDefault v otherwise) (numberOrDefault w otherwise) := by
  cases h with
  | none => exact .ok (Decimal.same_self otherwise)
  | some h => exact h.toNumber

end SameOptional

/-! ## Many arguments -/

/-- Lists of arguments that agree. -/
abbrev SameArguments : List Value → List Value → Prop := List.Forall₂ Value.Like

theorem firstError?_eq {vs ws : List Value} (h : SameArguments vs ws) :
    firstError? vs = firstError? ws := by
  unfold firstError?
  induction h with
  | nil => rfl
  | cons h _ ih => rw [List.findSome?_cons, List.findSome?_cons, h.error?_eq, ih]

theorem cellNumbers_agree {vs ws : List CellValue} (h : List.Forall₂ CellValue.Like vs ws) :
    AgreeBy (List.Forall₂ SameNumber) (cellNumbers vs) (cellNumbers ws) := by
  induction h with
  | nil => exact .ok .nil
  | @cons v w vs ws h _ ih =>
      cases h with
      | number h => exact ih.map fun _ _ hns => .cons h hns
      | refl =>
          cases v with
          | number n => exact ih.map fun _ _ hns => .cons (Decimal.same_self n) hns
          | error e => exact .error _
          | empty => exact ih
          | boolean => exact ih
          | text => exact ih

theorem cellLogicals_eq {vs ws : List CellValue} (h : List.Forall₂ CellValue.Like vs ws) :
    cellLogicals vs = cellLogicals ws := by
  induction h with
  | nil => rfl
  | @cons v w vs ws h _ ih =>
      cases h with
      | number h => rw [cellLogicals, cellLogicals, ih, Decimal.isZero_of_same h]
      | refl => cases v <;> simp only [cellLogicals, ih]

theorem numbers_agree {vs ws : List Value} (h : SameArguments vs ws) :
    AgreeBy (List.Forall₂ SameNumber) (numbers vs) (numbers ws) := by
  induction h with
  | nil => exact .ok .nil
  | @cons v w vs ws h _ ih =>
      have hsingle : AgreeBy (List.Forall₂ SameNumber)
          (v.toNumber >>= fun n => numbers vs >>= fun ns => .ok (n :: ns))
          (w.toNumber >>= fun n => numbers ws >>= fun ns => .ok (n :: ns)) :=
        h.toNumber.bind fun _ _ hn => ih.bind fun _ _ hns => .ok (.cons hn hns)
      cases h with
      | array h =>
          exact (cellNumbers_agree (List.rel_flatten h)).bind fun _ _ hns => ih.bind fun _ _ hms =>
            .ok (List.rel_append hns hms)
      | @scalar v w h =>
          cases h with
          | number => exact hsingle
          | refl =>
              cases v with
              | empty => exact ih
              | _ => exact hsingle

theorem logicalsFrom_eq {vs ws : List Value} (h : SameArguments vs ws) :
    logicalsFrom vs = logicalsFrom ws := by
  induction h with
  | nil => rfl
  | @cons v w vs ws h _ ih =>
      have hsingle : (v.toBool >>= fun b => logicalsFrom vs >>= fun bs => .ok (b :: bs)) =
          (w.toBool >>= fun b => logicalsFrom ws >>= fun bs => .ok (b :: bs)) := by
        rw [h.toBool_eq, ih]
      cases h with
      | array h => rw [logicalsFrom, logicalsFrom, cellLogicals_eq (List.rel_flatten h), ih]
      | @scalar v w h =>
          cases h with
          | number => exact hsingle
          | refl =>
              cases v with
              | empty => exact ih
              | _ => exact hsingle

theorem logicals_eq {vs ws : List Value} (h : SameArguments vs ws) : logicals vs = logicals ws := by
  rw [logicals, logicals, logicalsFrom_eq h]

/-! ## Sums -/

theorem foldlM_same {step : Decimal → Decimal → Option Decimal}
    (hstep : ∀ {a b a' b' : Decimal}, a.same a' → b.same b' →
      Decimal.SameResult (step a b) (step a' b'))
    {ms ns : List Decimal} (h : List.Forall₂ SameNumber ms ns) {a b : Decimal} (hab : a.same b) :
    Decimal.SameResult (ms.foldlM step a) (ns.foldlM step b) := by
  induction h generalizing a b with
  | nil => exact .some hab
  | cons h _ ih => exact Decimal.rel_bind (hstep hab h) fun _ _ hxy => ih hxy

theorem sumOf_same {ms ns : List Decimal} (h : List.Forall₂ SameNumber ms ns) :
    Decimal.SameResult (sumOf ms) (sumOf ns) :=
  foldlM_same Decimal.add?_same h (Decimal.same_self 0)

theorem meanOf_agree {ms ns : List Decimal} (h : List.Forall₂ SameNumber ms ns) :
    SameAnswer (meanOf ms) (meanOf ns) := by
  have hempty : ms.isEmpty = ns.isEmpty := by
    cases h <;> rfl
  unfold meanOf
  rw [hempty, h.length_eq]
  split
  next => exact .error _
  next =>
    refine (orNumberError_agree (sumOf_same h)).bind fun _ _ hsum => ?_
    refine (orNumberError_agree (Decimal.div?_same hsum (Decimal.same_self _))).bind fun _ _ hmean => ?_
    exact .ok (.number hmean)

end Formula

end PaintQuote
