import PaintQuote.Proofs.Values.Gives

/-!
# Single values

No operator answers with an array, and no function that works on values (`library_handsOn`).  So an array
that a formula comes to is that of a range, of a name or of an array constant in it, which the choosing
functions have handed on (`exists_handsOn`).
-/

namespace PaintQuote.Formula

open Sheet Functions

/-- An answer is an error or a single value. -/
def SingleAnswer (a : Answer) : Prop := ∀ rows, a ≠ .ok (.array rows)

namespace SingleAnswer

variable {α : Type} {x : Except FormulaError α} {a b : Answer}

theorem error (e : FormulaError) : SingleAnswer (.error e) := nofun

theorem scalar (v : CellValue) : SingleAnswer (.ok (.scalar v)) := nofun

theorem bind {f : α → Answer} (h : ∀ a, SingleAnswer (f a)) : SingleAnswer (x >>= f) := by
  cases x with
  | error e => exact error e
  | ok a => exact h a

theorem map {f : α → CellValue} : SingleAnswer (x.map fun a => .scalar (f a)) := by
  cases x with
  | error e => exact error e
  | ok a => exact scalar (f a)

theorem ite {p : Prop} [Decidable p] (ha : SingleAnswer a) (hb : SingleAnswer b) :
    SingleAnswer (if p then a else b) := by
  split
  next => exact ha
  next => exact hb

theorem numberOr (n : Option Decimal) : SingleAnswer (numberOr n) := by
  cases n with
  | none => exact error _
  | some n => exact scalar (.number n)

end SingleAnswer

/-! ## Operators -/

theorem power_single (base exponent : Decimal) : SingleAnswer (power base exponent) := by
  unfold power
  split
  next =>
    split
    next => exact .error _
    next => exact .error _
    next => exact .scalar (.number 0)
  next =>
    refine .ite ?_ (.ite (.error _) (.numberOr _))
    split
    next => exact .numberOr _
    next => exact .error _

theorem quotient_single (m n : Decimal) : SingleAnswer (BinaryOperator.quotient m n) :=
  .ite (.error _) (.numberOr _)

theorem arithmetic_single {operation : Decimal → Decimal → Answer}
    (h : ∀ m n, SingleAnswer (operation m n)) (v w : Value) :
    SingleAnswer (BinaryOperator.arithmetic operation v w) :=
  .bind fun m => .bind fun n => h m n

theorem joined_single (v w : Value) : SingleAnswer (BinaryOperator.joined v w) := by
  unfold BinaryOperator.joined
  split
  next c d => exact .scalar (.text (c.toText ++ d.toText))
  next => exact .error _

theorem apply_single (o : BinaryOperator) (v w : Value) : SingleAnswer (o.apply v w) := by
  unfold BinaryOperator.apply
  split
  next e _ => exact .scalar (.error e)
  next e _ _ => exact .scalar (.error e)
  next =>
    cases o with
    | add | subtract | multiply => exact arithmetic_single (fun _ _ => .numberOr _) v w
    | divide => exact arithmetic_single quotient_single v w
    | power => exact arithmetic_single power_single v w
    | concatenate => exact joined_single v w
    | _ => exact .scalar (.boolean _)

theorem negated_single (v : Value) : SingleAnswer (negated v) := by
  unfold negated
  split
  next e => exact .scalar (.error e)
  next => exact .map

theorem hundredth_single (v : Value) : SingleAnswer (hundredth v) := by
  unfold hundredth
  split
  next e => exact .scalar (.error e)
  next => exact .bind fun _ => .numberOr _

/-! ## Functions -/

namespace Functions

/-! ### Numbers -/

theorem meanOf_single (ns : List Decimal) : SingleAnswer (meanOf ns) :=
  .ite (.error _) (.bind fun _ => .bind fun mean => .scalar (.number mean))

theorem product_single (vs : List Value) : SingleAnswer (product vs) :=
  .bind fun _ => .ite (.scalar (.number 0)) (.numberOr _)

/-- A computation that ends early does not do so with an array. -/
def EarlySingle {α : Type} (x : Early α) : Prop := ∀ a, x = .error a → SingleAnswer a

theorem earlySingle_bind {α β : Type} {x : Early α} {f : α → Early β} (hx : EarlySingle x)
    (hf : ∀ a, EarlySingle (f a)) : EarlySingle (x >>= f) := by
  cases x with
  | error a =>
      rintro _ ⟨rfl⟩
      exact hx a rfl
  | ok a => exact hf a

theorem earlySingle_foldlM {α : Type} {f : Decimal → α → Early Decimal}
    (h : ∀ n a, EarlySingle (f n a)) (as : List α) : ∀ n, EarlySingle (as.foldlM f n) := by
  induction as with
  | nil => exact fun _ => nofun
  | cons a as ih =>
      intro n
      rw [List.foldlM_cons]
      exact earlySingle_bind (h n a) ih

theorem earlySingle_number (n : Option Decimal) : EarlySingle (earlyNumber n) := by
  cases n with
  | some n => exact nofun
  | none =>
      rintro _ ⟨rfl⟩
      exact .error _

theorem earlySingle_timesValue (total : Decimal) (v : CellValue) : EarlySingle (timesValue total v) := by
  cases v with
  | number n => exact earlySingle_number _
  | error e =>
      rintro _ ⟨rfl⟩
      exact .scalar (.error e)
  | _ => exact nofun

theorem sumProduct_single (vs : List Value) : SingleAnswer (sumProduct vs) := by
  refine .ite (.error _) ?_
  split
  next total _ => exact .scalar (.number total)
  next a ha =>
    refine earlySingle_foldlM (fun n place => ?_) _ _ a ha
    exact earlySingle_bind (earlySingle_foldlM (fun m grid => earlySingle_timesValue m _) _ _)
      fun _ => earlySingle_number _

theorem snap_single (n step : Decimal) (units : Decimal → Decimal) : SingleAnswer (snap n step units) :=
  .bind fun _ => .numberOr _

theorem ceiling_single (v w : Value) : SingleAnswer (ceiling v w) :=
  .bind fun _ => .bind fun _ => .ite (.error _) (.ite (.scalar (.number 0)) (snap_single _ _ _))

theorem floor_single (v w : Value) : SingleAnswer (floor v w) :=
  .bind fun _ => .bind fun _ =>
    .ite (.error _) (.ite (.ite (.scalar (.number 0)) (.error _)) (snap_single _ _ _))

theorem nearestMultiple_single (v w : Value) : SingleAnswer (nearestMultiple v w) :=
  .bind fun _ => .bind fun _ =>
    .ite (.scalar (.number 0)) (.ite (.error _) (snap_single _ _ _))

theorem multipleBy_single (usual reversed : Decimal → Decimal) (v : Value) (o p : Option Value) :
    SingleAnswer (multipleBy usual reversed v o p) :=
  .bind fun _ => .bind fun _ => .bind fun _ => .ite (.scalar (.number 0)) (snap_single _ _ _)

theorem modulo_single (v w : Value) : SingleAnswer (modulo v w) :=
  .bind fun _ => .bind fun _ =>
    .ite (.error _) (.bind fun r => .ite (.numberOr _) (.scalar (.number r)))

theorem sign_single (v : Value) : SingleAnswer (sign v) := by
  refine .bind fun n => ?_
  split
  next => exact .scalar (.number (-1))
  next => exact .scalar (.number 0)
  next => exact .scalar (.number 1)

/-! ### Texts -/

theorem middlePart_single (u v w : Value) : SingleAnswer (middlePart u v w) :=
  .bind fun _ => .bind fun _ => .ite (.error _) (.bind fun _ => .scalar (.text _))

theorem joinedCells_single (vs : List Value) : SingleAnswer (joinedCells vs) := by
  unfold joinedCells
  simp only []
  split
  next e _ => exact .scalar (.error e)
  next => exact .scalar (.text _)

theorem formatted_single (format : String) (n : Decimal) : SingleAnswer (formatted format n) := by
  unfold formatted
  split
  next s _ => exact .scalar (.text s)
  next => exact .error _

theorem textFromNumber_single (v w : Value) : SingleAnswer (textFromNumber v w) := by
  refine .bind fun f => ?_
  split
  next s =>
    split
    next => exact formatted_single f _
    next => exact .scalar (.text s)
  next => exact .bind fun n => formatted_single f n

theorem numberFromText_single (v : Value) : SingleAnswer (numberFromText v) := by
  unfold numberFromText
  split
  next n => exact .scalar (.number n)
  next => exact .scalar (.number 0)
  next e => exact .scalar (.error e)
  next s =>
    split
    next n _ => exact .scalar (.number n)
    next => exact .error _
  next => exact .error _

/-! ### Tests and counts -/

theorem inspect_single {answer : CellValue → CellValue} (v : Value) :
    SingleAnswer (inspect (fun c => .scalar (answer c)) v) := by
  cases v with
  | scalar c => exact .scalar (answer c)
  | array rows => exact .error _

theorem numberOf_single (v : Value) : SingleAnswer (numberOf v) := by
  cases v with
  | array rows => exact .error _
  | scalar c =>
      cases c with
      | boolean b => cases b <;> exact nofun
      | _ => exact nofun

theorem countIf_single (v w : Value) : SingleAnswer (countIf v w) := by
  unfold countIf
  split
  next e => exact .scalar (.error e)
  next => exact .scalar (.number _)

/-! ### Lookups -/

theorem index_single (v w : Value) (o : Option Value) : SingleAnswer (index v w o) := by
  unfold index
  split
  next e _ => exact .scalar (.error e)
  next =>
    refine .bind fun place => .ite (.error _) ?_
    split
    next c _ => exact .scalar c
    next => exact .error _

theorem position_single (v w : Value) (o : Option Value) : SingleAnswer (position v w o) := by
  refine .bind fun _ => ?_
  split
  next e => exact .scalar (.error e)
  next => exact .ite (.error _) (.bind fun _ => .bind fun _ => .scalar (.number _))

theorem verticalLookup_single (u v w : Value) (o : Option Value) :
    SingleAnswer (verticalLookup u v w o) := by
  refine .bind fun _ => ?_
  split
  next e => exact .scalar (.error e)
  next =>
    exact .bind fun _ => .bind fun _ => .bind fun _ => .bind fun _ => .bind fun c => .scalar c

theorem horizontalLookup_single (u v w : Value) (o : Option Value) :
    SingleAnswer (horizontalLookup u v w o) := by
  refine .bind fun _ => ?_
  split
  next e => exact .scalar (.error e)
  next =>
    exact .bind fun _ => .bind fun _ => .bind fun _ => .bind fun _ => .bind fun c => .scalar c

end Functions

/-! ### Arguments by place -/

theorem withOne_single {answer : Value → Answer} (h : ∀ v, SingleAnswer (answer v)) (vs : List Value) :
    SingleAnswer (withOne answer vs) := by
  cases vs with
  | nil => exact .scalar .empty
  | cons v vs => exact h v

theorem withOneOrTwo_single {answer : Value → Option Value → Answer}
    (h : ∀ v o, SingleAnswer (answer v o)) (vs : List Value) :
    SingleAnswer (withOneOrTwo answer vs) := by
  cases vs with
  | nil => exact .scalar .empty
  | cons v vs => exact h v _

theorem withOneToThree_single {answer : Value → Option Value → Option Value → Answer}
    (h : ∀ v o p, SingleAnswer (answer v o p)) (vs : List Value) :
    SingleAnswer (withOneToThree answer vs) := by
  cases vs with
  | nil => exact .scalar .empty
  | cons v vs => exact h v _ _

theorem withTwo_single {answer : Value → Value → Answer} (h : ∀ v w, SingleAnswer (answer v w))
    (vs : List Value) : SingleAnswer (withTwo answer vs) := by
  unfold withTwo
  split
  next v w _ => exact h v w
  next => exact .scalar .empty

theorem withTwoOrThree_single {answer : Value → Value → Option Value → Answer}
    (h : ∀ v w o, SingleAnswer (answer v w o)) (vs : List Value) :
    SingleAnswer (withTwoOrThree answer vs) := by
  unfold withTwoOrThree
  split
  next v w _ => exact h v w _
  next => exact .scalar .empty

theorem withThree_single {answer : Value → Value → Value → Answer}
    (h : ∀ u v w, SingleAnswer (answer u v w)) (vs : List Value) :
    SingleAnswer (withThree answer vs) := by
  unfold withThree
  split
  next u v w _ => exact h u v w
  next => exact .scalar .empty

theorem withThreeOrFour_single {answer : Value → Value → Value → Option Value → Answer}
    (h : ∀ u v w o, SingleAnswer (answer u v w o)) (vs : List Value) :
    SingleAnswer (withThreeOrFour answer vs) := by
  unfold withThreeOrFour
  split
  next u v w _ => exact h u v w _
  next => exact .scalar .empty

/-! ## Choosing functions -/

/-- Where an answer is an array, one of the computations has come to it. -/
def HandedOn (runs : List (Logged Value)) (x : Logged Answer) : Prop :=
  ∀ log rows, (x.run log).1 = .ok (.array rows) → ∃ run ∈ runs, ∃ log', (run.run log').1 = .array rows

namespace HandedOn

variable {runs runs' : List (Logged Value)} {run : Logged Value}

theorem answerOf (h : run ∈ runs) : HandedOn runs (answerOf run) :=
  fun log _ hrows => ⟨run, h, log, Except.ok.inj hrows⟩

theorem pure {a : Answer} (h : SingleAnswer a) : HandedOn runs (Pure.pure a) :=
  fun _ rows hrows => absurd hrows (h rows)

theorem bind {α : Type} {x : Logged α} {f : α → Logged Answer} (h : ∀ a, HandedOn runs (f a)) :
    HandedOn runs (x >>= f) := fun _ rows hrows => h _ _ rows hrows

/-- What follows a computation may hand on the value that it has come to. -/
theorem marked {f : Value × Nat → Logged Answer}
    (h : ∀ v mark, (∃ log, (run.run log).1 = v) → HandedOn runs (f (v, mark))) :
    HandedOn runs (Logged.marked run >>= f) := fun log rows hrows => h _ _ ⟨log, rfl⟩ _ rows hrows

theorem value {v : Value} (hrun : run ∈ runs) (hv : ∃ log, (run.run log).1 = v) :
    HandedOn runs (Pure.pure (.ok v)) := by
  rintro log rows ⟨rfl⟩
  exact ⟨run, hrun, hv⟩

theorem mono {x : Logged Answer} (h : HandedOn runs x) (hsub : runs ⊆ runs') : HandedOn runs' x := by
  intro log rows hrows
  obtain ⟨run, hrun, hvalue⟩ := h log rows hrows
  exact ⟨run, hsub hrun, hvalue⟩

end HandedOn

namespace Functions

theorem choice_handedOn (runs : List (Logged Value)) : HandedOn runs (choice runs) := by
  unfold choice
  split
  next test yes no =>
    refine .bind fun v => ?_
    split
    next => exact .pure (.error _)
    next => exact .answerOf (by simp)
    next =>
      split
      next => exact .answerOf (by simp)
      next => exact .pure (.scalar (.boolean false))
  next => exact .pure (.scalar .empty)

theorem firstTrue_handedOn (runs : List (Logged Value)) : HandedOn runs (firstTrue runs) := by
  fun_induction firstTrue runs with
  | case1 test yes rest ih =>
      refine .bind fun v => ?_
      split
      next => exact .pure (.error _)
      next => exact .answerOf (by simp)
      next => exact ih.mono (by simp)
  | case2 => exact .pure (.scalar (.error .notAvailable))

theorem choices_handedOn (runs : List (Logged Value)) : HandedOn runs (choices runs) := by
  unfold choices
  split
  next => exact .pure (.error _)
  next => exact firstTrue_handedOn runs

theorem replacing_handedOn (caught : ErrorValue → Bool) (runs : List (Logged Value)) :
    HandedOn runs (replacing caught runs) := by
  unfold replacing
  split
  next run other _ =>
    refine .marked fun v mark hv => ?_
    simp only []
    split
    next e =>
      split
      next => exact .bind fun _ => .answerOf (by simp)
      next => exact .value List.mem_cons_self hv
    next => exact .value List.mem_cons_self hv
  next => exact .pure (.scalar .empty)

theorem firstCase_handedOn (v : Value) (runs : List (Logged Value)) : HandedOn runs (firstCase v runs) := by
  fun_induction firstCase v runs with
  | case1 test yes rest ih =>
      refine .bind fun w => ?_
      split
      next e => exact .pure (.scalar (.error e))
      next =>
        split
        next => exact .answerOf (by simp)
        next => exact ih.mono (by simp)
  | case2 => exact .answerOf (by simp)
  | case3 => exact .pure (.scalar (.error .notAvailable))

theorem switch_handedOn (runs : List (Logged Value)) : HandedOn runs (switch runs) := by
  unfold switch
  split
  next subject cases =>
    refine .bind fun v => ?_
    split
    next e => exact .pure (.scalar (.error e))
    next => exact (firstCase_handedOn v cases).mono (by simp)
  next => exact .pure (.scalar .empty)

theorem mem_of_choiceAt? {α : Type} {number : Decimal} {choices : List α} {a : α}
    (h : choiceAt? number choices = some a) : a ∈ choices := by
  unfold choiceAt? at h
  split at h
  next => exact List.mem_of_getElem? h
  next => cases h

theorem choose_handedOn (runs : List (Logged Value)) : HandedOn runs (choose runs) := by
  unfold choose
  split
  next number choices =>
    refine .bind fun v => ?_
    split
    next => exact .pure (.error _)
    next n _ =>
      split
      next run hrun => exact .answerOf (List.mem_cons_of_mem _ (mem_of_choiceAt? hrun))
      next => exact .pure (.error _)
  next => exact .pure (.scalar .empty)

end Functions

/-! ## The library -/

/-- Where a function answers with an array, it works on computations, and one of them has come to it. -/
def Implementation.HandsOn : Implementation → Prop
  | .eager answer => ∀ vs, SingleAnswer (answer vs)
  | .lazy answer => ∀ runs, HandedOn runs (answer runs)

/-- Functions make no arrays: those on values answer without any, and the others hand them on. -/
theorem library_handsOn : ∀ f ∈ library, f.implementation.HandsOn := by
  unfold library
  simp only [List.forall_mem_cons]
  exact ⟨withOne_single fun _ => .map,
    fun _ => .map,
    fun _ => .bind meanOf_single,
    withTwoOrThree_single fun _ _ _ => .bind meanOf_single,
    withTwo_single ceiling_single,
    withOneToThree_single (multipleBy_single _ _),
    choose_handedOn,
    joinedCells_single,
    fun _ => .map,
    fun _ => .scalar (.number _),
    fun _ => .scalar (.number _),
    withTwo_single countIf_single,
    withTwo_single fun _ _ => .bind fun _ => .bind fun _ => .scalar (.boolean _),
    fun _ => .scalar (.boolean false),
    withTwo_single floor_single,
    withOneToThree_single (multipleBy_single _ _),
    withThreeOrFour_single horizontalLookup_single,
    choice_handedOn,
    replacing_handedOn _,
    replacing_handedOn _,
    choices_handedOn,
    withTwoOrThree_single index_single,
    withOne_single fun _ => .map,
    withOne_single inspect_single,
    withOne_single inspect_single,
    withOne_single inspect_single,
    withOne_single inspect_single,
    withOne_single inspect_single,
    withOne_single inspect_single,
    withOneOrTwo_single fun _ _ => .bind fun _ => .bind fun _ => .scalar (.text _),
    withOne_single fun _ => .map,
    withOne_single fun _ => .map,
    withTwoOrThree_single position_single,
    fun _ => .map,
    withThree_single middlePart_single,
    fun _ => .map,
    withTwo_single modulo_single,
    withTwo_single nearestMultiple_single,
    withOne_single numberOf_single,
    fun _ => .scalar (.error .notAvailable),
    withOne_single fun _ => .map,
    fun _ => .map,
    withTwo_single fun _ _ => .bind fun _ => .bind fun _ => power_single _ _,
    product_single,
    withOneOrTwo_single fun _ _ => .bind fun _ => .bind fun _ => .scalar (.text _),
    withTwo_single fun _ _ => .bind fun _ => .bind fun _ => .numberOr _,
    withTwo_single fun _ _ => .bind fun _ => .bind fun _ => .numberOr _,
    withTwo_single fun _ _ => .bind fun _ => .bind fun _ => .numberOr _,
    withOne_single sign_single,
    withOne_single fun _ => .bind fun _ => .ite (.error _) (.numberOr _),
    fun _ => .bind fun _ => .bind fun _ => .scalar (.number _),
    withTwoOrThree_single fun _ _ _ => .bind fun _ => .bind fun _ => .scalar (.number _),
    sumProduct_single,
    switch_handedOn,
    withTwo_single textFromNumber_single,
    withOne_single fun _ => .map,
    fun _ => .scalar (.boolean true),
    withOneOrTwo_single fun _ _ => .bind fun _ => .bind fun _ => .numberOr _,
    withOne_single fun _ => .map,
    withOne_single numberFromText_single,
    withThreeOrFour_single verticalLookup_single,
    fun _ => .map,
    List.forall_mem_nil _⟩

/-! ## Formulas -/

/-- A tree may have the value of a tree within it: itself, or what an argument of a choosing function may
have. -/
inductive Expr.HandsOn : Expr → Expr → Prop where
  | self (e : Expr) : HandsOn e e
  | argument {function : String} {f : Function} {arguments : List Expr} {a t : Expr} :
      function? function = some f → f.isLazy = true → a ∈ arguments → HandsOn a t →
      HandsOn (.call function arguments) t

section

variable {c : Context}

theorem eq_of_settle {a : Answer} {log : Log} {rows : List (List CellValue)}
    (h : ((Logged.settle a).run log).1 = .array rows) : a = .ok (.array rows) := by
  cases a with
  | error e => cases h
  | ok v => exact congrArg Except.ok h

theorem settle_single {a : Answer} (h : SingleAnswer a) (log : Log) (rows : List (List CellValue)) :
    ((Logged.settle a).run log).1 ≠ .array rows := fun hrows => h rows (eq_of_settle hrows)

theorem cellValue_single (sheet? : Option SheetName) (address : Address) (log : Log)
    (rows : List (List CellValue)) : ((c.cellValue sheet? address).run log).1 ≠ .array rows := by
  unfold Context.cellValue
  split
  next => exact nofun
  next => exact nofun

theorem function?_handsOn {name : String} {f : Function} (h : function? name = some f) :
    f.implementation.HandsOn := by
  have hnamed : ∀ s, functionNamed? s = some f → f ∈ library := fun _ hs => List.mem_of_find?_eq_some hs
  rcases Option.or_eq_some_iff.1 h with h | ⟨-, h⟩
  · exact library_handsOn f (hnamed _ h)
  · exact library_handsOn f (hnamed _ h)

theorem mem_evaluateEach {run : Logged Value} : ∀ {es : List Expr}, run ∈ evaluateEach c es →
    ∃ e ∈ es, run = evaluate c e
  | [], h => absurd h List.not_mem_nil
  | e :: es, h => by
      rcases List.mem_cons.1 h with rfl | h
      · exact ⟨e, List.mem_cons_self, rfl⟩
      · obtain ⟨e', he', hrun⟩ := mem_evaluateEach h
        exact ⟨e', List.mem_cons_of_mem _ he', hrun⟩

/-- Where a call has an array, its function is a choosing one, and an argument has this array. -/
theorem callFunction_array {function : String} {arguments : List Expr} {log : Log}
    {rows : List (List CellValue)}
    (h : ((callFunction function (evaluateEach c arguments)).run log).1 = .array rows) :
    ∃ f, function? function = some f ∧ f.isLazy = true ∧
      ∃ a ∈ arguments, ∃ log', ((evaluate c a).run log').1 = .array rows := by
  unfold callFunction at h
  split at h
  next => cases h
  next f hf =>
    have hhands := function?_handsOn hf
    split at h
    next => cases h
    next =>
      split at h
      next answer hanswer =>
        rw [hanswer] at hhands
        refine ⟨f, hf, by simp [Function.isLazy, hanswer], ?_⟩
        have hvalue : ((answer (evaluateEach c arguments)).run log).1 = .ok (.array rows) :=
          eq_of_settle h
        obtain ⟨run, hrun, log', hrows⟩ := hhands _ log rows hvalue
        obtain ⟨a, ha, rfl⟩ := mem_evaluateEach hrun
        exact ⟨a, ha, log', hrows⟩
      next answer hanswer =>
        rw [hanswer] at hhands
        exact absurd h (settle_single (hhands _) _ rows)

/-- An array that a formula comes to is that of a range, of a name or of an array constant in it, which
the choosing functions have handed on. -/
theorem exists_handsOn : ∀ (e : Expr) {log : Log} {rows : List (List CellValue)},
    ((evaluate c e).run log).1 = .array rows → ∃ t, e.HandsOn t ∧
      ((∃ r, t = .range r) ∨ (∃ s, t = .name s) ∨ ∃ items, t = .array items) ∧
      ∃ log', ((evaluate c t).run log').1 = .array rows
  | .literal l, _, _, h => by cases h
  | .array items, log, _, h => ⟨_, .self _, Or.inr (Or.inr ⟨items, rfl⟩), log, h⟩
  | .range r, log, _, h => ⟨_, .self _, Or.inl ⟨r, rfl⟩, log, h⟩
  | .name s, log, _, h => ⟨_, .self _, Or.inr (Or.inl ⟨s, rfl⟩), log, h⟩
  | .cell r, log, rows, h => by
      rw [evaluate, Logged.sparing_fst] at h
      exact absurd h (cellValue_single _ _ _ _)
  | .binary o left right, log, rows, h => by
      rw [evaluate, Logged.sparing_fst] at h
      exact absurd h (settle_single (apply_single o _ _) _ _)
  | .negate operand, log, rows, h => by
      rw [evaluate, Logged.sparing_fst] at h
      exact absurd h (settle_single (negated_single _) _ _)
  | .percent operand, log, rows, h => by
      rw [evaluate, Logged.sparing_fst] at h
      exact absurd h (settle_single (hundredth_single _) _ _)
  | .call function arguments, log, rows, h => by
      rw [evaluate, Logged.sparing_fst] at h
      obtain ⟨f, hf, hlazy, a, ha, log', ha'⟩ := callFunction_array h
      obtain ⟨t, ht, hkind, hvalue⟩ := exists_handsOn a ha'
      exact ⟨t, .argument hf hlazy ha ht, hkind, hvalue⟩

end

end PaintQuote.Formula
