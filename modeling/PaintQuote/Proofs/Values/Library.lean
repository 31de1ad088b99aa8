import PaintQuote.Formula.Library
import PaintQuote.Proofs.Values.Functions

/-!
# What functions make of equal values

A function answers arguments that agree with values that agree, and so does every operator.  Three
functions see the sign of a zero and one the scale of its operands: a zero with a minus has no square
root, it counts as a negative significance beside a positive number, and a long divisor need not
leave the exact remainder.  Apart from that no function of the library can tell equal values apart
(`settled_agrees_iff`).
-/

namespace PaintQuote.Formula

open Sheet Functions

/-! ## What shows -/

/-- The number of an argument, by its place from zero. -/
def numberAt? (vs : List Value) (place : Nat) : Option Decimal := (vs[place]?).bind Value.number?

/-- Where a function sees the sign of a zero, the two lists of arguments have one sign. -/
structure OneZero (name : String) (vs ws : List Value) : Prop where
  /-- A root sees the sign of its argument. -/
  root : name = "SQRT" → ∀ m n, numberAt? vs 0 = some m → numberAt? ws 0 = some n →
    m.isZero = true → m.negative = n.negative
  /-- A rounding of a positive number to multiples sees the sign of the significance. -/
  significance : name = "CEILING" ∨ name = "FLOOR" → ∀ x, numberAt? vs 0 = some x →
    x.isPositive = true → ∀ m n, numberAt? vs 1 = some m → numberAt? ws 1 = some n →
    m.isZero = true → m.negative = n.negative

/-- A remainder, where the function is one, is exact. -/
def Exact (name : String) (vs : List Value) : Prop :=
  name = "MOD" → ∀ m n, numberAt? vs 0 = some m → numberAt? vs 1 = some n → m.LeavesExact n

/-! ## Arguments by place -/

section Places

variable {vs ws : List Value}

theorem withOne_agree {answer : Value → Answer}
    (hanswer : ∀ {v w}, v.Like w → SameAnswer (answer v) (answer w)) (h : SameArguments vs ws) :
    SameAnswer (withOne answer vs) (withOne answer ws) := by
  cases h with
  | nil => exact SameAnswer.refl _
  | cons h => exact hanswer h

theorem sameOptional_head? (h : SameArguments vs ws) : SameOptional vs.head? ws.head? := by
  cases h with
  | nil => exact .none
  | cons h => exact .some h

theorem withOneOrTwo_agree {answer : Value → Option Value → Answer}
    (hanswer : ∀ {v w o p}, v.Like w → SameOptional o p → SameAnswer (answer v o) (answer w p))
    (h : SameArguments vs ws) :
    SameAnswer (withOneOrTwo answer vs) (withOneOrTwo answer ws) := by
  cases h with
  | nil => exact SameAnswer.refl _
  | cons h hrest => exact hanswer h (sameOptional_head? hrest)

theorem withOneToThree_agree {answer : Value → Option Value → Option Value → Answer}
    (hanswer : ∀ {v w o p q r}, v.Like w → SameOptional o p → SameOptional q r →
      SameAnswer (answer v o q) (answer w p r))
    (h : SameArguments vs ws) :
    SameAnswer (withOneToThree answer vs) (withOneToThree answer ws) := by
  cases h with
  | nil => exact SameAnswer.refl _
  | cons h hrest => exact hanswer h (forall₂_getElem? hrest 0) (forall₂_getElem? hrest 1)

theorem withTwo_agree {answer : Value → Value → Answer}
    (hanswer : ∀ {v w v' w'}, v.Like v' → w.Like w' → SameAnswer (answer v w) (answer v' w'))
    (h : SameArguments vs ws) : SameAnswer (withTwo answer vs) (withTwo answer ws) := by
  cases h with
  | nil => exact SameAnswer.refl _
  | cons h hrest =>
      cases hrest with
      | nil => exact SameAnswer.refl _
      | cons h' => exact hanswer h h'

theorem withTwoOrThree_agree {answer : Value → Value → Option Value → Answer}
    (hanswer : ∀ {v w v' w' o p}, v.Like v' → w.Like w' → SameOptional o p →
      SameAnswer (answer v w o) (answer v' w' p))
    (h : SameArguments vs ws) :
    SameAnswer (withTwoOrThree answer vs) (withTwoOrThree answer ws) := by
  cases h with
  | nil => exact SameAnswer.refl _
  | cons h hrest =>
      cases hrest with
      | nil => exact SameAnswer.refl _
      | cons h' hrest => exact hanswer h h' (sameOptional_head? hrest)

theorem withThree_agree {answer : Value → Value → Value → Answer}
    (hanswer : ∀ {u v w u' v' w'}, u.Like u' → v.Like v' → w.Like w' →
      SameAnswer (answer u v w) (answer u' v' w'))
    (h : SameArguments vs ws) : SameAnswer (withThree answer vs) (withThree answer ws) := by
  cases h with
  | nil => exact SameAnswer.refl _
  | cons h hrest =>
      cases hrest with
      | nil => exact SameAnswer.refl _
      | cons h' hrest =>
          cases hrest with
          | nil => exact SameAnswer.refl _
          | cons h'' => exact hanswer h h' h''

theorem withThreeOrFour_agree {answer : Value → Value → Value → Option Value → Answer}
    (hanswer : ∀ {u v w u' v' w' o p}, u.Like u' → v.Like v' → w.Like w' → SameOptional o p →
      SameAnswer (answer u v w o) (answer u' v' w' p))
    (h : SameArguments vs ws) :
    SameAnswer (withThreeOrFour answer vs) (withThreeOrFour answer ws) := by
  cases h with
  | nil => exact SameAnswer.refl _
  | cons h hrest =>
      cases hrest with
      | nil => exact SameAnswer.refl _
      | cons h' hrest =>
          cases hrest with
          | nil => exact SameAnswer.refl _
          | cons h'' hrest => exact hanswer h h' h'' (sameOptional_head? hrest)

end Places

/-! ## The library -/

/-- A function of values answers arguments that agree with values that agree, unless it sees the sign of
a zero or leaves a remainder that is not exact. -/
def Congruent (f : Function) : Prop :=
  ∀ answer, f.implementation = .eager answer → ∀ {vs ws}, SameArguments vs ws →
    OneZero f.name vs ws → Exact f.name vs → Exact f.name ws → SameAnswer (answer vs) (answer ws)

section Library

variable {name : String} {least : Nat} {most : Option Nat}

theorem congruent_eager {answer : List Value → Answer}
    (h : ∀ {vs ws}, SameArguments vs ws → SameAnswer (answer vs) (answer ws)) :
    Congruent (.eager name least most answer) := by
  rintro _ ⟨rfl⟩ vs ws hargs _ _ _
  exact h hargs

theorem congruent_deferred {answer : List (Logged Value) → Logged Answer} :
    Congruent (.deferred name least most answer) := by
  rintro _ ⟨⟩

theorem congruent_withNone {answer : Answer} :
    Congruent (.eager name least most (withNone answer)) :=
  congruent_eager fun _ => SameAnswer.refl _

/-- A root sees the sign of a zero. -/
theorem congruent_root : Congruent (.eager "SQRT" least most (withOne squareRoot)) := by
  rintro _ ⟨rfl⟩ vs ws hargs hzero _ _
  cases hargs with
  | nil => exact SameAnswer.refl _
  | cons h => exact squareRoot_agree h (hzero.root rfl)

/-- A rounding to multiples sees the sign of a zero significance. -/
theorem congruent_significance {answer : Value → Value → Answer}
    (hname : name = "CEILING" ∨ name = "FLOOR")
    (hanswer : ∀ {v w v' w'}, v.Like v' → w.Like w' →
      (∀ n, v.number? = some n → n.isPositive = true → OneSign w w') →
      SameAnswer (answer v w) (answer v' w')) :
    Congruent (.eager name least most (withTwo answer)) := by
  rintro _ ⟨rfl⟩ vs ws hargs hzero _ _
  cases hargs with
  | nil => exact SameAnswer.refl _
  | cons h hrest =>
      cases hrest with
      | nil => exact SameAnswer.refl _
      | cons h' => exact hanswer h h' (hzero.significance hname)

theorem congruent_remainder : Congruent (.eager "MOD" least most (withTwo modulo)) := by
  rintro _ ⟨rfl⟩ vs ws hargs _ hexact hexact'
  cases hargs with
  | nil => exact SameAnswer.refl _
  | cons h hrest =>
      cases hrest with
      | nil => exact SameAnswer.refl _
      | cons h' => exact modulo_agree h h' (hexact rfl) (hexact' rfl)

end Library

/-- The functions of the library, in its order. -/
theorem library_congruent : ∀ f ∈ library, Congruent f := by
  unfold library
  simp only [List.forall_mem_cons]
  exact ⟨congruent_eager (withOne_agree absolute_agree),
    congruent_eager conjunction_agree,
    congruent_eager average_agree,
    congruent_eager (withTwoOrThree_agree averageIf_agree),
    congruent_significance (Or.inl rfl) ceiling_agree,
    congruent_eager (withOneToThree_agree ceilingMath_agree),
    congruent_deferred,
    congruent_eager joinedCells_agree,
    congruent_eager concatenation_agree,
    congruent_eager count_agree,
    congruent_eager countFilled_agree,
    congruent_eager (withTwo_agree countIf_agree),
    congruent_eager (withTwo_agree identical_agree),
    congruent_withNone,
    congruent_significance (Or.inr rfl) floor_agree,
    congruent_eager (withOneToThree_agree floorMath_agree),
    congruent_eager (withThreeOrFour_agree horizontalLookup_agree),
    congruent_deferred,
    congruent_deferred,
    congruent_deferred,
    congruent_deferred,
    congruent_eager (withTwoOrThree_agree index_agree),
    congruent_eager (withOne_agree integer_agree),
    congruent_eager (withOne_agree (testing_agree fun _ _ => rfl)),
    congruent_eager (withOne_agree (testing_agree fun _ _ => rfl)),
    congruent_eager (withOne_agree (testing_agree fun _ _ => rfl)),
    congruent_eager (withOne_agree (testing_agree fun _ _ => rfl)),
    congruent_eager (withOne_agree (testing_agree fun _ _ => rfl)),
    congruent_eager (withOne_agree (testing_agree fun _ _ => rfl)),
    congruent_eager (withOneOrTwo_agree leftPart_agree),
    congruent_eager (withOne_agree textLength_agree),
    congruent_eager (withOne_agree lowerCase_agree),
    congruent_eager (withTwoOrThree_agree position_agree),
    congruent_eager maximum_agree,
    congruent_eager (withThree_agree middlePart_agree),
    congruent_eager minimum_agree,
    congruent_remainder,
    congruent_eager (withTwo_agree nearestMultiple_agree),
    congruent_eager (withOne_agree numberOf_agree),
    congruent_withNone,
    congruent_eager (withOne_agree negation_agree),
    congruent_eager disjunction_agree,
    congruent_eager (withTwo_agree powerOf_agree),
    congruent_eager product_agree,
    congruent_eager (withOneOrTwo_agree rightPart_agree),
    congruent_eager (withTwo_agree (roundBy_agree _)),
    congruent_eager (withTwo_agree (roundBy_agree _)),
    congruent_eager (withTwo_agree (roundBy_agree _)),
    congruent_eager (withOne_agree sign_agree),
    congruent_root,
    congruent_eager sum_agree,
    congruent_eager (withTwoOrThree_agree sumIf_agree),
    congruent_eager sumProduct_agree,
    congruent_deferred,
    congruent_eager (withTwo_agree textFromNumber_agree),
    congruent_eager (withOne_agree spaced_agree),
    congruent_withNone,
    congruent_eager (withOneOrTwo_agree truncate_agree),
    congruent_eager (withOne_agree upperCase_agree),
    congruent_eager (withOne_agree numberFromText_agree),
    congruent_eager (withThreeOrFour_agree verticalLookup_agree),
    congruent_eager parity_agree,
    List.forall_mem_nil _⟩

theorem implementation_of_name : ∀ f ∈ library,
    (f.name = "SQRT" → f.implementation = .eager (withOne squareRoot)) ∧
      (f.name = "CEILING" → f.implementation = .eager (withTwo ceiling)) ∧
      (f.name = "FLOOR" → f.implementation = .eager (withTwo Functions.floor)) := by
  unfold library
  simp only [List.forall_mem_cons]
  simp [Function.eager, Function.deferred]

/-- Where a function sees the sign of a zero, arguments of two signs have different answers. -/
theorem oneZero_of_settled {f : Function} (hf : f ∈ library) {answer : List Value → Answer}
    (hanswer : f.implementation = .eager answer) {vs ws : List Value} (h : SameArguments vs ws)
    (hsettled : (settled (answer vs)).Like (settled (answer ws))) : OneZero f.name vs ws := by
  obtain ⟨hroot, hceiling, hfloor⟩ := implementation_of_name f hf
  constructor
  case root =>
    intro hname
    cases hanswer.symm.trans (hroot hname)
    cases h with
    | nil => exact nofun
    | cons h => exact oneSign_of_squareRoot h hsettled
  case significance =>
    intro hname x hx hpos m n hm hn
    cases h with
    | nil => cases hx
    | cons h hrest =>
        cases hrest with
        | nil => cases hm
        | cons h' =>
            rcases hname with hname | hname
            · cases hanswer.symm.trans (hceiling hname)
              exact oneSign_of_ceiling h hx hpos h' hsettled m n hm hn
            · cases hanswer.symm.trans (hfloor hname)
              exact oneSign_of_floor h hx hpos h' hsettled m n hm hn

theorem sameArguments_iff {vs ws : List Value} :
    SameArguments vs ws ↔ List.Forall₂ (fun v w : Value => v.agrees w = true) vs ws :=
  ⟨fun h => h.imp fun _ _ => Value.like_iff.1, fun h => h.imp fun _ _ => Value.like_iff.2⟩

/-- The answers of a function to equal arguments are equal exactly where no sign of a zero shows,
remainders being exact; and the operators make equal values of equal values. -/
theorem settled_agrees_iff {f : Function} (hf : f ∈ library) {answer : List Value → Answer}
    (hanswer : f.implementation = .eager answer) {vs ws : List Value}
    (h : List.Forall₂ (fun v w : Value => v.agrees w = true) vs ws) (hexact : Exact f.name vs)
    (hexact' : Exact f.name ws) (o : BinaryOperator) {v w v' w' : Value}
    (hv : v.agrees v' = true) (hw : w.agrees w' = true) :
    ((settled (answer vs)).agrees (settled (answer ws)) = true ↔ OneZero f.name vs ws) ∧
      (settled (o.apply v w)).agrees (settled (o.apply v' w')) = true ∧
      (settled (negated v)).agrees (settled (negated v')) = true ∧
      (settled (hundredth v)).agrees (settled (hundredth v')) = true := by
  have hargs := sameArguments_iff.2 h
  rw [← Value.like_iff] at hv hw
  simp only [← Value.like_iff]
  refine ⟨⟨oneZero_of_settled hf hanswer hargs, fun hzero => ?_⟩, ?_, ?_, ?_⟩
  · exact (library_congruent f hf answer hanswer hargs hzero hexact hexact').settled
  · exact (o.apply_agree hv hw).settled
  · exact (negated_agree hv).settled
  · exact (hundredth_agree hv).settled

/-- `MOD(7.50, 2.0)` and `MOD(7.5, 2)` are one number, and so are `7.50 ^ 2.0` and `7.5 ^ 2`. -/
theorem settled_agrees_modulo :
    (settled (modulo (.number (.scaled 750 2)) (.number (.scaled 20 1)))).agrees
        (settled (modulo (.number (.scaled 75 1)) (.number 2))) = true ∧
      (settled (BinaryOperator.power.apply (.number (.scaled 750 2)) (.number (.scaled 20 1)))).agrees
        (settled (BinaryOperator.power.apply (.number (.scaled 75 1)) (.number 2))) = true := by
  have hmem : (.eager "MOD" 2 (some 2) (withTwo modulo) : Function) ∈ library :=
    List.mem_of_getElem? (i := 36) rfl
  have hv : (Value.number (.scaled 750 2)).agrees (.number (.scaled 75 1)) = true := by decide
  have hw : (Value.number (.scaled 20 1)).agrees (.number 2) = true := by decide
  have hexact : Exact "MOD" [.number (.scaled 750 2), .number (.scaled 20 1)] := by
    rintro - _ _ ⟨⟩ ⟨⟩
    exact Decimal.leavesExact_of_lt (by decide)
  have hexact' : Exact "MOD" [.number (.scaled 75 1), .number 2] := by
    rintro - _ _ ⟨⟩ ⟨⟩
    exact Decimal.leavesExact_of_lt (by decide)
  have hzero : OneZero "MOD" [.number (.scaled 750 2), .number (.scaled 20 1)]
      [.number (.scaled 75 1), .number 2] :=
    ⟨fun h => absurd h (by decide), fun h => absurd h (by decide)⟩
  obtain ⟨hmod, hpower, -⟩ := settled_agrees_iff hmem rfl (.cons hv (.cons hw .nil)) hexact hexact'
    .power hv hw
  exact ⟨hmod.2 hzero, hpower⟩

/-- The square root tells zero with a minus from zero. -/
theorem squareRoot_sees_sign :
    ∃ f ∈ library, ∃ answer, f.implementation = .eager answer ∧ ∃ vs ws,
      List.Forall₂ (fun v w : Value => v.agrees w = true) vs ws ∧
        (settled (answer vs)).agrees (settled (answer ws)) = false :=
  ⟨.eager "SQRT" 1 (some 1) (withOne squareRoot), List.mem_of_getElem? (i := 49) rfl, _, rfl,
    [.number (-0)], [.number 0], .cons (by decide) .nil, by decide⟩

end PaintQuote.Formula
