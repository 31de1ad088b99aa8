import PaintQuote.Formula.Operator
import PaintQuote.Proofs.Decimal.Powers
import PaintQuote.Proofs.Values.Like

/-!
# Operators on values that agree

No operator tells values apart that agree.  Comparisons order numbers, whatever their forms; joined
texts are those of normal forms; and arithmetic rounds to the nearest decimal, whatever the forms of
its operands.
-/

namespace PaintQuote.Formula

open Sheet

theorem numberOr_agree {m n : Option Decimal} (h : Decimal.SameResult m n) :
    SameAnswer (numberOr m) (numberOr n) := by
  cases h with
  | none => exact .error _
  | some h => exact .ok (.number h)

/-! ## Powers -/

theorem power_agree {a b a' b' : Decimal} (ha : a.same a') (hb : b.same b') :
    SameAnswer (power a b) (power a' b') := by
  unfold power
  rw [← Decimal.isZero_of_same ha, ← Decimal.compare_of_same hb (Decimal.same_self 0),
    ← Decimal.isWhole_of_same hb, ← Decimal.toInt64?_of_same hb]
  cases hz : a.isZero with
  | true => exact .refl _
  | false =>
      rw [← Decimal.negative_of_same ha hz]
      simp only [Bool.false_eq_true, if_false]
      split
      next =>
        split
        next => exact numberOr_agree (Decimal.powInt?_same ha hz _)
        next => exact .error _
      next =>
        split
        next => exact .error _
        next => exact numberOr_agree (Decimal.powDecimal?_same ha hb)

/-! ## Comparison -/

namespace Value

variable {v w v' w' : Value}

theorem Like.filled (hv : v.Like v') (hw : w.Like w') : (v.filled w).Like (v'.filled w') := by
  cases hv with
  | array h => exact .array h
  | @scalar c c' hc =>
      cases hc with
      | number h => exact .number h
      | refl =>
          cases c with
          | empty =>
              cases hw with
              | array => exact .refl _
              | scalar hd => cases hd <;> exact .refl _
          | _ => exact .refl _

theorem compareFilled_of_like (hv : v.Like v') (hw : w.Like w') :
    compareFilled v w = compareFilled v' w' := by
  have hself := Decimal.same_self
  cases hv with
  | array =>
      cases hw with
      | array => rfl
      | scalar hd => cases hd <;> rfl
  | @scalar c c' hc =>
      cases hw with
      | array =>
          cases hc with
          | number => rfl
          | refl => cases c <;> rfl
      | @scalar d d' hd =>
          cases hc with
          | number h =>
              cases hd with
              | number h' => exact Decimal.compare_of_same h h'
              | refl =>
                  cases d with
                  | number n => exact Decimal.compare_of_same h (hself n)
                  | _ => rfl
          | refl =>
              cases hd with
              | refl => rfl
              | number h' =>
                  cases c with
                  | number m => exact Decimal.compare_of_same (hself m) h'
                  | _ => rfl

theorem compareTo_of_like (hv : v.Like v') (hw : w.Like w') :
    v.compareTo w = v'.compareTo w' :=
  compareFilled_of_like (hv.filled hw) (hw.filled (hv.filled hw))

end Value

/-! ## Operators -/

namespace BinaryOperator

variable {v w v' w' : Value}

theorem arithmetic_agree {operation : Decimal → Decimal → Except FormulaError Value}
    (hoperation : ∀ {a b a' b' : Decimal}, a.same a' → b.same b' →
      SameAnswer (operation a b) (operation a' b'))
    (hv : v.Like v') (hw : w.Like w') :
    SameAnswer (arithmetic operation v w) (arithmetic operation v' w') :=
  hv.toNumber.bind fun _ _ hm => hw.toNumber.bind fun _ _ hn => hoperation hm hn

theorem quotient_agree {a b a' b' : Decimal} (ha : a.same a') (hb : b.same b') :
    SameAnswer (quotient a b) (quotient a' b') := by
  unfold quotient
  rw [← Decimal.isZero_of_same hb]
  split
  next => exact .error _
  next => exact numberOr_agree (Decimal.div?_same ha hb)

theorem joined_agree (hv : v.Like v') (hw : w.Like w') :
    SameAnswer (joined v w) (joined v' w') := by
  cases hv with
  | array => exact .error _
  | scalar hc =>
      cases hw with
      | array => exact .error _
      | scalar hd =>
          rw [joined, joined, hc.toText_eq, hd.toText_eq]
          exact .refl _

/-- Operators do not tell values apart that agree. -/
theorem apply_agree (o : BinaryOperator) (hv : v.Like v') (hw : w.Like w') :
    SameAnswer (o.apply v w) (o.apply v' w') := by
  have hcomparison : ∀ relation : BinaryOperator, SameAnswer
      (.ok (.boolean (relation.holds (v.compareTo w))))
      (.ok (.boolean (relation.holds (v'.compareTo w')))) := by
    intro relation
    rw [Value.compareTo_of_like hv hw]
    exact .refl _
  unfold apply
  rw [hv.error?_eq, hw.error?_eq]
  split
  next => exact .refl _
  next => exact .refl _
  next =>
    cases o with
    | add => exact arithmetic_agree (fun ha hb => numberOr_agree (Decimal.add?_same ha hb)) hv hw
    | subtract => exact arithmetic_agree (fun ha hb => numberOr_agree (Decimal.sub?_same ha hb)) hv hw
    | multiply => exact arithmetic_agree (fun ha hb => numberOr_agree (Decimal.mul?_same ha hb)) hv hw
    | divide => exact arithmetic_agree quotient_agree hv hw
    | power => exact arithmetic_agree power_agree hv hw
    | concatenate => exact joined_agree hv hw
    | equal | notEqual | less | lessEqual | greater | greaterEqual => exact hcomparison _

end BinaryOperator

theorem negated_agree {v w : Value} (h : v.Like w) : SameAnswer (negated v) (negated w) := by
  have hnumber := h.toNumber.map (S := Value.Like) fun _ _ hmn => .number (Decimal.neg_same hmn)
  cases h with
  | array => exact hnumber
  | @scalar v w h =>
      cases h with
      | number => exact hnumber
      | refl =>
          cases v with
          | error => exact .refl _
          | _ => exact hnumber

theorem hundredth_agree {v w : Value} (h : v.Like w) : SameAnswer (hundredth v) (hundredth w) := by
  have hnumber := h.toNumber.bind fun _ _ hmn =>
    numberOr_agree (Decimal.div?_same hmn (Decimal.same_self 100))
  cases h with
  | array => exact hnumber
  | @scalar v w h =>
      cases h with
      | number => exact hnumber
      | refl =>
          cases v with
          | error => exact .refl _
          | _ => exact hnumber

end PaintQuote.Formula
