import PaintQuote.Decimal.Rounding
import PaintQuote.Decimal.Text
import PaintQuote.Proofs.Decimal.Normalize
import PaintQuote.Proofs.Decimal.Value

/-!
# Decimals of one number

A number has several decimals.  Sign, order and rounding look at the number alone: what they make of
two decimals of one number is again one number.  Of two such decimals one has the digits of the other
and further zeros (`exists_zeros`), which is all that the rounding rules have to be shown blind to.
-/

namespace PaintQuote.Decimal

variable {a b a' b' : Decimal}

/-! ## Sameness -/

theorem same_symm (h : a.same b) : b.same a := same_iff_value.2 (same_iff_value.1 h).symm

theorem same_trans {c : Decimal} (h : a.same b) (h' : b.same c) : a.same c :=
  same_iff_value.2 ((same_iff_value.1 h).trans (same_iff_value.1 h'))

/-- Of two decimals of one number the one with the larger scale has further zeros. -/
theorem exists_zeros (h : a.same b) (hle : a.scale ≤ b.scale) :
    ∃ zeros, b.scale = a.scale + zeros ∧ b.coefficient = a.coefficient * tenTo zeros := by
  obtain ⟨zeros, hzeros⟩ := Nat.exists_eq_add_of_le hle
  refine ⟨zeros, hzeros, ?_⟩
  have hcross := ((same_iff a b).1 h).1
  rw [hzeros, Nat.add_comm, tenTo_add, ← Nat.mul_assoc] at hcross
  exact (Nat.eq_of_mul_eq_mul_right (tenTo_pos _) hcross).symm

/-- Further zeros change no number. -/
theorem same_of_zeros {zeros : Nat} (hs : b.scale = a.scale + zeros)
    (hc : b.coefficient = a.coefficient * tenTo zeros)
    (hn : a.coefficient = 0 ∨ a.negative = b.negative) : a.same b := by
  refine (same_iff a b).2 ⟨?_, hn⟩
  rw [hs, hc, Nat.add_comm, tenTo_add, ← Nat.mul_assoc]

/-- What holds of decimals of one number whenever the second has further zeros, and is symmetric, holds
of all decimals of one number. -/
theorem same_induction {P : Decimal → Decimal → Prop} (hsymm : ∀ a b, P a b → P b a)
    (hzeros : ∀ a b, a.same b → (a.coefficient = 0 ∨ a.negative = b.negative) → ∀ zeros,
      b.scale = a.scale + zeros → b.coefficient = a.coefficient * tenTo zeros → P a b)
    (h : a.same b) : P a b := by
  rcases Nat.le_total a.scale b.scale with hle | hle
  · obtain ⟨zeros, hs, hc⟩ := exists_zeros h hle
    exact hzeros a b h ((same_iff a b).1 h).2 zeros hs hc
  · obtain ⟨zeros, hs, hc⟩ := exists_zeros (same_symm h) hle
    exact hsymm b a (hzeros b a (same_symm h) ((same_iff b a).1 (same_symm h)).2 zeros hs hc)

/-! ## Sign and order -/

theorem isZero_eq_true_iff : a.isZero = true ↔ a.value = 0 := by
  rw [value_eq_zero_iff, isZero, beq_iff_eq]

theorem isZero_of_same (h : a.same b) : a.isZero = b.isZero := by
  rw [Bool.eq_iff_iff, isZero_eq_true_iff, isZero_eq_true_iff, same_iff_value.1 h]

theorem negative_of_same (h : a.same b) (hz : a.isZero = false) : a.negative = b.negative :=
  ((same_iff a b).1 h).2.resolve_left (beq_eq_false_iff_ne.1 hz)

theorem isPositive_of_same (h : a.same b) : a.isPositive = b.isPositive := by
  rw [Bool.eq_iff_iff, isPositive_iff, isPositive_iff, same_iff_value.1 h]

theorem compare_of_same (h : a.same a') (h' : b.same b') : a.compare b = a'.compare b' := by
  have hless : a.less b = a'.less b' := by
    rw [Bool.eq_iff_iff, less_iff, less_iff, same_iff_value.1 h, same_iff_value.1 h']
  have hsame : a.same b = a'.same b' := by
    rw [Bool.eq_iff_iff, same_iff_value, same_iff_value, same_iff_value.1 h, same_iff_value.1 h']
  unfold less at hless
  unfold same at hsame
  revert hless hsame
  cases a.compare b <;> cases a'.compare b' <;> simp

theorem neg_same (h : a.same b) : (-a).same (-b) := by
  obtain ⟨hcross, hsign⟩ := (same_iff a b).1 h
  exact (same_iff _ _).2 ⟨hcross, hsign.imp_right (congrArg Bool.not)⟩

theorem abs_same (h : a.same b) : a.abs.same b.abs :=
  (same_iff _ _).2 ⟨((same_iff a b).1 h).1, Or.inr rfl⟩

/-- The sign of zero is no part of a number. -/
theorem same_of_isZero (ha : a.isZero = true) (hb : b.isZero = true) : a.same b := by
  rw [same_iff_value, isZero_eq_true_iff.1 ha, isZero_eq_true_iff.1 hb]

theorem normalize_same (a : Decimal) : a.normalize.same a := by
  refine (same_iff_normalize _ _).2 ?_
  by_cases hz : a.coefficient = 0
  · rw [normalize_of_zero hz]
    rfl
  · obtain ⟨hn, hc, hs⟩ := normalize_of_ne_zero hz
    have hsame : a.normalize.same a := (same_iff _ _).2 ⟨normalize_mul a, Or.inr hn⟩
    exact (same_iff_normalize _ _).1 hsame

/-! ## Whole parts -/

theorem div_tenTo_zeros (n s zeros : Nat) :
    n * tenTo zeros / tenTo (s + zeros) = n / tenTo s := by
  rw [tenTo_add, Nat.mul_div_mul_right _ _ (tenTo_pos zeros)]

theorem mod_tenTo_zeros (n s zeros : Nat) :
    n * tenTo zeros % tenTo (s + zeros) = n % tenTo s * tenTo zeros := by
  rw [tenTo_add, Nat.mul_mod_mul_right]

theorem toInt64?_of_same (h : a.same b) : a.toInt64? = b.toInt64? := by
  refine same_induction (P := fun a b => a.toInt64? = b.toInt64?) (fun _ _ h => h.symm) ?_ h
  intro a b _ hsign zeros hs hc
  have hwhole : b.coefficient / tenTo b.scale = a.coefficient / tenTo a.scale := by
    rw [hs, hc, div_tenTo_zeros]
  unfold toInt64?
  rw [hwhole]
  rcases hsign with hzero | hsign
  · rw [hzero, Nat.zero_div]
    cases a.negative <;> cases b.negative <;> rfl
  · rw [hsign]

theorem isWhole_of_same (h : a.same b) : a.isWhole = b.isWhole := by
  refine same_induction (P := fun a b => a.isWhole = b.isWhole) (fun _ _ h => h.symm) ?_ h
  intro a b _ _ zeros hs hc
  rw [isWhole, isWhole, hs, hc, mod_tenTo_zeros, Bool.eq_iff_iff, beq_iff_eq, beq_iff_eq,
    Nat.mul_eq_zero]
  have := tenTo_pos zeros
  omega

/-! ## Rounding -/

/-- Further zeros tell a rule nothing. -/
theorem Rounding.carries_zeros (rule : Rounding) (negative : Bool) (given unit zeros : Nat) :
    rule.carries negative (given * tenTo zeros) (unit * tenTo zeros) =
      rule.carries negative given unit := by
  have hpos := tenTo_pos zeros
  have hzero : (given * tenTo zeros != 0) = (given != 0) := by
    rw [Bool.eq_iff_iff, bne_iff_ne, bne_iff_ne, Ne, Nat.mul_eq_zero]
    omega
  have hhalf : unit * tenTo zeros ≤ 2 * (given * tenTo zeros) ↔ unit ≤ 2 * given := by
    rw [← Nat.mul_assoc]
    exact Nat.mul_le_mul_right_iff hpos
  unfold carries
  rw [hzero]
  cases rule <;> simp only [hhalf]

theorem quantize_same (h : a.same b) (places : Nat) (rule : Rounding) :
    (a.quantize places rule).same (b.quantize places rule) := by
  refine same_induction (P := fun a b => (a.quantize places rule).same (b.quantize places rule))
    (fun _ _ h => same_symm h) ?_ h
  intro a b hab hsign zeros hs hc
  rcases Nat.le_total b.scale places with hfew | hmany
  · rw [quantize_of_le rule hfew, quantize_of_le rule (by omega)]
    exact hab
  rcases Nat.le_total a.scale places with hle | hgt
  · -- Only zeros are given up.
    obtain ⟨kept, rfl⟩ := Nat.exists_eq_add_of_le hle
    obtain ⟨lost, hlost⟩ := Nat.exists_eq_add_of_le hmany
    obtain rfl : zeros = kept + lost := by omega
    have hunit : b.scale - (a.scale + kept) = lost := by omega
    have hexact : b.coefficient = a.coefficient * tenTo kept * tenTo lost := by
      rw [hc, tenTo_add, Nat.mul_assoc]
    have hcoefficient : (b.quantize (a.scale + kept) rule).coefficient =
        a.coefficient * tenTo kept := by
      show b.coefficient / tenTo (b.scale - (a.scale + kept)) + _ = _
      rw [hunit, hexact, Nat.mul_mod_left, Nat.mul_div_cancel _ (tenTo_pos lost)]
      rfl
    rw [quantize_of_le rule (Nat.le_add_right _ _)]
    exact same_of_zeros (Nat.min_eq_right hmany) hcoefficient hsign
  · obtain ⟨lost, hlost⟩ := Nat.exists_eq_add_of_le hgt
    have ha : a.scale - places = lost := by omega
    have hb : b.scale - places = lost + zeros := by omega
    have hcoefficient : (b.quantize places rule).coefficient =
        a.coefficient / tenTo lost + (rule.carries b.negative (a.coefficient % tenTo lost) (tenTo lost)).toNat := by
      show b.coefficient / tenTo (b.scale - places) + _ = _
      rw [hb, hc, div_tenTo_zeros, mod_tenTo_zeros, tenTo_add, Rounding.carries_zeros]
    have hscale : (b.quantize places rule).scale = (a.quantize places rule).scale := by
      show min b.scale places = min a.scale places
      omega
    rcases hsign with hzero | hsign
    · refine same_of_isZero ?_ ?_
      · show (a.coefficient / tenTo (a.scale - places) + _ == 0) = true
        rw [hzero, Nat.zero_mod, Nat.zero_div]
        rfl
      · rw [isZero, hcoefficient, hzero, Nat.zero_mod, Nat.zero_div]
        rfl
    · refine (same_iff _ _).2 ⟨?_, Or.inr hsign⟩
      rw [hcoefficient, hscale]
      show (a.coefficient / tenTo (a.scale - places) + _) * _ = _
      rw [ha, hsign]

theorem withSign_same (h : a.same b) (negative : Bool) :
    (a.withSign negative).same (b.withSign negative) :=
  (same_iff _ _).2 ⟨((same_iff a b).1 h).1, Or.inr rfl⟩

theorem round_same (h : a.same b) (places : Nat) (rule : Rounding) :
    (a.round places rule).same (b.round places rule) := by
  have hzero := isZero_of_same h
  have hrounded := quantize_same h places rule
  unfold round
  rw [← hzero]
  cases hz : a.isZero with
  | true =>
      rw [if_pos rfl, if_pos rfl]
      exact same_of_isZero hz (hzero ▸ hz)
  | false =>
      simp only [Bool.false_eq_true, if_false, negative_of_same h hz, isZero_of_same hrounded]
      exact withSign_same hrounded _

/-! ## Digits -/

theorem toPlain_of_same (h : a.same b) : a.toPlain = b.toPlain := by
  rw [toPlain, toPlain, (same_iff_normalize a b).1 h]

/-- The digits of a coefficient, with zeros in front for the places before and after the point. -/
def paddedDigits (coefficient scale : Nat) : List Char :=
  List.replicate (scale + 1 - (Nat.toDigits 10 coefficient).length) '0' ++ Nat.toDigits 10 coefficient

theorem paddedDigits_succ (coefficient scale : Nat) :
    paddedDigits (coefficient * 10) (scale + 1) = paddedDigits coefficient scale ++ ['0'] := by
  unfold paddedDigits
  rcases Nat.eq_zero_or_pos coefficient with rfl | hpos
  · rw [Nat.zero_mul, Nat.toDigits_zero, List.length_singleton, Nat.add_sub_cancel,
      Nat.add_sub_cancel, List.replicate_succ', List.append_assoc]
  · have hdigits := Nat.toDigits_append_toDigits (b := 10) (d := 0) (by decide) hpos (by decide)
    rw [Nat.add_zero, Nat.mul_comm, Nat.toDigits_zero] at hdigits
    rw [← hdigits, List.length_append, List.length_singleton, Nat.add_sub_add_right,
      List.append_assoc]

theorem paddedDigits_zeros (coefficient scale zeros : Nat) :
    paddedDigits (coefficient * tenTo zeros) (scale + zeros) =
      paddedDigits coefficient scale ++ List.replicate zeros '0' := by
  induction zeros with
  | zero => rw [tenTo_zero, Nat.mul_one, List.replicate_zero, List.append_nil, Nat.add_zero]
  | succ zeros ih =>
      rw [tenTo_succ, ← Nat.mul_assoc, ← Nat.add_assoc, paddedDigits_succ, ih,
        List.replicate_succ', List.append_assoc]

/-- Further zeros are written at the end of the fraction. -/
theorem digitParts_zeros {zeros : Nat} (hs : b.scale = a.scale + zeros)
    (hc : b.coefficient = a.coefficient * tenTo zeros) :
    b.digitParts = (a.digitParts.1, a.digitParts.2 ++ List.replicate zeros '0') := by
  have hpadded := paddedDigits_zeros a.coefficient a.scale zeros
  rw [← hs, ← hc] at hpadded
  show ((paddedDigits b.coefficient b.scale).take
        ((paddedDigits b.coefficient b.scale).length - b.scale),
      (paddedDigits b.coefficient b.scale).drop
        ((paddedDigits b.coefficient b.scale).length - b.scale)) =
    ((paddedDigits a.coefficient a.scale).take
        ((paddedDigits a.coefficient a.scale).length - a.scale),
      (paddedDigits a.coefficient a.scale).drop
        ((paddedDigits a.coefficient a.scale).length - a.scale) ++ List.replicate zeros '0')
  have hsub : (paddedDigits a.coefficient a.scale ++ List.replicate zeros '0').length - b.scale =
      (paddedDigits a.coefficient a.scale).length - a.scale := by
    rw [List.length_append, List.length_replicate]
    omega
  rw [hpadded, hsub, List.take_append_of_le_length (Nat.sub_le _ _),
    List.drop_append_of_le_length (Nat.sub_le _ _)]

/-- As many digits as wanted are written, whatever number of zeros follows. -/
theorem take_append_zeros (digits : List Char) {places zeros : Nat}
    (h : places ≤ digits.length + zeros) :
    (digits ++ List.replicate zeros '0').take places =
      digits.take places ++ List.replicate (places - digits.length) '0' := by
  rw [List.take_append, List.take_replicate, Nat.min_eq_left (by omega)]

theorem toFixed_of_same (h : a.same b) (places : Nat) : a.toFixed places = b.toFixed places := by
  refine same_induction (P := fun a b => a.toFixed places = b.toFixed places)
    (fun _ _ h => h.symm) ?_ h
  intro a b _ _ zeros hs hc
  unfold toFixed
  rw [digitParts_zeros hs hc]
  simp only [List.append_assoc, List.replicate_append_replicate, List.length_append,
    List.length_replicate]
  rw [take_append_zeros _ (by omega), take_append_zeros _ (by omega)]

end PaintQuote.Decimal
