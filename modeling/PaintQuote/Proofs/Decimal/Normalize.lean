import PaintQuote.Sheet.CellValue

/-!
# Normal forms of numbers

Two decimals are one number exactly when they have one normal form (`same_iff_normalize`).  The
coefficient of a normal form ends in no zero unless its scale is zero, and of such coefficients and
scales a number other than zero has only one (`eq_of_last`).
-/

namespace PaintQuote

namespace Decimal

/-! ## Coefficients without zeros at the end -/

/-- Dropping zeros keeps the number. -/
theorem dropZeros_mul (coefficient scale : Nat) :
    (dropZeros coefficient scale).1 * tenTo scale =
      coefficient * tenTo (dropZeros coefficient scale).2 := by
  induction scale generalizing coefficient with
  | zero => rfl
  | succ scale ih =>
      rw [dropZeros]
      split
      next hzero =>
        have hten : coefficient / 10 * 10 = coefficient := by omega
        calc (dropZeros (coefficient / 10) scale).1 * tenTo (scale + 1)
            = (dropZeros (coefficient / 10) scale).1 * tenTo scale * 10 := by
              rw [tenTo_succ, Nat.mul_assoc]
          _ = coefficient / 10 * tenTo (dropZeros (coefficient / 10) scale).2 * 10 := by rw [ih]
          _ = coefficient * tenTo (dropZeros (coefficient / 10) scale).2 := by
              rw [Nat.mul_right_comm, hten]
      next => rfl

/-- What is left after dropping zeros ends in no zero, unless it has no fraction. -/
theorem dropZeros_last (coefficient scale : Nat) :
    (dropZeros coefficient scale).2 = 0 ∨ (dropZeros coefficient scale).1 % 10 ≠ 0 := by
  induction scale generalizing coefficient with
  | zero => exact Or.inl rfl
  | succ scale ih =>
      rw [dropZeros]
      split
      next => exact ih (coefficient / 10)
      next hlast => exact Or.inr hlast

/-- A number has only one coefficient and scale without a zero at the end of the fraction. -/
theorem eq_of_last {c s c' s' : Nat} (h : c * tenTo s' = c' * tenTo s)
    (hlast : s = 0 ∨ c % 10 ≠ 0) (hlast' : s' = 0 ∨ c' % 10 ≠ 0) : c = c' ∧ s = s' := by
  have hle : ∀ {c s c' s' : Nat}, c * tenTo s' = c' * tenTo s → (s' = 0 ∨ c' % 10 ≠ 0) → s' ≤ s := by
    intro c s c' s' h hlast'
    refine Nat.le_of_not_lt fun hlt => ?_
    obtain ⟨d, hd⟩ : ∃ d, s' = s + (d + 1) := ⟨s' - s - 1, by omega⟩
    rw [hd, tenTo_add, Nat.mul_comm (tenTo s), ← Nat.mul_assoc, tenTo_succ] at h
    have hc := Nat.eq_of_mul_eq_mul_right (tenTo_pos s) h
    have hten : c' % 10 = 0 := by rw [← hc, ← Nat.mul_assoc, Nat.mul_mod_left]
    omega
  have hscale : s = s' := Nat.le_antisymm (hle h.symm hlast) (hle h hlast')
  subst hscale
  exact ⟨Nat.eq_of_mul_eq_mul_right (tenTo_pos s) h, rfl⟩

/-! ## Sameness -/

theorem ext_parts {a b : Decimal} (hn : a.negative = b.negative)
    (hc : a.coefficient = b.coefficient) (hs : a.scale = b.scale) : a = b := by
  cases a
  cases b
  simp_all

/-- Two decimals are one number when they have one magnitude and, unless it is zero, one sign. -/
theorem same_iff (a b : Decimal) : a.same b = true ↔
    a.coefficient * tenTo b.scale = b.coefficient * tenTo a.scale ∧
      (a.coefficient = 0 ∨ a.negative = b.negative) := by
  have hpos := tenTo_pos b.scale
  have hpos' := tenTo_pos a.scale
  have hzero : a.coefficient * tenTo b.scale = 0 ↔ a.coefficient = 0 := by
    rw [Nat.mul_eq_zero]
    omega
  rw [same, compare, beq_iff_eq, Std.LawfulEqOrd.compare_eq_iff_eq, signed, signed, ← hzero]
  generalize hx : a.coefficient * tenTo b.scale = x
  generalize hy : b.coefficient * tenTo a.scale = y
  have hx' : (a.coefficient : Int) * (tenTo b.scale : Int) = x := by
    rw [← hx, Int.natCast_mul]
  have hy' : (b.coefficient : Int) * (tenTo a.scale : Int) = y := by
    rw [← hy, Int.natCast_mul]
  cases a.negative <;> cases b.negative <;>
    simp only [if_true, if_false, Bool.false_eq_true, reduceCtorEq, Int.neg_mul, hx', hy', or_true,
      or_false, and_true] <;> omega

/-- Fractions that are equal in one form are equal in another. -/
theorem cross {a b a' b' s t s' t' : Nat} (hs : 0 < s) (ht : 0 < t) (h : a' * s = a * s')
    (h' : b' * t = b * t') (hab : a * t = b * s) : a' * t' = b' * s' := by
  refine Nat.eq_of_mul_eq_mul_right (Nat.mul_pos hs ht) ?_
  calc a' * t' * (s * t)
      = a' * s * (t' * t) := by ac_rfl
    _ = a * t * (s' * t') := by rw [h]; ac_rfl
    _ = b * t' * (s' * s) := by rw [hab]; ac_rfl
    _ = b' * s' * (s * t) := by rw [← h']; ac_rfl

theorem normalize_of_zero {d : Decimal} (h : d.coefficient = 0) : d.normalize = 0 := by
  rw [normalize, isZero, if_pos (beq_iff_eq.2 h)]

theorem normalize_of_ne_zero {d : Decimal} (h : d.coefficient ≠ 0) :
    d.normalize.negative = d.negative ∧
      d.normalize.coefficient = (dropZeros d.coefficient d.scale).1 ∧
      d.normalize.scale = (dropZeros d.coefficient d.scale).2 := by
  rw [normalize, isZero, if_neg fun hz => h (beq_iff_eq.1 hz)]
  exact ⟨rfl, rfl, rfl⟩

/-- The magnitude of a normal form is that of the decimal. -/
theorem normalize_mul (d : Decimal) :
    d.normalize.coefficient * tenTo d.scale = d.coefficient * tenTo d.normalize.scale := by
  by_cases h : d.coefficient = 0
  · rw [normalize_of_zero h, h, Nat.zero_mul]
    exact Nat.zero_mul _
  · obtain ⟨_, hc, hs⟩ := normalize_of_ne_zero h
    rw [hc, hs, dropZeros_mul]

theorem coefficient_eq_zero_of_normalize {d : Decimal} (h : d.normalize = 0) : d.coefficient = 0 := by
  have hmul := normalize_mul d
  rw [h, show (0 : Decimal).coefficient = 0 from rfl, show (0 : Decimal).scale = 0 from rfl,
    Nat.zero_mul, tenTo_zero, Nat.mul_one] at hmul
  exact hmul.symm

/-- Two decimals are one number exactly when they have one normal form. -/
theorem same_iff_normalize (a b : Decimal) : a.same b = true ↔ a.normalize = b.normalize := by
  have hpos := tenTo_pos a.scale
  have hpos' := tenTo_pos b.scale
  rw [same_iff]
  by_cases ha : a.coefficient = 0
  · have hzero : a.coefficient * tenTo b.scale = b.coefficient * tenTo a.scale ↔
        b.coefficient = 0 := by
      rw [ha, Nat.zero_mul, eq_comm, Nat.mul_eq_zero]
      omega
    rw [normalize_of_zero ha, hzero]
    constructor
    · rintro ⟨hb, _⟩
      exact (normalize_of_zero hb).symm
    · intro hb
      exact ⟨coefficient_eq_zero_of_normalize hb.symm, Or.inl ha⟩
  · obtain ⟨han, hac, has⟩ := normalize_of_ne_zero ha
    have hmul := normalize_mul a
    have hmul' := normalize_mul b
    constructor
    · rintro ⟨hsame, hsign⟩
      have hb : b.coefficient ≠ 0 := by
        rintro hb
        rw [hb, Nat.zero_mul, Nat.mul_eq_zero] at hsame
        omega
      obtain ⟨hbn, hbc, hbs⟩ := normalize_of_ne_zero hb
      have hcross : a.normalize.coefficient * tenTo b.normalize.scale =
          b.normalize.coefficient * tenTo a.normalize.scale :=
        cross hpos hpos' hmul hmul' hsame
      have hparts := eq_of_last hcross
        (by rw [hac, has]; exact dropZeros_last _ _) (by rw [hbc, hbs]; exact dropZeros_last _ _)
      exact ext_parts (by rw [han, hbn]; exact hsign.resolve_left ha) hparts.1 hparts.2
    · intro heq
      have hb : b.coefficient ≠ 0 := fun hb =>
        ha (coefficient_eq_zero_of_normalize (heq.trans (normalize_of_zero hb)))
      obtain ⟨hbn, _, _⟩ := normalize_of_ne_zero hb
      refine ⟨?_, Or.inr ?_⟩
      · exact cross (tenTo_pos _) (tenTo_pos _) hmul.symm hmul'.symm (by rw [heq])
      · rw [← han, ← hbn, heq]

end Decimal

/-! ## Values -/

namespace Sheet.CellValue

/-- Two values agree exactly when they are equal with their numbers in normal form. -/
theorem agrees_iff (v w : CellValue) : v.agrees w = true ↔ v.normalize = w.normalize := by
  cases v <;> cases w <;>
    simp [agrees, normalize, Decimal.same_iff_normalize]

end Sheet.CellValue

end PaintQuote
