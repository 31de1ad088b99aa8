import PaintQuote.Proofs.Decimal.Results
import PaintQuote.Proofs.Values.Arithmetic
import PaintQuote.Proofs.Values.Places

/-!
# Multiples of a significance

A multiple of a significance next to a number is found by a quotient, which is rounded up or down to a whole
number and multiplied by the significance again.  The quotient is rounded as well, to the places that a
decimal has.  That passes no whole number, but it may stop at one: then the multiple lies on the wrong side
of the number (`Strays`).  It stops there only if no decimal is in between (`Strays.gap`).  Where the quotient
does not stray and the multiple has a decimal, the result is this multiple, and nowhere else
(`snap_tight_iff`).
-/

namespace PaintQuote

namespace Decimal

variable {rule : Rounding} {n step q r : Decimal} {x y s : ℚ}

/-! ## Quotients -/

/-- The rule for multiples by the rule for quotients: a negative step turns the order around. -/
def Rounding.beside (rule : Rounding) (s : ℚ) : Rounding := if 0 < s then rule else rule.mirror

/-- A multiple of a step is picked by the quotient. -/
theorem picks_of_quotient (hs : s ≠ 0) (h : rule.Picks 1 (x / s) y) :
    (rule.beside s).Picks |s| x (y * s) := by
  have hscaled := h.scale (abs_pos.2 hs)
  unfold Rounding.beside
  rcases lt_or_gt_of_ne hs with hneg | hpos
  · rw [abs_of_neg hneg] at hscaled ⊢
    have hmirror : rule.mirror.Picks (-s) (-(x / s * -s)) (-(y * -s)) :=
      .neg (by rwa [Rounding.mirror_mirror])
    rw [mul_neg, mul_neg, InvolutiveNeg.neg_neg, InvolutiveNeg.neg_neg, div_mul_cancel₀ x hs] at hmirror
    rwa [if_neg (not_lt.2 hneg.le)]
  · rw [abs_of_pos hpos, div_mul_cancel₀ x hs] at hscaled
    rwa [if_pos hpos, abs_of_pos hpos]

/-- A result is the multiple of a step that the rule picks: by `up` the next one at or above the number, by
`down` the next one at or below it, and the other way around for a negative step. -/
def IsTight (rule : Rounding) (n step r : Decimal) : Prop :=
  (rule.beside step.value).Picks |step.value| n.value r.value

theorem isTight_iff_of_pos (h : 0 < step.value) :
    IsTight rule n step r ↔ rule.Picks step.value n.value r.value := by
  rw [IsTight, Rounding.beside, if_pos h, abs_of_pos h]

theorem isTight_iff_of_neg (h : step.value < 0) :
    IsTight rule n step r ↔ rule.mirror.Picks (-step.value) n.value r.value := by
  rw [IsTight, Rounding.beside, if_neg (not_lt.2 h.le), abs_of_neg h]

/-- The quotient by a step is whole for a multiple of the step. -/
theorem exists_quotient_of_isMultiple (hs : s ≠ 0) (h : IsMultiple |s| x) : ∃ m : ℤ, x / s = m := by
  obtain ⟨m, hm⟩ := h
  rcases abs_choice s with habs | habs
  · exact ⟨m, by rw [hm, habs, mul_div_cancel_right₀ _ hs]⟩
  · exact ⟨-m, by rw [hm, habs, mul_neg, neg_div, mul_div_cancel_right₀ _ hs, Int.cast_neg]⟩

/-- The quotient is rounded to a whole number on the side of it that the rule turns away from. -/
def Strays (rule : Rounding) (n step : Decimal) : Prop :=
  ∃ q, n.div? step = some q ∧ ∃ m : ℤ, q.value = m ∧
    match rule with
    | .up => (m : ℚ) < n.value / step.value
    | .down => n.value / step.value < m
    | .halfAway => False
    | .away => False
    | .towardZero => False

/-- A quotient strays only past no decimal: between the whole number and the exact quotient, this
included, there is none. -/
theorem Strays.gap (hstep : step.isZero = false) (h : Strays rule n step) :
    ∃ m : ℤ, n.value / step.value ≠ m ∧ ∀ d : Decimal,
      (m < n.value / step.value → m < d.value → n.value / step.value < d.value) ∧
        (n.value / step.value < m → d.value < m → d.value < n.value / step.value) := by
  obtain ⟨q, hq, m, hm, hside⟩ := h
  refine ⟨m, ?_, fun d => ?_⟩
  · cases rule with
    | up => exact hside.ne'
    | down => exact hside.ne
    | _ => exact hside.elim
  · obtain ⟨hbelow, habove⟩ := div?_respects hstep hq d
    rw [hm] at hbelow habove
    exact ⟨fun _ hd => lt_of_not_ge fun hle => not_lt.2 (hbelow hle) hd,
      fun _ hd => lt_of_not_ge fun hle => not_lt.2 (habove hle) hd⟩

/-- A quotient that has a decimal does not stray. -/
theorem not_strays_of_value {d : Decimal} (hstep : step.isZero = false)
    (h : d.value = n.value / step.value) : ¬ Strays rule n step := by
  intro hstrays
  obtain ⟨m, hne, hgap⟩ := hstrays.gap hstep
  rcases lt_or_gt_of_ne hne with hlt | hgt
  · exact ((hgap d).2 hlt (h ▸ hlt)).ne h
  · exact ((hgap d).1 hgt (h ▸ hgt)).ne' h

section

variable (hrule : rule = .up ∨ rule = .down) (hstep : step.isZero = false) (hq : n.div? step = some q)

include hrule hstep hq

/-- Rounding the rounded quotient is rounding the quotient, unless it strays. -/
theorem quantize_picks_quotient (hkeeps : ¬ Strays rule n step) :
    rule.Picks 1 (n.value / step.value) (q.quantize 0 rule).value := by
  obtain ⟨⟨units, hunits⟩, hpicks⟩ := q.whole_picks rule
  have hwhole := div?_respects_whole hstep hq
  refine ⟨⟨units, hunits⟩, ?_⟩
  rw [mul_one] at hunits
  rw [hunits] at hpicks ⊢
  rcases hrule with rfl | rfl
  · obtain ⟨hle, hlt⟩ := hpicks
    refine ⟨le_of_not_gt fun hbelow => ?_, lt_of_not_ge fun habove => ?_⟩
    · exact hkeeps ⟨q, hq, units, le_antisymm hle ((hwhole units).1 hbelow.le), hbelow⟩
    · have := (hwhole (units - 1)).2 (by push_cast; linarith)
      push_cast at this
      linarith
  · obtain ⟨hle, hlt⟩ := hpicks
    refine ⟨le_of_not_gt fun habove => ?_, lt_of_not_ge fun hbelow => ?_⟩
    · exact hkeeps ⟨q, hq, units, le_antisymm ((hwhole units).2 habove.le) hle, habove⟩
    · have := (hwhole (units + 1)).1 (by push_cast; linarith)
      push_cast at this
      linarith

/-- A quotient that strays gives no multiple on the right side, not even when the product is rounded: no
rounding passes the number itself. -/
theorem not_tight_of_strays (hstrays : Strays rule n step) (hr : (q.quantize 0 rule).mul? step = some r) :
    ¬ IsTight rule n step r := by
  obtain ⟨q', hq', m, hm, hside⟩ := hstrays
  obtain rfl : q = q' := Option.some.inj (hq.symm.trans hq')
  have hne := value_ne_zero hstep
  have hunits : (q.quantize 0 rule).value = m := by
    have hpicks := q.whole_picks rule
    rw [hm] at hpicks
    refine hpicks.unique one_pos ⟨⟨m, (mul_one _).symm⟩, ?_⟩
    rcases hrule with rfl | rfl
    · exact ⟨le_refl _, lt_add_one _⟩
    · exact ⟨le_refl _, lt_add_one _⟩
  have hproduct := mul?_respects hr n
  rw [hunits] at hproduct
  intro htight
  -- The number would be a multiple itself, and the quotient exact.
  have hexact : r.value = n.value → False := by
    intro heq
    obtain ⟨j, hj⟩ := exists_quotient_of_isMultiple hne (heq ▸ htight.1)
    have hwhole := div?_respects_whole hstep hq j
    rw [hm, hj] at hwhole
    have hmj : (m : ℚ) = j := le_antisymm (hwhole.2 (le_refl _)) (hwhole.1 (le_refl _))
    rcases hrule with rfl | rfl
    · exact absurd hside (by rw [hj, hmj]; exact lt_irrefl _)
    · exact absurd hside (by rw [hj, hmj]; exact lt_irrefl _)
  rcases lt_or_gt_of_ne hne with hneg | hpos
  · have hpicks := (isTight_iff_of_neg hneg).1 htight
    rcases hrule with rfl | rfl
    · exact hexact (le_antisymm hpicks.2.1 (hproduct.1 ((lt_div_iff_of_neg hneg).1 hside).le))
    · exact hexact (le_antisymm (hproduct.2 ((div_lt_iff_of_neg hneg).1 hside).le) hpicks.2.1)
  · have hpicks := (isTight_iff_of_pos hpos).1 htight
    rcases hrule with rfl | rfl
    · exact hexact (le_antisymm (hproduct.2 ((lt_div_iff₀ hpos).1 hside).le) hpicks.2.1)
    · exact hexact (le_antisymm hpicks.2.1 (hproduct.1 ((div_lt_iff₀ hpos).1 hside).le))

end

end Decimal

namespace Formula.Functions

open Sheet Decimal

variable {rule : Rounding} {n step r : Decimal}

/-- A result is the multiple that the rule picks exactly if the quotient does not stray and the multiple has
a decimal. -/
theorem snap_tight_iff (hrule : rule = .up ∨ rule = .down) (hstep : step.isZero = false)
    (h : snap n step (fun q => q.quantize 0 rule) = .ok (.number r)) :
    IsTight rule n step r ↔ ¬ Strays rule n step ∧ ∃ y, IsTight rule n step y := by
  have hne := value_ne_zero hstep
  obtain ⟨q, hq, hr⟩ : ∃ q, n.div? step = some q ∧ (q.quantize 0 rule).mul? step = some r := by
    unfold snap at h
    cases hq : n.div? step with
    | none =>
        rw [hq] at h
        cases h
    | some q =>
        rw [hq] at h
        exact ⟨q, rfl, numberOr_eq_ok_iff.1 h⟩
  constructor
  · intro htight
    exact ⟨fun hstrays => not_tight_of_strays hrule hstep hq hstrays hr htight, r, htight⟩
  · rintro ⟨hkeeps, y, hy⟩
    have hpicks := picks_of_quotient hne (quantize_picks_quotient hrule hstep hq hkeeps)
    have hvalue : y.value = (q.quantize 0 rule).value * step.value := hy.unique (abs_pos.2 hne) hpicks
    obtain ⟨z, hz, hzvalue⟩ := mul?_exact hvalue
    obtain rfl : r = z := Option.some.inj (hr.symm.trans hz)
    unfold IsTight
    rwa [hzvalue]

/-- The rule for a negative number beside a mode that is not zero, and the rule otherwise.  For zero, which
may have a minus, both make zero. -/
theorem snap_mode (hstep : step.isZero = false) (usual reversed : Rounding) (mode : Decimal) :
    snap n step (if n.negative && !mode.isZero then fun q => q.quantize 0 reversed
      else fun q => q.quantize 0 usual) =
    snap n step (fun q => q.quantize 0 (if n.value < 0 ∧ mode.value ≠ 0 then reversed else usual)) := by
  cases hn : n.isZero with
  | true =>
      have hzero : ∀ rule : Rounding, snap n step (fun q => q.quantize 0 rule) = .ok (.number 0) :=
        fun rule => snap_of_isZero (by cases rule <;> rfl) hn hstep
      rw [hzero]
      split
      · exact hzero reversed
      · exact hzero usual
  | false =>
      have hmode : (!mode.isZero) = true ↔ mode.value ≠ 0 := by
        rw [Bool.not_eq_true', ← Bool.not_eq_true, isZero_eq_true_iff]
      have hiff : (n.negative && !mode.isZero) = true ↔ n.value < 0 ∧ mode.value ≠ 0 := by
        rw [Bool.and_eq_true, negative_iff hn, hmode]
      by_cases hreversed : n.value < 0 ∧ mode.value ≠ 0
      · rw [if_pos hreversed, if_pos (hiff.2 hreversed)]
      · rw [if_neg hreversed, if_neg (mt hiff.1 hreversed)]

/-! ## Functions -/

section

variable {v significance : Value} {s : Decimal}

theorem ceiling_eq (hv : v.toNumber = .ok n) (hsignificance : significance.toNumber = .ok s) :
    ceiling v significance =
      if signsClash n s then .error (.errorValue .number)
      else if s.isZero then .ok (.number 0) else snap n s Decimal.ceil := by
  simp only [ceiling, hv, hsignificance, bind, Except.bind]

theorem floor_eq (hv : v.toNumber = .ok n) (hsignificance : significance.toNumber = .ok s) :
    floor v significance =
      if signsClash n s then .error (.errorValue .number)
      else if s.isZero then if n.isZero then .ok (.number 0) else .error .divisionByZero
      else snap n s Decimal.floor := by
  simp only [Functions.floor, hv, hsignificance, bind, Except.bind]

theorem multipleBy_eq {usual reversed : Rounding} {significance mode : Option Value} {m : Decimal}
    (hv : v.toNumber = .ok n) (hsignificance : numberOrDefault significance 1 = .ok s)
    (hmode : numberOrDefault mode 0 = .ok m) (hs : s.isZero = false) :
    multipleBy (fun q => q.quantize 0 usual) (fun q => q.quantize 0 reversed) v significance mode =
      snap n s.abs (fun q => q.quantize 0 (if n.value < 0 ∧ m.value ≠ 0 then reversed else usual)) := by
  rw [← snap_mode (show s.abs.isZero = false from hs)]
  simp only [multipleBy, hv, hsignificance, hmode, hs, bind, Except.bind, Bool.false_eq_true, if_false]

theorem multipleBy_tight_iff {usual reversed : Rounding} (husual : usual = .up ∨ usual = .down)
    (hreversed : reversed = .up ∨ reversed = .down) {significance mode : Option Value} {m : Decimal}
    (hv : v.toNumber = .ok n) (hsignificance : numberOrDefault significance 1 = .ok s)
    (hmode : numberOrDefault mode 0 = .ok m) (hs : s.isZero = false)
    (h : multipleBy (fun q => q.quantize 0 usual) (fun q => q.quantize 0 reversed) v significance mode =
      .ok (.number r)) (hrule : rule = if n.value < 0 ∧ m.value ≠ 0 then reversed else usual) :
    IsTight rule n s.abs r ↔ ¬ Strays rule n s.abs ∧ ∃ y, IsTight rule n s.abs y := by
  rw [multipleBy_eq hv hsignificance hmode hs, ← hrule] at h
  refine snap_tight_iff ?_ hs h
  rw [hrule]
  split
  · exact hreversed
  · exact husual

end

/-- Multiples of a significance that is not zero are the next ones at or above a number or at or below it,
and the other way around for a negative significance, exactly if the quotient does not stray and the multiple
has a decimal.  Where the sign of the significance does not count, the mode decides about negative numbers.
The multiple of zero above a number is zero, unless the number is positive and the zero has a minus. -/
theorem multiples_tight_iff (v : Value) (n s : Decimal) (hv : v.toNumber = .ok n) :
    (∀ significance, significance.toNumber = .ok s →
      (s.value ≠ 0 → ∀ r,
        (ceiling v significance = .ok (.number r) →
          (IsTight .up n s r ↔ ¬ Strays .up n s ∧ ∃ y, IsTight .up n s y)) ∧
        (floor v significance = .ok (.number r) →
          (IsTight .down n s r ↔ ¬ Strays .down n s ∧ ∃ y, IsTight .down n s y))) ∧
      (s.value = 0 →
        (ceiling v significance = .ok (.number 0) ↔ ¬ (0 < n.value ∧ s.negative = true)))) ∧
    ∀ significance mode m, numberOrDefault significance 1 = .ok s → numberOrDefault mode 0 = .ok m →
      s.value ≠ 0 → ∀ r,
        (ceilingMath v significance mode = .ok (.number r) →
          ∀ rule, rule = (if n.value < 0 ∧ m.value ≠ 0 then Rounding.down else .up) →
            (IsTight rule n s.abs r ↔ ¬ Strays rule n s.abs ∧ ∃ y, IsTight rule n s.abs y)) ∧
        (floorMath v significance mode = .ok (.number r) →
          ∀ rule, rule = (if n.value < 0 ∧ m.value ≠ 0 then Rounding.up else .down) →
            (IsTight rule n s.abs r ↔ ¬ Strays rule n s.abs ∧ ∃ y, IsTight rule n s.abs y)) := by
  have hiszero : s.value ≠ 0 → s.isZero = false := fun hne => by
    rwa [← Bool.not_eq_true, isZero_eq_true_iff]
  constructor
  · intro significance hsignificance
    rw [ceiling_eq hv hsignificance, floor_eq hv hsignificance]
    refine ⟨fun hne r => ?_, fun hzero => ?_⟩
    · rw [hiszero hne]
      constructor
      · intro hceiling
        split at hceiling
        next => cases hceiling
        next => exact snap_tight_iff (Or.inl rfl) (hiszero hne) hceiling
      · intro hfloor
        split at hfloor
        next => cases hfloor
        next => exact snap_tight_iff (Or.inr rfl) (hiszero hne) hfloor
    · have hclash : signsClash n s = true ↔ 0 < n.value ∧ s.negative = true := by
        rw [signsClash, Bool.and_eq_true, isPositive_iff]
      rw [isZero_eq_true_iff.2 hzero, ← hclash]
      cases signsClash n s with
      | false => simp
      | true => simp
  · intro significance mode m hsignificance hmode hne r
    exact ⟨fun hceiling rule => multipleBy_tight_iff (Or.inl rfl) (Or.inr rfl) hv hsignificance hmode
      (hiszero hne) hceiling, fun hfloor rule => multipleBy_tight_iff (Or.inr rfl) (Or.inl rfl) hv
      hsignificance hmode (hiszero hne) hfloor⟩

/-- Rounding up to quarters, rounding a negative number down to twos by its mode, and a significance that is
zero. -/
theorem multiples_tight_quarters :
    ceiling (.number (scaled 171 2)) (.number (scaled 25 2)) = .ok (.number (scaled 175 2)) ∧
      IsTight .up (scaled 171 2) (scaled 25 2) (scaled 175 2) ∧
      ceilingMath (.number (-scaled 55 1)) (some (.number 2)) (some (.number (-1))) = .ok (.number (-6)) ∧
      IsTight .down (-scaled 55 1) (Decimal.abs 2) (-6) ∧
      ceiling (.number (scaled 171 2)) (.number 0) = .ok (.number 0) := by
  have hnumber : (scaled 171 2).value = 171 / 100 ∧ (-scaled 55 1).value = -(11 / 2) :=
    ⟨by rw [value_eq_div (c := 171) (t := 100) rfl rfl]; norm_num,
      by rw [value_eq_div (c := -55) (t := 10) rfl rfl]; norm_num⟩
  have hstep : (scaled 25 2).value = 1 / 4 ∧ (Decimal.abs 2).value = 2 :=
    ⟨by rw [value_eq_div (c := 25) (t := 100) rfl rfl]; norm_num,
      by rw [value_eq_div (c := 2) (t := 1) rfl rfl]; norm_num⟩
  have hquotient : (scaled 684 2).value = 171 / 25 ∧ (-scaled 275 2).value = -(11 / 4) :=
    ⟨by rw [value_eq_div (c := 684) (t := 100) rfl rfl]; norm_num,
      by rw [value_eq_div (c := -275) (t := 100) rfl rfl]; norm_num⟩
  have hresult : (scaled 175 2).value = 7 / 4 ∧ (-6 : Decimal).value = -6 :=
    ⟨by rw [value_eq_div (c := 175) (t := 100) rfl rfl]; norm_num,
      by rw [value_eq_div (c := -6) (t := 1) rfl rfl]; norm_num⟩
  have hquarter : ceiling (.number (scaled 171 2)) (.number (scaled 25 2)) = .ok (.number (scaled 175 2)) := by
    decide +kernel
  have hsix : ceilingMath (.number (-scaled 55 1)) (some (.number 2)) (some (.number (-1))) =
      .ok (.number (-6)) := by
    decide +kernel
  refine ⟨hquarter, ?_, hsix, ?_, ?_⟩
  · obtain ⟨hmultiples, -⟩ :=
      multiples_tight_iff (.number (scaled 171 2)) (scaled 171 2) (scaled 25 2) rfl
    obtain ⟨hiff, -⟩ := (hmultiples (.number (scaled 25 2)) rfl).1 (value_ne_zero rfl) (scaled 175 2)
    refine (hiff hquarter).2 ⟨not_strays_of_value rfl (d := scaled 684 2) ?_, scaled 175 2, ?_⟩
    · rw [hquotient.1, hnumber.1, hstep.1]
      norm_num
    · rw [isTight_iff_of_pos (by rw [hstep.1]; norm_num), hnumber.1, hstep.1, hresult.1]
      exact ⟨⟨7, by norm_num⟩, by norm_num, by norm_num⟩
  · obtain ⟨-, hmultiples⟩ := multiples_tight_iff (.number (-scaled 55 1)) (-scaled 55 1) 2 rfl
    obtain ⟨hiff, -⟩ :=
      hmultiples (some (.number 2)) (some (.number (-1))) (-1) rfl rfl (value_ne_zero rfl) (-6)
    have hdown : (-scaled 55 1).value < 0 ∧ (-1 : Decimal).value ≠ 0 := by
      rw [hnumber.2]
      exact ⟨by norm_num, value_ne_zero rfl⟩
    refine (hiff hsix .down (if_pos hdown).symm).2 ⟨not_strays_of_value rfl (d := -scaled 275 2) ?_, -6, ?_⟩
    · rw [hquotient.2, hnumber.2, hstep.2]
      norm_num
    · rw [isTight_iff_of_pos (by rw [hstep.2]; norm_num), hnumber.2, hstep.2, hresult.2]
      exact ⟨⟨-3, by norm_num⟩, by norm_num, by norm_num⟩
  · obtain ⟨hmultiples, -⟩ := multiples_tight_iff (.number (scaled 171 2)) (scaled 171 2) 0 rfl
    exact ((hmultiples (.number 0) rfl).2 (value_eq_zero_iff.2 rfl)).2 fun h => by cases h.2

/-- A zero with a minus is refused beside a positive number, and a number that is next to a multiple of three
is rounded to this multiple, although that is on the wrong side of it. -/
theorem multiples_not_tight :
    (-0 : Decimal).value = 0 ∧ ceiling (.number 5) (.number (-0)) ≠ .ok (.number 0) ∧
      ceiling (.number (scaled 30000000000000000000000000001 28)) (.number 3) = .ok (.number 3) ∧
      ¬ IsTight .up (scaled 30000000000000000000000000001 28) 3 3 ∧
      IsTight .up (scaled 30000000000000000000000000001 28) 3 6 := by
  have hvalues : (3 : Decimal).value = 3 ∧ (6 : Decimal).value = 6 ∧
      (scaled 30000000000000000000000000001 28).value = 3 + 1 / 10 ^ 28 := by
    refine ⟨?_, ?_, ?_⟩
    · rw [value_eq_div (c := 3) (t := 1) rfl rfl]
      norm_num
    · rw [value_eq_div (c := 6) (t := 1) rfl rfl]
      norm_num
    · rw [value_eq_div (c := 30000000000000000000000000001) (t := 10 ^ 28) rfl (by decide)]
      norm_num
  obtain ⟨hthree, hsix, hnumber⟩ := hvalues
  have hpos : 0 < (3 : Decimal).value := by
    rw [hthree]
    norm_num
  refine ⟨value_eq_zero_iff.2 rfl, by decide +kernel, by decide +kernel, ?_, ?_⟩
  · rw [isTight_iff_of_pos hpos, hnumber, hthree]
    rintro ⟨-, hle, -⟩
    norm_num at hle
  · rw [isTight_iff_of_pos hpos, hnumber, hthree, hsix]
    exact ⟨⟨2, by norm_num⟩, by norm_num, by norm_num⟩

end Formula.Functions

end PaintQuote
