import PaintQuote.Decimal.Text

/-!
# Reading a written decimal

The text of a decimal without a minus is digits, with a point among them unless the scale is zero.
Digits are read onto the coefficient so far (`readPlainFrom?_whole`, `readPlainFrom?_fraction`), so
reading the whole text gives the decimal back with its scale (`read?_pointed`).
-/

namespace PaintQuote.Decimal

open Text

/-! ## Digits -/

theorem le_ofDigitChars (ds : List Char) (n : Nat) : n ≤ Nat.ofDigitChars 10 ds n := by
  have hpositive : 0 < 10 ^ ds.length := Nat.pow_pos (by decide)
  have hle := Nat.le_mul_of_pos_left n hpositive
  rw [Nat.ofDigitChars_eq_ofDigitChars_zero]
  omega

theorem ofDigitChars_cons_comm (c : Char) (ds : List Char) (n : Nat) :
    Nat.ofDigitChars 10 (c :: ds) n = Nat.ofDigitChars 10 ds (n * 10 + (c.toNat - '0'.toNat)) := by
  rw [Nat.ofDigitChars_cons, Nat.mul_comm]

variable {negative : Bool} (rest : List Char)

/-- A digit is read onto the coefficient so far. -/
theorem readPlainFrom?_digit (state : PlainState) {c : Char} (hc : c.isDigit = true)
    (hroom : (state.point && state.scale == maxScale) = false)
    (hlimit : state.coefficient * 10 + (c.toNat - '0'.toNat) < coefficientLimit) :
    readPlainFrom? negative state (c :: rest) =
      readPlainFrom? negative
        { state with
          coefficient := state.coefficient * 10 + (c.toNat - '0'.toNat)
          scale := if state.point then state.scale + 1 else 0
          digits := true } rest := by
  rw [readPlainFrom?, if_neg (Bool.eq_false_iff.1 hroom)]
  simp only [digitValue?, if_pos hc, if_neg (Nat.not_le.2 hlimit)]

/-- Digits before the point. -/
theorem readPlainFrom?_whole : ∀ (ds : List Char) (n : Nat) (seen : Bool),
    (∀ c ∈ ds, c.isDigit = true) → Nat.ofDigitChars 10 ds n < coefficientLimit →
    readPlainFrom? negative ⟨n, 0, false, seen⟩ (ds ++ rest) =
      readPlainFrom? negative ⟨Nat.ofDigitChars 10 ds n, 0, false, seen || !ds.isEmpty⟩ rest
  | [], n, seen, _, _ => by simp
  | c :: ds, n, seen, hdigits, hlimit => by
      rw [ofDigitChars_cons_comm] at hlimit ⊢
      obtain ⟨hc, hds⟩ := List.forall_mem_cons.1 hdigits
      have hnext := Nat.lt_of_le_of_lt (le_ofDigitChars ds _) hlimit
      rw [List.cons_append, readPlainFrom?_digit _ ⟨n, 0, false, seen⟩ hc rfl hnext]
      simpa using readPlainFrom?_whole ds _ true hds hlimit

/-- Digits after the point. -/
theorem readPlainFrom?_fraction : ∀ (ds : List Char) (n scale : Nat),
    (∀ c ∈ ds, c.isDigit = true) → Nat.ofDigitChars 10 ds n < coefficientLimit →
    scale + ds.length ≤ maxScale →
    readPlainFrom? negative ⟨n, scale, true, true⟩ (ds ++ rest) =
      readPlainFrom? negative ⟨Nat.ofDigitChars 10 ds n, scale + ds.length, true, true⟩ rest
  | [], n, scale, _, _, _ => by simp
  | c :: ds, n, scale, hdigits, hlimit, hscale => by
      rw [ofDigitChars_cons_comm] at hlimit ⊢
      rw [List.length_cons] at hscale ⊢
      obtain ⟨hc, hds⟩ := List.forall_mem_cons.1 hdigits
      have hnext := Nat.lt_of_le_of_lt (le_ofDigitChars ds _) hlimit
      have hroom : (true && scale == maxScale) = false := by
        rw [Bool.true_and, beq_eq_false_iff_ne]
        omega
      rw [List.cons_append, readPlainFrom?_digit _ ⟨n, scale, true, true⟩ hc hroom hnext]
      rw [← Nat.add_assoc, Nat.add_right_comm]
      exact readPlainFrom?_fraction ds _ (scale + 1) hds hlimit (by omega)

/-! ## Texts -/

theorem readPlain?_of_isDigit {c : Char} (h : c.isDigit = true) (cs : List Char) :
    readPlain? (c :: cs) = readPlainFrom? false {} (c :: cs) := by
  unfold readPlain?
  split
  next heq =>
    cases heq
    cases h
  next heq =>
    cases heq
    cases h
  next => rfl

/-- A whole part and a fraction are read as the decimal with their digits; a zero that is read has no
minus. -/
theorem readPlainFrom?_pointed {whole fraction : List Char} {d : Decimal}
    (hzero : d.coefficient = 0 → d.negative = false) (hne : whole ≠ [])
    (hwhole : ∀ c ∈ whole, c.isDigit = true) (hfraction : ∀ c ∈ fraction, c.isDigit = true)
    (hvalue : Nat.ofDigitChars 10 (whole ++ fraction) 0 = d.coefficient)
    (hscale : fraction.length = d.scale) :
    readPlainFrom? d.negative {} (pointed whole fraction) = some d := by
  have hparts : ofParts? d.negative d.coefficient d.scale = some d := by
    have hsign : (d.negative && d.coefficient != 0) = d.negative := by
      by_cases hcoefficient : d.coefficient = 0
      · simp [hzero hcoefficient]
      · simp [hcoefficient]
    rw [ofParts?, dif_pos ⟨d.coefficient_lt, d.scale_le⟩]
    simp only [hsign]
  have hlimit := d.coefficient_lt
  rw [← hvalue] at hlimit
  have hwholeLimit : Nat.ofDigitChars 10 whole 0 < coefficientLimit := by
    rw [Nat.ofDigitChars_append] at hlimit
    exact Nat.lt_of_le_of_lt (le_ofDigitChars _ _) hlimit
  have hseen : (!whole.isEmpty) = true := by simpa using hne
  cases fraction with
  | nil =>
      rw [List.append_nil] at hvalue
      have hrun := @readPlainFrom?_whole d.negative [] whole 0 false hwhole hwholeLimit
      rw [hseen, hvalue, List.append_nil] at hrun
      have hscale : d.scale = 0 := hscale.symm
      rw [hscale] at hparts
      exact hrun.trans hparts
  | cons c cs =>
      rw [Nat.ofDigitChars_append] at hvalue hlimit
      have hplaces : 0 + (c :: cs).length ≤ maxScale := by
        rw [Nat.zero_add, hscale]
        exact d.scale_le
      have hrun := @readPlainFrom?_whole d.negative ('.' :: c :: cs) whole 0 false hwhole hwholeLimit
      rw [hseen] at hrun
      have hpoint : ∀ n, readPlainFrom? d.negative ⟨n, 0, false, true⟩ ('.' :: c :: cs) =
          readPlainFrom? d.negative ⟨n, 0, true, true⟩ ((c :: cs) ++ []) := fun n => by
        rw [List.append_nil]
        rfl
      rw [Bool.or_true, hpoint, readPlainFrom?_fraction [] (c :: cs) _ 0 hfraction hlimit hplaces,
        hvalue, Nat.zero_add, hscale] at hrun
      exact hrun.trans hparts

/-- A whole part and a fraction without a sign are read as the decimal with their digits. -/
theorem read?_pointed {whole fraction : List Char} {d : Decimal} (hd : d.negative = false)
    (hne : whole ≠ []) (hwhole : ∀ c ∈ whole, c.isDigit = true)
    (hfraction : ∀ c ∈ fraction, c.isDigit = true)
    (hvalue : Nat.ofDigitChars 10 (whole ++ fraction) 0 = d.coefficient)
    (hscale : fraction.length = d.scale) : read? (pointed whole fraction) = some d := by
  have hread := readPlainFrom?_pointed (fun _ => hd) hne hwhole hfraction hvalue hscale
  obtain ⟨c, cs, hcons⟩ := List.exists_cons_of_ne_nil hne
  have hc : c.isDigit = true := hwhole c (hcons ▸ List.mem_cons_self)
  have hplain : readPlain? (pointed whole fraction) = readPlainFrom? false {} (pointed whole fraction) := by
    rw [pointed, hcons]
    split
    next => exact readPlain?_of_isDigit hc cs
    next => exact readPlain?_of_isDigit hc _
  rw [hd] at hread
  rw [read?, hplain, hread]
  rfl

/-- What neither begins with a digit nor with a sign or a point is no decimal. -/
theorem read?_eq_none {c : Char} (hdigit : c.isDigit = false) (hmark : c ∉ ['+', '-', '.'])
    (cs : List Char) : read? (c :: cs) = none := by
  simp only [List.mem_cons, List.not_mem_nil, or_false, not_or] at hmark
  obtain ⟨hplus, hminus, hpoint⟩ := hmark
  have hplain : ∀ cs, readPlain? (c :: cs) = none := by
    intro cs
    have hsign : readPlain? (c :: cs) = readPlainFrom? false {} (c :: cs) := by
      unfold readPlain?
      split
      next heq =>
        cases heq
        exact absurd rfl hminus
      next heq =>
        cases heq
        exact absurd rfl hplus
      next => rfl
    simp [hsign, readPlainFrom?, digitValue?, hdigit, hpoint]
  have hexponent : readWithExponent? shiftDownRounded? (c :: cs) = none := by
    rw [readWithExponent?, cutExponent?]
    split
    next => rfl
    next =>
      cases cutExponent? cs with
      | none => rfl
      | some p => simp [hplain]
  rw [read?, hplain, hexponent]
  rfl

/-! ## Writing -/

/-- The whole part and the fraction that are written for a decimal. -/
theorem digitParts_spec (d : Decimal) :
    d.digitParts.1 ≠ [] ∧ (∀ c ∈ d.digitParts.1, c.isDigit = true) ∧
      (∀ c ∈ d.digitParts.2, c.isDigit = true) ∧
      Nat.ofDigitChars 10 (d.digitParts.1 ++ d.digitParts.2) 0 = d.coefficient ∧
      d.digitParts.2.length = d.scale := by
  have hdigits : ∀ c ∈ List.replicate (d.scale + 1 - (Nat.toDigits 10 d.coefficient).length) '0' ++
      Nat.toDigits 10 d.coefficient, c.isDigit = true := by
    intro c hc
    rcases List.mem_append.1 hc with hc | hc
    · rw [List.eq_of_mem_replicate hc]
      rfl
    · exact Nat.isDigit_of_mem_toDigits (by decide) (by decide) hc
  have hlength : d.scale < (List.replicate (d.scale + 1 - (Nat.toDigits 10 d.coefficient).length) '0' ++
      Nat.toDigits 10 d.coefficient).length := by
    rw [List.length_append, List.length_replicate]
    omega
  simp only [digitParts]
  generalize hpadded : List.replicate (d.scale + 1 - (Nat.toDigits 10 d.coefficient).length) '0' ++
      Nat.toDigits 10 d.coefficient = padded at *
  refine ⟨?_, fun c hc => hdigits c (List.mem_of_mem_take hc),
    fun c hc => hdigits c (List.mem_of_mem_drop hc), ?_, ?_⟩
  · rw [← List.length_pos_iff, List.length_take]
    omega
  · rw [List.take_append_drop, ← hpadded, Nat.ofDigitChars_append]
    simp
  · rw [List.length_drop]
    omega

theorem mem_toText {d : Decimal} {c : Char} (h : c ∈ d.toText.toList) :
    c = '-' ∨ c = '.' ∨ c.isDigit = true := by
  obtain ⟨-, hwhole, hfraction, -⟩ := digitParts_spec d
  rw [toText, String.toList_ofList] at h
  rcases List.mem_append.1 h with h | h
  · split at h
    · exact Or.inl (List.mem_singleton.1 h)
    · cases h
  · rw [pointed] at h
    split at h
    · exact Or.inr (Or.inr (hwhole c h))
    · rcases List.mem_append.1 h with h | h
      · exact Or.inr (Or.inr (hwhole c h))
      · rcases List.mem_cons.1 h with rfl | h
        · exact Or.inr (Or.inl rfl)
        · exact Or.inr (Or.inr (hfraction c h))

theorem exists_digit_mem_toText (d : Decimal) : ∃ c ∈ d.toText.toList, c.isDigit = true := by
  obtain ⟨hne, hwhole, -⟩ := digitParts_spec d
  obtain ⟨c, cs, hcons⟩ := List.exists_cons_of_ne_nil hne
  refine ⟨c, ?_, hwhole c (hcons ▸ List.mem_cons_self)⟩
  rw [toText, String.toList_ofList, pointed, hcons]
  refine List.mem_append_right _ ?_
  split
  · exact List.mem_cons_self
  · exact List.mem_append_left _ List.mem_cons_self

/-- A decimal that is no zero with a minus is read back from its text. -/
theorem ofText?_toText {d : Decimal} (hzero : d.coefficient = 0 → d.negative = false) :
    ofText? d.toText = some d := by
  obtain ⟨hne, hwhole, hfraction, hvalue, hscale⟩ := digitParts_spec d
  cases hsign : d.negative with
  | false =>
      have hread := read?_pointed hsign hne hwhole hfraction hvalue hscale
      simpa [ofText?, toText, hsign] using hread
  | true =>
      have hread := readPlainFrom?_pointed hzero hne hwhole hfraction hvalue hscale
      rw [hsign] at hread
      simp [ofText?, toText, hsign, read?, readPlain?, hread]

end PaintQuote.Decimal
