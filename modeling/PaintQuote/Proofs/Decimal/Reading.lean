import Mathlib.Data.List.TakeWhile
import PaintQuote.Proofs.Decimal.Multiples
import PaintQuote.Proofs.Decimal.Nearest
import PaintQuote.Proofs.Decimal.ReadBack

/-!
# What is read as a decimal

Up to its first underscore the plain form is digits with at most one point among them, and it begins with a
digit or with a point and a digit (`isPointed_of_readPlainFrom?`, `startsNumber_of_readPlainFrom?`).  An
exponent is digits with an optional plus, and a minus in front of it if it is below zero
(`eq_of_readExponent?`).

Zeros at the end of a fraction change nothing, also where they have no room (`readPlainFrom?_zeros`), and
neither does a zero in front of the point (`readPlain?_padded`).  An exponent that leaves room is read in
the same way whether or not the number may be rounded (`readScientific?_eq_some_iff`).
-/

namespace PaintQuote.Decimal

open Text

variable {negative : Bool} {cs rest : List Char} {d n : Decimal}

/-! ## The characters of the plain form -/

/-- Digits with at most one point among them. -/
def IsPointed (cs : List Char) : Prop :=
  ∃ whole fraction, (∀ c ∈ whole, c.isDigit = true) ∧ (∀ c ∈ fraction, c.isDigit = true) ∧
    (cs = whole ∨ cs = whole ++ '.' :: fraction)

/-- A text begins with a digit, or with a point and a digit. -/
def StartsNumber (cs : List Char) : Prop :=
  (∃ c rest, cs = c :: rest ∧ c.isDigit = true) ∨
    ∃ c rest, cs = '.' :: c :: rest ∧ c.isDigit = true

theorem digitValue?_of_isDigit {c : Char} (h : c.isDigit = true) :
    digitValue? c = some (c.toNat - '0'.toNat) := if_pos h

theorem digitValue?_eq_none {c : Char} (h : c.isDigit = false) : digitValue? c = none :=
  if_neg (Bool.eq_false_iff.1 h)

/-- Characters without room are digits and underscores. -/
theorem mem_of_roundOff? {coefficient scale : Nat}
    (h : roundOff? negative coefficient scale cs = some d) :
    ∀ c ∈ cs, c.isDigit = true ∨ c = '_' := by
  obtain ⟨digit, hdigit, -⟩ := Option.bind_eq_some_iff.1 h
  unfold decidingDigit? at hdigit
  split at hdigit
  next hall =>
    intro c hc
    simpa using List.all_eq_true.1 hall c hc
  next => cases hdigit

/-- One character of the plain form, and how the reading goes on, unless there is no room for it. -/
theorem readPlainFrom?_cons {state : PlainState} {c : Char}
    (h : readPlainFrom? negative state (c :: rest) = some d) :
    (state.point = true ∧ (c.isDigit = true ∨ state.scale = maxScale) ∧
      ∀ e ∈ c :: rest, e.isDigit = true ∨ e = '_') ∨
      (∃ next, next.point = state.point ∧ c.isDigit = true ∧
        readPlainFrom? negative next rest = some d) ∨
      (c = '.' ∧ state.point = false ∧
        readPlainFrom? negative { state with point := true } rest = some d) ∨
      (c = '_' ∧ state.digits = true ∧ readPlainFrom? negative state rest = some d) := by
  rw [readPlainFrom?] at h
  split at h
  next hfull =>
    obtain ⟨hpoint, hscale⟩ := Bool.and_eq_true_iff.1 hfull
    exact Or.inl ⟨hpoint, Or.inr (beq_iff_eq.1 hscale), mem_of_roundOff? h⟩
  next =>
    split at h
    next digit hdigit =>
      have hc : c.isDigit = true := by
        by_contra hc
        rw [digitValue?_eq_none (Bool.eq_false_iff.2 hc)] at hdigit
        cases hdigit
      simp only at h
      split at h
      next =>
        split at h
        next hpoint => exact Or.inl ⟨hpoint, Or.inl hc, mem_of_roundOff? h⟩
        next => cases h
      next =>
        refine Or.inr (Or.inl ⟨_, ?_, hc, h⟩)
        rfl
    next =>
      split at h
      next hpoint => exact Or.inr (Or.inr (Or.inl ⟨hpoint.1, hpoint.2, h⟩))
      next =>
        split at h
        next hmark => exact Or.inr (Or.inr (Or.inr ⟨hmark.1, hmark.2, h⟩))
        next => cases h

theorem mem_of_readPlainFrom? : ∀ {cs : List Char} {state : PlainState},
    readPlainFrom? negative state cs = some d → ∀ c ∈ cs, c.isDigit = true ∨ c = '.' ∨ c = '_'
  | [], _, _ => List.forall_mem_nil _
  | c :: rest, state, h => by
      rcases readPlainFrom?_cons h with ⟨-, -, hall⟩ | ⟨next, -, hc, h⟩ | ⟨rfl, -, h⟩ | ⟨rfl, -, h⟩
      · exact fun e he => (hall e he).imp_right Or.inr
      · exact List.forall_mem_cons.2 ⟨Or.inl hc, mem_of_readPlainFrom? h⟩
      · exact List.forall_mem_cons.2 ⟨Or.inr (Or.inl rfl), mem_of_readPlainFrom? h⟩
      · exact List.forall_mem_cons.2 ⟨Or.inr (Or.inr rfl), mem_of_readPlainFrom? h⟩

/-- After the point there are only digits and underscores. -/
theorem mem_of_readPlainFrom?_point : ∀ {cs : List Char} {state : PlainState}, state.point = true →
    readPlainFrom? negative state cs = some d → ∀ c ∈ cs, c.isDigit = true ∨ c = '_'
  | [], _, _, _ => List.forall_mem_nil _
  | c :: rest, state, hpoint, h => by
      rcases readPlainFrom?_cons h with ⟨-, -, hall⟩ | ⟨next, hnext, hc, h⟩ | ⟨rfl, hnone, h⟩ | ⟨rfl, -, h⟩
      · exact hall
      · exact List.forall_mem_cons.2
          ⟨Or.inl hc, mem_of_readPlainFrom?_point (hnext.trans hpoint) h⟩
      · rw [hpoint] at hnone
        cases hnone
      · exact List.forall_mem_cons.2 ⟨Or.inr rfl, mem_of_readPlainFrom?_point hpoint h⟩

/-- The plain form is digits with at most one point, up to the first underscore. -/
theorem isPointed_of_readPlainFrom? : ∀ {cs : List Char} {state : PlainState}, state.point = false →
    readPlainFrom? negative state cs = some d → IsPointed (cs.takeWhile (· != '_'))
  | [], _, _, _ => ⟨[], [], List.forall_mem_nil _, List.forall_mem_nil _, Or.inl rfl⟩
  | c :: rest, state, hpoint, h => by
      rcases readPlainFrom?_cons h with ⟨hfull, -, -⟩ | ⟨next, hnext, hdigit, h⟩ | ⟨rfl, -, h⟩ | ⟨rfl, -, -⟩
      · rw [hpoint] at hfull
        cases hfull
      · obtain ⟨whole, fraction, hwhole, hfraction, heq⟩ :=
          isPointed_of_readPlainFrom? (hnext.trans hpoint) h
        have hc : (c != '_') = true := bne_iff_ne.2 (by rintro rfl; cases hdigit)
        rw [List.takeWhile_cons_of_pos (p := (· != '_')) hc]
        exact ⟨c :: whole, fraction, List.forall_mem_cons.2 ⟨hdigit, hwhole⟩, hfraction,
          heq.imp (congrArg (c :: ·)) (congrArg (c :: ·))⟩
      · have hall := mem_of_readPlainFrom?_point rfl h
        refine ⟨[], rest.takeWhile (· != '_'), List.forall_mem_nil _, fun e he => ?_, Or.inr rfl⟩
        have hmark : (e != '_') = true := List.mem_takeWhile_imp (p := (· != '_')) he
        exact (hall e (List.takeWhile_subset _ he)).resolve_right (bne_iff_ne.1 hmark)
      · exact ⟨[], [], List.forall_mem_nil _, List.forall_mem_nil _, Or.inl rfl⟩

/-- Something is read only if there is a digit, and an underscore needs one before it. -/
theorem startsNumber_of_readPlainFrom? (h : readPlainFrom? negative {} cs = some d) : StartsNumber cs := by
  cases cs with
  | nil => cases h
  | cons c rest =>
      rcases readPlainFrom?_cons h with ⟨hpoint, -⟩ | ⟨next, -, hc, -⟩ | ⟨rfl, -, h⟩ | ⟨-, hdigits, -⟩
      · cases hpoint
      · exact Or.inl ⟨c, rest, rfl, hc⟩
      · cases rest with
        | nil => cases h
        | cons e rest =>
            rcases readPlainFrom?_cons h with ⟨-, he | hscale, -⟩ | ⟨next, -, he, -⟩ | ⟨-, hpoint, -⟩ |
              ⟨-, hdigits, -⟩
            · exact Or.inr ⟨e, rest, rfl, he⟩
            · cases hscale
            · exact Or.inr ⟨e, rest, rfl, he⟩
            · cases hpoint
            · cases hdigits
      · cases hdigits

/-- An underscore neither is nor precedes the first digit. -/
theorem StartsNumber.takeWhile (h : StartsNumber cs) : StartsNumber (cs.takeWhile (· != '_')) := by
  have hmark : ∀ c : Char, c.isDigit = true → (c != '_') = true := by
    rintro c hc
    refine bne_iff_ne.2 ?_
    rintro rfl
    cases hc
  rcases h with ⟨c, rest, rfl, hc⟩ | ⟨c, rest, rfl, hc⟩
  · rw [List.takeWhile_cons_of_pos (p := (· != '_')) (hmark c hc)]
    exact Or.inl ⟨c, _, rfl, hc⟩
  · rw [List.takeWhile_cons_of_pos (p := (· != '_')) (show ('.' != '_') = true by decide),
      List.takeWhile_cons_of_pos (p := (· != '_')) (hmark c hc)]
    exact Or.inr ⟨c, _, rfl, hc⟩

theorem StartsNumber.append (h : StartsNumber cs) (more : List Char) : StartsNumber (cs ++ more) := by
  rcases h with ⟨c, rest, rfl, hc⟩ | ⟨c, rest, rfl, hc⟩
  · exact Or.inl ⟨c, rest ++ more, rfl, hc⟩
  · exact Or.inr ⟨c, rest ++ more, rfl, hc⟩

/-- A text without a sign is read as it stands. -/
theorem readPlain?_unsigned (h : ∀ c ∈ cs.head?, c ≠ '+' ∧ c ≠ '-') :
    readPlain? cs = readPlainFrom? false {} cs := by
  unfold readPlain?
  split
  next => exact absurd rfl (h '-' rfl).2
  next => exact absurd rfl (h '+' rfl).1
  next => rfl

/-- The plain form has no exponent. -/
theorem cutExponent?_eq_none (h : ∀ c ∈ cs, c ≠ 'e' ∧ c ≠ 'E') : cutExponent? cs = none := by
  induction cs with
  | nil => rfl
  | cons c rest ih =>
      obtain ⟨hc, hrest⟩ := List.forall_mem_cons.1 h
      rw [cutExponent?, if_neg (not_or.2 hc), ih hrest]
      rfl

/-! ## The characters of an exponent -/

theorem eq_of_cutExponent? {base exponent : List Char} (h : cutExponent? cs = some (base, exponent)) :
    ∃ mark, (mark = 'e' ∨ mark = 'E') ∧ cs = base ++ mark :: exponent := by
  induction cs generalizing base with
  | nil => cases h
  | cons c rest ih =>
      rw [cutExponent?] at h
      split at h
      next hc =>
        cases h
        exact ⟨c, hc, rfl⟩
      next =>
        obtain ⟨p, hp, heq⟩ := Option.map_eq_some_iff.1 h
        cases heq
        obtain ⟨mark, hmark, rfl⟩ := ih hp
        exact ⟨mark, hmark, rfl⟩

theorem eq_of_readWord? {n : Nat} (h : readWord? cs = some n) :
    ∃ digits, digits ≠ [] ∧ (∀ c ∈ digits, c.isDigit = true) ∧ (cs = digits ∨ cs = '+' :: digits) := by
  unfold readWord? at h
  simp only at h
  split at h
  next hdigits =>
    refine ⟨_, hdigits.1, List.all_eq_true.1 hdigits.2.1, ?_⟩
    cases hplus : afterLead? ['+'] cs with
    | none => exact Or.inl rfl
    | some rest => exact Or.inr (eq_of_afterLead? hplus)
  next => cases h

/-- An exponent is digits with an optional plus, and a minus in front if it is below zero. -/
theorem eq_of_readExponent? {exponent : Bool × Nat} (h : readExponent? cs = some exponent) :
    ∃ sign digits, sign ∈ [[], ['+'], ['-'], ['-', '+']] ∧ digits ≠ [] ∧
      (∀ c ∈ digits, c.isDigit = true) ∧ cs = sign ++ digits := by
  unfold readExponent? at h
  split at h
  next rest =>
    obtain ⟨n, hn, -⟩ := Option.map_eq_some_iff.1 h
    obtain ⟨digits, hne, hdigits, heq | heq⟩ := eq_of_readWord? hn
    · exact ⟨['-'], digits, by simp, hne, hdigits, congrArg _ heq⟩
    · exact ⟨['-', '+'], digits, by simp, hne, hdigits, congrArg _ heq⟩
  next =>
    obtain ⟨n, hn, -⟩ := Option.map_eq_some_iff.1 h
    obtain ⟨digits, hne, hdigits, heq | heq⟩ := eq_of_readWord? hn
    · exact ⟨[], digits, by simp, hne, hdigits, heq⟩
    · exact ⟨['+'], digits, by simp, hne, hdigits, heq⟩

/-- The form with an exponent is read in its parts. -/
theorem readWithExponent?_eq_some_iff {down : Decimal → Nat → Option Decimal} :
    readWithExponent? down cs = some n ↔ ∃ base exponent d below places,
      cutExponent? cs = some (base, exponent) ∧ readPlain? base = some d ∧
        readExponent? exponent = some (below, places) ∧
        (if below then down d places else d.shiftUp? places) = some n := by
  constructor
  · intro h
    obtain ⟨⟨base, exponent⟩, hcut, h⟩ := Option.bind_eq_some_iff.1 h
    obtain ⟨d, hbase, h⟩ := Option.bind_eq_some_iff.1 h
    obtain ⟨⟨below, places⟩, hexponent, h⟩ := Option.bind_eq_some_iff.1 h
    exact ⟨base, exponent, d, below, places, hcut, hbase, hexponent, h⟩
  · rintro ⟨base, exponent, d, below, places, hcut, hbase, hexponent, h⟩
    exact Option.bind_eq_some_iff.2 ⟨_, hcut, Option.bind_eq_some_iff.2 ⟨_, hbase,
      Option.bind_eq_some_iff.2 ⟨_, hexponent, h⟩⟩⟩

/-! ## Room for an exponent -/

/-- An exponent below zero leaves room for the whole fraction. -/
def LeavesRoom (cs : List Char) : Prop :=
  ∀ base exponent d places, cutExponent? cs = some (base, exponent) → readPlain? base = some d →
    readExponent? exponent = some (true, places) → d.scale + places ≤ maxScale

theorem shiftDownRounded?_eq {places : Nat} (h : d.scale + places ≤ maxScale) :
    d.shiftDownRounded? places = d.shiftDown? places := by
  rw [shiftDownRounded?, if_neg (by omega), quantize_of_le .halfAway (by omega)]

/-- Without rounding, exactly the numbers are read for which there is room. -/
theorem readScientific?_eq_some_iff :
    readScientific? cs = some n ↔ readWithExponent? shiftDownRounded? cs = some n ∧ LeavesRoom cs := by
  rw [readScientific?]
  simp only [readWithExponent?_eq_some_iff]
  constructor
  · rintro ⟨base, exponent, d, below, places, hcut, hbase, hexponent, h⟩
    have hroom : below = true → d.scale + places ≤ maxScale := by
      rintro rfl
      by_contra hroom
      have hnone : shiftDown? d places = none := dif_neg hroom
      exact nomatch hnone.symm.trans h
    refine ⟨⟨base, exponent, d, below, places, hcut, hbase, hexponent, ?_⟩, ?_⟩
    · cases below with
      | false => exact h
      | true => exact (shiftDownRounded?_eq (hroom rfl)).trans h
    · intro base' exponent' d' places' hcut' hbase' hexponent'
      cases hcut.symm.trans hcut'
      cases hbase.symm.trans hbase'
      cases hexponent.symm.trans hexponent'
      exact hroom rfl
  · rintro ⟨⟨base, exponent, d, below, places, hcut, hbase, hexponent, h⟩, hroom⟩
    refine ⟨base, exponent, d, below, places, hcut, hbase, hexponent, ?_⟩
    cases below with
    | false => exact h
    | true => exact (shiftDownRounded?_eq (hroom _ _ _ _ hcut hbase hexponent)).symm.trans h

/-! ## A zero in front of the point -/

/-- A zero in front of the point changes nothing. -/
theorem readPlain?_padded {c : Char} (hc : c.isDigit = true) (rest : List Char) :
    readPlain? ('0' :: '.' :: c :: rest) = readPlain? ('.' :: c :: rest) := by
  have hstep : ∀ digits, readPlainFrom? false ⟨0, 0, true, digits⟩ (c :: rest) =
      readPlainFrom? false ⟨0, 0, true, true⟩ (c :: rest) := fun digits => by
    rw [readPlainFrom?, readPlainFrom?, digitValue?_of_isDigit hc]
  exact (hstep false).symm

theorem readWithExponent?_padded {c : Char} (down : Decimal → Nat → Option Decimal)
    (hc : c.isDigit = true) (rest : List Char) :
    readWithExponent? down ('0' :: '.' :: c :: rest) = readWithExponent? down ('.' :: c :: rest) := by
  have hmark : ¬(c = 'e' ∨ c = 'E') := by
    rintro (rfl | rfl) <;> cases hc
  have hcut : ∀ ds, cutExponent? ('.' :: ds) = (cutExponent? ds).map fun p => ('.' :: p.1, p.2) :=
    fun _ => rfl
  have hcut' : ∀ ds, cutExponent? ('0' :: ds) = (cutExponent? ds).map fun p => ('0' :: p.1, p.2) :=
    fun _ => rfl
  rw [readWithExponent?, readWithExponent?, hcut', hcut, cutExponent?, if_neg hmark]
  cases cutExponent? rest with
  | none => rfl
  | some p =>
      show (readPlain? ('0' :: '.' :: c :: p.1)).bind _ = (readPlain? ('.' :: c :: p.1)).bind _
      rw [readPlain?_padded hc]

theorem read?_padded {c : Char} (hc : c.isDigit = true) (rest : List Char) :
    read? ('0' :: '.' :: c :: rest) = read? ('.' :: c :: rest) := by
  rw [read?, read?, readPlain?_padded hc, readWithExponent?_padded _ hc]

/-! ## Zeros -/

theorem roundOff?_zeros (negative : Bool) (coefficient scale zeros : Nat) :
    roundOff? negative coefficient scale ('0' :: List.replicate zeros '0') =
      ofParts? negative coefficient scale := by
  have hall : (('0' :: List.replicate zeros '0').all fun c => c.isDigit || c == '_') = true := by
    simp
  have hdigit : decidingDigit? coefficient ('0' :: List.replicate zeros '0') = some 0 := by
    rw [decidingDigit?, if_pos hall]
    cases lastWasShort coefficient <;> rfl
  rw [roundOff?, hdigit]
  rfl

/-- Zeros at the end of a fraction change nothing; those that find no room are rounded off. -/
theorem readPlainFrom?_zeros (negative : Bool) (zeros : Nat) {coefficient scale : Nat}
    (hc : coefficient < coefficientLimit) (hs : scale ≤ maxScale) :
    ∃ e, readPlainFrom? negative ⟨coefficient, scale, true, true⟩ (List.replicate zeros '0') = some e ∧
      e.value = withMinus negative (fraction coefficient scale) := by
  induction zeros generalizing coefficient scale with
  | zero => exact exists_ofParts? negative hc hs
  | succ zeros ih =>
      rw [List.replicate_succ, readPlainFrom?]
      split
      next =>
        rw [roundOff?_zeros]
        exact exists_ofParts? negative hc hs
      next hfull =>
        have hscale : scale ≠ maxScale := by simpa using hfull
        have hnext : fraction (coefficient * 10) (scale + 1) = fraction coefficient scale :=
          fraction_add coefficient scale 1
        simp only [show digitValue? '0' = some 0 from rfl, Nat.add_zero, if_true]
        split
        next =>
          rw [roundOff?_zeros]
          exact exists_ofParts? negative hc hs
        next hlimit =>
          obtain ⟨e, he, hvalue⟩ := ih (Nat.not_le.1 hlimit) (Nat.succ_le_of_lt (Nat.lt_of_le_of_ne hs hscale))
          exact ⟨e, he, hvalue.trans (congrArg _ hnext)⟩

/-- A whole part and a fraction with further zeros are read as the number with their digits. -/
theorem readPlainFrom?_pointed_zeros {whole fraction : List Char} (hne : whole ≠ [])
    (hwhole : ∀ c ∈ whole, c.isDigit = true) (hfraction : ∀ c ∈ fraction, c.isDigit = true)
    (hvalue : Nat.ofDigitChars 10 (whole ++ fraction) 0 = d.coefficient)
    (hscale : fraction.length = d.scale) (zeros : Nat) :
    ∃ e, readPlainFrom? d.negative {} (pointed whole (fraction ++ List.replicate zeros '0')) = some e ∧
      e.value = d.value := by
  have hlimit := d.coefficient_lt
  rw [Nat.ofDigitChars_append] at hvalue
  rw [← hvalue] at hlimit
  have hrun := fun rest => @readPlainFrom?_whole d.negative rest whole 0 false hwhole
    (Nat.lt_of_le_of_lt (le_ofDigitChars _ _) hlimit)
  rw [show (!whole.isEmpty) = true by simpa using hne] at hrun
  rw [pointed]
  split
  next hempty =>
    rw [List.isEmpty_iff, List.append_eq_nil_iff] at hempty
    obtain ⟨rfl, -⟩ := hempty
    obtain ⟨e, he, heq⟩ := exists_ofParts? d.negative d.coefficient_lt d.scale_le
    have hwholeRun := hrun []
    rw [List.append_nil] at hwholeRun
    refine ⟨e, ?_, heq.trans d.value_eq_withMinus.symm⟩
    rw [← he, ← hscale, ← hvalue]
    exact hwholeRun
  next =>
    have hplaces : 0 + fraction.length ≤ maxScale := by
      rw [Nat.zero_add, hscale]
      exact d.scale_le
    have hpoint : ∀ n, readPlainFrom? d.negative ⟨n, 0, false, true⟩
        ('.' :: (fraction ++ List.replicate zeros '0')) = _ := fun n =>
      (rfl : _ = readPlainFrom? d.negative ⟨n, 0, true, true⟩ (fraction ++ List.replicate zeros '0'))
    obtain ⟨e, he, heq⟩ := readPlainFrom?_zeros d.negative zeros d.coefficient_lt d.scale_le
    refine ⟨e, ?_, heq.trans d.value_eq_withMinus.symm⟩
    rw [← he]
    refine (hrun _).trans ((hpoint _).trans ?_)
    rw [readPlainFrom?_fraction _ fraction _ 0 hfraction hlimit hplaces, hvalue, Nat.zero_add, hscale]

/-! ## Texts without a sign -/

/-- A text without a sign is read in the plain form, or as such a text with an exponent. -/
theorem read?_cases (hsign : ∀ c ∈ cs.head?, c ≠ '+' ∧ c ≠ '-') (h : read? cs = some n) :
    readPlainFrom? false {} cs = some n ∨ readWithExponent? shiftDownRounded? cs = some n ∧
      ∃ base mark sign digits d, (mark = 'e' ∨ mark = 'E') ∧ cs = base ++ mark :: (sign ++ digits) ∧
        readPlainFrom? false {} base = some d ∧ sign ∈ [[], ['+'], ['-'], ['-', '+']] ∧
        digits ≠ [] ∧ ∀ c ∈ digits, c.isDigit = true := by
  rcases Option.or_eq_some_iff.1 h with h | ⟨-, h⟩
  · rw [readPlain?_unsigned hsign] at h
    exact Or.inl h
  · refine Or.inr ⟨h, ?_⟩
    obtain ⟨base, exponent, d, below, places, hcut, hbase, hexponent, -⟩ :=
      readWithExponent?_eq_some_iff.1 h
    obtain ⟨mark, hmark, rfl⟩ := eq_of_cutExponent? hcut
    obtain ⟨sign, digits, hmem, hne, hdigits, rfl⟩ := eq_of_readExponent? hexponent
    have hbaseSign : ∀ c ∈ base.head?, c ≠ '+' ∧ c ≠ '-' := by
      intro c hc
      refine hsign c ?_
      rw [List.head?_append_of_ne_nil _ (by rintro rfl; cases hc)]
      exact hc
    rw [readPlain?_unsigned hbaseSign] at hbase
    exact ⟨base, mark, sign, digits, d, hmark, rfl, hbase, hmem, hne, hdigits⟩

/-- No percent sign is read. -/
theorem percent_not_mem_of_read? (hsign : ∀ c ∈ cs.head?, c ≠ '+' ∧ c ≠ '-') (h : read? cs = some n) :
    '%' ∉ cs := by
  have hplain : ∀ {cs d}, readPlainFrom? false {} cs = some d → '%' ∉ cs := by
    intro cs d h hmem
    have hnot : ¬('%'.isDigit = true ∨ '%' = '.' ∨ '%' = '_') := by decide
    exact hnot (mem_of_readPlainFrom? h '%' hmem)
  rcases read?_cases hsign h with h | ⟨-, base, mark, sign, digits, d, hmark, rfl, h, hmem, -, hdigits⟩
  · exact hplain h
  · simp only [List.mem_append, List.mem_cons, not_or]
    refine ⟨hplain h, ?_, ?_, fun hpercent => ?_⟩
    · rintro rfl
      rcases hmark with hmark | hmark <;> cases hmark
    · have hsigns : ∀ sign ∈ [[], ['+'], ['-'], ['-', '+']], '%' ∉ sign := by decide
      exact hsigns sign hmem
    · cases hdigits _ hpercent

/-! ## Numeric text -/

/-- Numeric text without a percent sign is read without the blanks around it. -/
theorem readNumeric?_eq_read? (hne : trim cs ≠ []) (hlast : (trim cs).getLast? ≠ some '%') :
    readNumeric? cs = read? (trim cs) := by
  rw [readNumeric?, readNumericFrom?, if_neg (by simpa using hne), beforeEnd?, if_neg hlast]

end PaintQuote.Decimal
