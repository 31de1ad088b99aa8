import PaintQuote.Formula.Functions.Arithmetic
import PaintQuote.Proofs.Decimal.Remainders
import PaintQuote.Proofs.Values.Operators

/-!
# Arithmetic functions of values that agree

Sums, products, roundings and powers do not tell values apart that agree.  Four functions can: the
square root refuses a zero with a minus, a zero significance with a minus counts as negative beside a
positive number, and a remainder by a long divisor need not be exact.
-/

namespace PaintQuote.Formula.Functions

open Sheet

variable {vs ws : List Value} {v w v' w' : Value}

/-! ## Totals -/

theorem sum_agree (h : SameArguments vs ws) : SameAnswer (sum vs) (sum ws) :=
  (numbers_agree h).bind fun _ _ hns =>
    (orNumberError_agree (sumOf_same hns)).bind fun _ _ htotal => .ok (.number htotal)

theorem product_agree (h : SameArguments vs ws) : SameAnswer (product vs) (product ws) := by
  refine (numbers_agree h).bind fun ms ns hns => ?_
  have hempty : ms.isEmpty = ns.isEmpty := by
    cases hns <;> rfl
  rw [hempty]
  split
  next => exact SameAnswer.refl _
  next => exact numberOr_agree (foldlM_same Decimal.mul?_same hns (Decimal.same_self 1))

theorem average_agree (h : SameArguments vs ws) : SameAnswer (average vs) (average ws) :=
  (numbers_agree h).bind fun _ _ hns => meanOf_agree hns

theorem mergeNumbers_same {merge : Decimal → Decimal → Decimal}
    (hmerge : ∀ {a b a' b' : Decimal}, a.same a' → b.same b' → (merge a b).same (merge a' b'))
    {ms ns : List Decimal} (h : List.Forall₂ SameNumber ms ns) :
    SameNumber (mergeNumbers merge ms) (mergeNumbers merge ns) := by
  cases h with
  | nil => exact Decimal.same_self 0
  | cons h hs => exact List.rel_foldl (P := SameNumber) (R := SameNumber) (fun _ _ ha _ _ hb => hmerge ha hb) h hs

theorem smaller_same {a b a' b' : Decimal} (ha : a.same a') (hb : b.same b') :
    (smaller a b).same (smaller a' b') := by
  unfold smaller
  rw [Decimal.compare_of_same ha hb]
  split
  · exact hb
  · exact ha

theorem greater_same {a b a' b' : Decimal} (ha : a.same a') (hb : b.same b') :
    (greater a b).same (greater a' b') := by
  unfold greater
  rw [Decimal.compare_of_same ha hb]
  split
  · exact ha
  · exact hb

theorem minimum_agree (h : SameArguments vs ws) : SameAnswer (minimum vs) (minimum ws) :=
  (numbers_agree h).map fun _ _ hns => .number (mergeNumbers_same smaller_same hns)

theorem maximum_agree (h : SameArguments vs ws) : SameAnswer (maximum vs) (maximum ws) :=
  (numbers_agree h).map fun _ _ hns => .number (mergeNumbers_same greater_same hns)

/-! ## Sums of products -/

theorem forall₂_getElem? {α β : Type} {R : α → β → Prop} {xs : List α} {ys : List β}
    (h : List.Forall₂ R xs ys) (i : Nat) : Option.Rel R xs[i]? ys[i]? := by
  induction h generalizing i with
  | nil => exact .none
  | cons h _ ih =>
      cases i with
      | zero => exact .some h
      | succ i => exact ih i

theorem dimensions_eq {rows rows' : List (List CellValue)}
    (h : List.Forall₂ (List.Forall₂ CellValue.Like) rows rows') :
    Value.dimensions rows = Value.dimensions rows' := by
  rw [Value.dimensions, Value.dimensions, h.length_eq]
  cases h with
  | nil => rfl
  | cons h => rw [List.headD_cons, List.headD_cons, h.length_eq]

theorem valueAt_like {grid grid' : List (List CellValue)}
    (h : List.Forall₂ (List.Forall₂ CellValue.Like) grid grid') (row column : Nat) :
    (valueAt grid row column).Like (valueAt grid' row column) := by
  have hcell := Decimal.rel_bind (forall₂_getElem? h row) fun _ _ hr => forall₂_getElem? hr column
  unfold valueAt
  revert hcell
  generalize (grid[row]?).bind (fun r => r[column]?) = cell
  generalize (grid'[row]?).bind (fun r => r[column]?) = cell'
  intro hcell
  cases hcell with
  | none => exact .refl _
  | some h => exact h

theorem earlyNumber_agree {m n : Option Decimal} (h : Decimal.SameResult m n) :
    AgreeBy SameNumber (earlyNumber m) (earlyNumber n) := by
  cases h with
  | none => exact .error _
  | some h => exact .ok h

theorem timesValue_agree {m n : Decimal} (hmn : m.same n) {c d : CellValue} (h : c.Like d) :
    AgreeBy SameNumber (timesValue m c) (timesValue n d) := by
  cases h with
  | number h => exact earlyNumber_agree (Decimal.mul?_same hmn h)
  | refl =>
      cases c with
      | number k => exact earlyNumber_agree (Decimal.mul?_same hmn (Decimal.same_self k))
      | error e => exact .error _
      | _ => exact .ok (Decimal.same_self 0)

theorem sumOfProducts_agree {grids grids' : List (List (List CellValue))}
    (h : List.Forall₂ (List.Forall₂ (List.Forall₂ CellValue.Like)) grids grids')
    (rows columns : Nat) :
    AgreeBy SameNumber (sumOfProducts grids rows columns) (sumOfProducts grids' rows columns) := by
  refine AgreeBy.foldlM (S := (· = ·)) (fun htotal hplace => ?_)
    (List.forall₂_same.2 fun _ _ => rfl) (Decimal.same_self 0)
  subst hplace
  refine AgreeBy.bind (AgreeBy.foldlM (fun hproduct hgrid => ?_) h (Decimal.same_self 1))
    fun _ _ hp => earlyNumber_agree (Decimal.add?_same htotal hp)
  exact timesValue_agree hproduct (valueAt_like hgrid _ _)

theorem sumProduct_agree (h : SameArguments vs ws) : SameAnswer (sumProduct vs) (sumProduct ws) := by
  have hgrids : List.Forall₂ (List.Forall₂ (List.Forall₂ CellValue.Like)) (vs.map Value.grid)
      (ws.map Value.grid) := List.rel_map (fun _ _ h => Value.Like.grid h) h
  unfold sumProduct
  generalize vs.map Value.grid = grids at hgrids
  generalize ws.map Value.grid = grids' at hgrids
  have hshape : Value.dimensions (grids.headD []) = Value.dimensions (grids'.headD []) := by
    cases hgrids with
    | nil => rfl
    | cons h => exact dimensions_eq h
  have hany : ∀ shape, (grids.any fun g => Value.dimensions g != shape) =
      grids'.any fun g => Value.dimensions g != shape := by
    intro shape
    clear hshape
    induction hgrids with
    | nil => rfl
    | cons h _ ih => rw [List.any_cons, List.any_cons, dimensions_eq h, ih]
  simp only [hshape, hany]
  split
  next => exact .error _
  next =>
    have htotal := sumOfProducts_agree hgrids (Value.dimensions (grids'.headD [])).1
      (Value.dimensions (grids'.headD [])).2
    revert htotal
    generalize sumOfProducts grids _ _ = total
    generalize sumOfProducts grids' _ _ = total'
    intro htotal
    cases htotal with
    | ok h => exact .ok (.number h)
    | error answer => exact SameAnswer.refl answer

/-! ## Places -/

theorem roundTo_same (rule : Decimal.Rounding) {m n : Decimal} (h : m.same n) (places : Int) :
    Decimal.SameResult (roundTo rule m places) (roundTo rule n places) := by
  unfold roundTo
  split
  next => exact .some (Decimal.round_same h _ _)
  next =>
    split
    next => exact .some (Decimal.same_self 0)
    next =>
      refine Decimal.rel_bind (Decimal.SameResult.refl _) fun _ _ hunit => ?_
      refine Decimal.rel_bind (Decimal.div?_same h hunit) fun _ _ hunits => ?_
      exact Decimal.mul?_same (Decimal.round_same hunits 0 rule) hunit

theorem roundBy_agree (rule : Decimal.Rounding) (hv : v.Like v') (hw : w.Like w') :
    SameAnswer (roundBy rule v w) (roundBy rule v' w') := by
  refine hv.toNumber.bind fun _ _ hn => ?_
  rw [hw.wholeNumber_eq]
  exact .bind_left _ fun _ => numberOr_agree (roundTo_same rule hn _)

theorem truncate_agree {places places' : Option Value} (hv : v.Like v')
    (hplaces : SameOptional places places') :
    SameAnswer (truncate v places) (truncate v' places') := by
  refine hv.toNumber.bind fun _ _ hn => ?_
  rw [hplaces.wholeOrDefault_eq]
  exact .bind_left _ fun _ => numberOr_agree (roundTo_same _ hn _)

theorem integer_agree (h : v.Like w) : SameAnswer (integer v) (integer w) :=
  h.toNumber.map fun _ _ hn => .number (Decimal.quantize_same hn 0 .down)

/-! ## Multiples -/

theorem snap_agree {units : Decimal → Decimal} (hunits : ∀ {m n}, m.same n → (units m).same (units n))
    {n step n' step' : Decimal} (hn : n.same n') (hstep : step.same step') :
    SameAnswer (snap n step units) (snap n' step' units) :=
  (orNumberError_agree (Decimal.div?_same hn hstep)).bind fun _ _ hquotient =>
    numberOr_agree (Decimal.mul?_same (hunits hquotient) hstep)

theorem floor_same {m n : Decimal} (h : m.same n) : m.floor.same n.floor :=
  Decimal.quantize_same h 0 .down

theorem ceil_same {m n : Decimal} (h : m.same n) : m.ceil.same n.ceil :=
  Decimal.quantize_same h 0 .up

theorem nearestMultiple_agree (hv : v.Like v') (hw : w.Like w') :
    SameAnswer (nearestMultiple v w) (nearestMultiple v' w') := by
  refine hv.toNumber.bind fun n n' hn => hw.toNumber.bind fun step step' hstep => ?_
  rw [← Decimal.isZero_of_same hstep, ← Decimal.isZero_of_same hn]
  cases hsz : step.isZero with
  | true => exact SameAnswer.refl _
  | false =>
      rw [← Decimal.negative_of_same hstep hsz]
      cases hnz : n.isZero with
      | true => exact snap_agree (fun h => Decimal.round_same h 0 _) hn hstep
      | false =>
          rw [← Decimal.negative_of_same hn hnz]
          simp only [Bool.false_eq_true, if_false]
          split
          next => exact .error _
          next => exact snap_agree (fun h => Decimal.round_same h 0 _) hn hstep

theorem snap_of_isZero {units : Decimal → Decimal} (hunits : (units 0).isZero = true)
    {n step : Decimal} (hn : n.isZero = true) (hstep : step.isZero = false) :
    snap n step units = .ok (.number 0) := by
  rw [snap, Decimal.div?, hstep, if_neg Bool.false_ne_true, if_pos hn]
  show numberOr ((units 0).mul? step) = _
  rw [Decimal.mul?, hunits, Bool.true_or, if_pos rfl]
  rfl

theorem multipleBy_agree {usual reversed : Decimal → Decimal}
    (husual : ∀ {m n}, m.same n → (usual m).same (usual n))
    (hreversed : ∀ {m n}, m.same n → (reversed m).same (reversed n))
    (husualZero : (usual 0).isZero = true) (hreversedZero : (reversed 0).isZero = true)
    (hv : v.Like v')
    {significance significance' mode mode' : Option Value}
    (hs : SameOptional significance significance') (hm : SameOptional mode mode') :
    SameAnswer (multipleBy usual reversed v significance mode)
      (multipleBy usual reversed v' significance' mode') := by
  refine hv.toNumber.bind fun n n' hn => ?_
  refine (hs.numberOrDefault 1).bind fun step step' hstep => ?_
  refine (hm.numberOrDefault 0).bind fun mode mode' hmode => ?_
  rw [← Decimal.isZero_of_same hstep, ← Decimal.isZero_of_same hmode]
  cases hsz : step.isZero with
  | true => exact SameAnswer.refl _
  | false =>
      simp only [Bool.false_eq_true, if_false]
      cases hnz : n.isZero with
      | false =>
          rw [← Decimal.negative_of_same hn hnz]
          split
          · exact snap_agree hreversed hn (Decimal.abs_same hstep)
          · exact snap_agree husual hn (Decimal.abs_same hstep)
      | true =>
          -- Zero is a multiple of everything, whichever rule its sign asks for.
          have hzero : ∀ n step' : Decimal, n.isZero = true → step'.isZero = false →
              ∀ rule : Bool, snap n step'.abs (if rule then reversed else usual) =
                .ok (.number 0) := by
            intro n step' hn hstep' rule
            cases rule
            · exact snap_of_isZero husualZero hn hstep'
            · exact snap_of_isZero hreversedZero hn hstep'
          rw [hzero n step hnz hsz, hzero n' step' (Decimal.isZero_of_same hn ▸ hnz)
            (Decimal.isZero_of_same hstep ▸ hsz)]
          exact SameAnswer.refl _

theorem ceilingMath_agree {significance significance' mode mode' : Option Value} (hv : v.Like v')
    (hs : SameOptional significance significance') (hm : SameOptional mode mode') :
    SameAnswer (ceilingMath v significance mode) (ceilingMath v' significance' mode') :=
  multipleBy_agree ceil_same floor_same rfl rfl hv hs hm

theorem floorMath_agree {significance significance' mode mode' : Option Value} (hv : v.Like v')
    (hs : SameOptional significance significance') (hm : SameOptional mode mode') :
    SameAnswer (floorMath v significance mode) (floorMath v' significance' mode') :=
  multipleBy_agree floor_same ceil_same rfl rfl hv hs hm

/-! ## Zeros with a minus -/

/-- What the sign of a zero decides: with a minus it is refused. -/
def refusedIf (negative : Bool) (otherwise : Answer) : Answer :=
  if negative then .error (.errorValue .number) else otherwise

/-- Whether the numbers of two values have one sign in case they are zero. -/
def OneSign (v w : Value) : Prop :=
  ∀ m n, v.number? = some m → w.number? = some n → m.isZero = true → m.negative = n.negative

theorem eq_of_refusedIf {sign sign' : Bool} {otherwise : Answer}
    (hotherwise : ¬ (settled otherwise).Like (.error .number))
    (h : (settled (refusedIf sign otherwise)).Like (settled (refusedIf sign' otherwise))) :
    sign = sign' := by
  cases sign with
  | false =>
      cases sign' with
      | false => rfl
      | true => exact absurd h hotherwise
  | true =>
      cases sign' with
      | false => exact absurd h.symm hotherwise
      | true => rfl

theorem signsClash_of_same {n step n' step' : Decimal} (hn : n.same n') (hstep : step.same step')
    (hsign : n.isPositive = true → step.isZero = true → step.negative = step'.negative) :
    signsClash n step = signsClash n' step' := by
  unfold signsClash
  rw [← Decimal.isPositive_of_same hn]
  cases hpos : n.isPositive with
  | false => rfl
  | true =>
      cases hz : step.isZero with
      | true => rw [hsign hpos hz]
      | false => rw [Decimal.negative_of_same hstep hz]

theorem ceiling_of_isZero {n step : Decimal} (hv : v.number? = some n) (hw : w.number? = some step)
    (hn : n.isPositive = true) (hstep : step.isZero = true) :
    ceiling v w = refusedIf step.negative (.ok (.number 0)) := by
  rw [ceiling, Value.toNumber_eq_ok_iff.2 hv, Value.toNumber_eq_ok_iff.2 hw]
  show (if signsClash n step then _ else _) = _
  rw [signsClash, hn, Bool.true_and, hstep]
  rfl

/-- Roundings up do not tell values apart that agree, but for the sign of a zero significance beside a
positive number. -/
theorem ceiling_agree (hv : v.Like v') (hw : w.Like w')
    (hsign : ∀ n, v.number? = some n → n.isPositive = true → OneSign w w') :
    SameAnswer (ceiling v w) (ceiling v' w') := by
  refine hv.toNumber.bind_of_eq fun n n' hvn hvn' hn => ?_
  refine hw.toNumber.bind_of_eq fun step step' hws hws' hstep => ?_
  rw [← signsClash_of_same hn hstep fun hpos => hsign n (Value.toNumber_eq_ok_iff.1 hvn) hpos _ _
    (Value.toNumber_eq_ok_iff.1 hws) (Value.toNumber_eq_ok_iff.1 hws'),
    ← Decimal.isZero_of_same hstep]
  split
  next => exact .error _
  next =>
    split
    next => exact SameAnswer.refl _
    next => exact snap_agree ceil_same hn hstep

theorem oneSign_of_ceiling (hv : v.Like v') {n : Decimal} (hn : v.number? = some n)
    (hpos : n.isPositive = true) (hw : w.Like w')
    (h : (settled (ceiling v w)).Like (settled (ceiling v' w'))) : OneSign w w' := by
  intro step step' hstep hstep' hz
  obtain ⟨n', hn', hsame⟩ := hv.number?_eq hn
  have hz' := Decimal.isZero_of_same (hw.same_of_number? hstep hstep') ▸ hz
  rw [ceiling_of_isZero hn hstep hpos hz,
    ceiling_of_isZero hn' hstep' (Decimal.isPositive_of_same hsame ▸ hpos) hz'] at h
  exact eq_of_refusedIf (by rintro ⟨⟨⟩⟩) h

theorem floor_of_isZero {n step : Decimal} (hv : v.number? = some n) (hw : w.number? = some step)
    (hn : n.isPositive = true) (hstep : step.isZero = true) :
    floor v w = refusedIf step.negative (.error .divisionByZero) := by
  have hnz : n.isZero = false := by
    rw [Decimal.isPositive, Bool.and_eq_true, Bool.not_eq_true'] at hn
    simpa using hn.2
  rw [Functions.floor, Value.toNumber_eq_ok_iff.2 hv, Value.toNumber_eq_ok_iff.2 hw]
  show (if signsClash n step then _ else _) = _
  rw [signsClash, hn, Bool.true_and, hstep, hnz]
  rfl

/-- Roundings down do not tell values apart that agree, but for the sign of a zero significance beside
a positive number. -/
theorem floor_agree (hv : v.Like v') (hw : w.Like w')
    (hsign : ∀ n, v.number? = some n → n.isPositive = true → OneSign w w') :
    SameAnswer (floor v w) (floor v' w') := by
  refine hv.toNumber.bind_of_eq fun n n' hvn hvn' hn => ?_
  refine hw.toNumber.bind_of_eq fun step step' hws hws' hstep => ?_
  rw [← signsClash_of_same hn hstep fun hpos => hsign n (Value.toNumber_eq_ok_iff.1 hvn) hpos _ _
    (Value.toNumber_eq_ok_iff.1 hws) (Value.toNumber_eq_ok_iff.1 hws'),
    ← Decimal.isZero_of_same hstep, ← Decimal.isZero_of_same hn]
  split
  next => exact .error _
  next =>
    split
    next => exact SameAnswer.refl _
    next => exact snap_agree floor_same hn hstep

theorem oneSign_of_floor (hv : v.Like v') {n : Decimal} (hn : v.number? = some n)
    (hpos : n.isPositive = true) (hw : w.Like w')
    (h : (settled (floor v w)).Like (settled (floor v' w'))) : OneSign w w' := by
  intro step step' hstep hstep' hz
  obtain ⟨n', hn', hsame⟩ := hv.number?_eq hn
  have hz' := Decimal.isZero_of_same (hw.same_of_number? hstep hstep') ▸ hz
  rw [floor_of_isZero hn hstep hpos hz,
    floor_of_isZero hn' hstep' (Decimal.isPositive_of_same hsame ▸ hpos) hz'] at h
  exact eq_of_refusedIf (by rintro ⟨⟨⟩⟩) h

theorem squareRoot_of_isZero {n : Decimal} (hv : v.number? = some n) (hn : n.isZero = true) :
    squareRoot v = refusedIf n.negative (.ok (.number 0)) := by
  rw [squareRoot, Value.toNumber_eq_ok_iff.2 hv]
  show (if n.negative && !n.isZero then _ else _) = _
  rw [hn, Bool.not_true, Bool.and_false, if_neg Bool.false_ne_true, Decimal.sqrt?, if_pos hn]
  cases n.negative <;> rfl

/-- Square roots do not tell values apart that agree, but for the sign of zero. -/
theorem squareRoot_agree (hv : v.Like v') (hsign : OneSign v v') :
    SameAnswer (squareRoot v) (squareRoot v') := by
  refine hv.toNumber.bind_of_eq fun n n' hvn hvn' hn => ?_
  have hnegative : n.negative = n'.negative := by
    cases hz : n.isZero with
    | true =>
        exact hsign n n' (Value.toNumber_eq_ok_iff.1 hvn) (Value.toNumber_eq_ok_iff.1 hvn') hz
    | false => exact Decimal.negative_of_same hn hz
  rw [← hnegative, ← Decimal.isZero_of_same hn]
  split
  next => exact .error _
  next => exact numberOr_agree (Decimal.sqrt?_same hn hnegative)

theorem oneSign_of_squareRoot (hv : v.Like v')
    (h : (settled (squareRoot v)).Like (settled (squareRoot v'))) : OneSign v v' := by
  intro n n' hn hn' hz
  have hz' := Decimal.isZero_of_same (hv.same_of_number? hn hn') ▸ hz
  rw [squareRoot_of_isZero hn hz, squareRoot_of_isZero hn' hz'] at h
  exact eq_of_refusedIf (by rintro ⟨⟨⟩⟩) h

/-! ## Single numbers -/

/-- Whether the remainder of the numbers of two values is exact. -/
def ExactRemainder (v divisor : Value) : Prop :=
  ∀ m n, v.number? = some m → divisor.number? = some n → Decimal.LeavesExact m n

theorem modulo_agree (hv : v.Like v') (hw : w.Like w') (h : ExactRemainder v w)
    (h' : ExactRemainder v' w') : SameAnswer (modulo v w) (modulo v' w') := by
  refine hv.toNumber.bind_of_eq fun n n' hvn hvn' hn => ?_
  refine hw.toNumber.bind_of_eq fun d d' hwd hwd' hd => ?_
  rw [← Decimal.isZero_of_same hd]
  cases hz : d.isZero with
  | true => exact SameAnswer.refl _
  | false =>
      have hremainder := Decimal.rem?_same hn hd
        (h n d (Value.toNumber_eq_ok_iff.1 hvn) (Value.toNumber_eq_ok_iff.1 hwd))
        (h' n' d' (Value.toNumber_eq_ok_iff.1 hvn') (Value.toNumber_eq_ok_iff.1 hwd'))
      refine (orNumberError_agree hremainder).bind fun r r' hr => ?_
      rw [← Decimal.isZero_of_same hr, ← Decimal.negative_of_same hd hz]
      cases hrz : r.isZero with
      | true => exact .ok (.number hr)
      | false =>
          rw [← Decimal.negative_of_same hr hrz]
          split
          next => exact numberOr_agree (Decimal.add?_same hr hd)
          next => exact .ok (.number hr)

theorem absolute_agree (h : v.Like w) : SameAnswer (absolute v) (absolute w) :=
  h.toNumber.map fun _ _ hn => .number (Decimal.abs_same hn)

theorem powerOf_agree (hv : v.Like v') (hw : w.Like w') :
    SameAnswer (powerOf v w) (powerOf v' w') :=
  hv.toNumber.bind fun _ _ hb => hw.toNumber.bind fun _ _ he => power_agree hb he

theorem sign_agree (h : v.Like w) : SameAnswer (sign v) (sign w) := by
  refine h.toNumber.bind fun m n hn => ?_
  rw [Decimal.compare_of_same hn (Decimal.same_self 0)]
  exact SameAnswer.refl _

end PaintQuote.Formula.Functions
