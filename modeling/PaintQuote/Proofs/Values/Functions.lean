import PaintQuote.Formula.Functions.Inspection
import PaintQuote.Formula.Functions.Lookup
import PaintQuote.Formula.Functions.Statistics
import PaintQuote.Formula.Functions.Text
import PaintQuote.Proofs.Values.Arithmetic

/-!
# Other functions of values that agree

Functions that test, count, find and write values look at the numbers in them by value only.  Most
of them give one answer for arguments that agree; those that hand a value on give answers that agree.
-/

namespace PaintQuote.Formula.Functions

open Sheet Text

variable {vs ws : List Value} {u v w u' v' w' : Value} {o o' : Option Value}

/-! ## Connectives -/

theorem conjunction_agree (h : SameArguments vs ws) :
    SameAnswer (conjunction vs) (conjunction ws) :=
  SameAnswer.of_eq (by rw [conjunction, conjunction, logicals_eq h])

theorem disjunction_agree (h : SameArguments vs ws) :
    SameAnswer (disjunction vs) (disjunction ws) :=
  SameAnswer.of_eq (by rw [disjunction, disjunction, logicals_eq h])

theorem parity_agree (h : SameArguments vs ws) : SameAnswer (parity vs) (parity ws) :=
  SameAnswer.of_eq (by rw [parity, parity, logicals_eq h])

theorem negation_agree (h : v.Like w) : SameAnswer (negation v) (negation w) :=
  SameAnswer.of_eq (by rw [negation, negation, h.toBool_eq])

/-! ## Tests -/

theorem inspect_agree {answer : CellValue → Value}
    (hanswer : ∀ {m n : Decimal}, m.same n → (answer (.number m)).Like (answer (.number n)))
    (h : v.Like w) : SameAnswer (inspect answer v) (inspect answer w) := by
  cases h with
  | array => exact .error _
  | scalar h =>
      cases h with
      | number h => exact .ok (hanswer h)
      | refl => exact SameAnswer.refl _

/-- A test that does not look into numbers. -/
theorem testing_agree {test : CellValue → Bool}
    (htest : ∀ m n, test (.number m) = test (.number n)) (h : v.Like w) :
    SameAnswer (testing test v) (testing test w) :=
  inspect_agree (fun {m n} _ => htest m n ▸ .refl _) h

theorem numberOf_agree (h : v.Like w) : SameAnswer (numberOf v) (numberOf w) :=
  inspect_agree .number h

/-! ## Counts -/

theorem countValue_agree {m n : Nat} (h : m = n) :
    SameAnswer (.ok (countValue m)) (.ok (countValue n)) := by
  rw [h]
  exact SameAnswer.refl _

theorem numberCount_eq (h : v.Like w) : numberCount v = numberCount w := by
  cases h with
  | array h =>
      refine (List.rel_filter (fun c d hcd => ?_) (List.rel_flatten h)).length_eq
      cases hcd <;> rfl
  | scalar h => cases h <;> rfl

theorem count_agree (h : SameArguments vs ws) : SameAnswer (count vs) (count ws) := by
  refine countValue_agree ?_
  induction h with
  | nil => rfl
  | cons h _ ih => rw [List.foldr_cons, List.foldr_cons, ih, numberCount_eq h]

theorem cells_forall₂ (h : SameArguments vs ws) :
    List.Forall₂ CellValue.Like (vs.flatMap Value.cells) (ws.flatMap Value.cells) :=
  List.rel_flatMap h fun _ _ h => Value.Like.cells h

theorem countFilled_agree (h : SameArguments vs ws) :
    SameAnswer (countFilled vs) (countFilled ws) := by
  refine countValue_agree ?_
  refine (List.rel_filter (fun c d hcd => ?_) (cells_forall₂ h)).length_eq
  simp only [bne_iff_ne, ne_eq, CellValue.Like.eq_empty_iff hcd]

/-! ## Conditions -/

/-- Two conditions that hold of values that agree alike. -/
def SameCriterion (c d : Criterion) : Prop :=
  ∀ {v w : CellValue}, v.Like w → c.accepts (.scalar v) = d.accepts (.scalar w)

theorem sameCriterion_number {m n : Decimal} (h : m.same n) :
    SameCriterion (.number m) (.number n) := by
  intro v w hvw
  have hsame : ∀ {x y : Decimal}, x.same y → x.same m = y.same n := by
    intro x y hxy
    rw [Bool.eq_iff_iff]
    exact ⟨fun hx => Decimal.same_trans (Decimal.same_symm hxy) (Decimal.same_trans hx h),
      fun hy => Decimal.same_trans hxy (Decimal.same_trans hy (Decimal.same_symm h))⟩
  cases hvw with
  | number hvw => exact hsame hvw
  | refl =>
      cases v with
      | number k => exact hsame (Decimal.same_self k)
      | _ => rfl

theorem sameCriterion_refl (c : Criterion) : SameCriterion c c := by
  intro v w hvw
  cases hvw with
  | refl => rfl
  | number h =>
      cases c with
      | number n => exact sameCriterion_number (Decimal.same_self n) (.number h)
      | comparison relation n =>
          exact congrArg relation.holds (Decimal.compare_of_same h (Decimal.same_self n))
      | _ => rfl

theorem sameCriterion_ofValue (h : v.Like w) :
    SameCriterion (Criterion.ofValue v) (Criterion.ofValue w) := by
  cases h with
  | array => exact sameCriterion_refl _
  | scalar h =>
      cases h with
      | number h => exact sameCriterion_number h
      | refl => exact sameCriterion_refl _

/-- An error in place of the range is the answer. -/
theorem countIf_eq (v w : Value) : countIf v w =
    match v.error? with
    | some e => .ok (.error e)
    | none => .ok (countValue
        (v.cells.filter fun c => (Criterion.ofValue w).accepts (.scalar c)).length) := by
  rcases v with (_ | _ | _ | _ | _) | _ <;> rfl

theorem countIf_agree (hv : v.Like v') (hw : w.Like w') :
    SameAnswer (countIf v w) (countIf v' w') := by
  rw [countIf_eq, countIf_eq, hv.error?_eq]
  split
  next => exact SameAnswer.refl _
  next =>
    refine countValue_agree (List.rel_filter (fun c d hcd => ?_) hv.cells).length_eq
    simp only [sameCriterion_ofValue hw hcd]

theorem selectedInRow_forall₂ {c d : Criterion} (hcd : SameCriterion c d)
    {vs ws vs' ws' : List CellValue} (hv : List.Forall₂ CellValue.Like vs vs')
    (hw : List.Forall₂ CellValue.Like ws ws') :
    List.Forall₂ CellValue.Like (selectedInRow c vs ws) (selectedInRow d vs' ws') := by
  induction hv generalizing ws ws' with
  | nil => exact .nil
  | cons h _ ih =>
      cases hw with
      | nil => exact .nil
      | cons hvalue hrest =>
          rw [selectedInRow, selectedInRow, hcd h]
          split
          · exact .cons hvalue (ih hrest)
          · exact ih hrest

theorem selected_forall₂ {c d : Criterion} (hcd : SameCriterion c d)
    {rows values rows' values' : List (List CellValue)}
    (hr : List.Forall₂ (List.Forall₂ CellValue.Like) rows rows')
    (hv : List.Forall₂ (List.Forall₂ CellValue.Like) values values') :
    List.Forall₂ CellValue.Like (selected c rows values) (selected d rows' values') := by
  induction hr generalizing values values' with
  | nil => exact .nil
  | cons h _ ih =>
      cases hv with
      | nil => exact .nil
      | cons hvalues hrest =>
          exact List.rel_append (selectedInRow_forall₂ hcd h hvalues) (ih hrest)

/-- An error in place of one of the ranges is the answer. -/
theorem selectedNumbers_eq (v w : Value) (o : Option Value) : selectedNumbers v w o =
    match v.error?.or (o.bind Value.error?) with
    | some e => .error (.errorValue e)
    | none => cellNumbers (selected (Criterion.ofValue w) v.grid (o.getD v).grid) := by
  rcases v with (_ | _ | _ | _ | _) | _ <;> rcases o with _ | ((_ | _ | _ | _ | _) | _) <;> rfl

theorem selectedNumbers_agree (hv : v.Like v') (hw : w.Like w') (ho : SameOptional o o') :
    AgreeBy (List.Forall₂ SameNumber) (selectedNumbers v w o) (selectedNumbers v' w' o') := by
  have hvalues : (o.getD v).Like (o'.getD v') := by
    cases ho with
    | none => exact hv
    | some h => exact h
  have herror : o.bind Value.error? = o'.bind Value.error? := by
    cases ho with
    | none => rfl
    | some h => exact h.error?_eq
  rw [selectedNumbers_eq, selectedNumbers_eq, hv.error?_eq, herror]
  split
  next => exact .error _
  next =>
    exact cellNumbers_agree (selected_forall₂ (sameCriterion_ofValue hw) hv.grid hvalues.grid)

theorem sumIf_agree (hv : v.Like v') (hw : w.Like w') (ho : SameOptional o o') :
    SameAnswer (sumIf v w o) (sumIf v' w' o') :=
  (selectedNumbers_agree hv hw ho).bind fun _ _ hns =>
    (orNumberError_agree (sumOf_same hns)).bind fun _ _ htotal => .ok (.number htotal)

theorem averageIf_agree (hv : v.Like v') (hw : w.Like w') (ho : SameOptional o o') :
    SameAnswer (averageIf v w o) (averageIf v' w' o') :=
  (selectedNumbers_agree hv hw ho).bind fun _ _ hns => meanOf_agree hns

/-! ## Positions -/

theorem compareCells_of_like {c d c' d' : CellValue} (hc : c.Like c') (hd : d.Like d') :
    (Value.scalar c).compareTo (.scalar d) = (Value.scalar c').compareTo (.scalar d') :=
  Value.compareTo_of_like (.scalar hc) (.scalar hd)

/-- Keys that agree, at one position. -/
def SameKey (k l : CellValue × Nat) : Prop := k.1.Like l.1 ∧ k.2 = l.2

theorem zipIdx_forall₂ {α β : Type} {R : α → β → Prop} {as : List α} {bs : List β}
    (h : List.Forall₂ R as bs) (start : Nat) :
    List.Forall₂ (fun a b => R a.1 b.1 ∧ a.2 = b.2) (as.zipIdx start) (bs.zipIdx start) := by
  induction h generalizing start with
  | nil => exact .nil
  | cons h _ ih => exact .cons ⟨h, rfl⟩ (ih (start + 1))

theorem filledKeys_forall₂ {keys keys' : List CellValue}
    (h : List.Forall₂ CellValue.Like keys keys') :
    List.Forall₂ SameKey (filledKeys keys) (filledKeys keys') := by
  refine List.rel_filter (fun k l hkl => ?_) (zipIdx_forall₂ h 0)
  simp only [bne_iff_ne, ne_eq, CellValue.Like.eq_empty_iff hkl.1]

theorem approximatePosition?_eq (mode : MatchMode) {c c' : CellValue} (hc : c.Like c')
    {keys keys' : List CellValue} (h : List.Forall₂ CellValue.Like keys keys') :
    approximatePosition? mode c keys = approximatePosition? mode c' keys' := by
  have hkeys := filledKeys_forall₂ h
  have htest : ∀ place : Nat,
      ((filledKeys keys).toArray[place]?).map (fun k => mayPrecede mode c k.1) =
        ((filledKeys keys').toArray[place]?).map fun k => mayPrecede mode c' k.1 := by
    intro place
    rw [List.getElem?_toArray, List.getElem?_toArray]
    refine Decimal.map_eq_of_rel (forall₂_getElem? hkeys place) fun k l hkl => ?_
    simp only [mayPrecede, compareCells_of_like hkl.1 hc]
  have hsize : (filledKeys keys).toArray.size = (filledKeys keys').toArray.size := by
    rw [List.size_toArray, List.size_toArray, hkeys.length_eq]
  unfold approximatePosition?
  simp only [htest, hsize]
  split
  next => rfl
  next place _ =>
    rw [List.getElem?_toArray, List.getElem?_toArray]
    refine Decimal.bind_eq_of_rel (forall₂_getElem? hkeys place) fun k l hkl => ?_
    rw [hkl.1.kind_eq, hc.kind_eq, hkl.2]

theorem findPosition?_eq (mode : MatchMode) {c c' : CellValue} (hc : c.Like c')
    {keys keys' : List CellValue} (h : List.Forall₂ CellValue.Like keys keys') :
    findPosition? mode c keys = findPosition? mode c' keys' := by
  have hexact : keys.findIdx? (fun k => isEqualKey k c) = keys'.findIdx? fun k => isEqualKey k c' := by
    induction h with
    | nil => rfl
    | @cons k l _ _ hkl _ ih =>
        have hkey : isEqualKey k c = isEqualKey l c' := by
          rw [isEqualKey, isEqualKey, hkl.kind_eq, hc.kind_eq, compareCells_of_like hkl hc]
        rw [List.findIdx?_cons, List.findIdx?_cons, hkey, ih]
  unfold findPosition?
  rw [hexact, approximatePosition?_eq mode hc h]
  simp only [hc.eq_empty_iff]

theorem lookupValue_agree (h : v.Like w) :
    AgreeBy CellValue.Like (lookupValue v) (lookupValue w) := by
  cases h with
  | array => exact .error _
  | scalar h =>
      cases h with
      | number h => exact .ok (.number h)
      | refl => exact .of_eq CellValue.Like.refl rfl

theorem tableMode_eq (h : SameOptional o o') : tableMode o = tableMode o' := by
  cases h with
  | none => rfl
  | some h => rw [tableMode, tableMode, h.toBool_eq]

theorem orNotFound_agree {α β : Type} {R : α → β → Prop} {a : Option α} {b : Option β}
    (h : Option.Rel R a b) : AgreeBy R (orNotFound a) (orNotFound b) := by
  cases h with
  | none => exact .error _
  | some h => exact .ok h

/-! ## Tables -/

/-- An error in place of the table is the answer. -/
theorem verticalLookup_eq (v table column : Value) (approximate : Option Value) :
    verticalLookup v table column approximate = (lookupValue v >>= fun c =>
      match table.error? with
      | some e => .ok (.error e)
      | none => do
          let number ← wholeNumber column
          let index ← lineIndex "Column" "column" number (Value.dimensions table.grid).2
          let mode ← tableMode approximate
          let row ← orNotFound (findPosition? mode c (table.grid.filterMap List.head?))
          let found ← orNotFound ((table.grid[row]?).bind fun r => r[index]?)
          .ok (.scalar found)) := by
  rcases table with (_ | _ | _ | _ | _) | _ <;> rfl

theorem verticalLookup_agree (hu : u.Like u') (hv : v.Like v') (hw : w.Like w')
    (ho : SameOptional o o') :
    SameAnswer (verticalLookup u v w o) (verticalLookup u' v' w' o') := by
  rw [verticalLookup_eq, verticalLookup_eq, hv.error?_eq, hw.wholeNumber_eq, tableMode_eq ho,
    dimensions_eq hv.grid]
  refine (lookupValue_agree hu).bind fun c c' hc => ?_
  have hkeys : List.Forall₂ CellValue.Like (v.grid.filterMap List.head?)
      (v'.grid.filterMap List.head?) := by
    refine List.rel_filterMap (fun row row' hrow => ?_) hv.grid
    cases hrow with
    | nil => exact .none
    | cons h => exact .some h
  split
  next => exact SameAnswer.refl _
  next =>
    refine .bind_left _ fun number => .bind_left _ fun index => .bind_left _ fun mode => ?_
    rw [findPosition?_eq mode hc hkeys]
    refine .bind_left _ fun row => (orNotFound_agree ?_).bind fun _ _ h => .ok (.scalar h)
    exact Decimal.rel_bind (forall₂_getElem? hv.grid row) fun _ _ h => forall₂_getElem? h index

/-- An error in place of the table is the answer. -/
theorem horizontalLookup_eq (v table row : Value) (approximate : Option Value) :
    horizontalLookup v table row approximate = (lookupValue v >>= fun c =>
      match table.error? with
      | some e => .ok (.error e)
      | none => do
          let number ← wholeNumber row
          let index ← lineIndex "Row" "row" number (Value.dimensions table.grid).1
          let mode ← tableMode approximate
          let column ← orNotFound (findPosition? mode c (table.grid.headD []))
          let found ← orNotFound ((table.grid[index]?).bind fun r => r[column]?)
          .ok (.scalar found)) := by
  rcases table with (_ | _ | _ | _ | _) | _ <;> rfl

theorem headD_forall₂ {rows rows' : List (List CellValue)}
    (h : List.Forall₂ (List.Forall₂ CellValue.Like) rows rows') :
    List.Forall₂ CellValue.Like (rows.headD []) (rows'.headD []) := by
  cases h with
  | nil => exact .nil
  | cons h => exact h

theorem horizontalLookup_agree (hu : u.Like u') (hv : v.Like v') (hw : w.Like w')
    (ho : SameOptional o o') :
    SameAnswer (horizontalLookup u v w o) (horizontalLookup u' v' w' o') := by
  rw [horizontalLookup_eq, horizontalLookup_eq, hv.error?_eq, hw.wholeNumber_eq, tableMode_eq ho,
    dimensions_eq hv.grid]
  refine (lookupValue_agree hu).bind fun c c' hc => ?_
  split
  next => exact SameAnswer.refl _
  next =>
    refine .bind_left _ fun number => .bind_left _ fun index => .bind_left _ fun mode => ?_
    rw [findPosition?_eq mode hc (headD_forall₂ hv.grid)]
    refine .bind_left _ fun column => (orNotFound_agree ?_).bind fun _ _ h => .ok (.scalar h)
    exact Decimal.rel_bind (forall₂_getElem? hv.grid index) fun _ _ h => forall₂_getElem? h column

/-- An error in place of the keys is the answer. -/
theorem position_eq (v keys : Value) (type : Option Value) :
    position v keys type = (lookupValue v >>= fun c =>
      match keys.error? with
      | some e => .ok (.error e)
      | none =>
          if 1 < (Value.dimensions keys.grid).1 ∧ 1 < (Value.dimensions keys.grid).2 then
            .error (.errorValue .notAvailable)
          else do
            let type ← wholeOrDefault type 1
            let found ← orNotFound (findPosition? (modeOfType type) c keys.cells)
            .ok (countValue (found + 1))) := by
  rcases keys with (_ | _ | _ | _ | _) | _ <;> rfl

theorem position_agree (hv : v.Like v') (hw : w.Like w') (ho : SameOptional o o') :
    SameAnswer (position v w o) (position v' w' o') := by
  rw [position_eq, position_eq, hw.error?_eq, dimensions_eq hw.grid, ho.wholeOrDefault_eq]
  refine (lookupValue_agree hv).bind fun c c' hc => ?_
  split
  next => exact SameAnswer.refl _
  next =>
    split
    next => exact .error _
    next =>
      refine .bind_left _ fun type => ?_
      rw [findPosition?_eq _ hc hw.cells]
      exact SameAnswer.refl _

theorem indexPlace_eq (rows columns : Nat) (hw : w.Like w') (ho : SameOptional o o') :
    indexPlace rows columns w o = indexPlace rows columns w' o' := by
  cases ho with
  | none => rw [indexPlace, indexPlace, hw.wholeNumber_eq]
  | some h => rw [indexPlace, indexPlace, hw.wholeNumber_eq, h.wholeNumber_eq]

theorem index_agree (hv : v.Like v') (hw : w.Like w') (ho : SameOptional o o') :
    SameAnswer (index v w o) (index v' w' o') := by
  have harguments : SameArguments (v :: w :: o.toList) (v' :: w' :: o'.toList) := by
    refine .cons hv (.cons hw ?_)
    cases ho with
    | none => exact .nil
    | some h => exact .cons h .nil
  unfold index
  rw [firstError?_eq harguments]
  split
  next => exact SameAnswer.refl _
  next =>
    simp only [dimensions_eq hv.grid, indexPlace_eq _ _ hw ho]
    refine .bind_left _ fun place => ?_
    split
    next => exact .error _
    next =>
      have hcell := Decimal.rel_bind (forall₂_getElem? hv.grid (place.1 - 1).toNat) fun _ _ h =>
        forall₂_getElem? h (place.2 - 1).toNat
      revert hcell
      generalize (v.grid[(place.1 - 1).toNat]?).bind _ = cell
      generalize (v'.grid[(place.1 - 1).toNat]?).bind _ = cell'
      intro hcell
      cases hcell with
      | none => exact .error _
      | some h => exact .ok (.scalar h)

/-! ## Texts -/

theorem textLength_agree (h : v.Like w) : SameAnswer (textLength v) (textLength w) :=
  SameAnswer.of_eq (by rw [textLength, textLength, h.textArgument_eq])

theorem countOrOne_eq (ho : SameOptional o o') : countOrOne o = countOrOne o' := by
  rw [countOrOne, countOrOne, ho.wholeOrDefault_eq]

theorem leftPart_agree (hv : v.Like v') (ho : SameOptional o o') :
    SameAnswer (leftPart v o) (leftPart v' o') :=
  SameAnswer.of_eq (by rw [leftPart, leftPart, hv.textArgument_eq, countOrOne_eq ho])

theorem rightPart_agree (hv : v.Like v') (ho : SameOptional o o') :
    SameAnswer (rightPart v o) (rightPart v' o') :=
  SameAnswer.of_eq (by rw [rightPart, rightPart, hv.textArgument_eq, countOrOne_eq ho])

theorem middlePart_agree (hu : u.Like u') (hv : v.Like v') (hw : w.Like w') :
    SameAnswer (middlePart u v w) (middlePart u' v' w') :=
  SameAnswer.of_eq (by
    rw [middlePart, middlePart, hu.textArgument_eq, countOrOne_eq (.some hv),
      countOrOne_eq (.some hw)])

theorem upperCase_agree (h : v.Like w) : SameAnswer (upperCase v) (upperCase w) :=
  SameAnswer.of_eq (by rw [upperCase, upperCase, h.textArgument_eq])

theorem lowerCase_agree (h : v.Like w) : SameAnswer (lowerCase v) (lowerCase w) :=
  SameAnswer.of_eq (by rw [lowerCase, lowerCase, h.textArgument_eq])

theorem spaced_agree (h : v.Like w) : SameAnswer (spaced v) (spaced w) :=
  SameAnswer.of_eq (by rw [spaced, spaced, h.textArgument_eq])

theorem identical_agree (hv : v.Like v') (hw : w.Like w') :
    SameAnswer (identical v w) (identical v' w') :=
  SameAnswer.of_eq (by rw [identical, identical, hv.textArgument_eq, hw.textArgument_eq])

theorem concatenation_agree (h : SameArguments vs ws) :
    SameAnswer (concatenation vs) (concatenation ws) := by
  have htexts : vs.mapM textArgument = ws.mapM textArgument := by
    induction h with
    | nil => rfl
    | cons h _ ih => rw [List.mapM_cons, List.mapM_cons, h.textArgument_eq, ih]
  exact SameAnswer.of_eq (by rw [concatenation, concatenation, htexts])

theorem joinedCells_agree (h : SameArguments vs ws) :
    SameAnswer (joinedCells vs) (joinedCells ws) := by
  have hcells := cells_forall₂ h
  unfold joinedCells
  generalize vs.flatMap Value.cells = cells at hcells
  generalize ws.flatMap Value.cells = cells' at hcells
  have herror : cells.findSome? CellValue.error? = cells'.findSome? CellValue.error? := by
    induction hcells with
    | nil => rfl
    | cons h _ ih => rw [List.findSome?_cons, List.findSome?_cons, h.error?_eq, ih]
  have htext : cells.map CellValue.toText = cells'.map CellValue.toText := by
    clear herror
    induction hcells with
    | nil => rfl
    | cons h _ ih => rw [List.map_cons, List.map_cons, h.toText_eq, ih]
  simp only [herror, htext]
  exact SameAnswer.refl _

/-! ## Numbers and texts -/

theorem numberFromText_agree (h : v.Like w) :
    SameAnswer (numberFromText v) (numberFromText w) := by
  cases h with
  | array => exact .error _
  | scalar h =>
      cases h with
      | number h => exact .ok (.number h)
      | refl => exact SameAnswer.refl _

theorem format?_of_same (f : NumberFormat) {m n : Decimal} (h : m.same n) :
    f.format? m = f.format? n := by
  have hwrite : ∀ {m n : Decimal}, m.same n → f.write (m.round f.places .halfAway) =
      f.write (n.round f.places .halfAway) := by
    intro m n h
    have hround := Decimal.round_same h f.places .halfAway
    have hminus : NumberFormat.minus (m.round f.places .halfAway) =
        NumberFormat.minus (n.round f.places .halfAway) := by
      unfold NumberFormat.minus
      rw [← Decimal.isZero_of_same hround]
      cases hz : (m.round f.places .halfAway).isZero with
      | true => simp only [Bool.not_true, Bool.and_false]
      | false => rw [Decimal.negative_of_same hround hz]
    unfold NumberFormat.write
    rw [Decimal.toFixed_of_same hround, hminus]
  have hscaled : Decimal.SameResult (if f.percent then m.mul? 100 else some m)
      (if f.percent then n.mul? 100 else some n) := by
    split
    · exact Decimal.mul?_same h (Decimal.same_self 100)
    · exact .some h
  exact Decimal.map_eq_of_rel hscaled fun x y hxy => congrArg String.ofList (hwrite hxy)

theorem formatted_agree (format : String) {m n : Decimal} (h : m.same n) :
    SameAnswer (formatted format m) (formatted format n) := by
  have hformat : (NumberFormat.ofChars? format.toList).bind (·.format? m) =
      (NumberFormat.ofChars? format.toList).bind (·.format? n) := by
    cases NumberFormat.ofChars? format.toList with
    | none => rfl
    | some f => exact format?_of_same f h
  rw [formatted, formatted, hformat]
  exact SameAnswer.refl _

theorem textFromNumber_agree (hv : v.Like v') (hw : w.Like w') :
    SameAnswer (textFromNumber v w) (textFromNumber v' w') := by
  unfold textFromNumber
  rw [hw.textArgument_eq]
  refine .bind_left _ fun format => ?_
  cases hv with
  | array => exact .error _
  | scalar h =>
      cases h with
      | number h => exact formatted_agree format h
      | refl => exact SameAnswer.refl _

end PaintQuote.Formula.Functions
