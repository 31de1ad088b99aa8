import PaintQuote.Proofs.Values.Reading

/-!
# Errors among arguments

Functions that read all of their arguments fail where one of them is an error: with the first error among
them, or with an error that is met before it and does not depend on it.  Some functions look at an error as at
any other value, and an error as a condition is met by no cell: then a conditional sum or count is zero and a
conditional mean divides by zero (`errors_propagate`).
-/

namespace PaintQuote.Formula

open Sheet Functions

namespace Functions

variable {all vs ws : List Value}

theorem numbers_cons (v : Value) (vs : List Value) :
    numbers (v :: vs) = (do let ns ← numbers [v]; let ms ← numbers vs; .ok (ns ++ ms)) := by
  rcases v with (_ | _ | _ | _ | _) | rows
  case array =>
    simp only [numbers, bind_assoc]
    cases cellNumbers rows.flatten with
    | error e => rfl
    | ok ns => simp [bind, Except.bind]
  case scalar.empty => exact (bind_pure (numbers vs)).symm
  all_goals
    simp only [numbers, bind_assoc]
    rfl

theorem logicalsFrom_cons (v : Value) (vs : List Value) :
    logicalsFrom (v :: vs) = (do let bs ← logicalsFrom [v]; let cs ← logicalsFrom vs; .ok (bs ++ cs)) := by
  rcases v with (_ | _ | _ | _ | _) | rows
  case array =>
    simp only [logicalsFrom, bind_assoc]
    cases cellLogicals rows.flatten with
    | error e => rfl
    | ok bs => simp [bind, Except.bind]
  case scalar.empty => exact (bind_pure (logicalsFrom vs)).symm
  all_goals
    simp only [logicalsFrom, bind_assoc]
    rfl

theorem numbers_stops (h : List.Forall₂ (Argument all) vs ws) (he : ∃ e, .error e ∈ vs) :
    Stops all (numbers vs) (numbers ws) :=
  stops_each (fun _ => rfl) numbers_cons h he

theorem logicals_stops (h : List.Forall₂ (Argument all) vs ws) (he : ∃ e, .error e ∈ vs) :
    Stops all (logicals vs) (logicals ws) :=
  (stops_each (fun _ => rfl) logicalsFrom_cons h he).bind _ _

theorem numbers_reads {f : List Decimal → Answer} (h : List.Forall₂ (Argument all) vs ws) :
    Reads all vs (numbers vs >>= f) (numbers ws >>= f) :=
  fun he => ((numbers_stops h he).bind _ _).fails

theorem numbers_map_reads {f : List Decimal → Value} (h : List.Forall₂ (Argument all) vs ws) :
    Reads all vs ((numbers vs).map f) ((numbers ws).map f) :=
  fun he => ((numbers_stops h he).map _ _).fails

theorem logicals_map_reads {f : List Bool → Value} (h : List.Forall₂ (Argument all) vs ws) :
    Reads all vs ((logicals vs).map f) ((logicals ws).map f) :=
  fun he => ((logicals_stops h he).map _ _).fails

theorem concatenation_reads (h : List.Forall₂ (Argument all) vs ws) :
    Reads all vs (concatenation vs) (concatenation ws) := by
  intro he
  have hstops : Stops all (vs.mapM textArgument) (ws.mapM textArgument) :=
    stops_each (fun _ => rfl) (fun _ _ => List.mapM_cons) h he
  exact (hstops.map _ _).fails

/-- The first error among the cells of all arguments. -/
theorem firstCellError (h : List.Forall₂ (Argument all) vs ws) (he : ∃ e, .error e ∈ vs) :
    ∃ e, (vs.flatMap Value.cells).findSome? CellValue.error? = some e ∧
      (.error e ∈ all ∨ (ws.flatMap Value.cells).findSome? CellValue.error? = some e) := by
  induction h with
  | nil =>
      obtain ⟨e, he⟩ := he
      exact absurd he List.not_mem_nil
  | @cons v w vs ws hv _ ih =>
      simp only [List.flatMap_cons, List.findSome?_append]
      cases hv.replaced with
      | error e c => exact ⟨e, rfl, Or.inl hv.mem⟩
      | same =>
          cases hcells : v.cells.findSome? CellValue.error? with
          | some e => exact ⟨e, rfl, Or.inr rfl⟩
          | none =>
              refine ih (error_mem_tail he ?_)
              rintro e rfl
              cases hcells

theorem joinedCells_reads (h : List.Forall₂ (Argument all) vs ws) :
    Reads all vs (joinedCells vs) (joinedCells ws) := by
  intro he
  obtain ⟨e, hvs, hor⟩ := firstCellError h he
  simp only [joinedCells, hvs]
  refine ⟨e, rfl, hor.imp_right fun hws => ?_⟩
  rw [hws]
  rfl

/-! ### Sums of products -/

theorem timesValue_error {total : Decimal} {c : CellValue} {a : Answer} (h : timesValue total c = .error a) :
    ∃ e, settled a = .error e := by
  cases c with
  | number n =>
      simp only [timesValue, earlyNumber] at h
      split at h
      next => cases h
      next =>
        cases h
        exact ⟨.number, rfl⟩
  | error e =>
      cases h
      exact ⟨e, rfl⟩
  | _ => cases h

/-- The product of the first cells of arguments ends early with an error among them. -/
theorem product_stops {multiply : Decimal → List (List CellValue) → Early Decimal}
    (hmultiply : multiply = fun total grid => timesValue total (valueAt grid 0 0))
    (h : List.Forall₂ (Argument all) vs ws) (he : ∃ e, .error e ∈ vs) (total : Decimal) :
    ∃ a, (vs.map Value.grid).foldlM multiply total = .error a ∧ ∃ e, settled a = .error e ∧
      (.error e ∈ all ∨ (ws.map Value.grid).foldlM multiply total = .error a) := by
  subst hmultiply
  induction h generalizing total with
  | nil =>
      obtain ⟨e, he⟩ := he
      exact absurd he List.not_mem_nil
  | @cons v w vs ws hv _ ih =>
      simp only [List.map_cons, List.foldlM_cons]
      cases hv.replaced with
      | error e c => exact ⟨.ok (.error e), rfl, e, rfl, Or.inl hv.mem⟩
      | same =>
          cases htimes : timesValue total (valueAt v.grid 0 0) with
          | error a =>
              obtain ⟨e, ha⟩ := timesValue_error htimes
              exact ⟨a, rfl, e, ha, Or.inr rfl⟩
          | ok total =>
              refine ih (error_mem_tail he ?_) total
              rintro e rfl
              cases htimes

theorem shapes_eq (h : List.Forall₂ (Argument all) vs ws) :
    (vs.map Value.grid).map Value.dimensions = (ws.map Value.grid).map Value.dimensions := by
  induction h with
  | nil => rfl
  | cons hv _ ih =>
      simp only [List.map_cons, ih]
      cases hv.replaced with
      | same => rfl
      | error e c => rfl

/-- Arrays of one shape, one of which is a single value. -/
theorem sumOfProducts_one (grids : List (List (List CellValue))) : sumOfProducts grids 1 1 =
    (do let p ← productAt grids 0 0; earlyNumber (Decimal.add? 0 p)) := by
  show List.foldlM _ _ [(0, 0)] = _
  simp only [List.foldlM_cons, List.foldlM_nil, bind_pure]

theorem sumProduct_reads (h : List.Forall₂ (Argument all) vs ws) :
    Reads all vs (sumProduct vs) (sumProduct ws) := by
  have hhead : ∀ grids : List (List (List CellValue)),
      Value.dimensions (grids.headD []) = (grids.map Value.dimensions).headD (0, 0) := by
    intro grids
    cases grids <;> rfl
  have hany : ∀ (grids : List (List (List CellValue))) shape,
      (grids.any fun g => Value.dimensions g != shape) = (grids.map Value.dimensions).any (· != shape) :=
    fun grids shape => by rw [List.any_map]; rfl
  rintro ⟨e, he⟩
  simp only [sumProduct, hhead, hany, ← shapes_eq h]
  split
  next => exact ⟨.value, rfl, Or.inr rfl⟩
  next hsame =>
    have hshape : ((vs.map Value.grid).map Value.dimensions).headD (0, 0) = (1, 1) := by
      rw [List.any_eq_true] at hsame
      by_contra hne
      refine hsame ⟨(1, 1), ?_, ?_⟩
      · exact List.mem_map.2 ⟨_, List.mem_map_of_mem he, rfl⟩
      · exact bne_iff_ne.2 (Ne.symm hne)
    rw [hshape, sumOfProducts_one, sumOfProducts_one]
    obtain ⟨a, hvs, e, ha, hor⟩ := product_stops rfl h ⟨e, he⟩ 1
    simp only [productAt, hvs]
    refine ⟨e, ha, hor.imp_right fun hws => ?_⟩
    rw [hws]
    exact ha

theorem truncate_reads {v v' : Value} {o p : Option Value} (hv : Argument all v v')
    (ho : Option.Rel (Argument all) o p) :
    Reads all (v :: (o.toList ++ [])) (truncate v o) (truncate v' p) :=
  .bothOptional (s := fun o => wholeOrDefault o 0) (fun _ => rfl) (fun _ => rfl) hv ho

theorem multipleBy_reads {usual reversed : Decimal → Decimal} {v v' : Value} {o p q q' : Option Value}
    (hv : Argument all v v') (ho : Option.Rel (Argument all) o p) (hq : Option.Rel (Argument all) q q') :
    Reads all (v :: (o.toList ++ (q.toList ++ []))) (multipleBy usual reversed v o q)
      (multipleBy usual reversed v' p q') :=
  .next (fun _ => rfl) hv fun _ => .optional (r := fun o => numberOrDefault o 1) (fun _ => rfl) ho fun _ =>
    .optional (r := fun o => numberOrDefault o 0) (fun _ => rfl) hq fun _ => .nil

/-! ### Lookups -/

section

variable {v v' w w' u u' : Value} {o p : Option Value}

theorem verticalLookup_reads (hv : Argument all v v') (hw : Argument all w w') (hu : Argument all u u')
    (ho : Option.Rel (Argument all) o p) :
    Reads all (v :: w :: u :: (o.toList ++ [])) (verticalLookup v w u o) (verticalLookup v' w' u' p) := by
  refine .next (fun _ => rfl) hv fun _ => .argument hw (by rintro e rfl; rfl) ?_
  rintro hvalue rfl
  rcases w' with (_ | _ | _ | _ | e) | rows
  case scalar.error => exact absurd rfl (hvalue e)
  all_goals
    exact .next (fun _ => rfl) hu fun _ =>
      .step fun _ => .optional (fun _ => rfl) ho fun _ => .nil

theorem horizontalLookup_reads (hv : Argument all v v') (hw : Argument all w w') (hu : Argument all u u')
    (ho : Option.Rel (Argument all) o p) :
    Reads all (v :: w :: u :: (o.toList ++ [])) (horizontalLookup v w u o)
      (horizontalLookup v' w' u' p) := by
  refine .next (fun _ => rfl) hv fun _ => .argument hw (by rintro e rfl; rfl) ?_
  rintro hvalue rfl
  rcases w' with (_ | _ | _ | _ | e) | rows
  case scalar.error => exact absurd rfl (hvalue e)
  all_goals
    exact .next (fun _ => rfl) hu fun _ =>
      .step fun _ => .optional (fun _ => rfl) ho fun _ => .nil

theorem position_reads (hv : Argument all v v') (hw : Argument all w w')
    (ho : Option.Rel (Argument all) o p) :
    Reads all (v :: w :: (o.toList ++ [])) (position v w o) (position v' w' p) := by
  refine .next (fun _ => rfl) hv fun _ => .argument hw (by rintro e rfl; rfl) ?_
  rintro hvalue rfl
  rcases w' with (_ | _ | _ | _ | e) | rows
  case scalar.error => exact absurd rfl (hvalue e)
  all_goals
    exact .ite (fun _ => .failed _) fun _ =>
      .optional (r := fun type => wholeOrDefault type 1) (fun _ => rfl) ho fun _ => .nil

theorem mem_of_firstError? {vs : List Value} {e : ErrorValue} (h : firstError? vs = some e) :
    .error e ∈ vs := by
  obtain ⟨v, hv, hve⟩ := List.exists_of_findSome?_eq_some h
  have herror : v = .error e := by
    rcases v with (_ | _ | _ | _ | _) | _ <;> cases hve
    rfl
  exact herror ▸ hv

theorem firstError?_eq_none_iff {vs : List Value} : firstError? vs = none ↔ ∀ e, .error e ∉ vs := by
  constructor
  · intro h e he
    cases List.findSome?_eq_none_iff.1 h _ he
  · intro h
    cases hfirst : firstError? vs with
    | none => rfl
    | some e => exact absurd (mem_of_firstError? hfirst) (h e)

theorem index_reads (hv : Argument all v v') (hw : Argument all w w') (ho : Option.Rel (Argument all) o p) :
    Reads all (v :: w :: (o.toList ++ [])) (index v w o) (index v' w' p) := by
  intro he
  rw [List.append_nil] at he
  obtain ⟨e, hfirst⟩ : ∃ e, firstError? (v :: w :: o.toList) = some e := by
    rw [← Option.ne_none_iff_exists', Ne, firstError?_eq_none_iff]
    exact fun h => he.elim h
  have hmem := mem_of_firstError? hfirst
  refine ⟨e, by rw [index, hfirst]; rfl, Or.inl ?_⟩
  rcases List.mem_cons.1 hmem with rfl | hmem
  · exact hv.mem
  rcases List.mem_cons.1 hmem with rfl | hmem
  · exact hw.mem
  cases ho with
  | none => cases hmem
  | some ho =>
      rw [← List.mem_singleton.1 hmem] at ho
      exact ho.mem

/-! ### Texts -/

theorem textFromNumber_reads (hv : Argument all v v') (hw : Argument all w w') :
    Reads all [v, w] (textFromNumber v w) (textFromNumber v' w') := by
  -- The format is read first.
  have hreads : Reads all [w, v] (textFromNumber v w) (textFromNumber v' w') :=
    .next (fun _ => rfl) hw fun _ => .argument hv (by rintro e rfl; rfl) fun _ _ => .nil
  exact hreads.mono (by simp)

theorem middlePart_reads (hv : Argument all v v') (hw : Argument all w w') (hu : Argument all u u') :
    Reads all [v, w, u] (middlePart v w u) (middlePart v' w' u') :=
  .next (fun _ => rfl) hv fun _ =>
    .next (r := fun v => countOrOne (some v)) (fun _ => rfl) hw fun _ => .ite (fun _ => .failed _) fun _ =>
      .next (r := fun v => countOrOne (some v)) (fun _ => rfl) hu fun _ => .nil

end

/-! ### Conditions -/

theorem selected_never (rows values : List (List CellValue)) : selected .never rows values = [] := by
  have hrow : ∀ vs ws, selectedInRow .never vs ws = [] := by
    intro vs ws
    induction vs generalizing ws with
    | nil => rfl
    | cons v vs ih =>
        cases ws with
        | nil => rfl
        | cons w ws => exact ih ws
  induction rows generalizing values with
  | nil => rfl
  | cons row rows ih =>
      cases values with
      | nil => rfl
      | cons ws values =>
          rw [selected, hrow, ih]
          rfl

theorem selectedNumbers_of_error {range criterion : Value} {values : Option Value}
    (he : ∃ e, .error e ∈ range :: criterion :: values.toList) :
    selectedNumbers range criterion values =
      (firstError? (range :: values.toList)).elim (.ok []) fun e => .error (.errorValue e) := by
  unfold selectedNumbers
  split
  next => rfl
  next hrange =>
    rcases range with (_ | _ | _ | _ | e) | _
    case scalar.error => exact absurd rfl (hrange e)
    all_goals rfl
  next hrange hvalues =>
    have hothers : ∀ e, .error e ∉ range :: values.toList := by
      intro e he
      rcases List.mem_cons.1 he with heq | he
      · exact hrange e heq.symm
      · exact hvalues e (Option.mem_toList.1 he)
    have hcriterion : ∃ e, criterion = .error e := by
      obtain ⟨e, he⟩ := he
      rcases List.mem_cons.1 he with heq | he
      · exact absurd heq.symm (hrange e)
      rcases List.mem_cons.1 he with heq | he
      · exact ⟨e, heq.symm⟩
      · exact absurd (Option.mem_toList.1 he) (hvalues e)
    obtain ⟨e, rfl⟩ := hcriterion
    rw [firstError?_eq_none_iff.2 hothers, Criterion.ofValue, selected_never]
    rfl

theorem countIf_of_error {range criterion : Value} (he : ∃ e, .error e ∈ [range, criterion]) :
    settled (countIf range criterion) = (firstError? [range]).elim (.number 0) Value.error := by
  rcases range with (_ | _ | _ | _ | e) | rows
  case scalar.error => rfl
  all_goals
    obtain ⟨e, he⟩ := he
    obtain rfl : .error e = criterion := by simpa using he
    exact congrArg (fun cells => countValue (List.length cells)) (List.filter_false _)

end Functions

/-! ## The library -/

/-- The functions that look at an error as at any other value. -/
def inspectors : List String :=
  ["COUNT", "COUNTA", "ISBLANK", "ISERROR", "ISLOGICAL", "ISNA", "ISNUMBER", "ISTEXT"]

/-- The functions with a condition on cells. -/
def conditionals : List String := ["AVERAGEIF", "COUNTIF", "SUMIF"]

/-- A function fails for an error among its arguments other than its condition, and an error as the condition
selects no cells. -/
def Function.Selects (f : Function) : Prop :=
  ∀ answer, f.implementation = .eager answer → ∀ {vs}, f.takes vs.length = true → (∃ e, .error e ∈ vs) →
    settled (answer vs) = (firstError? (vs.eraseIdx 1)).elim
      (if f.name = "AVERAGEIF" then .error .divisionByZero else .number 0) Value.error

namespace Function.Selects

variable {name : String}

theorem withTwoOrThree {f : List Decimal → Answer}
    (h : settled (f []) = if name = "AVERAGEIF" then .error .divisionByZero else .number 0) :
    (Function.eager name 2 (some 3) (withTwoOrThree fun range criterion values =>
      selectedNumbers range criterion values >>= f)).Selects := by
  rintro _ ⟨rfl⟩ vs htakes he
  obtain ⟨hleast, hmost⟩ := Function.Propagates.takes_eager.1 htakes
  have hmost := hmost 3 rfl
  have hselected : ∀ range criterion values, (∃ e, .error e ∈ range :: criterion :: values.toList) →
      settled (selectedNumbers range criterion values >>= f) =
        (firstError? (range :: values.toList)).elim
          (if name = "AVERAGEIF" then .error .divisionByZero else .number 0) Value.error := by
    intro range criterion values he
    rw [selectedNumbers_of_error he]
    cases firstError? (range :: values.toList) with
    | none => exact h
    | some e => rfl
  match vs, hleast, hmost with
  | [range, criterion], _, _ => exact hselected range criterion none he
  | [range, criterion, values], _, _ => exact hselected range criterion (some values) he

theorem countIf : (Function.eager "COUNTIF" 2 (some 2) (withTwo Functions.countIf)).Selects := by
  rintro _ ⟨rfl⟩ vs htakes he
  obtain ⟨hleast, hmost⟩ := Function.Propagates.takes_eager.1 htakes
  obtain ⟨range, criterion, rfl⟩ := List.length_eq_two.1 (Nat.le_antisymm (hmost 2 rfl) hleast)
  exact countIf_of_error he

end Function.Selects

/-- How a function treats errors among its arguments. -/
inductive Function.TreatsErrors (f : Function) : Prop where
  | inspects : f.name ∈ inspectors → f.TreatsErrors
  | selects : f.name ∈ conditionals → f.Selects → f.TreatsErrors
  | propagates : f.name ∉ conditionals → f.Propagates → f.TreatsErrors

theorem library_treatsErrors : ∀ f ∈ library, f.TreatsErrors := by
  unfold library
  simp only [List.forall_mem_cons]
  exact ⟨.propagates (by decide) (.withOne_of_error fun _ => rfl),
    .propagates (by decide) (.eager logicals_map_reads),
    .propagates (by decide) (.eager numbers_reads),
    .selects (by decide) (.withTwoOrThree rfl),
    .propagates (by decide) (.withTwo (.both (fun _ => rfl) fun _ => rfl)),
    .propagates (by decide) (.withOneToThree multipleBy_reads),
    .propagates (by decide) .deferred,
    .propagates (by decide) (.eager joinedCells_reads),
    .propagates (by decide) (.eager concatenation_reads),
    .inspects (by decide),
    .inspects (by decide),
    .selects (by decide) .countIf,
    .propagates (by decide) (.withTwo (.both (fun _ => rfl) fun _ => rfl)),
    .propagates (by decide) .withNone,
    .propagates (by decide) (.withTwo (.both (fun _ => rfl) fun _ => rfl)),
    .propagates (by decide) (.withOneToThree multipleBy_reads),
    .propagates (by decide) (.withThreeOrFour horizontalLookup_reads),
    .propagates (by decide) .deferred,
    .propagates (by decide) .deferred,
    .propagates (by decide) .deferred,
    .propagates (by decide) .deferred,
    .propagates (by decide) (.withTwoOrThree index_reads),
    .propagates (by decide) (.withOne_of_error fun _ => rfl),
    .inspects (by decide),
    .inspects (by decide),
    .inspects (by decide),
    .inspects (by decide),
    .inspects (by decide),
    .inspects (by decide),
    .propagates (by decide) (.withOneOrTwo (.bothOptional (fun _ => rfl) fun _ => rfl)),
    .propagates (by decide) (.withOne_of_error fun _ => rfl),
    .propagates (by decide) (.withOne_of_error fun _ => rfl),
    .propagates (by decide) (.withTwoOrThree position_reads),
    .propagates (by decide) (.eager numbers_map_reads),
    .propagates (by decide) (.withThree middlePart_reads),
    .propagates (by decide) (.eager numbers_map_reads),
    .propagates (by decide) (.withTwo (.both (fun _ => rfl) fun _ => rfl)),
    .propagates (by decide) (.withTwo (.both (fun _ => rfl) fun _ => rfl)),
    .propagates (by decide) (.withOne_of_error fun _ => rfl),
    .propagates (by decide) .withNone,
    .propagates (by decide) (.withOne_of_error fun _ => rfl),
    .propagates (by decide) (.eager logicals_map_reads),
    .propagates (by decide) (.withTwo (.both (fun _ => rfl) fun _ => rfl)),
    .propagates (by decide) (.eager numbers_reads),
    .propagates (by decide) (.withOneOrTwo (.bothOptional (fun _ => rfl) fun _ => rfl)),
    .propagates (by decide) (.withTwo (.both (fun _ => rfl) fun _ => rfl)),
    .propagates (by decide) (.withTwo (.both (fun _ => rfl) fun _ => rfl)),
    .propagates (by decide) (.withTwo (.both (fun _ => rfl) fun _ => rfl)),
    .propagates (by decide) (.withOne_of_error fun _ => rfl),
    .propagates (by decide) (.withOne_of_error fun _ => rfl),
    .propagates (by decide) (.eager numbers_reads),
    .selects (by decide) (.withTwoOrThree rfl),
    .propagates (by decide) (.eager sumProduct_reads),
    .propagates (by decide) .deferred,
    .propagates (by decide) (.withTwo textFromNumber_reads),
    .propagates (by decide) (.withOne_of_error fun _ => rfl),
    .propagates (by decide) .withNone,
    .propagates (by decide) (.withOneOrTwo truncate_reads),
    .propagates (by decide) (.withOne_of_error fun _ => rfl),
    .propagates (by decide) (.withOne_of_error fun _ => rfl),
    .propagates (by decide) (.withThreeOrFour verticalLookup_reads),
    .propagates (by decide) (.eager logicals_map_reads),
    List.forall_mem_nil _⟩

theorem forall₂_argument {vs ws : List Value} (h : List.Forall₂ Replaced vs ws) :
    List.Forall₂ (Argument vs) vs ws := by
  have hpart : ∀ {us}, us ⊆ vs → ∀ {ws}, List.Forall₂ Replaced us ws →
      List.Forall₂ (Argument vs) us ws := by
    intro us hsub ws h
    induction h with
    | nil => exact .nil
    | cons hv _ ih =>
        exact .cons ⟨hsub List.mem_cons_self, hv⟩ (ih fun u hu => hsub (List.mem_cons_of_mem _ hu))
  exact hpart (List.Subset.refl vs) h

/-- An error among the arguments of a function that does not inspect errors makes it fail: with one of these
errors, or with another error that it has as well whatever single values replace them.  A conditional function
fails for an error other than its condition, and for an error as its condition it is zero or divides by
zero. -/
theorem errors_propagate {f : Function} (hf : f ∈ library) {answer : List Value → Answer}
    (hanswer : f.implementation = .eager answer) (hname : f.name ∉ inspectors) {vs : List Value}
    (htakes : f.takes vs.length = true) (he : ∃ e, .error e ∈ vs) :
    (f.name ∉ conditionals → ∃ e, settled (answer vs) = .error e ∧
      (.error e ∈ vs ∨ ∀ ws, List.Forall₂ Replaced vs ws → settled (answer ws) = .error e)) ∧
    (f.name ∈ conditionals → settled (answer vs) = (firstError? (vs.eraseIdx 1)).elim
      (if f.name = "AVERAGEIF" then .error .divisionByZero else .number 0) Value.error) := by
  cases library_treatsErrors f hf with
  | inspects hinspects => exact absurd hinspects hname
  | selects hselects hsettled =>
      exact ⟨fun hnot => absurd hselects hnot, fun _ => hsettled answer hanswer htakes he⟩
  | propagates hnot hpropagates =>
      refine ⟨fun _ => ?_, fun hselects => absurd hselects hnot⟩
      have hfails : ∀ ws, List.Forall₂ Replaced vs ws → Fails vs (answer vs) (answer ws) :=
        fun ws hws => hpropagates answer hanswer htakes (forall₂_argument hws) he
      obtain ⟨e, hvs, -⟩ := hfails vs (List.forall₂_same.2 fun v _ => .same v)
      refine ⟨e, hvs, or_iff_not_imp_left.2 fun hnot ws hws => ?_⟩
      obtain ⟨e', hvs', hor⟩ := hfails ws hws
      cases hvs.symm.trans hvs'
      exact hor.resolve_left hnot

/-- An error in a sum, and an error as the range of a conditional sum, whose condition is one too. -/
theorem errors_propagate_sum :
    (∃ e, settled (sum [.number 1, .error .notAvailable]) = .error e ∧
      (.error e ∈ [.number 1, Value.error .notAvailable] ∨
        ∀ ws, List.Forall₂ Replaced [.number 1, .error .notAvailable] ws → settled (sum ws) = .error e)) ∧
    settled (sumIf (.error .reference) (.error .notAvailable) none) = .error .reference := by
  have hsum : (.eager "SUM" 1 none sum : Function) ∈ library := List.mem_of_getElem? (i := 50) rfl
  have hsumIf : (.eager "SUMIF" 2 (some 3) (withTwoOrThree sumIf) : Function) ∈ library :=
    List.mem_of_getElem? (i := 51) rfl
  constructor
  · exact (errors_propagate hsum rfl (by decide) rfl ⟨.notAvailable, by simp⟩).1 (by decide)
  · have he : ∃ e, .error e ∈ [Value.error .reference, .error .notAvailable] := ⟨.reference, by simp⟩
    exact (errors_propagate hsumIf rfl (by decide) rfl he).2 (by decide)

/-- A function is given errors and comes to none of them. -/
def LosesErrors (name : String) (vs : List Value) : Prop :=
  ∃ f ∈ library, f.name = name ∧ f.takes vs.length = true ∧ (∃ e, .error e ∈ vs) ∧
    ∃ answer, f.implementation = .eager answer ∧ ∀ e, .error e ∈ vs → settled (answer vs) ≠ .error e

/-- A text before the error that is no number, an error as the condition, and arrays of two shapes. -/
theorem errors_not_propagated :
    LosesErrors "ROUND" [.text "x", .error .notAvailable] ∧
    LosesErrors "COUNTIF" [.array [[.number 1, .number 2]], .error .notAvailable] ∧
    LosesErrors "SUMPRODUCT" [.array [[.number 1, .number 2]], .error .notAvailable] := by
  refine ⟨⟨_, List.mem_of_getElem? (i := 45) rfl, rfl, rfl, ⟨.notAvailable, by simp⟩, _, rfl, ?_⟩,
    ⟨_, List.mem_of_getElem? (i := 11) rfl, rfl, rfl, ⟨.notAvailable, by simp⟩, _, rfl, ?_⟩,
    ⟨_, List.mem_of_getElem? (i := 52) rfl, rfl, rfl, ⟨.notAvailable, by simp⟩, _, rfl, ?_⟩⟩
  all_goals
    intro e he
    obtain rfl : e = .notAvailable := by simpa using he
    decide +kernel

end PaintQuote.Formula
