import PaintQuote.Proofs.Estimate.NormalForms
import PaintQuote.Proofs.Values.Gives

/-!
# Amounts

An estimate accounts for an output with a number and no failure, or with one failure and no number.  The
*amount* of the output is the number or the error (`amountOf?`).  Without a cache every output is accounted
for by what was read off its cell (`Reading.amountOf?_reading`, `Readout.filter_failures`), and estimates that
are like have amounts that are equal but for the form of numbers (`amountOf?_rel`).
-/

namespace PaintQuote

open Sheet Formula Engine Estimate

namespace Estimate

/-! ## Amounts -/

/-- A number, or the error that there is instead. -/
abbrev Amount := Except ErrorValue Decimal

namespace Amount

/-- A result of numbers, which fails with the error of numbers. -/
def checked : Option Decimal → Amount
  | some n => .ok n
  | none => .error .number

/-- The value of a cell with an amount. -/
def value : Amount → CellValue
  | .ok n => .number n
  | .error e => .error e

/-- The error of an amount that is no number. -/
def error? : Amount → Option ErrorValue
  | .ok _ => none
  | .error e => some e

theorem value_checked (n? : Option Decimal) : (checked n?).value = .checked n? := by
  cases n? <;> rfl

/-- The sum of amounts: the sum of the numbers from the first one on, or the first error. -/
def sum (amounts : List Amount) : Amount := do
  let ns ← amounts.mapM id
  checked (sumOf ns)

/-- The numbers in cells with amounts are the numbers of the amounts, or the first error. -/
theorem cellNumbers_values (amounts : List Amount) :
    cellNumbers (amounts.map value) =
      (amounts.mapM id : Except ErrorValue (List Decimal)).mapError FormulaError.errorValue := by
  induction amounts with
  | nil => rfl
  | cons amount amounts ih =>
      rw [List.map_cons, List.mapM_cons]
      cases amount with
      | error e => rfl
      | ok n =>
          simp only [value, cellNumbers, ih, id, bind, Except.bind]
          cases (amounts.mapM id : Except ErrorValue (List Decimal)) <;> rfl

/-! ### Equal amounts -/

/-- Two amounts are equal but for the form of a number. -/
abbrev Same : Amount → Amount → Prop := AgreeBy SameNumber

namespace Same

variable {a b c : Amount}

theorem symm (h : Same a b) : Same b a := by
  cases h with
  | ok h => exact .ok (Decimal.same_symm h)
  | error e => exact .error e

theorem trans (h : Same a b) (h' : Same b c) : Same a c := by
  cases h with
  | error e => exact h'
  | ok h =>
      cases h' with
      | ok h' => exact .ok (Decimal.same_trans h h')

theorem checked {m? n? : Option Decimal} (h : Decimal.SameResult m? n?) :
    Same (Amount.checked m?) (Amount.checked n?) := by
  cases h with
  | none => exact .error _
  | some h => exact .ok h

end Same

theorem numbers_agree {amounts amounts' : List Amount} (h : List.Forall₂ Same amounts amounts') :
    AgreeBy (List.Forall₂ SameNumber) (amounts.mapM id : Except ErrorValue (List Decimal))
      (amounts'.mapM id) := by
  induction h with
  | nil => exact .ok .nil
  | cons h _ ih =>
      rw [List.mapM_cons, List.mapM_cons]
      exact h.bind fun _ _ hn => ih.bind fun _ _ hns => .ok (.cons hn hns)

theorem sum_same {amounts amounts' : List Amount} (h : List.Forall₂ Same amounts amounts') :
    Same (sum amounts) (sum amounts') :=
  (numbers_agree h).bind fun _ _ hns => Same.checked (sumOf_same hns)

end Amount

/-! ## Outputs -/

/-- The amount of an output with the given number and failures: a number without a failure, or a failure
without a number. -/
def amountOf? : Option Decimal → List CellFailure → Option Amount
  | some n, [] => some (.ok n)
  | none, [f] => some (.error f.error)
  | _, _ => none

theorem amountOf?_eq_ok {n? : Option Decimal} {fs : List CellFailure} {n : Decimal} :
    amountOf? n? fs = some (.ok n) ↔ n? = some n ∧ fs = [] := by
  match n?, fs with
  | none, [] => simp [amountOf?]
  | none, [f] => simp [amountOf?]
  | none, _ :: _ :: _ => simp [amountOf?]
  | some m, [] => simp [amountOf?]
  | some m, _ :: _ => simp [amountOf?]

theorem amountOf?_rel {m? n? : Option Decimal} (h : Decimal.SameResult m? n?) (fs : List CellFailure) :
    Option.Rel Amount.Same (amountOf? m? fs) (amountOf? n? fs) := by
  cases h with
  | none =>
      match fs with
      | [] => exact .none
      | [f] => exact .some (.error _)
      | _ :: _ :: _ => exact .none
  | some h =>
      cases fs with
      | nil => exact .some (.ok h)
      | cons f fs => exact .none

namespace Reading

/-- The amount that was read. -/
def amount (r : Reading) : Amount := r.mapError (·.error)

theorem value_amount (r : Reading) : r.amount.value = r.value := by cases r <;> rfl

theorem amountOf?_reading (r : Reading) : amountOf? r.number? r.failure?.toList = some r.amount := by
  cases r <;> rfl

theorem failure?_isSome_iff {r : Reading} : r.failure?.isSome ↔ r.number? = none := by
  cases r <;> simp [failure?, number?, Except.toOption]

theorem number?_eq_amount (r : Reading) : r.number? = r.amount.toOption := by cases r <;> rfl

theorem number?_of_amount {r : Reading} {n? : Option Decimal} (h : r.amount = .checked n?) :
    r.number? = n? := by
  rw [number?_eq_amount, h]
  cases n? <;> rfl

/-- What is read off a cell with an amount. -/
theorem amount_ofOutcome {o : Outcome} {a : Amount} (h : o.value = a.value) (room? : Option String)
    (output : String) (cell : CellKey) : (ofOutcome o room? output cell).amount = a := by
  rw [ofOutcome, h]
  cases a <;> rfl

/-- The failure that is read off a cell with an amount. -/
theorem failure?_ofOutcome {o : Outcome} {a : Amount} (h : o.value = a.value) (room? : Option String)
    (output : String) (cell : CellKey) :
    ((ofOutcome o room? output cell).failure?.map fun f => (f.room?, f.cell, f.output, f.error)) =
      a.error?.map fun error => (room?, cell, output, error) := by
  rw [ofOutcome, h]
  cases a <;> rfl

/-- A failure names the output that was read, and its room. -/
theorem names_of_failure? {o : Outcome} {room? : Option String} {output : String} {cell : CellKey}
    {f : CellFailure} (h : (ofOutcome o room? output cell).failure? = some f) :
    f.room? = room? ∧ f.output = output := by
  unfold ofOutcome at h
  cases hv : o.value <;> rw [hv] at h <;> cases h <;> exact ⟨rfl, rfl⟩

end Reading

theorem RoomOutput.label_injective {o o' : RoomOutput} (h : o.label = o'.label) : o = o' := by
  have hall : ∀ o ∈ RoomOutput.all, ∀ o' ∈ RoomOutput.all, o.label = o'.label → o = o' := by decide
  exact hall o o.mem_all o' o'.mem_all h

theorem ProjectOutput.label_injective {o o' : ProjectOutput} (h : o.label = o'.label) : o = o' := by
  have hall : ∀ o ∈ ProjectOutput.all, ∀ o' ∈ ProjectOutput.all, o.label = o'.label → o = o' := by decide
  exact hall o o.mem_all o' o'.mem_all h

/-- What one member of a list gives is found by a test that only this passes. -/
theorem filter_filterMap_eq_toList {α β : Type} {xs : List α} (hxs : xs.Nodup) {x : α} (hx : x ∈ xs)
    {g : α → Option β} {p : β → Bool} (hp : ∀ x' b, g x' = some b → (p b = true ↔ x' = x)) :
    (xs.filterMap g).filter p = (g x).toList := by
  have hother : ∀ ys : List α, x ∉ ys → (ys.filterMap g).filter p = [] := by
    intro ys hys
    refine List.filter_eq_nil_iff.2 fun b hb hpb => ?_
    obtain ⟨y, hy, hgy⟩ := List.mem_filterMap.1 hb
    exact hys ((hp y b hgy).1 hpb ▸ hy)
  induction xs with
  | nil => exact absurd hx List.not_mem_nil
  | cons y ys ih =>
      obtain ⟨hy, hys⟩ := List.nodup_cons.1 hxs
      by_cases hyx : y = x
      · subst hyx
        cases hg : g y with
        | none => rw [List.filterMap_cons_none hg, hother ys hy, Option.toList_none]
        | some b =>
            rw [List.filterMap_cons_some hg, List.filter_cons_of_pos ((hp y b hg).2 rfl), hother ys hy,
              Option.toList_some]
      · have hmem : x ∈ ys := (List.mem_cons.1 hx).resolve_left (Ne.symm hyx)
        cases hg : g y with
        | none => rw [List.filterMap_cons_none hg, ih hys hmem]
        | some b =>
            rw [List.filterMap_cons_some hg, List.filter_cons_of_neg (fun h => hyx ((hp y b hg).1 h)),
              ih hys hmem]

/-- The outputs that are read off a sheet, in their order, with their labels and cells. -/
structure Readout (Output : Type) where
  /-- All outputs. -/
  all : List Output
  /-- How a failure speaks of an output. -/
  label : Output → String
  /-- The cell of an output. -/
  key : Output → CellKey
  nodup : all.Nodup
  mem_all : ∀ o, o ∈ all
  label_injective : ∀ o o', label o = label o' → o = o'

/-- The outputs of a room. -/
def RoomOutput.readout : Readout RoomOutput where
  all := all
  label := label
  key := key
  nodup := by decide
  mem_all := mem_all
  label_injective _ _ := label_injective

/-- The outputs of a project. -/
def ProjectOutput.readout : Readout ProjectOutput where
  all := all
  label := label
  key := key
  nodup := by decide
  mem_all := mem_all
  label_injective _ _ := label_injective

namespace Readout

variable {Output : Type} (readout : Readout Output) (room? : Option String) (outcome : CellKey → Outcome)

/-- What is read off the cell of an output. -/
def read (o : Output) : Reading :=
  .ofOutcome (outcome (readout.key o)) room? (readout.label o) (readout.key o)

/-- The failures that are read off the cells, in the order of the outputs. -/
def failures : List CellFailure := readout.all.filterMap fun o => (readout.read room? outcome o).failure?

/-- The failures of an output are what is read off its cell. -/
theorem filter_failures (o : Output) :
    (readout.failures room? outcome).filter (·.output == readout.label o) =
      (readout.read room? outcome o).failure?.toList := by
  refine filter_filterMap_eq_toList readout.nodup (readout.mem_all o) fun o' f hf => ?_
  rw [beq_iff_eq, (Reading.names_of_failure? hf).2]
  exact ⟨readout.label_injective o' o, congrArg readout.label⟩

variable {room? outcome}

theorem room?_of_mem_failures {f : CellFailure} (h : f ∈ readout.failures room? outcome) :
    f.room? = room? := by
  obtain ⟨o, -, hf⟩ := List.mem_filterMap.1 h
  exact (Reading.names_of_failure? hf).1

end Readout

section

variable (rates : Rates) (base : Engine)

/-- The failures of an output of a room are what is read off its cell. -/
theorem filter_failures_freshRoom (r : Room) (o : RoomOutput) :
    (freshRoom rates base r).failures.filter (·.output == o.label) =
      (freshReadings base r o).failure?.toList :=
  RoomOutput.readout.filter_failures (some r.name) (Page.evaluated base (.room r)).shown o

theorem mem_failures_freshRoom {r : Room} {o : RoomOutput} {f : CellFailure} :
    (f ∈ (freshRoom rates base r).failures ∧ f.output = o.label) ↔
      (freshReadings base r o).failure? = some f := by
  have hmem : f ∈ (freshRoom rates base r).failures.filter (·.output == o.label) ↔
      f ∈ (freshReadings base r o).failure?.toList := by
    rw [filter_failures_freshRoom]
  rw [List.mem_filter, beq_iff_eq, Option.mem_toList] at hmem
  exact hmem

/-- The failures of an output of a project, which belong to no room. -/
def ProjectEstimate.failuresOf (e : ProjectEstimate) (o : ProjectOutput) : List CellFailure :=
  e.failures.filter fun f => f.room?.isNone && f.output == o.label

/-- The failures of an output of a project are what is read off its cell. -/
theorem failuresOf_freshProject (rooms : List Room) (o : ProjectOutput) :
    (freshProject rates base rooms).failuresOf o =
      (projectReadings ((freshPage rates base rooms).evaluated base) o).failure?.toList := by
  have hrooms : ((rooms.map (freshRoom rates base)).flatMap (·.failures)).filter
      (fun f => f.room?.isNone && f.output == o.label) = [] := by
    refine List.filter_eq_nil_iff.2 fun f hf => ?_
    obtain ⟨_, hroom, hf⟩ := List.mem_flatMap.1 hf
    obtain ⟨r, -, rfl⟩ := List.mem_map.1 hroom
    have hname : f.room? = some r.name := RoomOutput.readout.room?_of_mem_failures hf
    rw [hname]
    exact Bool.false_ne_true
  have hown : (ProjectOutput.readout.failures none
      ((freshPage rates base rooms).evaluated base).shown).filter
      (fun f => f.room?.isNone && f.output == o.label) =
      (projectReadings ((freshPage rates base rooms).evaluated base) o).failure?.toList := by
    rw [← List.filter_filter, List.filter_eq_self.2]
    · exact ProjectOutput.readout.filter_failures none _ o
    · intro f hf
      rw [ProjectOutput.readout.room?_of_mem_failures (List.mem_filter.1 hf).1]
      rfl
  rw [ProjectEstimate.failuresOf, freshProject, ProjectEstimate.ofReadings, List.filter_append, hrooms,
    List.nil_append]
  exact hown

end

end Estimate

end PaintQuote
