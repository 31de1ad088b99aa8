import PaintQuote.Proofs.Evaluation.Steps
import PaintQuote.Proofs.Formula.Acceptance
import PaintQuote.Proofs.Formula.RoundTrip
import PaintQuote.Proofs.Values.Indexing

/-!
# Shapes of values

Every array that comes up while a formula is evaluated has rows of one length, at least one row and one
column, since it is that of a range, of a name or of an array constant.  The grammar admits only array
constants that are rectangles (`isRectangle_of_derives`).

So the functions that a formula calls read nothing that is not there: every index is in range
(`indices_in_range`).
-/

namespace PaintQuote.Formula

open Sheet Functions Logged

/-! ## Parts -/

namespace Expr

/-- An expression stands within another, or is it. -/
inductive IsPartOf : Expr → Expr → Prop where
  | self (e : Expr) : IsPartOf e e
  | operand {part operand e : Expr} : operand ∈ e.operands → IsPartOf part operand → IsPartOf part e

namespace IsPartOf

variable {part inner e : Expr}

theorem trans (hinner : inner.IsPartOf part) (hpart : part.IsPartOf e) : inner.IsPartOf e := by
  induction hpart with
  | self => exact hinner
  | operand hmem _ ih => exact .operand hmem ih

theorem of_handsOn (h : e.HandsOn part) : part.IsPartOf e := by
  induction h with
  | self => exact .self _
  | argument _ _ hmem _ ih => exact .operand hmem ih

end IsPartOf

/-- The array constants in an expression are rectangles. -/
def HasRectangles (e : Expr) : Prop := ∀ rows, (Expr.array rows).IsPartOf e → isRectangle rows = true

theorem HasRectangles.of_operands {e : Expr} (hne : ∀ rows, e ≠ .array rows)
    (h : ∀ operand ∈ e.operands, operand.HasRectangles) : e.HasRectangles := by
  rintro rows (_ | ⟨hmem, hpart⟩)
  · exact absurd rfl (hne rows)
  · exact h _ hmem rows hpart

theorem HasRectangles.part {part e : Expr} (h : e.HasRectangles) (hpart : part.IsPartOf e) :
    part.HasRectangles := fun rows hrows => h rows (hrows.trans hpart)

/-- The grammar admits only array constants that are rectangles. -/
theorem hasRectangles_of_derives {corner : List Token → Prop} {k : Nat} {tokens : List Token} {e : Expr}
    (h : Derives corner k tokens e) : e.HasRectangles := by
  induction h with
  | next _ ih => exact ih
  | binary _ _ ihleft ihright =>
      exact .of_operands nofun (List.forall_mem_cons.2 ⟨ihleft, List.forall_mem_singleton.2 ihright⟩)
  | minus _ ih => exact .of_operands nofun (List.forall_mem_singleton.2 ih)
  | plus _ ih => exact ih
  | percent _ ih => exact .of_operands nofun (List.forall_mem_singleton.2 ih)
  | parentheses _ ih => exact ih
  | call _ ih =>
      refine .of_operands nofun fun operand hoperand => ?_
      obtain ⟨a, ha, rfl⟩ := List.mem_map.1 hoperand
      exact ih a ha
  | array hrows =>
      rintro rows (_ | ⟨hmem, -⟩)
      · exact hrows
      · cases hmem
  | range | literal | cell | sheetCell | name => exact .of_operands nofun nofun

theorem hasRectangles_of_ofText {text : String} {e : Expr} (h : ofText text = .ok e) : e.HasRectangles :=
  hasRectangles_of_derives ((ofTokens_eq_ok_iff _ e).1 h)

end Expr

/-! ## Arrays -/

theorem isGrid_of_isRectangle {rows : List (List ArrayItem)} (h : isRectangle rows = true) : IsGrid rows := by
  cases rows with
  | nil => cases h
  | cons row rows =>
      simp only [isRectangle, Bool.and_eq_true, Bool.not_eq_true', List.isEmpty_eq_false_iff, List.all_eq_true,
        beq_iff_eq] at h
      exact ⟨Nat.succ_pos _, List.length_pos_iff.2 h.1, List.forall_mem_cons.2 ⟨rfl, h.2⟩⟩

theorem isGrid_rows (area : Range) : IsGrid area.rows := by
  refine .of_length area.columnCount ?_ (Nat.succ_pos _) ?_
  · simp [Range.rows, Range.rowCount]
  · intro row hrow
    obtain ⟨i, -, rfl⟩ := List.mem_map.1 hrow
    simp [Range.rowCells]

section

variable (c : Context)

theorem rangeValue_isRectangular (sheet? : Option SheetName) (area : Range) :
    (c.rangeValue sheet? area).value.IsRectangular := by
  cases hsheet : c.resolve sheet? with
  | ok sheet =>
      rw [(Context.rangeValue_notes hsheet area).value_eq]
      exact (isGrid_rows area).map _
  | error e =>
      rw [Context.rangeValue, hsheet]
      exact Value.isRectangular_scalar _

theorem cellValue_isRectangular (sheet? : Option SheetName) (address : Address) :
    (c.cellValue sheet? address).value.IsRectangular := by
  cases hsheet : c.resolve sheet? with
  | ok sheet =>
      rw [(Context.cellValue_notes hsheet address).value_eq]
      exact Value.isRectangular_scalar _
  | error e =>
      rw [Context.cellValue, hsheet]
      exact Value.isRectangular_scalar _

theorem nameValue_isRectangular (name : String) : (c.nameValue name).value.IsRectangular := by
  unfold Context.nameValue
  split
  next => exact Value.isRectangular_scalar _
  next =>
    split
    next => exact cellValue_isRectangular c _ _
    next => exact rangeValue_isRectangular c _ _
    next v _ => exact Value.isRectangular_scalar v

/-- The value of an expression with rectangles for array constants is a rectangle. -/
theorem valueIn_isRectangular {e : Expr} (he : e.HasRectangles) : (e.valueIn c).IsRectangular := by
  cases hvalue : e.valueIn c with
  | scalar v => exact Value.isRectangular_scalar v
  | array rows =>
      obtain ⟨t, hhands, hkind, log, hrows⟩ := exists_handsOn e hvalue
      have ht : (t.own c).value = .array rows := by
        rw [← valueIn_eq, ← hrows, evaluate_appends c t log]
        rfl
      rw [← ht]
      rcases hkind with ⟨r, rfl⟩ | ⟨s, rfl⟩ | ⟨items, rfl⟩
      · exact rangeValue_isRectangular c _ _
      · exact nameValue_isRectangular c s
      · exact (isGrid_of_isRectangle (he items (.of_handsOn hhands))).map _

end

/-! ## Indices -/

theorem Value.directCell?_eq (v : Value) : v.directCell? = some v.toCell := by
  rcases v with v | (_ | ⟨_ | ⟨v, _ | ⟨w, row⟩⟩, _ | ⟨row', rows⟩⟩) <;> rfl

/-- The answer of a call, where all arguments and cells of tables are read by index.  Before, the number of
arguments is checked. -/
def directAnswer (name : String) (arguments : List (Logged Value)) : Logged (Option Answer) :=
  match function? name with
  | none => pure (some (.error (.unknownFunction name)))
  | some f =>
      match f.arityError? arguments.length with
      | some e => pure (some (.error e))
      | none =>
          match direct? f.name with
          | none => pure none
          | some (.lazy answer) => answer arguments
          | some (.eager answer) => do
              let vs ← Logged.all arguments
              pure (answer vs)

theorem least_le_of_arityError? {f : Function} {count : Nat} (h : f.arityError? count = none) :
    f.least ≤ count := by
  unfold Function.arityError? at h
  split at h
  next htakes =>
    rw [Function.takes, Bool.and_eq_true, decide_eq_true_iff] at htakes
    exact htakes.1
  next => cases h

theorem directAnswer_eq (name : String) {runs : List (Logged Value)} (h : ∀ run ∈ runs, Appends run)
    (hvalues : ∀ v ∈ runs.map value, v.IsRectangular) :
    directAnswer name runs = some <$> callAnswer name runs := by
  unfold directAnswer callAnswer
  cases hfunction : function? name with
  | none => rfl
  | some f =>
      simp only []
      cases harity : f.arityError? runs.length with
      | some e => rfl
      | none =>
          obtain ⟨d, hd, hmatches⟩ := library_direct f (mem_library_of_function? hfunction)
          simp only [hd]
          have hcount : f.least ≤ runs.length := least_le_of_arityError? harity
          generalize f.implementation = implementation at hmatches
          cases hmatches with
          | lazy hanswer => exact hanswer runs hcount
          | eager hanswer =>
              rw [map_bind]
              refine (Notes.all h).appends.bind_congr ?_
              rw [(Notes.all h).value_eq, map_pure, hanswer _ (by rwa [List.length_map]) hvalues]

/-- Every index is in range.  Whatever part of a formula is evaluated, its value is a rectangle, and a call
reads its arguments and the cells of tables where they are. -/
theorem indices_in_range {text : String} {e : Expr} (h : Expr.ofText text = .ok e) (c : Context) {part : Expr}
    (hpart : part.IsPartOf e) :
    (∀ log, ((evaluate c part).run log).1.IsRectangular) ∧
      (part.valueIn c).directCell? = some (part.valueIn c).toCell ∧
      ∀ name arguments, part = .call name arguments →
        directAnswer name (evaluateEach c arguments) = some <$> callAnswer name (evaluateEach c arguments) := by
  have hrectangles := (Expr.hasRectangles_of_ofText h).part hpart
  refine ⟨fun log => ?_, Value.directCell?_eq _, ?_⟩
  · rw [evaluate_appends c part log]
    exact valueIn_isRectangular c hrectangles
  · rintro name arguments rfl
    refine directAnswer_eq name (appends_evaluateEach c arguments) ?_
    rw [map_value_evaluateEach]
    intro v hv
    obtain ⟨a, ha, rfl⟩ := List.mem_map.1 hv
    exact valueIn_isRectangular c (hrectangles.part (.operand ha (.self a)))

/-- A lookup in an array constant, read from its text. -/
theorem indices_in_range_lookup :
    let e : Expr := .call "VLOOKUP" [.literal (.number 2),
      .array [[.literal (.number 1), .literal (.text "a")], [.literal (.number 2), .literal (.text "b")]],
      .literal (.number 2)]
    Expr.ofText e.toText = .ok e ∧ e.IsPartOf e ∧
      (∀ log, ((evaluate .bare e).run log).1.IsRectangular) ∧
      (e.valueIn .bare).directCell? = some (e.valueIn .bare).toCell ∧
      ∀ name arguments, e = .call name arguments →
        directAnswer name (evaluateEach .bare arguments) = some <$> callAnswer name (evaluateEach .bare arguments) :=
  have h := Expr.ofText_toText (by decide +kernel)
  ⟨h, .self _, indices_in_range h .bare (.self _)⟩

end PaintQuote.Formula
