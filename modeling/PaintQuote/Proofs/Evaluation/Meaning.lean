import Mathlib.Data.Finset.Card
import Mathlib.Logic.Relation
import PaintQuote.Proofs.Evaluation.Congruence

/-!
# What the cells of a workbook mean

The formulas of a workbook say which cells each cell reads, whether or not anything is evaluated
(`Workbook.Reads`).  The outcome that a cell is due is its literal, the fault of its formula, the error
of the cycle that it lies on, or what its formula gives over the values of the cells that it reads
(`Due`).  Only the last takes values of other cells in, and a cell that does not lie on a cycle has no
way back to itself, so the outcomes that all cells are due are determined (`Due.unique_on`).
-/

namespace PaintQuote.Sheet.Workbook

open Engine Formula

/-! ## What a cell reads -/

/-- The formula of a cell reads another cell. -/
def Reads (w : Workbook) (a b : CellKey) : Prop := b ∈ w.references a

/-- A cell is another, or reads it directly or through others. -/
abbrev Reaches (w : Workbook) : CellKey → CellKey → Prop := Relation.ReflTransGen w.Reads

/-- A cell reads itself, directly or through others. -/
def Circular (w : Workbook) (key : CellKey) : Prop := Relation.TransGen w.Reads key key

/-- The cells that a cell reaches and that reach it, in order. -/
structure IsComponent (w : Workbook) (key : CellKey) (members : List CellKey) : Prop where
  inOrder : members.Pairwise fun a b => compare a b = .lt
  mem_iff : ∀ c, c ∈ members ↔ w.Reaches key c ∧ w.Reaches c key

variable {w : Workbook} {key : CellKey}

/-- Only cells with formulas read others. -/
theorem formula?_isSome_of_reads {b : CellKey} (h : w.Reads key b) : (w.formula? key).isSome := by
  cases hf : w.formula? key with
  | none =>
      rw [Reads, references_none hf] at h
      cases h
  | some text => rfl

/-! ## The way down ends -/

open Classical in
/-- The number of cells with contents that a cell reaches. -/
noncomputable def depth (w : Workbook) (key : CellKey) : Nat :=
  (w.cells.keys.toFinset.filter fun c => w.Reaches key c).card

/-- A cell that lies on no cycle is deeper than the cells that it reads. -/
theorem depth_lt {b : CellKey} (hread : w.Reads key b) (hnot : ¬ w.Circular key) :
    w.depth b < w.depth key := by
  classical
  refine Finset.card_lt_card (Finset.ssubset_iff_of_subset ?_ |>.2 ⟨key, ?_, ?_⟩)
  · intro c hc
    rw [Finset.mem_filter] at hc ⊢
    exact ⟨hc.1, hc.2.head hread⟩
  · rw [Finset.mem_filter, List.mem_toFinset]
    exact ⟨mem_keys_of_formula? (formula?_isSome_of_reads hread), .refl⟩
  · rw [Finset.mem_filter]
    rintro ⟨_, hback⟩
    exact hnot (Relation.TransGen.head' hread hback)

end PaintQuote.Sheet.Workbook

namespace PaintQuote.Engine

open Sheet Formula

/-! ## What a cell is due -/

/-- The outcome that a cell is due, given the sheets that exist and the values of other cells. -/
inductive Due (w : Workbook) (hasSheet : SheetName → Bool) (value : CellKey → CellValue)
    (key : CellKey) : Outcome → Prop where
  /-- A cell without a formula shows its literal. -/
  | literal (hf : w.formula? key = none) : Due w hasSheet value key (.ok (w.literal key))
  /-- A formula that cannot be read fails with its fault. -/
  | malformed {text : String} {error : ParseError} (hf : w.formula? key = some text)
      (hx : Expr.ofText text = .error error) : Due w hasSheet value key (.failed error.report)
  /-- A cell on a cycle fails with an error that lists the cells of its component. -/
  | circular {members : List CellKey} (hc : w.Circular key) (hm : w.IsComponent key members) :
      Due w hasSheet value key (.failed (cycleError members))
  /-- Any other formula is evaluated over the values of other cells. -/
  | evaluated {text : String} {expr : Expr} (hf : w.formula? key = some text)
      (hx : Expr.ofText text = .ok expr) (hn : ¬ w.Circular key) :
      Due w hasSheet value key (outcomeOf ⟨⟨value, hasSheet, w.name?⟩, key.sheet⟩ expr)

variable {w : Workbook} {key : CellKey}

/-- What a formula gives depends on the values of the cells that it reads. -/
theorem outcomeOf_eq {text : String} {expr : Expr} {hasSheet : SheetName → Bool}
    {value value' : CellKey → CellValue} (hf : w.formula? key = some text)
    (hx : Expr.ofText text = .ok expr) (hvalue : ∀ p, w.Reads key p → value p = value' p) :
    outcomeOf ⟨⟨value, hasSheet, w.name?⟩, key.sheet⟩ expr =
      outcomeOf ⟨⟨value', hasSheet, w.name?⟩, key.sheet⟩ expr := by
  have hname : ∀ s, w.name? s = w.names.find? s := fun _ => rfl
  refine outcomeOf_congr hname expr ?_
  refine { sheet := rfl, value := ?_, hasSheet := fun _ _ => rfl, target := fun _ _ => rfl }
  intro p hp
  refine hvalue p ?_
  rw [Workbook.Reads, Workbook.references_ok hf hx]
  exact Std.TreeSet.mem_toList.2 hp

namespace Due

variable {hasSheet : SheetName → Bool} {value value' : CellKey → CellValue} {o o' : Outcome}

/-- What a cell is due depends on the values of the cells that it reads. -/
theorem congr (h : Due w hasSheet value key o) (hvalue : ∀ p, w.Reads key p → value p = value' p) :
    Due w hasSheet value' key o := by
  cases h with
  | literal hf => exact .literal hf
  | malformed hf hx => exact .malformed hf hx
  | circular hc hm => exact .circular hc hm
  | evaluated hf hx hn =>
      rw [outcomeOf_eq hf hx hvalue]
      exact .evaluated hf hx hn

theorem formula?_isSome_of_circular (h : w.Circular key) : (w.formula? key).isSome := by
  obtain ⟨b, hread, _⟩ := Relation.TransGen.head'_iff.1 h
  exact Workbook.formula?_isSome_of_reads hread

theorem references_ne_nil_of_circular (h : w.Circular key) : w.references key ≠ [] := by
  obtain ⟨b, hread, _⟩ := Relation.TransGen.head'_iff.1 h
  exact List.ne_nil_of_mem hread

theorem not_circular_of_literal (hf : w.formula? key = none) : ¬ w.Circular key := by
  intro hc
  have hsome := formula?_isSome_of_circular hc
  rw [hf] at hsome
  cases hsome

theorem eq_of_literal (h : Due w hasSheet value key o) (hf : w.formula? key = none) :
    o = .ok (w.literal key) := by
  cases h with
  | literal _ => rfl
  | malformed hf' _ => rw [hf] at hf'; cases hf'
  | circular hc _ => exact absurd hc (not_circular_of_literal hf)
  | evaluated hf' _ _ => rw [hf] at hf'; cases hf'

theorem eq_of_malformed (h : Due w hasSheet value key o) {text : String} {error : ParseError}
    (hf : w.formula? key = some text) (hx : Expr.ofText text = .error error) :
    o = .failed error.report := by
  cases h with
  | literal hf' => rw [hf] at hf'; cases hf'
  | malformed hf' hx' =>
      rw [hf] at hf'
      cases hf'
      rw [hx] at hx'
      cases hx'
      rfl
  | circular hc _ =>
      exact absurd (Workbook.references_error hf hx) (references_ne_nil_of_circular hc)
  | evaluated hf' hx' _ =>
      rw [hf] at hf'
      cases hf'
      rw [hx] at hx'
      cases hx'

theorem eq_of_circular (h : Due w hasSheet value key o) {members : List CellKey}
    (hc : w.Circular key) (hm : w.IsComponent key members) : o = .failed (cycleError members) := by
  cases h with
  | literal hf => exact absurd hc (not_circular_of_literal hf)
  | malformed hf hx =>
      exact absurd (Workbook.references_error hf hx) (references_ne_nil_of_circular hc)
  | circular _ hm' =>
      rw [Graph.eq_of_mem_iff hm.inOrder hm'.inOrder fun c =>
        (hm.mem_iff c).trans (hm'.mem_iff c).symm]
  | evaluated _ _ hn => exact absurd hc hn

theorem eq_of_evaluated (h : Due w hasSheet value key o) {text : String} {expr : Expr}
    (hf : w.formula? key = some text) (hx : Expr.ofText text = .ok expr) (hn : ¬ w.Circular key) :
    o = outcomeOf ⟨⟨value, hasSheet, w.name?⟩, key.sheet⟩ expr := by
  cases h with
  | literal hf' => rw [hf] at hf'; cases hf'
  | malformed hf' hx' =>
      rw [hf] at hf'
      cases hf'
      rw [hx] at hx'
      cases hx'
  | circular hc _ => exact absurd hc hn
  | evaluated hf' hx' _ =>
      rw [hf] at hf'
      cases hf'
      rw [hx] at hx'
      cases hx'
      rfl

/-- A cell is due one outcome. -/
theorem unique (h : Due w hasSheet value key o) (h' : Due w hasSheet value key o') : o = o' := by
  cases h with
  | literal hf => exact (h'.eq_of_literal hf).symm
  | malformed hf hx => exact (h'.eq_of_malformed hf hx).symm
  | circular hc hm => exact (h'.eq_of_circular hc hm).symm
  | evaluated hf hx hn => exact (h'.eq_of_evaluated hf hx hn).symm

/-- The outcome that a cell on a cycle is due takes no values in. -/
theorem of_circular (h : Due w hasSheet value key o) (hc : w.Circular key) :
    Due w hasSheet value' key o := by
  cases h with
  | literal hf => exact .literal hf
  | malformed hf hx => exact .malformed hf hx
  | circular hc hm => exact .circular hc hm
  | evaluated _ _ hn => exact absurd hc hn

/-- On cells that read only each other, outcomes that all are due are the same.  The induction is on
the depth of the cell, which falls from a cell to the cells that it reads unless it lies on a cycle;
there the values of other cells do not matter. -/
theorem unique_on {P : CellKey → Prop} (hP : ∀ k, P k → ∀ p, w.Reads k p → P p)
    {hasSheet : CellKey → SheetName → Bool} {out out' : CellKey → Outcome}
    (h : ∀ k, P k → Due w (hasSheet k) (fun p => (out p).value) k (out k))
    (h' : ∀ k, P k → Due w (hasSheet k) (fun p => (out' p).value) k (out' k)) :
    ∀ k, P k → out k = out' k := by
  intro k hk
  induction hd : w.depth k using Nat.strong_induction_on generalizing k with
  | _ depth ih =>
      by_cases hc : w.Circular k
      · exact (h k hk).unique ((h' k hk).of_circular hc)
      · refine (h k hk).unique ((h' k hk).congr ?_)
        intro p hread
        rw [ih (w.depth p) (hd ▸ Workbook.depth_lt hread hc) p (hP k hk p hread) rfl]

end Due

end PaintQuote.Engine
