import PaintQuote.Engine.Basic
import PaintQuote.Proofs.Evaluation.Reads

/-!
# What the value of a formula depends on

The references of a formula are found without evaluating it, and they hold all that an evaluation can
read: contexts that agree on them give the formula one value and one log (`evaluate_congr`), and so
one outcome (`outcomeOf_congr`).
-/

namespace PaintQuote.Engine

open Sheet Formula

/-! ## What is asked is collected -/

namespace References

section

variable (names : NameTable) (sheet : SheetName)

theorem asciiUpper_mem_addName (r : References) (s : String) :
    Text.asciiUpper s ∈ (r.addName names s).names := Std.TreeSet.mem_insert_self

/-- A range has a cell, so its sheet is the sheet of a cell. -/
theorem exists_mem_of_target {target : Target} {s : SheetName} (h : s ∈ target.sheet?) :
    ∃ p ∈ target.cells, p.sheet = s := by
  cases target with
  | cell key => exact ⟨key, List.mem_cons_self, Option.some.inj h⟩
  | range sheet area =>
      exact ⟨⟨sheet, area.start⟩, List.mem_map_of_mem area.start_mem_cells, Option.some.inj h⟩
  | constant v => cases h

mutual

/-- The names of an expression are collected, in upper case. -/
theorem asciiUpper_mem_collect :
    ∀ (r : References) (e : Expr), ∀ s ∈ e.names,
      Text.asciiUpper s ∈ (collect names sheet r e).names
  | r, .name s', s, hs => by
      obtain rfl := List.mem_singleton.1 hs
      exact asciiUpper_mem_addName names r s
  | r, .binary _ left right, s, hs => by
      rcases List.mem_append.1 hs with hs | hs
      · exact (within_collect names sheet _ right).names _ (asciiUpper_mem_collect r left s hs)
      · exact asciiUpper_mem_collect _ right s hs
  | r, .negate operand, s, hs => asciiUpper_mem_collect r operand s hs
  | r, .percent operand, s, hs => asciiUpper_mem_collect r operand s hs
  | r, .call _ arguments, s, hs => asciiUpper_mem_collectAll r arguments s hs

theorem asciiUpper_mem_collectAll :
    ∀ (r : References) (es : List Expr), ∀ s ∈ Expr.namesAll es,
      Text.asciiUpper s ∈ (collectAll names sheet r es).names
  | r, e :: es, s, hs => by
      rcases List.mem_append.1 hs with hs | hs
      · exact (within_collectAll names sheet _ es).names _ (asciiUpper_mem_collect r e s hs)
      · exact asciiUpper_mem_collectAll _ es s hs

end

mutual

/-- A sheet that qualifies a part of an expression is the sheet of a cell that is collected. -/
theorem exists_mem_collect :
    ∀ (r : References) (e : Expr), ∀ s ∈ e.qualifiers names,
      ∃ p ∈ (collect names sheet r e).cells, p.sheet = s
  | r, .cell reference, s, hs => by
      have hsheet : reference.sheet? = some s := Option.mem_toList.1 hs
      refine ⟨⟨reference.sheet?.getD sheet, reference.address⟩, ?_, by rw [hsheet]; rfl⟩
      exact mem_addCells.2 (Or.inl List.mem_cons_self)
  | r, .range reference, s, hs => by
      have hsheet : reference.sheet? = some s := Option.mem_toList.1 hs
      refine ⟨⟨reference.sheet?.getD sheet, reference.area.start⟩, ?_, by rw [hsheet]; rfl⟩
      exact mem_addCells.2 (Or.inl (List.mem_map_of_mem reference.area.start_mem_cells))
  | r, .name s', s, hs => by
      obtain ⟨d, hd, htarget⟩ := Option.bind_eq_some_iff.1 (Option.mem_toList.1 hs)
      obtain ⟨p, hp, hsheet⟩ := exists_mem_of_target htarget
      exact ⟨p, mem_addName hd hp, hsheet⟩
  | r, .binary _ left right, s, hs => by
      rcases List.mem_append.1 hs with hs | hs
      · obtain ⟨p, hp, hsheet⟩ := exists_mem_collect r left s hs
        exact ⟨p, (within_collect names sheet _ right).cells p hp, hsheet⟩
      · exact exists_mem_collect _ right s hs
  | r, .negate operand, s, hs => exists_mem_collect r operand s hs
  | r, .percent operand, s, hs => exists_mem_collect r operand s hs
  | r, .call _ arguments, s, hs => exists_mem_collectAll r arguments s hs

theorem exists_mem_collectAll :
    ∀ (r : References) (es : List Expr), ∀ s ∈ Expr.qualifiersAll names es,
      ∃ p ∈ (collectAll names sheet r es).cells, p.sheet = s
  | r, e :: es, s, hs => by
      rcases List.mem_append.1 hs with hs | hs
      · obtain ⟨p, hp, hsheet⟩ := exists_mem_collect r e s hs
        exact ⟨p, (within_collectAll names sheet _ es).cells p hp, hsheet⟩
      · exact exists_mem_collectAll _ es s hs

end

end

end References

/-! ## Agreement -/

/-- Two contexts give the same answers about references. -/
structure Agree (r : References) (c c' : Context) : Prop where
  sheet : c.sheet = c'.sheet
  value : ∀ p ∈ r.cells, c.source.value p = c'.source.value p
  hasSheet : ∀ p ∈ r.cells, c.source.hasSheet p.sheet = c'.source.hasSheet p.sheet
  target : ∀ s, Text.asciiUpper s ∈ r.names →
    (c.source.name? s).map (·.target) = (c'.source.name? s).map (·.target)

namespace Agree

variable {r : References} {c c' : Context} {names : NameTable} {e : Expr}

/-- Contexts that agree on the references of an expression agree on what it asks. -/
theorem agreeOn (h : Agree (References.collect names c.sheet r e) c c') :
    AgreeOn (References.collect names c.sheet r e).cells e.names (e.qualifiers names) c c' where
  sheet := h.sheet
  value := h.value
  target s hs := h.target s (References.asciiUpper_mem_collect names c.sheet r e s hs)
  hasSheet s hs := by
    obtain ⟨p, hp, rfl⟩ := References.exists_mem_collect names c.sheet r e s hs
    exact h.hasSheet p hp

end Agree

/-! ## Evaluation -/

section

variable {c c' : Context} {names : NameTable}

/-- Contexts that agree on the references of an expression give it one value and one log. -/
theorem evaluate_congr (hname : ∀ s, c.source.name? s = names.find? s) {r : References} (e : Expr)
    (h : Agree (References.collect names c.sheet r e) c c') :
    Formula.evaluate c e = Formula.evaluate c' e :=
  evaluate_of_agreeOn e (fun s _ => hname s) h.agreeOn

/-- Contexts that agree on the references of a formula give it one outcome. -/
theorem outcomeOf_congr (hname : ∀ s, c.source.name? s = names.find? s) (e : Expr)
    (h : Agree (References.ofExpr names c.sheet e) c c') : outcomeOf c e = outcomeOf c' e := by
  unfold outcomeOf shownValue
  rw [evaluate_congr hname e h]

end

end PaintQuote.Engine
