import Mathlib.Data.List.DropRight
import PaintQuote.Text.Blank
import PaintQuote.Text.Cut

/-!
# Marks in a text

A text is cut at a mark where the mark is put in.  Taking marks off the ends of a text changes nothing
when it has none there (`stripMarks_eq_self`), and takes off one pair that is put around such a text
(`stripMarks_around`).  Doubling the marks within a text leaves its ends alone, and makes the text longer
unless it has no marks (`double_eq_self_iff`).
-/

namespace PaintQuote.Text

variable {mark c : Char} {cs before after : List Char}

/-! ## Cutting -/

theorem cutFirst?_append (h : mark ∉ before) :
    cutFirst? mark (before ++ mark :: after) = some (before, after) := by
  induction before with
  | nil => exact if_pos rfl
  | cons c before ih =>
      obtain ⟨hc, hbefore⟩ := not_or.1 (List.mem_cons.not.1 h)
      rw [List.cons_append, cutFirst?, if_neg (Ne.symm hc), ih hbefore]
      rfl

theorem cutFirst?_eq_none (h : mark ∉ cs) : cutFirst? mark cs = none := by
  induction cs with
  | nil => rfl
  | cons c cs ih =>
      obtain ⟨hc, hcs⟩ := not_or.1 (List.mem_cons.not.1 h)
      rw [cutFirst?, if_neg (Ne.symm hc), ih hcs]
      rfl

theorem cutLast?_eq_none (h : mark ∉ cs) : cutLast? mark cs = none := by
  induction cs with
  | nil => rfl
  | cons c cs ih =>
      obtain ⟨hc, hcs⟩ := not_or.1 (List.mem_cons.not.1 h)
      rw [cutLast?, ih hcs]
      exact if_neg (Ne.symm hc)

theorem cutLast?_append (h : mark ∉ after) :
    cutLast? mark (before ++ mark :: after) = some (before, after) := by
  induction before with
  | nil =>
      rw [List.nil_append, cutLast?, cutLast?_eq_none h]
      exact if_pos rfl
  | cons c before ih => rw [List.cons_append, cutLast?, ih]

/-! ## Ends -/

theorem trim_sublist : (trim cs).Sublist cs :=
  (List.rdropWhile_prefix _ _).sublist.trans (List.dropWhile_sublist _)

theorem getLast?_trim (h : (trim cs).getLast? = some c) : isBlank c = false := by
  obtain ⟨hne, hlast⟩ := List.mem_getLast?_eq_getLast h
  exact hlast ▸ Bool.eq_false_iff.2 (List.rdropWhile_last_not _ _ hne)

theorem mem_of_mem_trim (h : c ∈ trim cs) : c ∈ cs := trim_sublist.subset h

theorem stripMarks_eq : stripMarks mark cs = (cs.dropWhile (· == mark)).rdropWhile (· == mark) := rfl

theorem stripMarks_sublist : (stripMarks mark cs).Sublist cs :=
  (List.rdropWhile_prefix _ _).sublist.trans (List.dropWhile_sublist _)

theorem mem_of_mem_stripMarks (h : c ∈ stripMarks mark cs) : c ∈ cs := stripMarks_sublist.subset h

theorem getLast?_stripMarks : (stripMarks mark cs).getLast? ≠ some mark := by
  intro h
  obtain ⟨hne, hlast⟩ := List.mem_getLast?_eq_getLast h
  exact List.rdropWhile_last_not _ _ hne (beq_iff_eq.2 hlast.symm)

theorem head?_stripMarks : (stripMarks mark cs).head? ≠ some mark := by
  intro h
  obtain ⟨rest, hrest⟩ := List.rdropWhile_prefix (· == mark) (cs.dropWhile (· == mark))
  obtain ⟨tail, htail⟩ := List.head?_eq_some_iff.1 h
  rw [← stripMarks_eq, htail] at hrest
  have hnot := List.head?_dropWhile_not (· == mark) cs
  rw [← hrest] at hnot
  simp at hnot

/-- Where a text has no marks at its ends, none are taken off. -/
theorem stripMarks_eq_self (hfirst : cs.head? ≠ some mark) (hlast : cs.getLast? ≠ some mark) :
    stripMarks mark cs = cs := by
  have hstart : cs.dropWhile (· == mark) = cs := by
    cases cs with
    | nil => rfl
    | cons c cs => exact List.dropWhile_cons_of_neg (by simpa using hfirst)
  rw [stripMarks_eq, hstart, List.rdropWhile_eq_self_iff]
  intro hne heq
  exact hlast (beq_iff_eq.1 heq ▸ List.getLast?_eq_some_getLast hne)

/-- A pair of marks around a text without marks at its ends is taken off. -/
theorem stripMarks_around (hfirst : cs.head? ≠ some mark) (hlast : cs.getLast? ≠ some mark) :
    stripMarks mark (mark :: (cs ++ [mark])) = cs := by
  cases cs with
  | nil => simp [stripMarks]
  | cons c cs =>
      have hself := stripMarks_eq_self hfirst hlast
      have hc : (c == mark) = false := by simpa using hfirst
      simp only [stripMarks_eq, List.dropWhile_cons, hc, List.cons_append, beq_self_eq_true, if_true,
        Bool.false_eq_true, if_false] at hself ⊢
      rw [← List.cons_append, List.rdropWhile_concat, beq_self_eq_true, if_pos rfl]
      exact hself

/-! ## Doubled marks -/

theorem mem_double : c ∈ double mark cs ↔ c ∈ cs := by
  induction cs with
  | nil => rfl
  | cons d cs ih =>
      rw [double]
      split
      next hd => simp [ih, hd]
      next => simp [ih]

theorem double_eq_self (h : mark ∉ cs) : double mark cs = cs := by
  induction cs with
  | nil => rfl
  | cons d cs ih =>
      obtain ⟨hd, hcs⟩ := not_or.1 (List.mem_cons.not.1 h)
      rw [double, if_neg (Ne.symm hd), ih hcs]

theorem length_double : (double mark cs).length = cs.length + cs.count mark := by
  induction cs with
  | nil => rfl
  | cons d cs ih =>
      rw [double]
      split
      next hd => simp [ih, hd]; omega
      next hd => simp [ih, hd]; omega

/-- Doubling its marks changes a text unless it has none. -/
theorem double_eq_self_iff : double mark cs = cs ↔ mark ∉ cs := by
  refine ⟨fun h hmem => ?_, double_eq_self⟩
  have hlength : (double mark cs).length = cs.length + cs.count mark := length_double
  have hcount := List.count_pos_iff.2 hmem
  rw [h] at hlength
  omega

theorem head?_double : (double mark cs).head? = cs.head? := by
  cases cs with
  | nil => rfl
  | cons c cs =>
      rw [double]
      split
      next hc => rw [hc]; rfl
      next => rfl

theorem getLast?_double : (double mark cs).getLast? = cs.getLast? := by
  induction cs with
  | nil => rfl
  | cons c cs ih =>
      rw [double]
      split
      next hc => simp [List.getLast?_cons, ih, hc]
      next => simp [List.getLast?_cons, ih]

end PaintQuote.Text
