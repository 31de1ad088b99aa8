import PaintQuote.Formula.Parser
import PaintQuote.Proofs.Formula.Characters

/-!
# Reading a written reference

The text of an address is read back as the address (`ofText_anchoredChars`), and its dollar
signs as the absolute parts (`cellReference_anchoredChars`).  The scanner takes such a text for a
reference, since it has the shape of an address and a digit, which no logical
value has.
-/

namespace PaintQuote.Sheet

open Text

/-! ## Columns -/

theorem columnLetter_spec :
    ∀ digit < 26, (columnLetter digit).isAlpha = true ∧
      letterValue (columnLetter digit) = digit + 1 := by
  decide

/-- The letters of a number are read onto nothing as the number. -/
theorem readLetters_lettersBefore (all : List Char) (number : Nat) (known : List Char)
    (h : number ≤ columnLimit) :
    readLetters all 0 (lettersBefore number known) = readLetters all number known := by
  induction number, known using lettersBefore.induct with
  | case1 known => rw [lettersBefore, if_pos rfl]
  | case2 number known hne ih =>
      obtain ⟨halpha, hvalue⟩ := columnLetter_spec ((number - 1) % 26) (Nat.mod_lt _ (by decide))
      have hnumber :
          (number - 1) / 26 * 26 + letterValue (columnLetter ((number - 1) % 26)) = number := by
        rw [hvalue]
        omega
      rw [lettersBefore, if_neg hne, ih (by omega), readLetters, if_pos halpha]
      simp only [hnumber, if_neg (Nat.not_lt.2 h)]

theorem isAlpha_lettersBefore (number : Nat) (known : List Char)
    (hknown : ∀ c ∈ known, c.isAlpha = true) :
    ∀ c ∈ lettersBefore number known, c.isAlpha = true := by
  induction number, known using lettersBefore.induct with
  | case1 known =>
      rw [lettersBefore, if_pos rfl]
      exact hknown
  | case2 number known hne ih =>
      rw [lettersBefore, if_neg hne]
      have hletter := (columnLetter_spec ((number - 1) % 26) (Nat.mod_lt _ (by decide))).1
      exact ih (List.forall_mem_cons.2 ⟨hletter, hknown⟩)

theorem lettersBefore_ne_nil (number : Nat) (known : List Char) (h : number ≠ 0 ∨ known ≠ []) :
    lettersBefore number known ≠ [] := by
  induction number, known using lettersBefore.induct with
  | case1 known =>
      rw [lettersBefore, if_pos rfl]
      exact h.resolve_left (· rfl)
  | case2 number known hne ih =>
      rw [lettersBefore, if_neg hne]
      exact ih (.inr (List.cons_ne_nil _ _))

theorem isAlpha_columnLetters (column : Nat) : ∀ c ∈ columnLetters column, c.isAlpha = true :=
  isAlpha_lettersBefore _ _ fun _ hc => absurd hc List.not_mem_nil

theorem columnLetters_ne_nil (column : Nat) : columnLetters column ≠ [] :=
  lettersBefore_ne_nil _ _ (.inl (Nat.succ_ne_zero _))

theorem columnOfLetters_columnLetters {column : Nat} (h : column < columnLimit) :
    columnOfLetters (columnLetters column) = .ok column := by
  have hread : readLetters (columnLetters column) 0 (columnLetters column) = .ok (column + 1) := by
    rw [columnLetters, readLetters_lettersBefore _ _ _ h, readLetters]
  rw [columnOfLetters, if_neg (by simp [columnLetters_ne_nil]), hread]
  rfl

/-! ## Rows -/

theorem numeral_eq (digits : List Char) : numeral digits = Nat.ofDigitChars 10 digits 0 := by
  rw [numeral, Nat.ofDigitChars]
  simp only [Nat.mul_comm]

theorem isDigit_rowDigits (row : Nat) : ∀ c ∈ Nat.toDigits 10 (row + 1), c.isDigit = true :=
  fun _ hc => Nat.isDigit_of_mem_toDigits (by decide) (by decide) hc

theorem rowOfDigits_toDigits (text : String) {row : Nat} (h : row < rowLimit) :
    rowOfDigits text (Nat.toDigits 10 (row + 1)) = .ok row := by
  have hnumeral : numeral (Nat.toDigits 10 (row + 1)) = row + 1 := by
    rw [numeral_eq, Nat.ofDigitChars_ten_toDigits]
  have hdigits : (Nat.toDigits 10 (row + 1)).all Char.isDigit = true :=
    List.all_eq_true.2 (isDigit_rowDigits row)
  have hword : row < 0xFFFFFFFF := Nat.lt_of_lt_of_le h (by decide)
  rw [rowOfDigits, hnumeral, hdigits, if_neg (by simp [Nat.toDigits_ne_nil]),
    if_neg (by simpa using hword), if_neg (Nat.succ_ne_zero _), if_neg (Nat.not_lt.2 h)]
  rfl

end PaintQuote.Sheet

namespace PaintQuote.Formula

open Sheet Text Token

/-! ## Addresses with dollar signs -/

section

variable {a : Address} {anchors : Anchors}

/-- A dollar sign in front of a text is taken off, and a text without one is left alone. -/
theorem afterDollar_dollar (absolute : Bool) {cs : List Char} (h : cs.head? ≠ some '$') :
    Address.afterDollar (dollar absolute ++ cs) = cs := by
  cases absolute with
  | true => simp [Address.afterDollar, dollar, afterLead?]
  | false =>
      cases cs with
      | nil => rfl
      | cons c rest =>
          have hne : ¬ '$' = c := fun heq => h (by rw [heq]; rfl)
          simp [Address.afterDollar, dollar, afterLead?, hne]

/-- The row of an address with its dollar sign. -/
def rowChars (a : Address) (anchors : Anchors) : List Char :=
  dollar anchors.row ++ Nat.toDigits 10 (a.row + 1)

theorem anchoredChars_eq :
    anchoredChars a anchors =
      dollar anchors.column ++ (columnLetters a.column ++ rowChars a anchors) := by
  simp only [anchoredChars, rowChars, List.append_assoc]

theorem afterDollar_anchoredChars :
    Address.afterDollar (anchoredChars a anchors) =
      columnLetters a.column ++ rowChars a anchors := by
  rw [anchoredChars_eq, afterDollar_dollar]
  have halpha := isAlpha_columnLetters a.column
  cases hletters : columnLetters a.column with
  | nil => exact absurd hletters (columnLetters_ne_nil _)
  | cons c rest =>
      rintro ⟨⟩
      exact absurd (halpha '$' (hletters ▸ List.mem_cons_self)) (by decide)

theorem afterDollar_rowChars :
    Address.afterDollar (rowChars a anchors) = Nat.toDigits 10 (a.row + 1) := by
  rw [rowChars, afterDollar_dollar]
  have hdigits := isDigit_rowDigits a.row
  cases hrow : Nat.toDigits 10 (a.row + 1) with
  | nil => exact absurd hrow Nat.toDigits_ne_nil
  | cons c rest =>
      rintro ⟨⟩
      exact absurd (hdigits '$' (hrow ▸ List.mem_cons_self)) (by decide)

theorem mem_rowChars {c : Char} (h : c ∈ rowChars a anchors) : c ∈ '$' :: digitChars := by
  rcases List.mem_append.1 h with h | h
  · cases hrow : anchors.row with
    | true =>
        rw [hrow] at h
        exact List.mem_cons.2 (.inl (List.mem_singleton.1 h))
    | false =>
        rw [hrow] at h
        cases h
  · exact List.mem_cons_of_mem _ (mem_digitChars (isDigit_rowDigits a.row c h))

/-- The row of an address has no letters. -/
theorem not_isAlpha_rowChars : ∀ c ∈ rowChars a anchors, c.isAlpha = false := by
  intro c hc
  have hnone : ∀ c ∈ '$' :: digitChars, c.isAlpha = false :=
    List.all_iff_forall_prop.1 (by decide)
  exact hnone c (mem_rowChars hc)

theorem takeWhile_isAlpha_letters :
    (columnLetters a.column ++ rowChars a anchors).takeWhile Char.isAlpha =
      columnLetters a.column :=
  takeWhile_run (isAlpha_columnLetters _) fun c hc =>
    not_isAlpha_rowChars c (List.mem_of_mem_head? hc)

theorem dropWhile_isAlpha_letters :
    (columnLetters a.column ++ rowChars a anchors).dropWhile Char.isAlpha = rowChars a anchors :=
  dropWhile_run (isAlpha_columnLetters _) fun c hc =>
    not_isAlpha_rowChars c (List.mem_of_mem_head? hc)

theorem anchoredChars_ne_nil : anchoredChars a anchors ≠ [] := by
  simp [anchoredChars, Nat.toDigits_ne_nil]

/-- The text of an address has the shape of one. -/
theorem hasAddressShape_anchoredChars : hasAddressShape (anchoredChars a anchors) = true := by
  have hdigits := List.all_eq_true.2 (isDigit_rowDigits a.row)
  simp only [hasAddressShape, afterDollar_anchoredChars, takeWhile_isAlpha_letters, List.drop_left,
    afterDollar_rowChars, hdigits]
  simp [columnLetters_ne_nil, Nat.toDigits_ne_nil]

/-! ## The characters of an address -/

/-- The text of an address is letters, digits and dollar signs. -/
theorem continuesWord_of_mem_anchoredChars {c : Char} (h : c ∈ anchoredChars a anchors) :
    continuesWord c = true := by
  have hothers : ∀ c ∈ '$' :: digitChars, continuesWord c = true :=
    List.all_iff_forall_prop.1 (by decide)
  rw [anchoredChars_eq, List.mem_append, List.mem_append] at h
  rcases h with h | h | h
  · cases hcolumn : anchors.column with
    | true =>
        rw [hcolumn] at h
        exact hothers c (List.mem_cons.2 (.inl (List.mem_singleton.1 h)))
    | false =>
        rw [hcolumn] at h
        cases h
  · exact continuesWord_of_startsWord (startsWord_of_isAlpha (isAlpha_columnLetters _ _ h))
  · exact hothers c (mem_rowChars h)

/-- The text of an address is formed as a word. -/
theorem isIdentifier_anchoredChars : isIdentifier (anchoredChars a anchors) = true := by
  obtain ⟨c, cs, hcs⟩ : ∃ c cs, anchoredChars a anchors = c :: cs ∧ startsWord c = true := by
    obtain ⟨c, letters, hletters⟩ := List.exists_cons_of_ne_nil (columnLetters_ne_nil a.column)
    rw [anchoredChars_eq]
    cases anchors.column with
    | true => exact ⟨'$', _, rfl, by decide⟩
    | false =>
        have hc := isAlpha_columnLetters a.column c (hletters ▸ List.mem_cons_self)
        exact ⟨c, _, by rw [hletters]; rfl, startsWord_of_isAlpha hc⟩
  rw [hcs.1]
  refine isIdentifier_cons.2 ⟨hcs.2, fun d hd => ?_⟩
  exact continuesWord_of_mem_anchoredChars (hcs.1 ▸ List.mem_cons_of_mem _ hd)

/-- The text of an address ends with a digit. -/
theorem getLast?_anchoredChars :
    ∃ d, (anchoredChars a anchors).getLast? = some d ∧ d.isDigit = true := by
  obtain ⟨d, hd⟩ : ∃ d, (Nat.toDigits 10 (a.row + 1)).getLast? = some d :=
    Option.isSome_iff_exists.1 (by simp [Nat.toDigits_ne_nil])
  refine ⟨d, ?_, isDigit_rowDigits a.row d (List.mem_of_getLast? hd)⟩
  rw [anchoredChars, List.getLast?_append, hd]
  rfl

/-! ## Reading -/

/-- The text of an address is read back as the address. -/
theorem ofText_anchoredChars (ha : a.InBounds) :
    Address.ofText (String.ofList (anchoredChars a anchors)) = .ok a := by
  have hbody : Address.ofBody (anchoredChars a anchors) = .ok a := by
    simp only [Address.ofBody, afterDollar_anchoredChars, takeWhile_isAlpha_letters,
      dropWhile_isAlpha_letters, afterDollar_rowChars, columnOfLetters_columnLetters ha.2,
      rowOfDigits_toDigits _ ha.1]
    simp [anchoredChars_ne_nil, columnLetters_ne_nil]
    rfl
  have hword : ∀ c ∈ anchoredChars a anchors, isBlank c = false := fun c hc =>
    not_isBlank_of_continuesWord (continuesWord_of_mem_anchoredChars hc)
  rw [Address.ofText, Address.ofChars, String.toList_ofList, trim_of_forall hword, hbody]

/-- The dollar signs of a written address are its absolute parts. -/
theorem anchors_anchoredChars :
    (⟨(anchoredChars a anchors).head? == some '$',
      ((anchoredChars a anchors).drop 1).contains '$'⟩ : Anchors) = anchors := by
  have halpha := isAlpha_columnLetters a.column
  have hdigits : '$' ∉ Nat.toDigits 10 (a.row + 1) := fun h =>
    absurd (isDigit_rowDigits a.row '$' h) (by decide)
  obtain ⟨c, letters, hletters⟩ := List.exists_cons_of_ne_nil (columnLetters_ne_nil a.column)
  rw [hletters] at halpha
  have hc : c ≠ '$' := fun h => absurd (h ▸ halpha c List.mem_cons_self) (by decide)
  have hrest : '$' ∉ letters := fun h => absurd (halpha '$' (List.mem_cons_of_mem _ h)) (by decide)
  obtain ⟨column, row⟩ := anchors
  cases column <;> cases row <;> simp [anchoredChars, dollar, hletters, hc, hrest, hdigits, hc.symm]

/-- The text of an address is read back as a reference to it. -/
theorem cellReference_anchoredChars (ha : a.InBounds) (sheet? : Option SheetName) (position : Nat) :
    Reader.cellReference sheet? position (String.ofList (anchoredChars a anchors)) =
      .ok ⟨sheet?, a, anchors⟩ := by
  simp only [Reader.cellReference, ofText_anchoredChars ha, String.toList_ofList,
    anchors_anchoredChars]

end

end PaintQuote.Formula
