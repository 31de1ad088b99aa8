import PaintQuote.Proofs.Formula.References
import PaintQuote.Proofs.Text.Cuts
import PaintQuote.Sheet.Range

/-!
# Reading addresses and ranges

What is read as an address lies on a sheet (`Address.inBounds_of_ofChars`), and what is read as a range
has its corners there.  Addresses and ranges that lie on a sheet are read back from their texts
(`Address.ofChars_chars`, `Range.ofChars_toText`).
-/

namespace PaintQuote.Sheet

open Text Formula

/-! ## Addresses -/

namespace Address

variable {a : Address} {cs : List Char}

theorem readLetters_le {all : List Char} : ∀ {letters : List Char} {number n : Nat},
    number ≤ columnLimit → readLetters all number letters = .ok n → n ≤ columnLimit
  | [], _, _, hnumber, h => by
      cases h
      exact hnumber
  | c :: letters, number, n, hnumber, h => by
      rw [readLetters] at h
      split at h
      next =>
        simp only at h
        split at h
        next => cases h
        next hle => exact readLetters_le (Nat.not_lt.1 hle) h
      next => cases h

theorem columnOfLetters_lt {letters : List Char} {column : Nat}
    (h : columnOfLetters letters = .ok column) : column < columnLimit := by
  rw [columnOfLetters] at h
  split at h
  next => cases h
  next =>
    cases hread : readLetters letters 0 letters with
    | error e =>
        rw [hread] at h
        cases h
    | ok n =>
        rw [hread] at h
        cases h
        have hle : n ≤ columnLimit := readLetters_le (Nat.zero_le _) hread
        have hpos : 0 < columnLimit := by decide
        show n - 1 < columnLimit
        omega

theorem rowOfDigits_lt {text : String} {digits : List Char} {row : Nat}
    (h : rowOfDigits text digits = .ok row) : row < rowLimit := by
  rw [rowOfDigits] at h
  split at h
  next => cases h
  next =>
    split at h
    next => cases h
    next =>
      split at h
      next => cases h
      next hzero =>
        split at h
        next => cases h
        next hle =>
          cases h
          omega

/-- An address that is read lies on a sheet. -/
theorem inBounds_of_ofChars (h : ofChars cs = .ok a) : a.InBounds := by
  simp only [ofChars, ofBody, bind, Except.bind] at h
  split at h
  next => cases h
  next =>
    split at h
    next => cases h
    next =>
      split at h
      next => cases h
      next column hcolumn =>
        split at h
        next => cases h
        next row hrow =>
          cases h
          exact ⟨rowOfDigits_lt hrow, columnOfLetters_lt hcolumn⟩

theorem chars_eq_anchoredChars (a : Address) : a.chars = anchoredChars a ⟨false, false⟩ := by
  simp [chars, anchoredChars, dollar]

theorem ofChars_chars (ha : a.InBounds) : ofChars a.chars = .ok a := by
  have h := @ofText_anchoredChars a ⟨false, false⟩ ha
  rwa [ofText, String.toList_ofList, ← chars_eq_anchoredChars] at h

theorem continuesWord_of_mem_chars {c : Char} (h : c ∈ a.chars) : Token.continuesWord c = true := by
  rw [chars_eq_anchoredChars] at h
  exact continuesWord_of_mem_anchoredChars h

theorem mem_chars {c : Char} (h : c ∈ a.chars) : isBlank c = false ∧ c ≠ '!' := by
  have hword := continuesWord_of_mem_chars h
  refine ⟨not_isBlank_of_continuesWord hword, ?_⟩
  rintro rfl
  exact absurd hword (by decide)

theorem chars_ne_nil (a : Address) : a.chars ≠ [] := by
  rw [chars_eq_anchoredChars]
  exact anchoredChars_ne_nil

end Address

/-! ## Ranges -/

namespace Range

variable {area : Range} {cs : List Char}

theorem toList_toText (area : Range) :
    area.toText.toList =
      if area.isSingle then area.start.chars else area.start.chars ++ ':' :: area.stop.chars := by
  rw [toText]
  split
  next => exact String.toList_ofList
  next => simp [Address.toText]

/-- The text of a range has no blank and no mark of a sheet. -/
theorem mem_toText {c : Char} (h : c ∈ area.toText.toList) : isBlank c = false ∧ c ≠ '!' := by
  rw [toList_toText] at h
  split at h
  next => exact Address.mem_chars h
  next =>
    rcases List.mem_append.1 h with h | h
    · exact Address.mem_chars h
    · rcases List.mem_cons.1 h with rfl | h
      · exact ⟨by decide, by decide⟩
      · exact Address.mem_chars h

theorem toText_ne_nil (area : Range) : area.toText.toList ≠ [] := by
  rw [toList_toText]
  split
  next => exact area.start.chars_ne_nil
  next => exact List.append_ne_nil_of_left_ne_nil area.start.chars_ne_nil _

theorem between_corners (area : Range) : between area.start area.stop = area := by
  obtain ⟨start, stop, hrow, hcolumn⟩ := area
  simp [between, hrow, hcolumn]

/-- A range on a sheet is read back from its text. -/
theorem ofChars_toText (hstart : area.start.InBounds) (hstop : area.stop.InBounds) :
    ofChars area.toText.toList = .ok area := by
  have hcolon : ∀ a : Address, ':' ∉ a.chars := fun a hmem =>
    absurd (Address.continuesWord_of_mem_chars hmem) (by decide)
  rw [ofChars, trim_of_forall fun c hc => (mem_toText hc).1, toList_toText]
  by_cases hsingle : area.isSingle = true
  · rw [if_pos hsingle]
    simp only [cutFirst?_eq_none (hcolon _), Address.ofChars_chars hstart]
    have hstop : area.start = area.stop := by simpa [isSingle] using hsingle
    obtain ⟨start, stop, hrow, hcolumn⟩ := area
    cases hstop
    rfl
  · rw [if_neg hsingle]
    simp only [cutFirst?_append (hcolon _), Address.ofChars_chars hstart,
      Address.ofChars_chars hstop]
    exact congrArg Except.ok (between_corners area)

theorem inBounds_between {a b : Address} (ha : a.InBounds) (hb : b.InBounds) :
    (between a b).start.InBounds ∧ (between a b).stop.InBounds := by
  simp only [Address.InBounds, between] at *
  omega

/-- The corners of a range that is read lie on a sheet. -/
theorem inBounds_of_ofChars (h : ofChars cs = .ok area) :
    area.start.InBounds ∧ area.stop.InBounds := by
  rw [ofChars] at h
  split at h
  next first second _ =>
    cases hfirst : Address.ofChars first with
    | error e => simp [hfirst, Except.mapError, bind, Except.bind] at h
    | ok a =>
        cases hsecond : Address.ofChars second with
        | error e => simp [hfirst, hsecond, Except.mapError, bind, Except.bind] at h
        | ok b =>
            simp only [hfirst, hsecond, Except.mapError, bind, Except.bind, Except.ok.injEq] at h
            exact h ▸ inBounds_between (Address.inBounds_of_ofChars hfirst)
              (Address.inBounds_of_ofChars hsecond)
  next =>
    cases hread : Address.ofChars (trim cs) with
    | error e =>
        rw [hread] at h
        cases h
    | ok a =>
        rw [hread] at h
        cases h
        exact ⟨Address.inBounds_of_ofChars hread, Address.inBounds_of_ofChars hread⟩

end Range

end PaintQuote.Sheet
