import PaintQuote.Proofs.Formula.Scan
import PaintQuote.Proofs.Text.Cuts
import PaintQuote.Proofs.Text.UpperCase

/-!
# Reading the name of a sheet

A name that is read from some text is in upper case, separates nothing and has no quote at its ends
(`WellFormed`).  What stands for it in a reference is read back by what undoubles quotes if the name
reads itself back (`sheetOfChars_chars`), and by `ofChars` if it has no quote within and is not longer
than a text for a name may be, which upper case can make it (`ofChars_chars_eq_ok_iff`).
-/

namespace PaintQuote.Sheet.SheetName

open Text Formula

variable {s : SheetName} {cs : List Char}

theorem ofChars_eq_ok_iff :
    ofChars cs = .ok s ↔
      stripMarks '\'' (trim cs) ≠ [] ∧ (stripMarks '\'' (trim cs)).length ≤ sheetNameLimit ∧
        (∀ c ∈ stripMarks '\'' (trim cs), isSeparator c = false) ∧
        s.text.toList = upperChars (stripMarks '\'' (trim cs)) := by
  rw [ofChars]
  generalize stripMarks '\'' (trim cs) = name
  have hseparator : name.find? isSeparator = none ↔ ∀ c ∈ name, isSeparator c = false := by
    simp only [List.find?_eq_none, Bool.not_eq_true]
  have hname : (⟨String.ofList (upperChars name)⟩ : SheetName) = s ↔
      s.text.toList = upperChars name := by
    rw [← String.ofList_inj, String.ofList_toList, eq_comm]
    exact ⟨fun h => h ▸ rfl, fun h => by rw [← h]⟩
  rw [← hseparator]
  split
  next hempty => simp [List.isEmpty_iff.1 hempty]
  next hne =>
    split
    next hlong => simp [Nat.not_le.2 hlong]
    next hshort =>
      split
      next c hc => simp [hc]
      next hnone =>
        simp only [hnone, Except.ok.injEq, hname, true_and]
        rw [and_iff_right (mt List.isEmpty_iff.2 hne), and_iff_right (Nat.not_lt.1 hshort)]

/-! ## Names that are read -/

/-- What holds of the name of a sheet that is read from a text. -/
structure WellFormed (s : SheetName) : Prop where
  upper : ∀ c ∈ s.text.toList, upperChar c = [c]
  ne_nil : s.text.toList ≠ []
  apart : ∀ c ∈ s.text.toList, isSeparator c = false
  first : s.text.toList.head? ≠ some '\''
  last : s.text.toList.getLast? ≠ some '\''

theorem ascii_of_isSeparator {c : Char} (h : isSeparator c = true) :
    c.toNat < 128 ∧ c.isAlpha = false := by
  simp only [isSeparator, Bool.or_eq_true, beq_iff_eq] at h
  rcases h with ((((((rfl | rfl) | rfl) | rfl) | rfl) | rfl) | rfl) | rfl <;> decide

theorem wellFormed_of_ofChars (h : ofChars cs = .ok s) : s.WellFormed := by
  obtain ⟨hne, -, hapart, htext⟩ := ofChars_eq_ok_iff.1 h
  constructor
  · intro c hc
    rw [htext] at hc
    exact upperChar_of_mem_upperChars hc
  · obtain ⟨c, rest, hcons⟩ := List.exists_cons_of_ne_nil hne
    rw [htext, hcons, upperChars, List.flatMap_cons]
    exact List.append_ne_nil_of_left_ne_nil (upperChar_ne_nil c) _
  · intro c hc
    refine Bool.eq_false_iff.2 fun hseparator => ?_
    obtain ⟨hascii, hletter⟩ := ascii_of_isSeparator hseparator
    rw [htext, mem_upperChars_iff hascii hletter] at hc
    rw [hapart c hc] at hseparator
    cases hseparator
  · rw [htext]
    exact fun hfirst => head?_stripMarks (head?_of_upperChars (by decide) (by decide) hfirst)
  · rw [htext]
    exact fun hlast => getLast?_stripMarks (getLast?_of_upperChars (by decide) (by decide) hlast)

/-- What is read from the text of a name is the text without blanks, and then quotes, at its ends. -/
theorem toList_text_of_ofChars_text {s' : SheetName} (h : s.WellFormed)
    (hread : ofChars s.text.toList = .ok s') :
    s'.text.toList = stripMarks '\'' (trim s.text.toList) := by
  rw [(ofChars_eq_ok_iff.1 hread).2.2.2]
  exact upperChars_eq_self fun c hc => h.upper c (mem_of_mem_trim (mem_of_mem_stripMarks hc))

/-- A name reads itself back exactly if it has no blank at its ends and is as long as a text for a name
may be. -/
theorem ofChars_text_eq_ok_iff (h : s.WellFormed) :
    ofChars s.text.toList = .ok s ↔
      trim s.text.toList = s.text.toList ∧ s.text.toList.length ≤ sheetNameLimit := by
  constructor
  · intro hread
    have hself := toList_text_of_ofChars_text h hread
    -- Quotes are taken off what is left without blanks, so nothing is lost only if no blanks are.
    have hsublist : (stripMarks '\'' (trim s.text.toList)).Sublist (trim s.text.toList) :=
      stripMarks_sublist
    rw [← hself] at hsublist
    have hlength := (ofChars_eq_ok_iff.1 hread).2.1
    rw [← hself] at hlength
    exact ⟨trim_sublist.antisymm hsublist, hlength⟩
  · rintro ⟨htrim, hlength⟩
    rw [ofChars_eq_ok_iff, htrim, stripMarks_eq_self h.first h.last, upperChars_eq_self h.upper]
    exact ⟨h.ne_nil, hlength, h.apart, rfl⟩

/-! ## The name in a reference -/

theorem isWord_of_needsQuotes (h : ¬ s.needsQuotes = true) : isWord s.text.toList = true := by
  simpa [needsQuotes] using h

/-- A word has neither blanks nor quotes. -/
theorem mem_isWord (h : isWord cs = true) : ∀ c ∈ cs, isBlank c = false ∧ c ≠ '\'' := by
  have hcontinues : ∀ c ∈ cs, Token.continuesWord c = true := by
    have hidentifier := isIdentifier_of_isWord h
    cases cs with
    | nil => cases h
    | cons c rest =>
        obtain ⟨hc, hrest⟩ := isIdentifier_cons.1 hidentifier
        exact List.forall_mem_cons.2 ⟨continuesWord_of_startsWord hc, hrest⟩
  intro c hc
  refine ⟨not_isBlank_of_continuesWord (hcontinues c hc), ?_⟩
  rintro rfl
  exact absurd (hcontinues _ hc) (by decide)

/-- What stands for a name in a reference begins with a quote, a letter or an underscore. -/
theorem exists_chars_eq_cons (s : SheetName) :
    ∃ c rest, s.chars = c :: rest ∧ (c = '\'' ∨ c = '_' ∨ c.isAlpha = true) := by
  rw [chars]
  split
  next => exact ⟨_, _, rfl, Or.inl rfl⟩
  next hquotes =>
    have hword := isWord_of_needsQuotes hquotes
    cases hcs : s.text.toList with
    | nil => simp [hcs, isWord] at hword
    | cons c rest =>
        simp only [hcs, isWord, Bool.and_eq_true, Bool.or_eq_true, beq_iff_eq] at hword
        exact ⟨c, rest, rfl, Or.inr hword.1.symm⟩

/-- Where quotes are undoubled, what stands for a name is read as its text is. -/
theorem sheetOfChars_chars (s : SheetName) : CellKey.sheetOfChars s.chars = ofChars s.text.toList := by
  rw [CellKey.sheetOfChars, chars]
  by_cases hquotes : s.needsQuotes = true
  · have hbetween : between? '\'' ('\'' :: (double '\'' s.text.toList ++ ['\''])) =
        some (double '\'' s.text.toList) := by
      simp [between?, afterLead?, beforeEnd?]
    simp only [if_pos hquotes, hbetween, undouble_double]
  · have hword := isWord_of_needsQuotes hquotes
    have hbetween : between? '\'' s.text.toList = none := by
      cases hcs : s.text.toList with
      | nil => rfl
      | cons c rest =>
          rw [hcs] at hword
          simp [between?, afterLead?, ((mem_isWord hword) c List.mem_cons_self).2.symm]
    simp only [if_neg hquotes, hbetween]

/-- Elsewhere, the quotes around a name are taken off and those within stay doubled. -/
theorem stripMarks_trim_chars (h : s.WellFormed) :
    stripMarks '\'' (trim s.chars) = double '\'' s.text.toList := by
  rw [chars]
  split
  next =>
    have htrim : trim ('\'' :: (double '\'' s.text.toList ++ ['\''])) =
        '\'' :: (double '\'' s.text.toList ++ ['\'']) :=
      trim_eq_self (by decide) (by rw [← List.cons_append, List.getLast?_concat]) (by decide)
    rw [htrim, stripMarks_around]
    · rw [head?_double]
      exact h.first
    · rw [getLast?_double]
      exact h.last
  next hquotes =>
    have hword := mem_isWord (isWord_of_needsQuotes hquotes)
    rw [trim_of_forall fun c hc => (hword c hc).1, stripMarks_eq_self h.first h.last, double_eq_self]
    exact fun hmem => (hword _ hmem).2 rfl

/-- Where quotes are not undoubled, what stands for a name is read back unless the name has quotes or
is too long. -/
theorem ofChars_chars_eq_ok_iff (h : s.WellFormed) :
    ofChars s.chars = .ok s ↔ '\'' ∉ s.text.toList ∧ s.text.toList.length ≤ sheetNameLimit := by
  have hupper : upperChars (double '\'' s.text.toList) = double '\'' s.text.toList :=
    upperChars_eq_self fun c hc => h.upper c (mem_double.1 hc)
  rw [ofChars_eq_ok_iff, stripMarks_trim_chars h, hupper, eq_comm, double_eq_self_iff]
  constructor
  · rintro ⟨-, hlength, -, hquote⟩
    rw [double_eq_self hquote] at hlength
    exact ⟨hquote, hlength⟩
  · rintro ⟨hquote, hlength⟩
    rw [double_eq_self hquote]
    exact ⟨h.ne_nil, hlength, h.apart, hquote⟩

end PaintQuote.Sheet.SheetName
