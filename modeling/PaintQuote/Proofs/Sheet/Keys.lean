import PaintQuote.Proofs.Sheet.Targets

/-!
# Reading back the text of a key

The address in the text of a key is always read back, and the name of the sheet need not be.  A name is
read by taking blanks off its ends and then quotes, so blanks between the quotes stay in the name, and the
next reading takes them off.  And the length of a name is checked before it is put in upper case, which
can make it longer.  A key that was read is read back from its text exactly if neither is the case
(`CellKey.reads_back_iff`).
-/

namespace PaintQuote.Sheet

open Text

/-- Whether the text of a name has no blank at its ends and is as long as a text for a name may be. -/
structure SheetName.Stable (s : SheetName) : Prop where
  trimmed : trim s.text.toList = s.text.toList
  short : s.text.toList.length ≤ sheetNameLimit

theorem SheetName.stable_iff {s : SheetName} :
    s.Stable ↔ trim s.text.toList = s.text.toList ∧ s.text.toList.length ≤ sheetNameLimit :=
  ⟨fun h => ⟨h.trimmed, h.short⟩, fun h => ⟨h.1, h.2⟩⟩

instance (s : SheetName) : Decidable s.Stable := decidable_of_iff _ SheetName.stable_iff.symm

namespace CellKey

variable {s : String} {k : CellKey}

theorem exists_sheetOfChars {cs : List Char} {sheet : SheetName} (h : sheetOfChars cs = .ok sheet) :
    ∃ name, SheetName.ofChars name = .ok sheet := by
  rw [sheetOfChars] at h
  split at h
  next quoted _ => exact ⟨_, h⟩
  next => exact ⟨_, h⟩

/-- The parts of a key that is read are read as well. -/
theorem parts_of_ofText (h : ofText s = .ok k) : k.sheet.WellFormed ∧ k.address.InBounds := by
  simp only [ofText, ofChars, bind, Except.bind] at h
  split at h
  next => cases h
  next sheet address _ =>
    split at h
    next => cases h
    next name hname =>
      split at h
      next => cases h
      next a ha =>
        cases h
        obtain ⟨cs, hcs⟩ := exists_sheetOfChars hname
        exact ⟨SheetName.wellFormed_of_ofChars hcs, Address.inBounds_of_ofChars ha⟩

/-- A key that was read is read back from its text, and a sheet that was read from the text of its name,
exactly if the name has no blank at its ends and is as long as a text for a name may be.  What stands for
the name in a reference is also to have no quote, since only keys undouble quotes. -/
theorem reads_back_iff (s : String) :
    (∀ k, ofText s = .ok k → (ofText k.toText = .ok k ↔ k.sheet.Stable)) ∧
    ∀ sheet, SheetName.ofText s = .ok sheet →
      (SheetName.ofText sheet.text = .ok sheet ↔ sheet.Stable) ∧
      (SheetName.ofText sheet.toText = .ok sheet ↔
        '\'' ∉ sheet.text.toList ∧ sheet.text.toList.length ≤ sheetNameLimit) := by
  constructor
  · intro k hk
    obtain ⟨hformed, hbounds⟩ := parts_of_ofText hk
    rw [ofText_toText_iff, and_iff_left hbounds, SheetName.ofChars_text_eq_ok_iff hformed,
      SheetName.stable_iff]
  · intro sheet hsheet
    have hformed := SheetName.wellFormed_of_ofChars hsheet
    constructor
    · rw [SheetName.ofText, SheetName.ofChars_text_eq_ok_iff hformed, SheetName.stable_iff]
    · rw [SheetName.ofText, SheetName.toText, String.toList_ofList,
        SheetName.ofChars_chars_eq_ok_iff hformed]

/-- A key with blanks and quotes around and within the name of its sheet is read back. -/
theorem reads_back_tiers :
    ofText " 'tom''s  rates'!$b$3" = .ok ⟨⟨"TOM'S  RATES"⟩, ⟨2, 1⟩⟩ ∧
      ofText "'TOM''S  RATES'!B3" = .ok ⟨⟨"TOM'S  RATES"⟩, ⟨2, 1⟩⟩ ∧
      SheetName.ofText "TOM'S  RATES" = .ok ⟨"TOM'S  RATES"⟩ := by
  have hkey : ofText " 'tom''s  rates'!$b$3" = .ok ⟨⟨"TOM'S  RATES"⟩, ⟨2, 1⟩⟩ := by decide +kernel
  have hname : SheetName.ofText "tom's  rates " = .ok ⟨"TOM'S  RATES"⟩ := by decide +kernel
  have htext : (CellKey.mk ⟨"TOM'S  RATES"⟩ ⟨2, 1⟩).toText = "'TOM''S  RATES'!B3" := by decide +kernel
  have hback := ((reads_back_iff _).1 _ hkey).2 (by decide +kernel)
  exact ⟨hkey, htext ▸ hback, ((reads_back_iff _).2 _ hname).1.2 (by decide +kernel)⟩

/-- A blank between quotes is lost by the second reading, and a name that upper case makes too long is
refused by it. -/
theorem reread_loses_sheet :
    (ofText "'' a''!A1" = .ok ⟨⟨" A"⟩, ⟨0, 0⟩⟩ ∧
      (CellKey.mk ⟨" A"⟩ ⟨0, 0⟩).toText = "' A'!A1" ∧
      ofText "' A'!A1" = .ok ⟨⟨"A"⟩, ⟨0, 0⟩⟩) ∧
    ofText "ßßßßßßßßßßßßßßßß!A1" = .ok ⟨⟨"SSSSSSSSSSSSSSSSSSSSSSSSSSSSSSSS"⟩, ⟨0, 0⟩⟩ ∧
      (CellKey.mk ⟨"SSSSSSSSSSSSSSSSSSSSSSSSSSSSSSSS"⟩ ⟨0, 0⟩).toText =
        "SSSSSSSSSSSSSSSSSSSSSSSSSSSSSSSS!A1" ∧
      ofText "SSSSSSSSSSSSSSSSSSSSSSSSSSSSSSSS!A1" =
        .error (.sheetName (.tooLong 31 "SSSSSSSSSSSSSSSSSSSSSSSSSSSSSSSS")) := by
  decide +kernel

end CellKey

end PaintQuote.Sheet
