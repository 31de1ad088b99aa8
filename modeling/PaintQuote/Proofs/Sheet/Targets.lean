import PaintQuote.Proofs.Decimal.ReadBack
import PaintQuote.Proofs.Decimal.Same
import PaintQuote.Proofs.Formula.RoundTrip
import PaintQuote.Proofs.Sheet.Ranges
import PaintQuote.Proofs.Sheet.SheetNames
import PaintQuote.Sheet.DefinedName

/-!
# Reading back what a name stands for

A reference with the name of a sheet is read in three places.  Keys and formulas undouble the quotes
in the name, and defined names do not.  So the text of a cell or range is read by a name for what it is
only if the name of its sheet has no quote (`DefinedName.reads_references`).  A constant is always read
back, with its number in normal form (`Target.ofText_toText_constant`).
-/

namespace PaintQuote.Sheet

open Text Formula

/-! ## References -/

section

variable {s : SheetName} {reference : List Char}

theorem ne_of_opens {c d : Char} (hc : c = '\'' ∨ c = '_' ∨ c.isAlpha = true)
    (hd : d ≠ '\'' ∧ d ≠ '_' ∧ d.isAlpha = false) : c ≠ d := by
  rintro rfl
  rcases hc with hc | hc | hc
  · exact hd.1 hc
  · exact hd.2.1 hc
  · rw [hd.2.2] at hc
    cases hc

theorem trim_reference (hne : reference ≠ [])
    (hreference : ∀ c ∈ reference, isBlank c = false ∧ c ≠ '!') :
    trim (s.chars ++ '!' :: reference) = s.chars ++ '!' :: reference := by
  obtain ⟨c, rest, hcons, hc⟩ := s.exists_chars_eq_cons
  have hblank : isBlank c = false := by
    rcases hc with rfl | rfl | halpha
    · decide
    · decide
    · exact not_isBlank_of_continuesWord (continuesWord_of_startsWord (startsWord_of_isAlpha halpha))
  have hlast : (c :: (rest ++ '!' :: reference)).getLast? = some (reference.getLast hne) := by
    rw [← List.cons_append, List.getLast?_append, List.getLast?_cons,
      List.getLast?_eq_some_getLast hne]
    rfl
  rw [hcons, List.cons_append]
  exact trim_eq_self hblank hlast (hreference _ (List.getLast_mem hne)).1

theorem cutLast?_reference (hreference : ∀ c ∈ reference, isBlank c = false ∧ c ≠ '!') :
    cutLast? '!' (s.chars ++ '!' :: reference) = some (s.chars, reference) :=
  cutLast?_append fun hmem => (hreference _ hmem).2 rfl

end

/-- A key is read back from its text exactly if the name of its sheet reads itself back and its address
lies on a sheet. -/
theorem CellKey.ofText_toText_iff {k : CellKey} :
    CellKey.ofText k.toText = .ok k ↔
      SheetName.ofChars k.sheet.text.toList = .ok k.sheet ∧ k.address.InBounds := by
  have hreference : ∀ c ∈ k.address.chars, isBlank c = false ∧ c ≠ '!' := fun c hc =>
    Address.mem_chars hc
  rw [CellKey.ofText, CellKey.ofChars, toText, String.toList_ofList,
    trim_reference k.address.chars_ne_nil hreference]
  simp only [cutLast?_reference hreference, k.sheet.sheetOfChars_chars, bind, Except.bind]
  constructor
  · intro h
    cases hsheet : SheetName.ofChars k.sheet.text.toList with
    | error e =>
        rw [hsheet] at h
        cases h
    | ok sheet =>
        cases haddress : Address.ofChars k.address.chars with
        | error e =>
            rw [hsheet, haddress] at h
            cases h
        | ok a =>
            simp only [hsheet, haddress, Except.ok.injEq] at h
            subst h
            exact ⟨rfl, Address.inBounds_of_ofChars haddress⟩
  · rintro ⟨hsheet, hbounds⟩
    rw [hsheet, Address.ofChars_chars hbounds]

/-! ## Targets -/

namespace Target

/-- A text with a character that is no letter is no other text in some case. -/
theorem sameAsciiCase_eq_false {s t : String} {c : Char} (hmem : c ∈ s.toList) (hself : c.toUpper = c)
    (hnot : c ∉ (asciiUpper t).toList) : sameAsciiCase s t = false := by
  refine beq_eq_false_iff_ne.2 fun heq => hnot ?_
  rw [← heq, asciiUpper, String.toList_ofList]
  exact List.mem_map.2 ⟨c, hmem, hself⟩

theorem booleanOfText?_eq_none {s : String} {c : Char} (hmem : c ∈ s.toList) (hself : c.toUpper = c)
    (hnot : c ∉ ['A', 'E', 'F', 'L', 'R', 'S', 'T', 'U']) : CellValue.booleanOfText? s = none := by
  have hletters : ∀ t ∈ ["TRUE", "FALSE"], c ∉ (asciiUpper t).toList := by
    have hall : ∀ t ∈ ["TRUE", "FALSE"],
        (asciiUpper t).toList.all (· ∈ ['A', 'E', 'F', 'L', 'R', 'S', 'T', 'U']) = true := by
      decide +kernel
    exact fun t ht hc => hnot (of_decide_eq_true (List.all_eq_true.1 (hall t ht) c hc))
  have htrue := hletters "TRUE" List.mem_cons_self
  have hfalse := hletters "FALSE" (List.mem_cons_of_mem _ List.mem_cons_self)
  rw [CellValue.booleanOfText?, sameAsciiCase_eq_false hmem hself htrue,
    sameAsciiCase_eq_false hmem hself hfalse]
  rfl

/-- What begins as the name of a sheet and has a mark behind it is no constant. -/
theorem constant?_eq_none {c : Char} {cs : List Char} (hc : c = '\'' ∨ c = '_' ∨ c.isAlpha = true)
    (hmark : '!' ∈ cs) : constant? (c :: cs) = none := by
  have hdigit : c.isDigit = false := by
    refine Bool.eq_false_iff.2 fun hdigit => ?_
    have hall : ∀ d ∈ digitChars, d ≠ '\'' ∧ d ≠ '_' ∧ d.isAlpha = false :=
      List.all_iff_forall_prop.1 (by decide)
    exact ne_of_opens hc (hall c (mem_digitChars hdigit)) rfl
  have hsigns : c ∉ ['+', '-', '.'] := by
    intro hmem
    have hall : ∀ d ∈ ['+', '-', '.'], d ≠ '\'' ∧ d ≠ '_' ∧ d.isAlpha = false :=
      List.all_iff_forall_prop.1 (by decide)
    exact ne_of_opens hc (hall c hmem) rfl
  have hquote : ¬ '"' = c := (ne_of_opens hc (by decide)).symm
  have hmem : '!' ∈ (String.ofList (c :: cs)).toList := by
    rw [String.toList_ofList]
    exact List.mem_cons_of_mem _ hmark
  have htext : between? '"' (c :: cs) = none := by simp [between?, afterLead?, hquote]
  have hboolean : CellValue.booleanOfText? (String.ofList (c :: cs)) = none :=
    booleanOfText?_eq_none hmem (by decide) (by decide)
  have hnumber : Decimal.ofText? (String.ofList (c :: cs)) = none := by
    rw [Decimal.ofText?, String.toList_ofList, Decimal.read?_eq_none hdigit hsigns]
  simp only [constant?, htext, hboolean, hnumber]
  rfl

/-- A reference on a sheet is read as its sheet, without undoubling quotes, and its range. -/
theorem ofText_reference (s : SheetName) {reference : List Char} (hne : reference ≠ [])
    (hreference : ∀ c ∈ reference, isBlank c = false ∧ c ≠ '!') :
    ofText (String.ofList (s.chars ++ '!' :: reference)) =
      (SheetName.ofChars s.chars).bind fun sheet =>
        (Range.ofChars reference).bind fun area => .ok (ofRange sheet area) := by
  obtain ⟨c, rest, hcons, hc⟩ := s.exists_chars_eq_cons
  have hlead : afterLead? ['='] (s.chars ++ '!' :: reference) = none := by
    rw [hcons, List.cons_append, afterLead?, if_neg (ne_of_opens hc (by decide)).symm]
  have hconstant : constant? (s.chars ++ '!' :: reference) = none := by
    rw [hcons, List.cons_append]
    exact constant?_eq_none hc (List.mem_append_right _ List.mem_cons_self)
  rw [ofText, String.toList_ofList, trim_reference hne hreference, hlead, Option.getD_none,
    trim_reference hne hreference, hconstant]
  simp only [cutLast?_reference hreference]
  rfl

theorem toText_range (sheet : SheetName) (area : Range) :
    (range sheet area).toText = String.ofList (sheet.chars ++ '!' :: area.toText.toList) := by
  rw [← String.toList_inj]
  simp [toText, SheetName.toText]

theorem toText_ofRange (sheet : SheetName) (area : Range) :
    (ofRange sheet area).toText = (range sheet area).toText := by
  rw [ofRange]
  split
  next hsingle =>
    rw [toText_range, Range.toList_toText, if_pos hsingle]
    rfl
  next => rfl

theorem ofRange_single (k : CellKey) : ofRange k.sheet (.single k.address) = .cell k := by
  simp [ofRange, Range.isSingle, Range.single]

theorem sheet?_ofRange (sheet : SheetName) (area : Range) : (ofRange sheet area).sheet? = some sheet := by
  rw [ofRange]
  split <;> rfl

/-- A cell or a range is read back from its text exactly if its sheet is, without undoubling quotes. -/
theorem ofText_toText_ofRange_iff {sheet : SheetName} {area : Range} (hstart : area.start.InBounds)
    (hstop : area.stop.InBounds) :
    ofText (ofRange sheet area).toText = .ok (ofRange sheet area) ↔
      SheetName.ofChars sheet.chars = .ok sheet := by
  rw [toText_ofRange, toText_range, ofText_reference sheet area.toText_ne_nil fun _ => Range.mem_toText,
    Range.ofChars_toText hstart hstop]
  constructor
  · intro h
    cases hsheet : SheetName.ofChars sheet.chars with
    | error e =>
        rw [hsheet] at h
        cases h
    | ok sheet' =>
        rw [hsheet] at h
        have hsame : (ofRange sheet' area).sheet? = (ofRange sheet area).sheet? :=
          congrArg sheet? (Except.ok.inj h)
        rw [sheet?_ofRange, sheet?_ofRange] at hsame
        exact congrArg Except.ok (Option.some.inj hsame)
  · intro h
    rw [h]
    rfl

/-! ## Constants -/

/-- A constant without blanks at its ends and without an equals sign is read as itself. -/
theorem ofText_constant {body : List Char} {v : CellValue} (hopens : Opens body) (hcloses : Closes body)
    (h : constant? body = some v) : ofText (String.ofList body) = .ok (.constant v) := by
  obtain ⟨c, rest, rfl, hblank, hequals, -⟩ := hopens
  obtain ⟨d, hlast, hd⟩ := hcloses
  have htrim : trim (c :: rest) = c :: rest := trim_eq_self hblank hlast hd
  have hlead : afterLead? ['='] (c :: rest) = none := if_neg hequals.symm
  rw [ofText, String.toList_ofList, htrim, hlead, Option.getD_none, htrim, h]

theorem ofText_toText_number (n : Decimal) :
    ofText (constant (.number n)).toText = .ok (.constant (.number n.normalize)) := by
  have hzero : n.normalize.coefficient = 0 → n.normalize.negative = false := by
    intro hcoefficient
    have hmul := n.normalize_mul
    rw [hcoefficient, Nat.zero_mul, eq_comm, Nat.mul_eq_zero] at hmul
    rw [Decimal.normalize_of_zero (hmul.resolve_right (Nat.ne_of_gt (tenTo_pos _)))]
    rfl
  have hclass : ∀ c ∈ n.normalize.toText.toList, isBlank c = false ∧ c ≠ '=' ∧ c ≠ '>' ∧ c ≠ '"' := by
    intro c hc
    have hall : ∀ c ∈ digitChars, isBlank c = false ∧ c ≠ '=' ∧ c ≠ '>' ∧ c ≠ '"' :=
      List.all_iff_forall_prop.1 (by decide)
    rcases Decimal.mem_toText hc with rfl | rfl | hdigit
    · decide
    · decide
    · exact hall c (mem_digitChars hdigit)
  obtain ⟨d, hmem, hdigit⟩ := n.normalize.exists_digit_mem_toText
  have hne : n.normalize.toText.toList ≠ [] := List.ne_nil_of_mem hmem
  have hopens : Opens n.normalize.toText.toList := by
    obtain ⟨c, rest, hcons⟩ := List.exists_cons_of_ne_nil hne
    obtain ⟨hblank, hequals, hgreater, -⟩ := hclass c (hcons ▸ List.mem_cons_self)
    exact ⟨c, rest, hcons, hblank, hequals, hgreater⟩
  have hcloses : Closes n.normalize.toText.toList :=
    ⟨_, List.getLast?_eq_some_getLast hne, (hclass _ (List.getLast_mem hne)).1⟩
  have hconstant : constant? n.normalize.toText.toList = some (.number n.normalize) := by
    have htext : between? '"' n.normalize.toText.toList = none := by
      obtain ⟨c, rest, hcons⟩ := List.exists_cons_of_ne_nil hne
      have hquote := (hclass c (hcons ▸ List.mem_cons_self)).2.2.2
      rw [hcons]
      simp [between?, afterLead?, hquote.symm]
    have hboolean : CellValue.booleanOfText? n.normalize.toText = none := by
      have hall : ∀ d ∈ digitChars, d.toUpper = d ∧ d ∉ ['A', 'E', 'F', 'L', 'R', 'S', 'T', 'U'] :=
        List.all_iff_forall_prop.1 (by decide)
      obtain ⟨hself, hnot⟩ := hall d (mem_digitChars hdigit)
      exact booleanOfText?_eq_none hmem hself hnot
    simp only [constant?, htext, String.ofList_toList, hboolean, Decimal.ofText?_toText hzero]
    rfl
  have hread := ofText_constant hopens hcloses hconstant
  rwa [String.ofList_toList] at hread

/-- A constant that is read is read back from its text, with its number in normal form. -/
theorem ofText_toText_constant {body : List Char} {v : CellValue} (h : constant? body = some v) :
    ofText (constant v).toText = .ok (.constant v.normalize) := by
  simp only [constant?, Option.or_eq_some_iff, Option.map_eq_some_iff] at h
  rcases h with ⟨inner, -, rfl⟩ | ⟨-, ⟨b, -, rfl⟩ | ⟨-, n, -, rfl⟩⟩
  · have htext : (constant (.text (String.ofList inner))).toText =
        String.ofList ('"' :: (inner ++ ['"'])) := by
      simp [toText, String.append_assoc]
    rw [htext]
    refine ofText_constant ⟨'"', _, rfl, by decide⟩ (Closes.concat ('"' :: inner) (by decide)) ?_
    simp [constant?, between?, afterLead?, beforeEnd?]
    rfl
  · cases b <;> decide +kernel
  · exact ofText_toText_number n

/-! ## Targets that are read -/

/-- Whether two targets are the same, whatever the scale and the sign of zero of a number. -/
def agrees : Target → Target → Bool
  | constant v, constant w => v.agrees w
  | t, u => t == u

/-- A target that is read is a constant, or a range or cell of a sheet whose name was read. -/
theorem ofText_cases {s : String} {t : Target} (h : ofText s = .ok t) :
    (∃ body v, constant? body = some v ∧ t = .constant v) ∨
      ∃ cs sheet area, SheetName.ofChars cs = .ok sheet ∧ area.start.InBounds ∧ area.stop.InBounds ∧
        t = ofRange sheet area := by
  rw [ofText] at h
  split at h
  next v hv =>
    cases h
    exact Or.inl ⟨_, v, hv, rfl⟩
  next =>
    split at h
    next => cases h
    next cs reference _ =>
      cases hsheet : SheetName.ofChars cs with
      | error e => simp [hsheet, bind, Except.bind] at h
      | ok sheet =>
          cases harea : Range.ofChars reference with
          | error e => simp [hsheet, harea, bind, Except.bind] at h
          | ok area =>
              simp only [hsheet, harea, bind, Except.bind, Except.ok.injEq] at h
              obtain ⟨hstart, hstop⟩ := Range.inBounds_of_ofChars harea
              exact Or.inr ⟨cs, sheet, area, hsheet, hstart, hstop, h.symm⟩

theorem agrees_constant_normalize (v : CellValue) :
    (constant v.normalize).agrees (constant v) = true := by
  cases v with
  | number n => exact n.normalize_same
  | _ => simp [agrees, CellValue.normalize]

theorem agrees_ofRange_iff {t : Target} {sheet : SheetName} {area : Range} :
    t.agrees (ofRange sheet area) = true ↔ t = ofRange sheet area := by
  have hreference : ∀ u : Target, (∀ v, u ≠ constant v) → (t.agrees u = true ↔ t = u) := by
    intro u hu
    cases u with
    | constant v => exact absurd rfl (hu v)
    | cell k => cases t <;> simp [agrees]
    | range sheet area => cases t <;> simp [agrees]
  refine hreference _ fun v hv => ?_
  have hsheet := sheet?_ofRange sheet area
  rw [hv] at hsheet
  cases hsheet

/-- A target that is read is read back from its text exactly if it is a constant, or the name of its
sheet has no quote and is no longer than a text for a name may be. -/
theorem ofText_toText_iff {s : String} {t : Target} (h : ofText s = .ok t) :
    (∃ t', ofText t.toText = .ok t' ∧ t'.agrees t = true) ↔
      ∀ sheet, t.sheet? = some sheet →
        '\'' ∉ sheet.text.toList ∧ sheet.text.toList.length ≤ sheetNameLimit := by
  rcases ofText_cases h with ⟨body, v, hv, rfl⟩ | ⟨cs, sheet, area, hsheet, hstart, hstop, rfl⟩
  · refine iff_of_true ⟨_, ofText_toText_constant hv, agrees_constant_normalize v⟩ ?_
    rintro sheet ⟨⟩
  · have hformed := SheetName.wellFormed_of_ofChars hsheet
    simp only [agrees_ofRange_iff, sheet?_ofRange, Option.some.injEq, forall_eq']
    rw [exists_eq_right, ofText_toText_ofRange_iff hstart hstop,
      SheetName.ofChars_chars_eq_ok_iff hformed]

end Target

/-! ## Formulas -/

/-- A formula that is the text of a cell is read as the cell. -/
theorem ofText_cellKey {k : CellKey} (h : CellKey.ofText k.toText = .ok k) :
    Expr.ofText k.toText = .ok (.cell ⟨some k.sheet, k.address, ⟨false, false⟩⟩) := by
  obtain ⟨hsheet, hbounds⟩ := CellKey.ofText_toText_iff.1 h
  have hformed : Expr.isWellFormed (.cell ⟨some k.sheet, k.address, ⟨false, false⟩⟩) = true := by
    simp [Expr.isWellFormed, isCanonicalSheet, SheetName.ofText, hsheet, hbounds, Except.toOption]
  have hchars : k.toText =
      String.ofList (Expr.chars (.cell ⟨some k.sheet, k.address, ⟨false, false⟩⟩)) := by
    simp [CellKey.toText, Expr.chars, CellReference.chars, sheetMark, Address.chars_eq_anchoredChars]
  rw [hchars]
  exact Expr.ofText_chars hformed

/-- A formula that is the text of a range is read as the range. -/
theorem ofText_sheetRange {sheet : SheetName} {area : Range} (hsingle : area.isSingle = false)
    (hsheet : SheetName.ofChars sheet.text.toList = .ok sheet) (hstart : area.start.InBounds)
    (hstop : area.stop.InBounds) :
    Expr.ofText (Target.range sheet area).toText =
      .ok (.range ⟨some sheet, area, ⟨false, false⟩, ⟨false, false⟩⟩) := by
  have hformed :
      Expr.isWellFormed (.range ⟨some sheet, area, ⟨false, false⟩, ⟨false, false⟩⟩) = true := by
    simp [Expr.isWellFormed, isCanonicalSheet, SheetName.ofText, hsheet, hstart, hstop, Except.toOption]
  have hchars : (Target.range sheet area).toText =
      String.ofList (Expr.chars (.range ⟨some sheet, area, ⟨false, false⟩, ⟨false, false⟩⟩)) := by
    rw [Target.toText_range, Range.toList_toText, if_neg (Bool.eq_false_iff.1 hsingle)]
    simp [Expr.chars, RangeReference.chars, sheetMark, Address.chars_eq_anchoredChars]
  rw [hchars]
  exact Expr.ofText_chars hformed

/-! ## Defined names -/

namespace DefinedName

theorem ofText_eq_iff {name s : String} {n : DefinedName} :
    ofText name s = .ok n ↔ fault? name = none ∧ n.name = name ∧ Target.ofText s = .ok n.target := by
  rw [ofText]
  cases htarget : Target.ofText s with
  | error e => simp [bind, Except.bind]
  | ok t =>
      obtain ⟨name', t'⟩ := n
      simp only [bind, Except.bind, ofTarget]
      split
      next fault hfault => simp [hfault]
      next hnone => simp [hnone, eq_comm]

/-- A name reads back a cell or range of a sheet that reads itself back exactly if the name of the sheet
has no quote. -/
theorem ofText_toText_ofRange_iff {name : String} {sheet : SheetName} {area : Range}
    (hname : fault? name = none) (hsheet : SheetName.ofChars sheet.text.toList = .ok sheet)
    (hstart : area.start.InBounds) (hstop : area.stop.InBounds) :
    ofText name (Target.ofRange sheet area).toText = .ok ⟨name, .ofRange sheet area⟩ ↔
      '\'' ∉ sheet.text.toList := by
  rw [ofText_eq_iff, and_iff_right hname, and_iff_right rfl,
    Target.ofText_toText_ofRange_iff hstart hstop,
    SheetName.ofChars_chars_eq_ok_iff (SheetName.wellFormed_of_ofChars hsheet),
    and_iff_left ((SheetName.ofChars_text_eq_ok_iff (SheetName.wellFormed_of_ofChars hsheet)).1 hsheet).2]

/-- What a name was given is read back by this name exactly if the target is read back from its text. -/
theorem exists_ofText_toText_iff {name s : String} {n : DefinedName} (h : ofText name s = .ok n) :
    (∃ n', ofText name n.target.toText = .ok n' ∧ n'.target.agrees n.target = true) ↔
      ∃ t, Target.ofText n.target.toText = .ok t ∧ t.agrees n.target = true := by
  obtain ⟨hname, -, -⟩ := ofText_eq_iff.1 h
  constructor
  · rintro ⟨n', hn', hagrees⟩
    exact ⟨n'.target, (ofText_eq_iff.1 hn').2.2, hagrees⟩
  · rintro ⟨t, ht, hagrees⟩
    exact ⟨⟨name, t⟩, ofText_eq_iff.2 ⟨hname, rfl, ht⟩, hagrees⟩

/-- The texts of cells and ranges that keys read back are read by formulas as well, but by names only if
the name of the sheet has no quote.  What a name was given is read back from its text if it is a constant,
or the name of its sheet has no quote and is no longer than a text for a name may be. -/
theorem reads_references (name : String) (hname : fault? name = none) :
    (∀ k : CellKey, CellKey.ofText k.toText = .ok k →
      Expr.ofText k.toText = .ok (.cell ⟨some k.sheet, k.address, ⟨false, false⟩⟩) ∧
      (ofText name k.toText = .ok ⟨name, .cell k⟩ ↔ '\'' ∉ k.sheet.text.toList)) ∧
    (∀ (sheet : SheetName) (area : Range),
      (∀ a ∈ [area.start, area.stop], CellKey.ofText (CellKey.mk sheet a).toText = .ok ⟨sheet, a⟩) →
      (area.isSingle = false → Expr.ofText (Target.range sheet area).toText =
        .ok (.range ⟨some sheet, area, ⟨false, false⟩, ⟨false, false⟩⟩)) ∧
      (ofText name (Target.range sheet area).toText = .ok ⟨name, .ofRange sheet area⟩ ↔
        '\'' ∉ sheet.text.toList)) ∧
    ∀ (s : String) (n : DefinedName), ofText name s = .ok n →
      ((∃ n', ofText name n.target.toText = .ok n' ∧ n'.target.agrees n.target = true) ↔
        ∀ sheet, n.target.sheet? = some sheet →
          '\'' ∉ sheet.text.toList ∧ sheet.text.toList.length ≤ sheetNameLimit) := by
  refine ⟨?_, ?_, ?_⟩
  · intro k hk
    obtain ⟨hsheet, hbounds⟩ := CellKey.ofText_toText_iff.1 hk
    have hcell : ofText name (Target.ofRange k.sheet (.single k.address)).toText =
        .ok ⟨name, .ofRange k.sheet (.single k.address)⟩ ↔ '\'' ∉ k.sheet.text.toList :=
      ofText_toText_ofRange_iff hname hsheet hbounds hbounds
    rw [Target.ofRange_single] at hcell
    exact ⟨ofText_cellKey hk, hcell⟩
  · intro sheet area hcorners
    obtain ⟨hsheet, hstart⟩ := CellKey.ofText_toText_iff.1 (hcorners _ List.mem_cons_self)
    obtain ⟨-, hstop⟩ := CellKey.ofText_toText_iff.1
      (hcorners area.stop (List.mem_cons_of_mem _ List.mem_cons_self))
    refine ⟨fun hsingle => ofText_sheetRange hsingle hsheet hstart hstop, ?_⟩
    rw [← Target.toText_ofRange]
    exact ofText_toText_ofRange_iff hname hsheet hstart hstop
  · intro s n hn
    rw [exists_ofText_toText_iff hn]
    exact Target.ofText_toText_iff (ofText_eq_iff.1 hn).2.2

/-- The corners of a range on a quoted sheet are read alike, and so is a name for the range. -/
theorem reads_references_tiers :
    fault? "TIERS" = none ∧
    (∀ a ∈ [(⟨1, 1⟩ : Address), ⟨4, 2⟩],
      CellKey.ofText (CellKey.mk ⟨"MY RATES"⟩ a).toText = .ok ⟨⟨"MY RATES"⟩, a⟩) ∧
    ofText "TIERS" "'MY RATES'!B2:C5" =
      .ok ⟨"TIERS", .range ⟨"MY RATES"⟩ (.between ⟨1, 1⟩ ⟨4, 2⟩)⟩ ∧
    ∃ n', ofText "TIERS" "'MY RATES'!B2:C5" = .ok n' ∧
      n'.target.agrees (.range ⟨"MY RATES"⟩ (.between ⟨1, 1⟩ ⟨4, 2⟩)) = true := by
  have hname : fault? "TIERS" = none := by decide +kernel
  have hcorners : ∀ a ∈ [(⟨1, 1⟩ : Address), ⟨4, 2⟩],
      CellKey.ofText (CellKey.mk ⟨"MY RATES"⟩ a).toText = .ok ⟨⟨"MY RATES"⟩, a⟩ := by
    decide +kernel
  have htext : (Target.range ⟨"MY RATES"⟩ (.between ⟨1, 1⟩ ⟨4, 2⟩)).toText = "'MY RATES'!B2:C5" := by
    decide +kernel
  have hread := ((reads_references "TIERS" hname).2.1 ⟨"MY RATES"⟩ (.between ⟨1, 1⟩ ⟨4, 2⟩) hcorners).2.2
    (by decide)
  have hback := ((reads_references "TIERS" hname).2.2 _ _ hread).2 (by rintro sheet ⟨⟩; decide)
  exact ⟨hname, hcorners, htext ▸ hread, htext ▸ hback⟩

/-- A key undoubles the quotes in the name of its sheet, and a name does not. -/
theorem quoted_sheet_misread :
    (CellKey.mk ⟨"IT'S"⟩ ⟨0, 0⟩).toText = "'IT''S'!A1" ∧
      CellKey.ofText "'IT''S'!A1" = .ok ⟨⟨"IT'S"⟩, ⟨0, 0⟩⟩ ∧
      ofText "RATE" "'IT''S'!A1" = .ok ⟨"RATE", .cell ⟨⟨"IT''S"⟩, ⟨0, 0⟩⟩⟩ := by
  decide +kernel

end DefinedName

end PaintQuote.Sheet
