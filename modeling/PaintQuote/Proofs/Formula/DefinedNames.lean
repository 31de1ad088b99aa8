import PaintQuote.Proofs.Formula.Acceptance
import PaintQuote.Proofs.Sheet.Targets
import PaintQuote.Proofs.Values.Gives

/-!
# Defined names in formulas

A name that a workbook accepts is one word of a formula, but not always a name there.  The workbook
refuses what is read as an address or a logical value; formulas take every word of letters and digits for
an address, also where no such cell exists, and a word for a logical value if it is one in upper case,
which the long s makes of a word that is none before.  These words are the only ones: an accepted name
that is neither is read as itself and has the value of what it stands for
(`Workbook.define_usable_iff`).
-/

namespace PaintQuote.Formula

open Sheet Text
open Token (startsWord continuesWord hasAddressShape ofWord)

variable {s : String} {cs : List Char}

/-! ## Words with the shape of an address -/

/-- A text is letters and then digits, as an address is. -/
def IsAddressLike (cs : List Char) : Prop :=
  ∃ letters digits, cs = letters ++ digits ∧ letters ≠ [] ∧ digits ≠ [] ∧
    (∀ c ∈ letters, c.isAlpha = true) ∧ ∀ c ∈ digits, c.isDigit = true

theorem afterDollar_of_not_mem (h : '$' ∉ cs) : Address.afterDollar cs = cs := by
  cases cs with
  | nil => rfl
  | cons c rest =>
      have hc : ¬ '$' = c := fun heq => h (heq ▸ List.mem_cons_self)
      simp [Address.afterDollar, afterLead?, hc]

/-- Without dollar signs, a word with the shape of an address is letters and then digits. -/
theorem hasAddressShape_iff (h : '$' ∉ cs) : hasAddressShape cs = true ↔ IsAddressLike cs := by
  have hdigits : ∀ n, Address.afterDollar (cs.drop n) = cs.drop n := fun n =>
    afterDollar_of_not_mem fun hmem => h (List.mem_of_mem_drop hmem)
  simp only [hasAddressShape, afterDollar_of_not_mem h, hdigits, Bool.and_eq_true, Bool.not_eq_true',
    List.isEmpty_eq_false_iff, List.all_eq_true]
  constructor
  · rintro ⟨⟨hletters, hne⟩, hall⟩
    refine ⟨_, _, ?_, hletters, hne, fun c hc => List.mem_takeWhile_imp hc, hall⟩
    exact (List.prefix_iff_eq_append.1 (List.takeWhile_prefix _)).symm
  · rintro ⟨letters, digits, rfl, hletters, hne, halpha, hdigit⟩
    have hhead : ∀ c ∈ digits.head?, c.isAlpha = false := by
      intro c hc
      have hnone : ∀ c ∈ digitChars, c.isAlpha = false := List.all_iff_forall_prop.1 (by decide)
      exact hnone c (mem_digitChars (hdigit c (List.mem_of_mem_head? hc)))
    rw [takeWhile_run halpha hhead, List.drop_left]
    exact ⟨⟨hletters, hne⟩, hdigit⟩

/-- A text with a digit is no logical value in upper case. -/
theorem upperChars_ne_of_isDigit {c : Char} (hdigit : c.isDigit = true) (hmem : c ∈ cs) (b : Bool) :
    upperChars cs ≠ (CellValue.booleanText b).toList := by
  have hall : ∀ c ∈ digitChars, c.toNat < 128 ∧ c.isAlpha = false ∧
      ∀ b, c ∉ (CellValue.booleanText b).toList :=
    List.all_iff_forall_prop.1 (by decide)
  obtain ⟨hascii, hletter, hnot⟩ := hall c (mem_digitChars hdigit)
  intro heq
  refine hnot b ?_
  rw [← heq, mem_upperChars_iff hascii hletter]
  exact hmem

theorem IsAddressLike.upper_ne (h : IsAddressLike s.toList) (b : Bool) :
    upper s ≠ CellValue.booleanText b := by
  obtain ⟨letters, digits, hs, -, hne, -, hdigits⟩ := h
  obtain ⟨c, rest, hcons⟩ := List.exists_cons_of_ne_nil hne
  have hmem : c ∈ s.toList := by
    rw [hs, hcons]
    exact List.mem_append_right _ List.mem_cons_self
  intro heq
  refine upperChars_ne_of_isDigit (hdigits c (hcons ▸ List.mem_cons_self)) hmem b ?_
  rw [← heq, upper, String.toList_ofList]

/-! ## The token of a word -/

theorem ofWord_booleanText {b : Bool} (h : upper s = CellValue.booleanText b) :
    ofWord s.toList false = .literal (.boolean b) := by
  have hupper : upperChars s.toList = (CellValue.booleanText b).toList := by
    rw [← h, upper, String.toList_ofList]
  cases b with
  | true => simp [ofWord, hupper, CellValue.booleanText]
  | false => simp [ofWord, hupper, CellValue.booleanText]

theorem ofWord_addressLike (hdollar : '$' ∉ s.toList) (h : IsAddressLike s.toList) :
    ofWord s.toList false = .reference s := by
  have hupper : ∀ b, upperChars s.toList ≠ (CellValue.booleanText b).toList := fun b heq =>
    h.upper_ne b (String.toList_inj.1 (by rw [upper, String.toList_ofList, heq]))
  have htrue : upperChars s.toList ≠ "TRUE".toList := hupper true
  have hfalse : upperChars s.toList ≠ "FALSE".toList := hupper false
  simp only [ofWord, and_true]
  rw [if_neg htrue, if_neg hfalse, if_pos ((hasAddressShape_iff hdollar).2 h), String.ofList_toList]

theorem ofWord_word (hdollar : '$' ∉ s.toList) (h : ¬ IsAddressLike s.toList)
    (hupper : ∀ b, upper s ≠ CellValue.booleanText b) : ofWord s.toList false = .word s := by
  refine ofWord_eq_word_iff.2 ⟨?_, ?_, hupper true, hupper false⟩
  · simpa using hdollar
  · rw [← Bool.not_eq_true, hasAddressShape_iff hdollar]
    exact h

/-! ## Names that are accepted -/

theorem fault?_eq_none_iff :
    DefinedName.fault? s = none ↔ DefinedName.isWellFormed s.toList = true ∧
      (∃ error, Address.ofText s = .error error) ∧ CellValue.booleanOfText? s = none := by
  have haddress : (∃ error, Address.ofText s = .error error) ↔ ¬ (Address.ofText s).toBool = true := by
    cases Address.ofText s <;> simp [Except.toBool]
  rw [haddress, DefinedName.fault?]
  split
  next h => exact iff_of_false nofun fun hs => by simp [hs.1] at h
  next hformed =>
    split
    next h => exact iff_of_false nofun fun hs => hs.2.1 h
    next hnone =>
      split
      next h => exact iff_of_false nofun fun hs => by simp [hs.2.2] at h
      next hboolean => exact iff_of_true rfl ⟨by simpa using hformed, hnone, by simpa using hboolean⟩

/-- A text that is formed as a name is a word without dollar signs. -/
theorem isIdentifier_of_isWellFormed (h : DefinedName.isWellFormed cs = true) :
    isIdentifier cs = true ∧ '$' ∉ cs := by
  cases cs with
  | nil => cases h
  | cons c rest =>
      simp only [DefinedName.isWellFormed, Bool.and_eq_true, List.all_eq_true] at h
      obtain ⟨hc, hrest⟩ := h
      refine ⟨isIdentifier_cons.2 ⟨?_, fun d hd => ?_⟩, ?_⟩
      · simp only [startsWord, Bool.or_eq_true] at hc ⊢
        tauto
      · have hd := hrest d hd
        simp only [continuesWord, Bool.or_eq_true] at hd ⊢
        tauto
      · intro hmem
        rcases List.mem_cons.1 hmem with rfl | hmem
        · exact absurd hc (by decide)
        · exact absurd (hrest _ hmem) (by decide)

/-- A formula that is one word has the token of this word. -/
theorem ofChars_body_word (h : isIdentifier s.toList = true) :
    ∃ p q, Tokens.ofChars (Expr.body s.toList) = .next p (ofWord s.toList false) (.stop q) := by
  have hbody : Expr.body s.toList = s.toList := by
    cases hs : s.toList with
    | nil =>
        rw [hs] at h
        cases h
    | cons c rest =>
        obtain ⟨hc, hrest⟩ := isIdentifier_cons.1 (hs ▸ h)
        have hcontinues : ∀ d ∈ c :: rest, continuesWord d = true :=
          List.forall_mem_cons.2 ⟨continuesWord_of_startsWord hc, hrest⟩
        have hword : ∀ d ∈ c :: rest, isBlank d = false := fun d hd =>
          not_isBlank_of_continuesWord (hcontinues d hd)
        have hequals : ¬ '=' = c := by
          rintro rfl
          exact absurd hc (by decide)
        rw [Expr.body, trim_of_forall hword, afterLead?, if_neg hequals]
        rfl
  obtain ⟨q, p, rest, hnext, rfl⟩ := cutInto_word h 0 [] .nil
  rw [List.append_nil] at hnext
  exact ⟨p, q, by rw [hbody, Tokens.ofChars, hnext, Tokens.scan]⟩

theorem ofTokens_reference (p q : Nat) {s : String} {error : ReferenceError}
    (h : Address.ofText s = .error error) :
    Expr.ofTokens (.next p (.reference s) (.stop q)) = .error ⟨p, .reference s error⟩ := by
  have hprimary : ∀ inner, Reader.primary inner (.next p (.reference s) (.stop q)) =
      .error ⟨p, .reference s error⟩ := by
    intro inner
    rw [Reader.primary, Reader.cellReference, h]
    rfl
  have hexpression : Reader.expression 2 (.next p (.reference s) (.stop q)) =
      .error ⟨p, .reference s error⟩ := by
    simp only [Reader.expression, Reader.expressionOver, Reader.chain, Reader.signed, Reader.range,
      hprimary, bind, Except.bind]
  simp only [Expr.ofTokens, Tokens.length, hexpression, bind, Except.bind]

section

variable (hfault : DefinedName.fault? s = none)

include hfault

/-- An accepted name is one word without dollar signs, and no address. -/
theorem reads_word : '$' ∉ s.toList ∧ Expr.textTokens s = [ofWord s.toList false] ∧
    ∃ p q, Expr.ofText s = Expr.ofTokens (.next p (ofWord s.toList false) (.stop q)) := by
  obtain ⟨hformed, -, -⟩ := fault?_eq_none_iff.1 hfault
  obtain ⟨hword, hdollar⟩ := isIdentifier_of_isWellFormed hformed
  obtain ⟨p, q, htokens⟩ := ofChars_body_word hword
  exact ⟨hdollar, by rw [Expr.textTokens, htokens]; rfl, p, q, by rw [Expr.ofText, htokens]⟩

/-- An accepted name of letters and digits is read as a reference to a cell that does not exist. -/
theorem reads_addressLike (h : IsAddressLike s.toList) :
    Expr.textTokens s = [.reference s] ∧ ∃ error, Expr.ofText s = .error error := by
  obtain ⟨hdollar, htokens, p, q, hread⟩ := reads_word hfault
  obtain ⟨-, ⟨error, haddress⟩, -⟩ := fault?_eq_none_iff.1 hfault
  rw [ofWord_addressLike hdollar h] at htokens hread
  exact ⟨htokens, _, hread.trans (ofTokens_reference p q haddress)⟩

theorem reads_boolean {b : Bool} (h : upper s = CellValue.booleanText b) :
    Expr.textTokens s = [.literal (.boolean b)] ∧ Expr.ofText s = .ok (.literal (.boolean b)) := by
  obtain ⟨-, htokens, p, q, hread⟩ := reads_word hfault
  rw [ofWord_booleanText h] at htokens hread
  exact ⟨htokens, hread⟩

/-- Every other accepted name is read as itself. -/
theorem reads_plain (h : ¬ IsAddressLike s.toList ∧ ∀ b, upper s ≠ CellValue.booleanText b) :
    Expr.textTokens s = [.word s] ∧ Expr.ofText s = .ok (.name s) := by
  obtain ⟨hdollar, htokens, p, q, hread⟩ := reads_word hfault
  rw [ofWord_word hdollar h.1 h.2] at htokens hread
  exact ⟨htokens, hread⟩

end

end PaintQuote.Formula

namespace PaintQuote.Sheet

open Text Formula

/-- The value of a target, given the values of cells. -/
def Target.value (value : CellKey → CellValue) : Target → Value
  | .cell key => .scalar (value key)
  | .range sheet area => .array (area.rows.map fun row => row.map fun a => value ⟨sheet, a⟩)
  | .constant v => .scalar v

/-- A name has the value of its target, if the sheet of the target exists. -/
theorem gives_nameValue {c : Context} {name : String} {n : DefinedName}
    (hname : c.source.name? name = some n)
    (hsheet : ∀ sheet, n.target.sheet? = some sheet → c.source.hasSheet sheet = true) :
    Logged.Gives (c.nameValue name) (n.target.value c.source.value) := by
  have hresolve : ∀ sheet, n.target.sheet? = some sheet → c.resolve (some sheet) = .ok sheet :=
    fun sheet h => if_pos (hsheet sheet h)
  simp only [Context.nameValue, hname]
  cases htarget : n.target with
  | cell key => exact Context.gives_cellValue (hresolve key.sheet (by rw [htarget]; rfl)) _
  | range sheet area => exact Context.gives_rangeValue (hresolve sheet (by rw [htarget]; rfl)) _
  | constant v => exact .pure _

namespace Workbook

theorem define_eq_ok {w w' : Workbook} {name target : String} (h : w.define name target = .ok w') :
    DefinedName.fault? name = none ∧
      ∃ t, Target.ofText target = .ok t ∧ w'.name? name = some ⟨name, t⟩ := by
  obtain ⟨n, hread, rfl⟩ := eq_of_define h
  obtain ⟨hfault, rfl, htarget⟩ := DefinedName.ofText_eq_iff.1 hread
  exact ⟨hfault, n.target, htarget, (NameTable.find?_insert w.names n n.name).trans (if_pos rfl)⟩

/-- A workbook without names accepts every name that is one, with any target. -/
theorem exists_define_empty {name target : String} (h : (DefinedName.ofText name target).toBool = true) :
    ∃ w', empty.define name target = .ok w' := by
  cases hread : DefinedName.ofText name target with
  | error e =>
      rw [hread] at h
      cases h
  | ok n =>
      refine ⟨{ empty with names := empty.names.insert (DefinedName.lookupKey n.name) n }, ?_⟩
      rw [define, hread]
      rfl

/-- A name that a workbook accepts is read by formulas as this name exactly if it is neither letters and
digits nor a logical value in upper case.  Else it is read as a reference, which is refused, or as the
logical value.  As a name it has the value of its target, if the sheet of the target exists. -/
theorem define_usable_iff {w w' : Workbook} {name target : String}
    (h : w.define name target = .ok w') :
    ∃ t, Target.ofText target = .ok t ∧ w'.name? name = some ⟨name, t⟩ ∧
      (Expr.ofText name = .ok (.name name) ↔
        ¬ IsAddressLike name.toList ∧ ∀ b, upper name ≠ CellValue.booleanText b) ∧
      (Expr.textTokens name = [.word name] ↔
        ¬ IsAddressLike name.toList ∧ ∀ b, upper name ≠ CellValue.booleanText b) ∧
      (IsAddressLike name.toList → Expr.textTokens name = [.reference name] ∧
        ∃ error, Expr.ofText name = .error error) ∧
      (∀ b, upper name = CellValue.booleanText b → Expr.textTokens name = [.literal (.boolean b)] ∧
        Expr.ofText name = .ok (.literal (.boolean b))) ∧
      ∀ c : Context, c.source.name? name = w'.name? name →
        (∀ sheet, t.sheet? = some sheet → c.source.hasSheet sheet = true) →
        (evaluateAlone c (.name name)).1 = t.value c.source.value := by
  obtain ⟨hfault, t, htarget, hname⟩ := define_eq_ok h
  have hlike := reads_addressLike hfault
  have hboolean := @reads_boolean name hfault
  have hplain := reads_plain hfault
  refine ⟨t, htarget, hname, ⟨fun hread => ⟨fun h => ?_, fun b h => ?_⟩, fun h => (hplain h).2⟩,
    ⟨fun hread => ⟨fun h => ?_, fun b h => ?_⟩, fun h => (hplain h).1⟩, hlike, fun _ => hboolean, ?_⟩
  · obtain ⟨error, herror⟩ := (hlike h).2
    rw [herror] at hread
    cases hread
  · rw [(hboolean h).2] at hread
    cases hread
  · rw [(hlike h).1] at hread
    cases hread
  · rw [(hboolean h).1] at hread
    cases hread
  · intro c hc hsheet
    exact (gives_nameValue (hc.trans hname) hsheet).sparing []

/-- A name for a cell of the rates is read as itself, and has the value of this cell. -/
theorem define_usable_rate :
    ∃ w', empty.define "RATE" "Rates!$B$2" = .ok w' ∧
      Expr.ofText "RATE" = .ok (.name "RATE") ∧
      ∀ value : CellKey → CellValue,
        (evaluateAlone ⟨⟨value, fun _ => true, w'.name?⟩, .standard⟩ (.name "RATE")).1 =
          .scalar (value ⟨⟨"RATES"⟩, ⟨1, 1⟩⟩) := by
  have hread : DefinedName.ofText "RATE" "Rates!$B$2" =
      .ok ⟨"RATE", .cell ⟨⟨"RATES"⟩, ⟨1, 1⟩⟩⟩ := by
    decide +kernel
  obtain ⟨w', h⟩ : ∃ w', empty.define "RATE" "Rates!$B$2" = .ok w' :=
    exists_define_empty (by rw [hread]; rfl)
  have hlike : ¬ IsAddressLike "RATE".toList := by
    rw [← hasAddressShape_iff (by decide)]
    decide +kernel
  obtain ⟨t, htarget, -, hname, -, -, -, hvalue⟩ := define_usable_iff h
  rw [(DefinedName.ofText_eq_iff.1 hread).2.2] at htarget
  cases htarget
  refine ⟨w', h, hname.2 ⟨hlike, by decide +kernel⟩, fun value => ?_⟩
  exact hvalue ⟨⟨value, fun _ => true, w'.name?⟩, .standard⟩ rfl fun _ _ => rfl

/-- Letters and digits that are no address of a sheet are accepted as a name, and so is a word that is a
logical value in upper case only; formulas read neither as a name. -/
theorem accepted_names_misread :
    (∃ w', empty.define "AAAA1" "5" = .ok w') ∧ Expr.textTokens "AAAA1" = [.reference "AAAA1"] ∧
      (∃ error, Expr.ofText "AAAA1" = .error error) ∧
      (∃ w', empty.define "FALſE" "5" = .ok w') ∧
      Expr.ofText "FALſE" = .ok (.literal (.boolean false)) := by
  have hlike : IsAddressLike "AAAA1".toList :=
    (hasAddressShape_iff (by decide)).1 (by decide +kernel)
  obtain ⟨htokens, herror⟩ := reads_addressLike (by decide +kernel) hlike
  have hboolean : Expr.ofText "FALſE" = .ok (.literal (.boolean false)) :=
    (reads_boolean (by decide +kernel) (by decide +kernel)).2
  exact ⟨exists_define_empty (by decide +kernel), htokens, herror,
    exists_define_empty (by decide +kernel), hboolean⟩

end Workbook

end PaintQuote.Sheet
