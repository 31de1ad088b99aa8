import PaintQuote.Proofs.Decimal.ReadBack
import PaintQuote.Proofs.Formula.References

/-!
# Cutting written parts

Each part of a written formula is cut into the token it was written for, as long as what follows
does not go on with it (`CutInto`).  What may follow differs: nothing goes on with a parenthesis, an
equals sign goes on with a less-than sign, and a number, a word or a text in quotes needs a
delimiter.
-/

namespace PaintQuote.Formula

open Sheet Text Token

/-! ## Tokens in front -/

/-- The tokens start with the given ones, and `tail` is what comes after these. -/
def Leads : List Token → Tokens → Tokens → Prop
  | [], tokens, tail => tokens = tail
  | token :: lead, tokens, tail =>
      ∃ position rest, tokens = .next position token rest ∧ Leads lead rest tail

theorem leads_append {lead more : List Token} {tokens tail : Tokens} :
    Leads (lead ++ more) tokens tail ↔
      ∃ middle, Leads lead tokens middle ∧ Leads more middle tail := by
  induction lead generalizing tokens with
  | nil => simp [Leads]
  | cons token lead ih =>
      simp only [List.cons_append, Leads, ih]
      constructor
      · rintro ⟨position, rest, htokens, middle, hlead, hmore⟩
        exact ⟨middle, ⟨position, rest, htokens, hlead⟩, hmore⟩
      · rintro ⟨middle, ⟨position, rest, htokens, hlead⟩, hmore⟩
        exact ⟨position, rest, htokens, middle, hlead, hmore⟩

theorem Leads.length {lead : List Token} {tokens tail : Tokens} (h : Leads lead tokens tail) :
    tokens.length = lead.length + tail.length := by
  induction lead generalizing tokens with
  | nil =>
      cases h
      simp
  | cons token lead ih =>
      obtain ⟨position, rest, rfl, hrest⟩ := h
      rw [Tokens.length, ih hrest, List.length_cons]
      omega

/-- A text is cut into the given tokens, whatever `follows` it. -/
def CutInto (follows : List Char → Prop) (cs : List Char) (lead : List Token) : Prop :=
  ∀ position rest, follows rest →
    ∃ position', Leads lead (Tokens.scan position 0 (cs ++ rest)) (Tokens.scan position' 0 rest)

section

variable {F G : List Char → Prop} {c : Char} {cs ds : List Char} {token : Token}
  {lead more : List Token}

/-- A text is one token if that token is read at its start and ends where the text does. -/
theorem CutInto.one (hc : isBlank c = false)
    (h : ∀ rest, F rest → Token.read c (cs ++ rest) = (token, cs.length)) :
    CutInto F (c :: cs) [token] := by
  intro position rest hrest
  have hskip := Tokens.scan_skip (position + c.utf8Size) cs.length (cs ++ rest)
  rw [List.take_left, List.drop_left] at hskip
  refine ⟨position + c.utf8Size + byteLength cs, position, _, ?_, hskip⟩
  rw [List.cons_append, Tokens.scan, if_neg (by simp [hc]), h rest hrest]

theorem CutInto.nil : CutInto F [] [] := fun position _ _ => ⟨position, rfl⟩

/-- Two texts next to each other are cut apart if the second may follow the first. -/
theorem CutInto.append (h : CutInto F cs lead) (h' : CutInto G ds more)
    (hfollows : ∀ rest, G rest → F (ds ++ rest)) : CutInto G (cs ++ ds) (lead ++ more) := by
  intro position rest hrest
  obtain ⟨middle, hlead⟩ := h position (ds ++ rest) (hfollows rest hrest)
  obtain ⟨position', hmore⟩ := h' middle rest hrest
  rw [List.append_assoc]
  exact ⟨position', leads_append.2 ⟨_, hlead, hmore⟩⟩

theorem CutInto.mono (h : CutInto F cs lead) (hfollows : ∀ rest, G rest → F rest) :
    CutInto G cs lead := fun position rest hrest =>
  h position rest (hfollows rest hrest)

end

/-! ## Symbols -/

/-- What anything may follow. -/
abbrev Free : List Char → Prop := fun _ => True

theorem not_isBlank_of_symbol {c : Char} {token : Token} (h : ofSymbol? c = some token) :
    isBlank c = false := by
  unfold ofSymbol? at h
  split at h <;> first | rfl | cases h

theorem cutInto_symbol {c : Char} {token : Token} (h : ofSymbol? c = some token) :
    CutInto Free [c] [token] :=
  .one (not_isBlank_of_symbol h) fun rest _ => by simp [Token.read, h]

/-- What follows an operator goes on with none. -/
def Operand (rest : List Char) : Prop := ∀ c ∈ rest.head?, c ≠ '=' ∧ c ≠ '>'

theorem readLess_operand {rest : List Char} (h : Operand rest) :
    readLess rest = (.operator .less, 0) := by
  unfold readLess
  split
  · exact absurd rfl (h '=' rfl).1
  · exact absurd rfl (h '>' rfl).2
  · rfl

theorem readGreater_operand {rest : List Char} (h : Operand rest) :
    readGreater rest = (.operator .greater, 0) := by
  unfold readGreater
  split
  · exact absurd rfl (h '=' rfl).1
  · rfl

/-- The symbol of an operator is cut into the operator. -/
theorem cutInto_operator (o : BinaryOperator) : CutInto Operand o.symbol.toList [.operator o] := by
  cases o with
  | less => exact .one (by decide) fun rest h => readLess_operand h
  | greater => exact .one (by decide) fun rest h => readGreater_operand h
  | lessEqual =>
      show CutInto Operand ['<', '='] _
      exact .one (by decide) fun rest _ => rfl
  | greaterEqual =>
      show CutInto Operand ['>', '='] _
      exact .one (by decide) fun rest _ => rfl
  | notEqual =>
      show CutInto Operand ['<', '>'] _
      exact .one (by decide) fun rest _ => rfl
  | add | subtract | multiply | divide | power | equal | concatenate =>
      exact (cutInto_symbol rfl).mono fun _ _ => trivial

/-! ## Numbers -/

section

variable {whole fraction rest : List Char} (hwhole : ∀ c ∈ whole, c.isDigit = true)

include hwhole

/-- Digits are the whole of a number but for its exponent, if neither a digit nor a point follows. -/
theorem numberChars_whole (hend : ∀ c ∈ rest.head?, c.isDigit = false ∧ c ≠ '.') :
    numberChars (whole ++ rest) = (whole, exponentChars rest) := by
  have hnone : fractionChars rest = [] := by
    unfold fractionChars
    split
    · exact absurd rfl (hend '.' rfl).2
    · rfl
  rw [numberChars, takeWhile_run hwhole fun c hc => (hend c hc).1]
  simp only [List.drop_left, hnone, List.append_nil, List.length_nil, Nat.add_zero]

/-- Digits after a point belong to a number, up to what follows them. -/
theorem numberChars_fraction (hfraction : ∀ c ∈ fraction, c.isDigit = true)
    (hend : ∀ c ∈ rest.head?, c.isDigit = false) :
    numberChars (whole ++ '.' :: fraction ++ rest) = (whole ++ '.' :: fraction, exponentChars rest) := by
  have hpoint : ∀ c ∈ ('.' :: fraction ++ rest).head?, c.isDigit = false := by
    rintro c ⟨⟩
    rfl
  have htaken : fractionChars ('.' :: fraction ++ rest) = '.' :: fraction := by
    rw [List.cons_append, fractionChars, takeWhile_run hfraction hend]
  have hleft : (whole ++ ('.' :: fraction ++ rest)).drop (whole.length + ('.' :: fraction).length) =
      rest := by
    rw [← List.drop_drop, List.drop_left]
    exact List.drop_left
  rw [List.append_assoc, numberChars, takeWhile_run hwhole hpoint]
  simp only [List.drop_left, htaken, hleft]

/-- A whole part and a fraction are the parts of a number without an exponent. -/
theorem numberChars_pointed (hfraction : ∀ c ∈ fraction, c.isDigit = true) (h : Delimited rest) :
    numberChars (Decimal.pointed whole fraction ++ rest) = (Decimal.pointed whole fraction, []) := by
  have hend : ∀ c ∈ delimiters, c.isDigit = false ∧ c ≠ '.' :=
    List.all_iff_forall_prop.1 (by decide)
  have hnone : exponentChars rest = [] := by
    cases rest with
    | nil => rfl
    | cons c rest =>
        have hmark : ∀ c ∈ delimiters, ¬(c = 'e' ∨ c = 'E') :=
          List.all_iff_forall_prop.1 (by decide)
        rw [exponentChars.eq_def]
        exact if_neg (hmark c (h c rfl))
  rw [Decimal.pointed, ← hnone]
  split
  next => exact numberChars_whole hwhole fun c hc => hend c (h c hc)
  next => exact numberChars_fraction hwhole hfraction fun c hc => (hend c (h c hc)).1

end

/-- A digit, or a point before one, is read as the start of a number. -/
theorem read_number {c : Char} {rest : List Char}
    (h : (c.isDigit || (c == '.' && startsWithDigit rest)) = true) :
    Token.read c rest = readNumber (c :: rest) := by
  have hmem : c ∈ '.' :: digitChars := by
    rcases Bool.or_eq_true_iff.1 h with hc | hpoint
    · exact List.mem_cons_of_mem _ (mem_digitChars hc)
    · rw [beq_iff_eq.1 (Bool.and_eq_true_iff.1 hpoint).1]
      exact List.mem_cons_self
  have hsymbol : ∀ c ∈ '.' :: digitChars, ofSymbol? c = none :=
    List.all_iff_forall_prop.1 (by decide)
  have hmark : ∀ c ∈ '.' :: digitChars, c ≠ '<' ∧ c ≠ '>' ∧ c ≠ '"' ∧ c ≠ '\'' :=
    List.all_iff_forall_prop.1 (by decide)
  obtain ⟨hless, hgreater, htext, hsheet⟩ := hmark c hmem
  rw [Token.read, hsymbol c hmem]
  simp only [if_neg hless, if_neg hgreater, if_neg htext, if_neg hsheet, h, if_true]

section

variable {d : Decimal} (hd : d.negative = false)

include hd

theorem toText_eq_pointed : d.toText.toList = Decimal.pointed d.digitParts.1 d.digitParts.2 := by
  simp [Decimal.toText, hd]

/-- The text of a decimal without a minus is digits and a point. -/
theorem continuesWord_number :
    d.toText.toList ≠ [] ∧ ∀ c ∈ d.toText.toList, continuesWord c = true := by
  obtain ⟨hne, hwhole, hfraction, -, -⟩ := d.digitParts_spec
  have hpoint : continuesWord '.' = true := by decide
  rw [toText_eq_pointed hd, Decimal.pointed]
  split
  · exact ⟨hne, fun c hc => continuesWord_of_isDigit (hwhole c hc)⟩
  · refine ⟨by simp, fun c hc => ?_⟩
    rcases List.mem_append.1 hc with hc | hc
    · exact continuesWord_of_isDigit (hwhole c hc)
    · rcases List.mem_cons.1 hc with rfl | hc
      · exact hpoint
      · exact continuesWord_of_isDigit (hfraction c hc)

/-- The text of a decimal without a minus is cut into the decimal. -/
theorem cutInto_number : CutInto Delimited d.toText.toList [.literal (.number d)] := by
  obtain ⟨hne, hwhole, hfraction, hvalue, hscale⟩ := d.digitParts_spec
  have hread := Decimal.read?_pointed hd hne hwhole hfraction hvalue hscale
  obtain ⟨c, cs, hcs, hc⟩ : ∃ c cs, Decimal.pointed d.digitParts.1 d.digitParts.2 = c :: cs ∧
      c.isDigit = true := by
    obtain ⟨c, cs, hcs⟩ := List.exists_cons_of_ne_nil hne
    refine ⟨c, (Decimal.pointed (c :: cs) d.digitParts.2).tail, ?_, hwhole c (hcs ▸ List.mem_cons_self)⟩
    rw [hcs, Decimal.pointed]
    split <;> rfl
  have hnot : isBlank c = false := not_isBlank_of_continuesWord (continuesWord_of_isDigit hc)
  have hpoint : ¬ c = '.' := by
    rintro rfl
    cases hc
  rw [toText_eq_pointed hd, hcs]
  refine .one hnot fun rest hrest => ?_
  have hparts := numberChars_pointed hwhole hfraction hrest
  rw [hcs] at hread hparts
  rw [read_number (by rw [hc, Bool.true_or]), ← List.cons_append, readNumber, hparts]
  simp [hread, hpoint]

end

/-! ## Texts -/

/-- A text with its marks doubled is read back up to its closing mark. -/
theorem quoted?_double {mark : Char} {rest : List Char} (hrest : rest.head? ≠ some mark) :
    ∀ cs : List Char,
      quoted? mark (double mark cs ++ mark :: rest) = some (cs, (double mark cs).length + 1)
  | [] => by
      cases rest with
      | nil => simp [double, quoted?]
      | cons d rest =>
          have hd : ¬ d = mark := fun h => hrest (by rw [h]; rfl)
          simp [double, quoted?, hd]
  | c :: cs => by
      have ih := quoted?_double hrest cs
      by_cases hc : c = mark
      · subst hc
        simp [double, quoted?, ih]
      · obtain ⟨d, ds, hds⟩ : ∃ d ds, double mark cs ++ mark :: rest = d :: ds :=
          List.exists_cons_of_ne_nil (by simp)
        rw [hds] at ih
        simp [double, hc, hds, quoted?, ih]

/-- A text in quotes is cut into the text. -/
theorem cutInto_text (s : String) :
    CutInto Delimited (Literal.chars (.text s)) [.literal (.text s)] := by
  refine .one (by decide) fun rest hrest => ?_
  have hhead : rest.head? ≠ some '"' := fun h => absurd (hrest '"' h) (by decide)
  have hread : Token.read '"' (double '"' s.toList ++ '"' :: rest) =
      readText (double '"' s.toList ++ '"' :: rest) := rfl
  rw [List.append_assoc, List.singleton_append, hread, readText, quoted?_double hhead]
  simp

/-! ## Errors -/

/-- No literal of an error starts another. -/
theorem eq_of_literal_take : ∀ e ∈ ErrorValue.all, ∀ e' ∈ ErrorValue.all,
    e.literal.toList.take e'.literal.toList.length =
      e'.literal.toList.take e.literal.toList.length → e = e' := by
  decide

/-- A text that starts with the literal of an error starts with no other. -/
theorem leadingError?_literal (e : ErrorValue) (rest : List Char) :
    leadingError? (e.literal.toList ++ rest) = some e := by
  have hupper : ∀ e ∈ ErrorValue.all, e.literal.toList.map Char.toUpper = e.literal.toList := by
    decide
  have hself : startsWithError (e.literal.toList ++ rest) e = true := by
    simp [startsWithError, hupper e e.mem_all]
  have hunique : ∀ e', startsWithError (e.literal.toList ++ rest) e' = true → e = e' := by
    intro e' h
    have hlead : ((e.literal.toList ++ rest).take e'.literal.toList.length).map Char.toUpper =
        e'.literal.toList := by
      simpa [startsWithError] using h
    refine eq_of_literal_take e e.mem_all e' e'.mem_all ?_
    calc e.literal.toList.take e'.literal.toList.length
        = (e.literal.toList.map Char.toUpper).take e'.literal.toList.length := by
          rw [hupper e e.mem_all]
      _ = (((e.literal.toList ++ rest).take e'.literal.toList.length).map Char.toUpper).take
            e.literal.toList.length := by
          rw [← List.map_take, ← List.map_take, List.take_take, Nat.min_comm, ← List.take_take,
            List.take_left]
      _ = e'.literal.toList.take e.literal.toList.length := by rw [hlead]
  have hsome : (ErrorValue.all.find? (startsWithError (e.literal.toList ++ rest))).isSome = true :=
    List.find?_isSome.2 ⟨e, e.mem_all, hself⟩
  obtain ⟨e', he'⟩ := Option.isSome_iff_exists.1 hsome
  rw [leadingError?, he', hunique e' (List.find?_some he')]

/-- The literal of an error is cut into the error. -/
theorem cutInto_error (e : ErrorValue) :
    CutInto Delimited (Literal.chars (.error e)) [.literal (.error e)] := by
  obtain ⟨tail, htail⟩ : ∃ tail, e.literal.toList = '#' :: tail := by
    cases e <;> exact ⟨_, rfl⟩
  have hlead : ∀ rest, leadingError? ('#' :: (tail ++ rest)) = some e := fun rest => by
    rw [← List.cons_append, ← htail, leadingError?_literal]
  have hlength : e.literal.length = tail.length + 1 := by
    rw [← String.length_toList, htail, List.length_cons]
  rw [Literal.chars, htail]
  refine .one (by decide) fun rest _ => ?_
  have hread : Token.read '#' (tail ++ rest) = readError (tail ++ rest) := rfl
  simp only [hread, readError, hlead, hlength, Nat.add_sub_cancel]

/-! ## Words -/

/-- A character that starts a word is read as the start of one. -/
theorem read_startsWord {c : Char} (hc : startsWord c = true) (rest : List Char) :
    Token.read c rest = readWord c rest := by
  have hnot := not_mem_wordless hc
  have hsymbol : ofSymbol? c = none := by
    unfold ofSymbol?
    split <;> first | rfl | exact absurd (by decide) hnot
  have hdigit : c.isDigit = false := Bool.eq_false_iff.2 fun h =>
    hnot (List.mem_append_right _ (mem_digitChars h))
  simp only [wordless, List.cons_append, List.mem_cons, not_or] at hnot
  simp [Token.read, hsymbol, hdigit, hnot, hc]

/-- A word ends where a character follows that is no part of words. -/
theorem readWord_run {c : Char} {further after : List Char}
    (hfurther : ∀ d ∈ further, continuesWord d = true)
    (hafter : ∀ d ∈ after.head?, continuesWord d = false) :
    readWord c (further ++ after) =
      if after.head? = some '!' then (.sheet (String.ofList (c :: further)), further.length + 1)
      else (ofWord (c :: further) (after.head? == some '('), further.length) := by
  simp only [readWord, takeWhile_run hfurther hafter, List.drop_left]

section

variable {cs : List Char} (h : isIdentifier cs = true)

include h

/-- A word before a delimiter is cut into a word that is not called. -/
theorem cutInto_word : CutInto Delimited cs [ofWord cs false] := by
  cases cs with
  | nil => cases h
  | cons c further =>
      obtain ⟨hc, hfurther⟩ := isIdentifier_cons.1 h
      refine .one (not_isBlank_of_continuesWord (continuesWord_of_startsWord hc)) fun rest hrest => ?_
      have hmark : rest.head? ≠ some '!' := fun h => absurd (hrest '!' h) (by decide)
      have hcalled : rest.head? ≠ some '(' := fun h => absurd (hrest '(' h) (by decide)
      rw [read_startsWord hc, readWord_run hfurther fun d hd => continuesWord_delimiter d (hrest d hd),
        if_neg hmark, beq_false_of_ne hcalled]

/-- A word before a parenthesis is cut into a word that is called. -/
theorem cutInto_called : CutInto (fun rest => rest.head? = some '(') cs [ofWord cs true] := by
  cases cs with
  | nil => cases h
  | cons c further =>
      obtain ⟨hc, hfurther⟩ := isIdentifier_cons.1 h
      refine .one (not_isBlank_of_continuesWord (continuesWord_of_startsWord hc)) fun rest hrest => ?_
      have hend : ∀ d ∈ rest.head?, continuesWord d = false := by
        rw [hrest]
        rintro d ⟨⟩
        decide
      rw [read_startsWord hc, readWord_run hfurther hend, hrest]
      rfl

/-- A word with a sheet mark is cut into the name of a sheet. -/
theorem cutInto_sheetWord : CutInto Free (cs ++ ['!']) [.sheet (String.ofList cs)] := by
  cases cs with
  | nil => cases h
  | cons c further =>
      obtain ⟨hc, hfurther⟩ := isIdentifier_cons.1 h
      refine .one (not_isBlank_of_continuesWord (continuesWord_of_startsWord hc)) fun rest _ => ?_
      have hend : ∀ d ∈ ('!' :: rest).head?, continuesWord d = false := by
        rintro d ⟨⟩
        decide
      have hread := readWord_run (c := c) hfurther hend
      rw [if_pos (by rfl)] at hread
      simpa [read_startsWord hc] using hread

end

/-- A logical value is cut into itself. -/
theorem cutInto_boolean (b : Bool) :
    CutInto Delimited (Literal.chars (.boolean b)) [.literal (.boolean b)] := by
  have htrue : isIdentifier "TRUE".toList = true := by decide
  have hfalse : isIdentifier "FALSE".toList = true := by decide
  cases b with
  | true => exact cutInto_word htrue
  | false => exact cutInto_word hfalse

/-! ## References -/

/-- The name of a sheet that needs no quotes is formed as a word. -/
theorem isIdentifier_of_isWord {cs : List Char} (h : SheetName.isWord cs = true) :
    isIdentifier cs = true := by
  have hothers : startsWord '_' = true ∧ continuesWord '_' = true ∧ continuesWord '.' = true := by
    decide
  cases cs with
  | nil => cases h
  | cons c rest =>
      simp only [SheetName.isWord, Bool.and_eq_true, Bool.or_eq_true, beq_iff_eq,
        List.all_eq_true] at h
      refine isIdentifier_cons.2 ⟨?_, fun d hd => ?_⟩
      · rcases h.1 with hc | rfl
        · exact startsWord_of_isAlpha hc
        · exact hothers.1
      · rcases h.2 d hd with (hd | rfl) | rfl
        · rcases Bool.or_eq_true_iff.1 hd with hd | hd
          · exact continuesWord_of_startsWord (startsWord_of_isAlpha hd)
          · exact continuesWord_of_isDigit hd
        · exact hothers.2.1
        · exact hothers.2.2

/-- The name of a sheet with its mark is cut into the name of the sheet. -/
theorem cutInto_sheet (sheet : SheetName) :
    CutInto Free (sheetMark (some sheet)) [.sheet sheet.text] := by
  cases hquotes : sheet.needsQuotes with
  | false =>
      have hword : isIdentifier sheet.text.toList = true :=
        isIdentifier_of_isWord (by simpa [SheetName.needsQuotes] using hquotes)
      simpa [sheetMark, SheetName.chars, hquotes] using cutInto_sheetWord hword
  | true =>
      rw [sheetMark, SheetName.chars, if_pos hquotes]
      refine .one (by decide) fun rest _ => ?_
      have hhead : ('!' :: rest).head? ≠ some '\'' := by
        rintro ⟨⟩
      have hread : ∀ cs, Token.read '\'' cs = readQuotedSheet cs := fun _ => rfl
      have hquoted := quoted?_double hhead sheet.text.toList
      rw [hread, readQuotedSheet]
      simp [hquoted]

section

variable (a : Address) (anchors : Anchors)

/-- An address is no logical value, since it has a digit. -/
theorem upperChars_anchoredChars_ne {cs : List Char} (hcs : ∀ c ∈ digitChars, c ∉ cs) :
    upperChars (anchoredChars a anchors) ≠ cs := by
  intro heq
  obtain ⟨d, hlast, hd⟩ : ∃ d, (anchoredChars a anchors).getLast? = some d ∧ d.isDigit = true :=
    getLast?_anchoredChars
  have hself : ∀ d ∈ digitChars, d ∈ upperChar d :=
    List.all_iff_forall_prop.1 (by decide)
  have hmem : d ∈ upperChars (anchoredChars a anchors) :=
    List.mem_flatMap.2 ⟨d, List.mem_of_getLast? hlast, hself d (mem_digitChars hd)⟩
  rw [heq] at hmem
  exact hcs d (mem_digitChars hd) hmem

/-- The text of an address is cut into a reference. -/
theorem cutInto_anchoredChars :
    CutInto Delimited (anchoredChars a anchors)
      [.reference (String.ofList (anchoredChars a anchors))] := by
  have hword : ofWord (anchoredChars a anchors) false =
      .reference (String.ofList (anchoredChars a anchors)) := by
    have htrue : upperChars (anchoredChars a anchors) ≠ "TRUE".toList :=
      upperChars_anchoredChars_ne a anchors (List.all_iff_forall_prop.1 (by decide))
    have hfalse : upperChars (anchoredChars a anchors) ≠ "FALSE".toList :=
      upperChars_anchoredChars_ne a anchors (List.all_iff_forall_prop.1 (by decide))
    rw [ofWord, if_neg (fun h => htrue h.1), if_neg (fun h => hfalse h.1),
      if_pos ⟨hasAddressShape_anchoredChars, rfl⟩]
  rw [← hword]
  exact cutInto_word isIdentifier_anchoredChars

end

end PaintQuote.Formula
