import PaintQuote.Proofs.Decimal.Reading
import PaintQuote.Proofs.Formula.Acceptance
import PaintQuote.Proofs.Values.Like
import PaintQuote.Sheet.Content

/-!
# Numbers in cells and in formulas

A cell, numeric text and a formula take a number in nearly the same forms.  A formula takes the digits, the
fraction and the exponent at its start (`numberChars_of_isPointed`, `exponentChars_eq`), and what is left
over of a number starts a word, which cannot follow an operand (`ofTokens_word`).  Underscores are left
over, and so is an exponent with both a minus and a plus.  An exponent that leaves no room for the fraction
is refused in a formula, and rounds the number elsewhere.

* `number_input_iff`: which numbers of a cell are the same in a formula.
-/

namespace PaintQuote.Formula

open Sheet Text Token Decimal

/-! ## After a literal -/

/-- What may stand after the first part of an expression. -/
def Token.GoesOn : Token → Prop
  | .operator _ | .percent | .colon => True
  | _ => False

section

variable {corner : List Token → Prop} {k : Nat} {tokens : List Token} {e : Expr}

/-- What comes second in tokens of which the first part is one token comes after this part. -/
theorem second_of_append {a b : List Token} {first mark second : Token} {rest : List Token} (hne : a ≠ [])
    (heq : a ++ mark :: b = first :: second :: rest) :
    second = mark ∨ ∃ more, a = first :: second :: more := by
  match a, hne with
  | [x], _ =>
      obtain ⟨-, heq⟩ := List.cons.inj heq
      exact Or.inl (List.cons.inj heq).1.symm
  | x :: y :: more, _ =>
      obtain ⟨hx, heq⟩ := List.cons.inj heq
      obtain ⟨hy, -⟩ := List.cons.inj heq
      exact Or.inr ⟨more, by rw [hx, hy]⟩

/-- After a literal an expression ends, or goes on with an operator, a percent sign or a colon. -/
theorem Derives.after_literal (h : Derives corner k tokens e) {l : Literal} {second : Token}
    {rest : List Token} (htokens : tokens = .literal l :: second :: rest) : second.GoesOn := by
  have hne : ∀ {k a e}, Derives corner k a e → a ≠ [] := by
    rintro k a e h rfl
    obtain ⟨token, rest, heq, -⟩ := h.first
    cases heq
  induction h generalizing rest with
  | next _ ih => exact ih htokens
  | binary ha _ ih _ =>
      rcases second_of_append (hne ha) htokens with rfl | ⟨more, hmore⟩
      · trivial
      · exact ih hmore
  | percent ha ih =>
      rcases second_of_append (hne ha) htokens with rfl | ⟨more, hmore⟩
      · trivial
      · exact ih hmore
  | range _ _ ha _ _ ih _ =>
      rcases second_of_append (hne ha) htokens with rfl | ⟨more, hmore⟩
      · trivial
      · exact ih hmore
  | _ => cases htokens

end

/-- A word goes on with nothing. -/
theorem not_goesOn_readWord (c : Char) (rest : List Char) : ¬ (readWord c rest).1.GoesOn := by
  unfold readWord ofWord
  simp only
  repeat' split
  all_goals exact id

/-! ## The number at the start of a formula -/

theorem read_startsNumber {c : Char} {rest : List Char} (h : StartsNumber (c :: rest)) :
    Token.read c rest = readNumber (c :: rest) ∧ isBlank c = false := by
  rcases h with ⟨_, _, heq, hc⟩ | ⟨_, _, heq, hd⟩
  · cases heq
    exact ⟨read_number (by rw [hc, Bool.true_or]),
      not_isBlank_of_continuesWord (continuesWord_of_isDigit hc)⟩
  · cases heq
    exact ⟨read_number hd, by decide⟩

/-- The number whose mantissa and exponent a formula takes. -/
def numeral? (mantissa exponent : List Char) : Option Decimal :=
  if exponent.isEmpty then read? (mantissa ++ exponent) else readScientific? (mantissa ++ exponent)

section

variable {cs mantissa exponent rest : List Char}

/-- A formula puts a zero in front of a point, which changes nothing. -/
theorem readNumber_eq (hstart : StartsNumber mantissa) (hparts : numberChars cs = (mantissa, exponent)) :
    readNumber cs =
      ((numeral? mantissa exponent).elim (.invalid (.number (String.ofList (mantissa ++ exponent))))
        (.literal <| .number ·), (mantissa ++ exponent).length - 1) := by
  have hpadded : ∀ {read : List Char → Option Decimal}, (∀ {c : Char}, c.isDigit = true →
      ∀ rest, read ('0' :: '.' :: c :: rest) = read ('.' :: c :: rest)) →
      read (if mantissa.head? = some '.' then '0' :: (mantissa ++ exponent) else mantissa ++ exponent) =
        read (mantissa ++ exponent) := by
    intro read hread
    split
    next hhead =>
      rcases hstart with ⟨c, rest, rfl, hc⟩ | ⟨c, rest, rfl, hc⟩
      · cases hhead
        cases hc
      · exact hread hc _
    next => rfl
  rw [readNumber, hparts, numeral?]
  simp only [hpadded read?_padded, @hpadded readScientific? (readWithExponent?_padded _)]
  split
  next h => rw [h]; rfl
  next h => rw [h]; rfl

/-- The number at the start of a text is its first token. -/
theorem ofChars_number (hstart : StartsNumber mantissa)
    (hparts : numberChars (mantissa ++ exponent ++ rest) = (mantissa, exponent)) :
    ∃ position, Tokens.ofChars (mantissa ++ exponent ++ rest) =
      .next 0 ((numeral? mantissa exponent).elim
        (.invalid (.number (String.ofList (mantissa ++ exponent)))) (.literal <| .number ·))
        (.scan position 0 rest) := by
  obtain ⟨c, tail, htail⟩ : ∃ c tail, mantissa ++ exponent = c :: tail := by
    rcases hstart with ⟨c, tail, rfl, -⟩ | ⟨c, tail, rfl, -⟩ <;> exact ⟨_, _, rfl⟩
  have hfirst : StartsNumber (c :: (tail ++ rest)) := by
    rw [← List.cons_append, ← htail, List.append_assoc]
    exact hstart.append _
  obtain ⟨hread, hblank⟩ := read_startsNumber hfirst
  have htoken := readNumber_eq hstart hparts
  rw [htail] at htoken ⊢
  refine ⟨0 + c.utf8Size + byteLength tail, ?_⟩
  rw [List.cons_append] at htoken ⊢
  rw [Tokens.ofChars, Tokens.scan, if_neg (by simp [hblank]), hread, htoken]
  simp only [List.length_cons, Nat.add_sub_cancel]
  rw [Tokens.scan_skip, List.take_left, List.drop_left]

end

namespace Expr

theorem exists_error_of_not_yields {tokens : Tokens} (h : ¬ ∃ e, Yields 1 tokens.toList e) :
    ∃ error, ofTokens tokens = .error error := by
  cases hread : ofTokens tokens with
  | ok e => exact absurd ⟨e, (ofTokens_eq_ok_iff tokens e).1 hread⟩ h
  | error error => exact ⟨error, rfl⟩

section

variable {cs mantissa exponent rest : List Char} {n : Decimal}

/-- A number that is the whole of a formula is a literal. -/
theorem ofTokens_numeral (hstart : StartsNumber mantissa)
    (hparts : numberChars (mantissa ++ exponent) = (mantissa, exponent))
    (hread : numeral? mantissa exponent = some n) :
    ofTokens (.ofChars (mantissa ++ exponent)) = .ok (.literal (.number n)) := by
  rw [← List.append_nil (mantissa ++ exponent)] at hparts
  obtain ⟨position, htokens⟩ := ofChars_number hstart hparts
  rw [List.append_nil, hread] at htokens
  rw [htokens]
  exact (ofTokens_eq_ok_iff _ _).2 ((Derives.literal _).of_le (by decide))

/-- A number that a formula does not read is a fault. -/
theorem ofTokens_overlong (hstart : StartsNumber mantissa)
    (hparts : numberChars (mantissa ++ exponent) = (mantissa, exponent))
    (hread : numeral? mantissa exponent = none) :
    ∃ error, ofTokens (.ofChars (mantissa ++ exponent)) = .error error := by
  rw [← List.append_nil (mantissa ++ exponent)] at hparts
  obtain ⟨position, htokens⟩ := ofChars_number hstart hparts
  rw [List.append_nil, hread] at htokens
  rw [htokens]
  refine exists_error_of_not_yields ?_
  rintro ⟨e, he⟩
  obtain ⟨token, rest, heq, hbegins⟩ := he.begins
  cases heq
  exact hbegins

/-- No word follows a number. -/
theorem ofTokens_word {c : Char} (hstart : StartsNumber mantissa)
    (hparts : numberChars (mantissa ++ c :: rest) = (mantissa, [])) (hc : startsWord c = true) :
    ∃ error, ofTokens (.ofChars (mantissa ++ c :: rest)) = .error error := by
  obtain ⟨position, htokens⟩ :=
    @ofChars_number mantissa [] (c :: rest) hstart (by rw [List.append_nil, hparts])
  have hblank : isBlank c = false := not_isBlank_of_continuesWord (continuesWord_of_startsWord hc)
  rw [List.append_nil, Tokens.scan, if_neg (by simp [hblank]), read_startsWord hc] at htokens
  rw [htokens]
  refine exists_error_of_not_yields ?_
  rintro ⟨e, he⟩
  cases hread : numeral? mantissa [] with
  | none =>
      obtain ⟨token, rest, heq, hbegins⟩ := he.begins
      rw [hread] at heq
      cases heq
      exact hbegins
  | some n =>
      rw [hread] at he
      exact not_goesOn_readWord c rest (he.after_literal rfl)

end

end Expr

/-! ## The parts of a number -/

section

variable {cs rest sign digits : List Char} {mark : Char}

theorem not_isDigit_of_startsWord {c : Char} (h : startsWord c = true) : c.isDigit = false ∧ c ≠ '.' := by
  refine ⟨Bool.eq_false_iff.2 fun hc => ?_, ?_⟩
  · exact not_mem_wordless h (List.mem_append_right _ (mem_digitChars hc))
  · rintro rfl
    exact not_mem_wordless h (by decide)

/-- Digits with a point among them are the mantissa, up to a word. -/
theorem numberChars_of_isPointed (h : IsPointed cs) (hend : ∀ c ∈ rest.head?, startsWord c = true) :
    numberChars (cs ++ rest) = (cs, exponentChars rest) := by
  obtain ⟨whole, fraction, hwhole, hfraction, rfl | rfl⟩ := h
  · exact numberChars_whole hwhole fun c hc => not_isDigit_of_startsWord (hend c hc)
  · exact numberChars_fraction hwhole hfraction fun c hc => (not_isDigit_of_startsWord (hend c hc)).1

/-- An exponent with one sign at most is taken as a whole. -/
theorem exponentChars_eq (hmark : mark = 'e' ∨ mark = 'E') (hsign : sign ∈ [[], ['+'], ['-']])
    (hne : digits ≠ []) (hdigits : ∀ c ∈ digits, c.isDigit = true) :
    exponentChars (mark :: (sign ++ digits)) = mark :: (sign ++ digits) := by
  obtain ⟨c, more, rfl⟩ := List.exists_cons_of_ne_nil hne
  have hc : c.isDigit = true := hdigits c List.mem_cons_self
  have htaken : (c :: more).takeWhile Char.isDigit = c :: more := List.takeWhile_eq_self_iff.2 hdigits
  have hsigned : ∀ s, s = '+' ∨ s = '-' →
      exponentChars (mark :: s :: c :: more) = mark :: s :: c :: more := by
    intro s hs
    rw [exponentChars, if_pos hmark, if_pos ⟨hs, hc⟩, htaken]
  simp only [List.mem_cons, List.not_mem_nil, or_false] at hsign
  rcases hsign with rfl | rfl | rfl
  · have hunsigned : ¬ ((c = '+' ∨ c = '-') ∧ startsWithDigit more = true) := by
      rintro ⟨rfl | rfl, -⟩ <;> cases hc
    rw [List.nil_append, exponentChars, if_pos hmark, if_neg hunsigned, if_pos hc, htaken]
  · exact hsigned '+' (Or.inl rfl)
  · exact hsigned '-' (Or.inr rfl)

/-- An exponent with both signs is not taken. -/
theorem exponentChars_both (hmark : mark = 'e' ∨ mark = 'E') :
    exponentChars (mark :: '-' :: '+' :: digits) = [] := by
  rw [exponentChars, if_pos hmark]
  rfl

end

/-! ## The same number -/

/-- What a formula takes of the numbers that a cell takes: those without underscores and with one sign at
most in the exponent, which leaves room for the fraction. -/
def IsNumeral (cs : List Char) : Prop := '_' ∉ cs ∧ ¬ ['-', '+'] <:+: cs ∧ LeavesRoom cs

/-- A number with an underscore is cut short by it. -/
theorem exists_error_of_underscore {base : List Char} {d : Decimal}
    (hread : readPlainFrom? false {} base = some d) (hmem : '_' ∈ base) (more : List Char) :
    ∃ error, Expr.ofTokens (.ofChars (base ++ more)) = .error error := by
  -- The number ends at its first underscore, which starts a word.
  obtain ⟨before, after, rfl, hbefore⟩ := List.eq_append_cons_of_mem hmem
  have hrun : (before ++ '_' :: after).takeWhile (· != '_') = before := by
    refine takeWhile_run (fun c hc => bne_iff_ne.2 fun heq => hbefore (heq ▸ hc)) ?_
    rintro c ⟨⟩
    rfl
  have hpointed := isPointed_of_readPlainFrom? rfl hread
  have hstart := (startsNumber_of_readPlainFrom? hread).takeWhile
  rw [hrun] at hpointed hstart
  have hword : startsWord '_' = true := by decide
  rw [List.append_assoc, List.cons_append]
  refine Expr.ofTokens_word hstart (numberChars_of_isPointed hpointed ?_) hword
  rintro c ⟨⟩
  exact hword

theorem takeWhile_of_not_mem {cs : List Char} (h : '_' ∉ cs) : cs.takeWhile (· != '_') = cs :=
  List.takeWhile_eq_self_iff.2 fun _ hc => bne_iff_ne.2 fun heq => h (heq ▸ hc)

theorem not_infix_of_not_mem {cs : List Char} (h : '+' ∉ cs ∨ '-' ∉ cs) : ¬ ['-', '+'] <:+: cs :=
  fun hwithin => h.elim (· (hwithin.subset (by simp))) (· (hwithin.subset (by simp)))

/-- The plain form has no sign and no exponent. -/
theorem not_mem_of_readPlainFrom? {cs : List Char} {d : Decimal}
    (h : readPlainFrom? false {} cs = some d) : ∀ c ∈ ['+', '-', 'e', 'E'], c ∉ cs := by
  have hother : ∀ c ∈ ['+', '-', 'e', 'E'], ¬(c.isDigit = true ∨ c = '.' ∨ c = '_') :=
    List.all_iff_forall_prop.1 (by decide)
  exact fun c hc hmem => hother c hc (mem_of_readPlainFrom? h c hmem)

section

variable {cs base sign digits : List Char} {mark : Char} {n d : Decimal}

/-- What a formula makes of the plain form. -/
theorem ofTokens_of_plain (hread : readPlainFrom? false {} cs = some n) :
    (IsNumeral cs ∧ Expr.ofTokens (.ofChars cs) = .ok (.literal (.number n))) ∨
      (¬ IsNumeral cs ∧ ∃ error, Expr.ofTokens (.ofChars cs) = .error error) := by
  have hnot := not_mem_of_readPlainFrom? hread
  by_cases hunderscore : '_' ∈ cs
  · refine Or.inr ⟨fun hnumeral => hnumeral.1 hunderscore, ?_⟩
    rw [← List.append_nil cs]
    exact exists_error_of_underscore hread hunderscore []
  · have hroom : LeavesRoom cs := by
      have hnone : cutExponent? cs = none := cutExponent?_eq_none fun c hc =>
        ⟨fun heq => hnot 'e' (by simp) (heq ▸ hc), fun heq => hnot 'E' (by simp) (heq ▸ hc)⟩
      intro base exponent d places hcut
      rw [hnone] at hcut
      cases hcut
    have hpointed := isPointed_of_readPlainFrom? rfl hread
    rw [takeWhile_of_not_mem hunderscore] at hpointed
    have hnumeral : numeral? cs [] = some n := by
      have hsign : ∀ c ∈ cs.head?, c ≠ '+' ∧ c ≠ '-' := fun c hc =>
        ⟨fun heq => hnot '+' (by simp) (heq ▸ List.mem_of_head? hc),
          fun heq => hnot '-' (by simp) (heq ▸ List.mem_of_head? hc)⟩
      rw [numeral?, if_pos List.isEmpty_nil, List.append_nil, read?, readPlain?_unsigned hsign, hread]
      rfl
    refine Or.inl ⟨⟨hunderscore, not_infix_of_not_mem (Or.inl (hnot '+' (by simp))), hroom⟩, ?_⟩
    have hparts : numberChars (cs ++ []) = (cs, exponentChars []) :=
      numberChars_of_isPointed hpointed fun c hc => absurd hc (Option.not_mem_none c)
    rw [← List.append_nil cs]
    exact Expr.ofTokens_numeral (startsNumber_of_readPlainFrom? hread) hparts hnumeral

/-- Neither the mantissa nor an exponent with one sign at most is in the way. -/
theorem isNumeral_of_exponent (hmark : mark = 'e' ∨ mark = 'E')
    (hbase : readPlainFrom? false {} base = some d) (hunderscore : '_' ∉ base)
    (hsign : sign ∈ [[], ['+'], ['-']]) (hdigits : ∀ c ∈ digits, c.isDigit = true)
    (hroom : LeavesRoom (base ++ mark :: (sign ++ digits))) : IsNumeral (base ++ mark :: (sign ++ digits)) := by
  have hother : ∀ c ∈ ['_', '+', '-'], c ∉ base → c ∉ sign → c ∉ base ++ mark :: (sign ++ digits) := by
    intro c hc hnotBase hnotSign hmem
    have hplain : ∀ c ∈ ['_', '+', '-'], c.isDigit = false ∧ c ≠ 'e' ∧ c ≠ 'E' :=
      List.all_iff_forall_prop.1 (by decide)
    obtain ⟨hdigit, he, hE⟩ := hplain c hc
    simp only [List.mem_append, List.mem_cons] at hmem
    rcases hmem with hmem | rfl | hmem | hmem
    · exact hnotBase hmem
    · exact hmark.elim he hE
    · exact hnotSign hmem
    · exact Bool.eq_false_iff.1 hdigit (hdigits c hmem)
  have hnot := not_mem_of_readPlainFrom? hbase
  have honce : ∀ sign ∈ [[], ['+'], ['-']], '_' ∉ sign ∧ ('+' ∉ sign ∨ '-' ∉ sign) := by decide
  obtain ⟨hplain, hsingle⟩ := honce sign hsign
  refine ⟨hother '_' (by simp) hunderscore hplain, not_infix_of_not_mem ?_, hroom⟩
  exact hsingle.imp (hother '+' (by simp) (hnot '+' (by simp)))
    (hother '-' (by simp) (hnot '-' (by simp)))

/-- What a formula makes of a number with an exponent. -/
theorem ofTokens_of_exponent (hmark : mark = 'e' ∨ mark = 'E')
    (hbase : readPlainFrom? false {} base = some d) (hsign : sign ∈ [[], ['+'], ['-'], ['-', '+']])
    (hne : digits ≠ []) (hdigits : ∀ c ∈ digits, c.isDigit = true)
    (hread : readWithExponent? shiftDownRounded? (base ++ mark :: (sign ++ digits)) = some n) :
    (IsNumeral (base ++ mark :: (sign ++ digits)) ∧
        Expr.ofTokens (.ofChars (base ++ mark :: (sign ++ digits))) = .ok (.literal (.number n))) ∨
      (¬ IsNumeral (base ++ mark :: (sign ++ digits)) ∧
        ∃ error, Expr.ofTokens (.ofChars (base ++ mark :: (sign ++ digits))) = .error error) := by
  have hword : startsWord mark = true := by
    rcases hmark with rfl | rfl <;> decide
  by_cases hunderscore : '_' ∈ base
  · exact Or.inr ⟨fun hnumeral => hnumeral.1 (List.mem_append_left _ hunderscore),
      exists_error_of_underscore hbase hunderscore _⟩
  have hpointed := isPointed_of_readPlainFrom? rfl hbase
  rw [takeWhile_of_not_mem hunderscore] at hpointed
  have hstart := startsNumber_of_readPlainFrom? hbase
  have hparts : numberChars (base ++ mark :: (sign ++ digits)) = (base, _) :=
    numberChars_of_isPointed hpointed (by rintro c ⟨⟩; exact hword)
  -- With both signs the exponent is no part of the number, and its mark starts a word.
  have hsigns : sign ∈ [[], ['+'], ['-']] ∨ sign = ['-', '+'] := by simpa [or_assoc] using hsign
  rcases hsigns with hsigns | rfl
  · rw [exponentChars_eq hmark hsigns hne hdigits] at hparts
    have hnumeral : ∀ m, numeral? base (mark :: (sign ++ digits)) = some m ↔
        readWithExponent? shiftDownRounded? (base ++ mark :: (sign ++ digits)) = some m ∧
          LeavesRoom (base ++ mark :: (sign ++ digits)) := fun m => readScientific?_eq_some_iff
    by_cases hroom : LeavesRoom (base ++ mark :: (sign ++ digits))
    · exact Or.inl ⟨isNumeral_of_exponent hmark hbase hunderscore hsigns hdigits hroom,
        Expr.ofTokens_numeral hstart hparts ((hnumeral n).2 ⟨hread, hroom⟩)⟩
    · refine Or.inr ⟨fun h => hroom h.2.2, Expr.ofTokens_overlong hstart hparts ?_⟩
      exact Option.eq_none_iff_forall_ne_some.2 fun m hm => hroom ((hnumeral m).1 hm).2
  · have hboth : ['-', '+'] <:+: base ++ mark :: (['-', '+'] ++ digits) :=
      ⟨base ++ [mark], digits, by simp⟩
    refine Or.inr ⟨fun hnumeral => hnumeral.2.1 hboth, Expr.ofTokens_word hstart ?_ hword⟩
    exact hparts.trans (congrArg _ (exponentChars_both hmark))

/-- A text that a cell takes as a number is taken by a formula as the same number or not at all. -/
theorem ofTokens_of_read? (hsign : ∀ c ∈ cs.head?, c ≠ '+' ∧ c ≠ '-') (hread : read? cs = some n) :
    (IsNumeral cs ∧ Expr.ofTokens (.ofChars cs) = .ok (.literal (.number n))) ∨
      (¬ IsNumeral cs ∧ ∃ error, Expr.ofTokens (.ofChars cs) = .error error) := by
  rcases read?_cases hsign hread with hplain | ⟨hread, base, mark, sign, digits, d, hmark, rfl, hbase, hmem,
    hne, hdigits⟩
  · exact ofTokens_of_plain hplain
  · exact ofTokens_of_exponent hmark hbase hmem hne hdigits hread

end

/-! ## Inputs -/

/-- What is typed for a number is read without the blanks around it. -/
theorem read?_of_ofInput {s : String} {n : Decimal} (h : Content.ofInput s = .literal (.number n)) :
    trim s.toList ≠ [] ∧ (trim s.toList).head? ≠ some '=' ∧ read? (trim s.toList) = some n := by
  unfold Content.ofInput at h
  simp only at h
  split at h
  next => cases h
  next hequals =>
    have hvalue := Content.literal.inj h
    rw [Content.valueOfInput?] at hvalue
    split at hvalue
    next => cases hvalue
    next hempty =>
      refine ⟨fun hnil => hempty (by rw [hnil]; rfl), hequals, ?_⟩
      cases hboolean : CellValue.booleanOfText? (String.ofList (trim s.toList)) with
      | some b =>
          rw [hboolean] at hvalue
          cases hvalue
      | none =>
      cases hread : ofText? (String.ofList (trim s.toList)) with
      | some m =>
          rw [hboolean, hread] at hvalue
          rw [ofText?, String.toList_ofList] at hread
          cases hvalue
          exact hread
      | none =>
          rw [hboolean, hread] at hvalue
          cases herror : ErrorValue.ofText? (String.ofList (trim s.toList)) with
          | some e =>
              rw [herror] at hvalue
              cases hvalue
          | none =>
              rw [herror] at hvalue
              cases hvalue

/-- A text without a sign that is a number for a cell is the same number for arithmetic.  For a formula it
is this number as a literal, unless it has an underscore, an exponent with both signs, or an exponent that
leaves no room for the fraction; then it is no formula. -/
theorem number_input_iff {s : String} {n : Decimal} (hinput : Content.ofInput s = .literal (.number n))
    (hsign : ∀ c ∈ (trim s.toList).head?, c ≠ '+' ∧ c ≠ '-') :
    (Value.text s).toNumber = .ok n ∧
      (Expr.ofText s = .ok (.literal (.number n)) ↔ IsNumeral (trim s.toList)) ∧
      ((∃ error, Expr.ofText s = .error error) ↔ ¬ IsNumeral (trim s.toList)) := by
  obtain ⟨hne, hequals, hread⟩ := read?_of_ofInput hinput
  have hpercent := percent_not_mem_of_read? hsign hread
  have hbody : Expr.ofText s = Expr.ofTokens (.ofChars (trim s.toList)) := by
    rw [Expr.ofText, Expr.body]
    cases hlead : afterLead? ['='] (trim s.toList) with
    | none => rfl
    | some rest => exact absurd (congrArg List.head? (eq_of_afterLead? hlead)) hequals
  have hnumeric : readNumeric? s.toList = some n := by
    rw [readNumeric?_eq_read? hne fun hlast => hpercent (List.mem_of_getLast? hlast), hread]
  refine ⟨Value.toNumber_eq_ok_iff.2 hnumeric, ?_⟩
  rw [hbody]
  rcases ofTokens_of_read? hsign hread with ⟨hnumeral, hok⟩ | ⟨hnumeral, error, herror⟩
  · rw [hok]
    refine ⟨iff_of_true rfl hnumeral, iff_of_false ?_ (not_not_intro hnumeral)⟩
    rintro ⟨_, ⟨⟩⟩
  · rw [herror]
    exact ⟨iff_of_false nofun hnumeral, iff_of_true ⟨error, rfl⟩ hnumeral⟩

/-- A number between blanks, with an exponent that has room. -/
theorem number_input_quarter :
    Content.ofInput " 2.5e-3 " = .literal (.number (scaled 25 4)) ∧
      (Value.text " 2.5e-3 ").toNumber = .ok (scaled 25 4) ∧
      Expr.ofText " 2.5e-3 " = .ok (.literal (.number (scaled 25 4))) := by
  have hinput : Content.ofInput " 2.5e-3 " = .literal (.number (scaled 25 4)) := by decide +kernel
  have hchars : trim " 2.5e-3 ".toList = ['2', '.', '5', 'e', '-', '3'] := by decide +kernel
  obtain ⟨hnumber, hformula, -⟩ := number_input_iff hinput (by
    rw [hchars]
    rintro _ ⟨⟩
    decide)
  refine ⟨hinput, hnumber, hformula.2 ?_⟩
  rw [hchars]
  refine ⟨by decide, by decide, ?_⟩
  intro base exponent d places hcut hbase hexponent
  have hparts : cutExponent? ['2', '.', '5', 'e', '-', '3'] = some (['2', '.', '5'], ['-', '3']) := by decide
  cases hparts.symm.trans hcut
  have hread : readPlain? ['2', '.', '5'] = some (scaled 25 1) := by decide +kernel
  cases hread.symm.trans hbase
  have hplaces : readExponent? ['-', '3'] = some (true, 3) := by decide
  cases hplaces.symm.trans hexponent
  decide

/-- An underscore, and an exponent that leaves no room, are taken in a cell and refused in a formula. -/
theorem number_input_refused :
    Content.ofInput "1_000" = .literal (.number 1000) ∧ (Value.text "1_000").number? = some 1000 ∧
      (Expr.ofText "1_000").toOption = none ∧
      Content.ofInput "1.5e-28" = .literal (.number (scaled 2 28)) ∧
      (Value.text "1.5e-28").number? = some (scaled 2 28) ∧ (Expr.ofText "1.5e-28").toOption = none := by
  decide +kernel

end PaintQuote.Formula
