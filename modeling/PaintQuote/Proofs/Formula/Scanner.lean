import PaintQuote.Formula.Scanner
import PaintQuote.Proofs.Text.UpperCase

/-!
# What the scanner by positions scans

A scanner that stands before some characters (`Stands`) sees exactly these, and it stands before the rest
of them again after any beginning of theirs (`Stands.skip`).  So each part of it comes to the position
after what is read of the characters themselves, and it scans the token that is read there
(`Stands.scanFrom`).

It never fails, therefore: it scans the tokens of any text up to the end, and each lexeme has a character of
the text at least (`lexemes_eq_some`).
-/

namespace PaintQuote.Formula

open Sheet Text

/-- The beginning of a text that starts with a character, by the number of further characters. -/
theorem cons_take {c : Char} {rest lead after : List Char} (h : c :: rest = lead ++ after)
    (hne : lead ≠ []) : c :: rest.take (lead.length - 1) = lead := by
  obtain ⟨d, tail, rfl⟩ := List.exists_cons_of_ne_nil hne
  rw [List.cons_append] at h
  obtain ⟨rfl, rfl⟩ := List.cons.inj h
  rw [List.length_cons, Nat.add_sub_cancel, List.take_left]

theorem take_succ_of_drop {c : Char} {n : Nat} {cs : List Char} (h : (cs.drop n).head? = some c) :
    cs.take (n + 1) = cs.take n ++ [c] := by
  rw [List.take_add_one, ← List.head?_drop, h]
  rfl

namespace Scanner

/-- At a position the scanner sees the rest of the text. -/
def Stands (text : List Char) (position : Nat) (rest : List Char) : Prop :=
  sliceFrom? position text = some rest

variable {text rest : List Char} {position : Nat}

/-! ## Looking ahead -/

theorem stands_start (text : List Char) : Stands text 0 text := sliceFrom?_eq_some_iff.2 ⟨[], rfl, rfl⟩

theorem Stands.skip {before : List Char} (h : Stands text position (before ++ rest)) :
    Stands text (position + byteLength before) rest := by
  obtain ⟨front, rfl, rfl⟩ := sliceFrom?_eq_some_iff.1 h
  exact sliceFrom?_eq_some_iff.2 ⟨front ++ before, by rw [List.append_assoc], byteLength_append _ _⟩

theorem stands_stop (text : List Char) : Stands text (byteLength text) [] :=
  sliceFrom?_eq_some_iff.2 ⟨text, (List.append_nil text).symm, rfl⟩

theorem Stands.next {c : Char} (h : Stands text position (c :: rest)) :
    Stands text (position + c.utf8Size) rest :=
  Stands.skip (show Stands text position ([c] ++ rest) from h)

/-- Where the scanner stands is no further than the end, and between characters. -/
theorem Stands.isValid (h : Stands text position rest) :
    position + byteLength rest = byteLength text ∧
      (⟨position⟩ : String.Pos.Raw).IsValid (String.ofList text) := by
  obtain ⟨before, rfl, rfl⟩ := sliceFrom?_eq_some_iff.1 h
  refine ⟨(byteLength_append _ _).symm, String.Pos.Raw.isValid_ofList.2 ⟨before.length, ?_⟩⟩
  rw [List.take_left, byteLength_eq]

theorem Stands.peekAt (h : Stands text position rest) (offset : Nat) :
    peekAt text position offset = some rest[offset]? := by
  rw [Scanner.peekAt, h, Option.map_some]

theorem Stands.peek (h : Stands text position rest) : peek text position = some rest.head? := by
  rw [Scanner.peek, h.peekAt, List.head?_eq_getElem?]

theorem Stands.advance {c : Char} (h : Stands text position (c :: rest)) :
    advance text position = some (position + c.utf8Size) := by
  rw [Scanner.advance, h.peek]
  rfl

theorem Stands.skipWhile (h : Stands text position rest) (p : Char → Bool) :
    skipWhile text p position = some (position + byteLength (rest.takeWhile p)) := by
  induction rest generalizing position with
  | nil =>
      rw [Scanner.skipWhile]
      split
      next hpeek => cases h.peek.symm.trans hpeek
      next => rfl
      next c hpeek => cases h.peek.symm.trans hpeek
  | cons c rest ih =>
      rw [Scanner.skipWhile]
      split
      next hpeek => cases h.peek.symm.trans hpeek
      next hpeek => cases h.peek.symm.trans hpeek
      next d hpeek =>
        cases h.peek.symm.trans hpeek
        split
        next hp => rw [ih h.next, List.takeWhile_cons_of_pos hp, byteLength_cons, Nat.add_assoc]
        next hp => rw [List.takeWhile_cons_of_neg hp, byteLength_nil, Nat.add_zero]

theorem Stands.slice? {part : List Char} (h : Stands text position (part ++ rest)) :
    slice? position (position + byteLength part) text = some part := by
  rw [Text.slice?, if_neg (by omega), h, Option.bind_some, Nat.add_sub_cancel_left,
    splitAt?_append, Option.map_some]

/-- A character and those of a class after it. -/
theorem Stands.slice_run {c : Char} (h : Stands text position (c :: rest)) (p : Char → Bool) :
    Text.slice? position (position + c.utf8Size + byteLength (rest.takeWhile p)) text =
      some (c :: rest.takeWhile p) := by
  have hpart : c :: rest = c :: rest.takeWhile p ++ rest.dropWhile p := by
    rw [List.cons_append, List.takeWhile_append_dropWhile]
  have hslice := Stands.slice? (hpart ▸ h)
  rw [byteLength_cons, ← Nat.add_assoc] at hslice
  exact hslice

theorem Stands.skipped (h : Stands text position rest) (p : Char → Bool) :
    Stands text (position + byteLength (rest.takeWhile p)) (rest.dropWhile p) := by
  refine Stands.skip ?_
  rw [List.takeWhile_append_dropWhile]
  exact h

/-! ## Quoted text -/

theorem Stands.quotedFrom_nil (h : Stands text position []) (mark : Char) (read : List Char) :
    quotedFrom text mark position read = some (none, position) := by
  rw [quotedFrom]
  split
  next hpeek => cases h.peek.symm.trans hpeek
  next => rfl
  next c hpeek => cases h.peek.symm.trans hpeek

theorem Stands.quotedFrom_cons {c : Char} (h : Stands text position (c :: rest)) (mark : Char)
    (read : List Char) :
    quotedFrom text mark position read =
      if c = mark then
        if rest.head? = some mark then
          quotedFrom text mark (position + c.utf8Size + mark.utf8Size) (read ++ [mark])
        else some (some read, position + c.utf8Size)
      else quotedFrom text mark (position + c.utf8Size) (read ++ [c]) := by
  have hsecond : Scanner.peekAt text position 1 = some rest.head? := by
    rw [h.peekAt, List.getElem?_cons_succ, List.head?_eq_getElem?]
  rw [quotedFrom]
  split
  next hpeek => cases h.peek.symm.trans hpeek
  next hpeek => cases h.peek.symm.trans hpeek
  next d hpeek =>
    cases h.peek.symm.trans hpeek
    rw [hsecond]

/-- Quoted text is scanned as it is read. -/
theorem Stands.quotedFrom {mark : Char} (h : Stands text position rest) (read : List Char) :
    quotedFrom text mark position read = some (match Token.quoted? mark rest with
      | some (cs, count) => (some (read ++ cs), position + byteLength (rest.take count))
      | none => (none, position + byteLength rest)) := by
  fun_induction Token.quoted? mark rest generalizing position read with
  | case1 => rw [h.quotedFrom_nil, byteLength_nil, Nat.add_zero]
  | case2 => simp [h.quotedFrom_cons]
  | case3 c hne => simp [h.quotedFrom_cons, hne, h.next.quotedFrom_nil]
  | case4 rest ih =>
      rw [h.quotedFrom_cons, if_pos rfl, List.head?_cons, if_pos rfl, ih h.next.next]
      cases Token.quoted? mark rest with
      | none => simp [Nat.add_assoc]
      | some p => simp [Nat.add_assoc]
  | case5 d rest hne => simp [h.quotedFrom_cons, hne]
  | case6 c d rest hne ih =>
      rw [h.quotedFrom_cons, if_neg hne, ih h.next]
      cases Token.quoted? mark (d :: rest) with
      | none => simp [Nat.add_assoc]
      | some p => simp [Nat.add_assoc]

/-! ## Numbers -/

theorem Stands.scanFraction (h : Stands text position rest) :
    scanFraction text position = some (position + byteLength (Token.fractionChars rest)) := by
  rw [Scanner.scanFraction, h.peek, Option.bind_eq_bind, Option.bind_some]
  split
  next hhead =>
    obtain ⟨digits, rfl⟩ := List.head?_eq_some_iff.1 hhead
    rw [h.advance, Option.bind_eq_bind, Option.bind_some, h.next.skipWhile, Nat.add_assoc]
    rfl
  next hhead =>
    have hnone : Token.fractionChars rest = [] := by
      unfold Token.fractionChars
      split
      next => exact absurd rfl hhead
      next => rfl
    rw [hnone, byteLength_nil, Nat.add_zero]

theorem fractionChars_prefix (rest : List Char) : Token.fractionChars rest <+: rest := by
  unfold Token.fractionChars
  split
  next digits => exact (List.prefix_cons_inj '.').2 (List.takeWhile_prefix _)
  next => exact List.nil_prefix

theorem exponentChars_prefix (rest : List Char) : Token.exponentChars rest <+: rest := by
  unfold Token.exponentChars
  repeat' split
  all_goals
    simp only [List.prefix_cons_inj, List.takeWhile_prefix, List.nil_prefix]

theorem not_isSign_of_isDigit {c : Char} (h : c.isDigit = true) : ¬ (c = '+' ∨ c = '-') := by
  rintro (rfl | rfl) <;> cases h

/-- An exponent is marked where one is read. -/
theorem marksExponent_eq (rest : List Char) :
    marksExponent rest = !(Token.exponentChars rest).isEmpty := by
  rw [marksExponent]
  unfold Token.exponentChars
  split
  next c rest =>
    by_cases hmark : c = 'e' ∨ c = 'E'
    · cases rest with
      | nil => simp [hmark]
      | cons s digits =>
          by_cases hdigit : s.isDigit = true
          · simp [hmark, hdigit, not_isSign_of_isDigit hdigit]
          · cases digits with
            | nil => simp [hmark, hdigit, Token.startsWithDigit]
            | cons d digits =>
                cases hnext : d.isDigit with
                | false => simp [hmark, hdigit, hnext, Token.startsWithDigit]
                | true =>
                    by_cases hsign : s = '+' ∨ s = '-'
                    · simp [hmark, hnext, hsign, Token.startsWithDigit]
                    · obtain ⟨hplus, hminus⟩ := not_or.1 hsign
                      simp [hmark, hdigit, hplus, hminus]
    · simp [hmark]
  next => rfl

theorem Stands.scanExponent (h : Stands text position rest) :
    scanExponent text position =
      some (!(Token.exponentChars rest).isEmpty, position + byteLength (Token.exponentChars rest)) := by
  have hslice : sliceFrom? position text = some rest := h
  rw [Scanner.scanExponent, hslice, Option.bind_eq_bind, Option.bind_some, marksExponent_eq]
  unfold Token.exponentChars
  split
  next c rest =>
    by_cases hmark : c = 'e' ∨ c = 'E'
    · cases rest with
      | nil => simp [hmark]
      | cons s digits =>
          have hsign : Scanner.scanSign text (position + c.utf8Size) =
              if s = '+' ∨ s = '-' then some (position + c.utf8Size + s.utf8Size)
              else some (position + c.utf8Size) := by
            rw [Scanner.scanSign, h.next.peek, h.next.advance]
            simp
          by_cases hdigit : s.isDigit = true
          · simp [hmark, hdigit, not_isSign_of_isDigit hdigit, h.advance, hsign, h.next.skipWhile,
              Nat.add_assoc]
          · by_cases hboth : (s = '+' ∨ s = '-') ∧ Token.startsWithDigit digits = true
            · have hdigits := h.next.next.skipWhile Char.isDigit
              simp [hmark, hboth, h.advance, hsign, hdigits]
              omega
            · simp [hmark, hdigit, hboth]
    · simp [hmark]
  next => simp

theorem mark_of_exponentChars {c : Char} (h : (Token.exponentChars rest).head? = some c) :
    c = 'e' ∨ c = 'E' := by
  unfold Token.exponentChars at h
  repeat' split at h
  all_goals cases h
  all_goals assumption

/-- A point comes first in a number exactly if it comes first before the exponent. -/
theorem head?_append_exponentChars (mantissa : List Char) :
    (mantissa ++ Token.exponentChars rest).head? = some '.' ↔ mantissa.head? = some '.' := by
  cases mantissa with
  | cons c mantissa => rfl
  | nil =>
      refine iff_of_false ?_ nofun
      intro h
      exact absurd (mark_of_exponentChars h) (by decide)

theorem numberChars_eq {middle : List Char}
    (h : Token.fractionChars (rest.dropWhile Char.isDigit) ++ middle = rest.dropWhile Char.isDigit) :
    Token.numberChars rest =
      (rest.takeWhile Char.isDigit ++ Token.fractionChars (rest.dropWhile Char.isDigit),
        Token.exponentChars middle) := by
  have hmiddle : (rest.dropWhile Char.isDigit).drop
      (Token.fractionChars (rest.dropWhile Char.isDigit)).length = middle :=
    (congrArg (List.drop _) h.symm).trans List.drop_left
  simp only [Token.numberChars, ← List.drop_drop, drop_length_takeWhile, hmiddle]

/-- A number is what comes first in the text. -/
theorem numberChars_prefix (rest : List Char) :
    (Token.numberChars rest).1 ++ (Token.numberChars rest).2 <+: rest := by
  obtain ⟨middle, hmiddle⟩ := fractionChars_prefix (rest.dropWhile Char.isDigit)
  obtain ⟨tail, htail⟩ := exponentChars_prefix middle
  refine ⟨tail, ?_⟩
  rw [numberChars_eq hmiddle, List.append_assoc, htail, List.append_assoc, hmiddle,
    List.takeWhile_append_dropWhile]

theorem numberChars_ne_nil {c : Char}
    (h : (c.isDigit || (c == '.' && Token.startsWithDigit rest)) = true) :
    (Token.numberChars (c :: rest)).1 ≠ [] := by
  by_cases hdigit : c.isDigit = true
  · simp [Token.numberChars, hdigit]
  · have hpoint : c = '.' := by
      simpa [hdigit] using (Bool.and_eq_true_iff.1 ((Bool.or_eq_true_iff.1 h).resolve_left hdigit)).1
    subst hpoint
    simp [Token.numberChars, Token.fractionChars, hdigit]

/-- A number is scanned as it is read, up to the end of its exponent. -/
theorem Stands.scanNumber (h : Stands text position rest) :
    scanNumber text position = some ((Token.readNumber rest).1,
      position + byteLength ((Token.numberChars rest).1 ++ (Token.numberChars rest).2)) := by
  obtain ⟨middle, hmiddle⟩ := fractionChars_prefix (rest.dropWhile Char.isDigit)
  obtain ⟨tail, htail⟩ := numberChars_prefix rest
  have hparts := numberChars_eq hmiddle
  have hwhole := h.skipped Char.isDigit
  have hfraction := hwhole.scanFraction
  rw [← hmiddle] at hwhole
  have hexponent := hwhole.skip.scanExponent
  have hslice := Stands.slice? (htail ▸ h : Stands text position (_ ++ tail))
  rw [hparts] at hslice
  rw [byteLength_append, byteLength_append, ← Nat.add_assoc, ← Nat.add_assoc] at hslice
  rw [Scanner.scanNumber, h.skipWhile]
  simp only [Option.bind_eq_bind, Option.bind_some, hfraction, hexponent, hslice, hparts,
    Token.readNumber, byteLength_append, ← Nat.add_assoc, head?_append_exponentChars]
  cases (Token.exponentChars middle).isEmpty with
  | true =>
      simp only [Bool.not_true, Bool.false_eq_true, if_false, if_true]
      generalize Decimal.read? _ = number?
      cases number? <;> rfl
  | false =>
      simp only [Bool.not_false, Bool.false_eq_true, if_false, if_true]
      generalize Decimal.readScientific? _ = number?
      cases number? <;> rfl

theorem readNumber_snd (rest : List Char) : (Token.readNumber rest).2 =
    ((Token.numberChars rest).1 ++ (Token.numberChars rest).2).length - 1 := by
  simp only [Token.readNumber]
  split <;> rfl

theorem Stands.scanNumber_cons {c : Char} (h : Stands text position (c :: rest))
    (hc : (c.isDigit || (c == '.' && Token.startsWithDigit rest)) = true) :
    Scanner.scanNumber text position = some ((Token.readNumber (c :: rest)).1,
      position + byteLength (c :: rest.take (Token.readNumber (c :: rest)).2)) := by
  obtain ⟨tail, htail⟩ := numberChars_prefix (c :: rest)
  have hne : (Token.numberChars (c :: rest)).1 ++ (Token.numberChars (c :: rest)).2 ≠ [] :=
    List.append_ne_nil_of_left_ne_nil (numberChars_ne_nil hc) _
  rw [h.scanNumber, readNumber_snd, cons_take htail.symm hne]

/-! ## Errors -/

theorem startsWithError_iff {e : ErrorValue} :
    Token.startsWithError rest e = true ↔
      ∃ lead after, rest = lead ++ after ∧ lead.map Char.toUpper = e.literal.toList := by
  simp only [Token.startsWithError, beq_iff_eq]
  constructor
  · intro h
    exact ⟨_, _, (List.take_append_drop _ rest).symm, h⟩
  · rintro ⟨lead, after, rfl, h⟩
    rw [← h, List.length_map, List.take_left]

theorem utf8ByteSize_of_upper {e : ErrorValue} {lead : List Char}
    (h : lead.map Char.toUpper = e.literal.toList) : e.literal.utf8ByteSize = byteLength lead := by
  rw [← byteLength_map_toUpper, h, byteLength_eq, String.ofList_toList]

/-- The bytes of a literal are compared as its characters are. -/
theorem literalAt_eq (rest : List Char) : literalAt rest = Token.startsWithError rest := by
  funext e
  rw [Bool.eq_iff_iff, startsWithError_iff, literalAt]
  split
  next lead after hsplit =>
    obtain ⟨rfl, hlength⟩ := eq_of_splitAt? hsplit
    rw [beq_iff_eq]
    refine ⟨fun h => ⟨lead, after, rfl, h⟩, ?_⟩
    rintro ⟨lead', after', heq, h⟩
    have hsplit' := splitAt?_append lead' after'
    rw [← utf8ByteSize_of_upper h, ← heq, hsplit] at hsplit'
    cases hsplit'
    exact h
  next hnone =>
    refine iff_of_false (by decide) ?_
    rintro ⟨lead, after, rfl, h⟩
    rw [utf8ByteSize_of_upper h, splitAt?_append] at hnone
    cases hnone

theorem Stands.scanError (h : Stands text position ('#' :: rest)) :
    scanError text position = some ((Token.readError rest).1,
      position + byteLength ('#' :: rest.take (Token.readError rest).2)) := by
  have hslice : sliceFrom? position text = some ('#' :: rest) := h
  rw [Scanner.scanError, hslice, Option.bind_eq_bind, Option.bind_some, literalAt_eq]
  simp only [Token.readError, Token.leadingError?]
  cases he : ErrorValue.all.find? (Token.startsWithError ('#' :: rest)) with
  | some e =>
      obtain ⟨lead, after, heq, hupper⟩ := startsWithError_iff.1 (List.find?_some he)
      have hlength : e.literal.length = lead.length := by
        rw [← String.length_toList, ← hupper, List.length_map]
      have hne : lead ≠ [] := by
        rintro rfl
        cases e <;> cases hupper
      simp only [hlength, cons_take heq hne, utf8ByteSize_of_upper hupper]
  | none =>
      simp only [Option.bind_eq_bind, Option.bind_some, h.advance, h.next.skipWhile, h.slice_run,
        take_length_takeWhile, byteLength_cons, ← Nat.add_assoc]

/-! ## Words -/

theorem Stands.scanWord {c : Char} (h : Stands text position (c :: rest))
    (hc : Token.continuesWord c = true) :
    scanWord text position = some ((Token.readWord c rest).1,
      position + byteLength (c :: rest.take (Token.readWord c rest).2)) := by
  have hskip := h.skipWhile Token.continuesWord
  rw [List.takeWhile_cons_of_pos hc, byteLength_cons, ← Nat.add_assoc] at hskip
  have hafter := h.next.skipped Token.continuesWord
  rw [Scanner.scanWord, hskip]
  simp only [Option.bind_eq_bind, Option.bind_some, h.slice_run, hafter.peek, Token.readWord,
    drop_length_takeWhile]
  split
  next hmark =>
    obtain ⟨tail, htail⟩ := List.head?_eq_some_iff.1 hmark
    rw [htail] at hafter
    rw [← drop_length_takeWhile] at hmark
    simp only [hafter.advance, Option.bind_some, take_succ_of_drop hmark, take_length_takeWhile,
      byteLength_cons, byteLength_append, byteLength_nil, Nat.add_zero, ← Nat.add_assoc]
  next => simp only [take_length_takeWhile, byteLength_cons, ← Nat.add_assoc]

/-! ## Tokens -/

theorem Stands.scanOne {c : Char} (h : Stands text position (c :: rest)) (token : Token) :
    scanOne text token position = some (token, position + c.utf8Size) := by
  rw [Scanner.scanOne, h.advance, Option.map_some]

theorem Stands.scanLess (h : Stands text position ('<' :: rest)) :
    scanLess text position = some ((Token.readLess rest).1,
      position + byteLength ('<' :: rest.take (Token.readLess rest).2)) := by
  rw [Scanner.scanLess, h.advance]
  simp only [Option.bind_eq_bind, Option.bind_some, h.next.peek]
  split
  next hequal =>
    obtain ⟨tail, rfl⟩ := List.head?_eq_some_iff.1 hequal
    simp [h.next.scanOne, Token.readLess, Nat.add_assoc]
  next hnotEqual =>
    split
    next hgreater =>
      obtain ⟨tail, rfl⟩ := List.head?_eq_some_iff.1 hgreater
      simp [h.next.scanOne, Token.readLess, Nat.add_assoc]
    next hnotGreater =>
      have hless : Token.readLess rest = (.operator .less, 0) := by
        unfold Token.readLess
        split
        next => exact absurd rfl hnotEqual
        next => exact absurd rfl hnotGreater
        next => rfl
      simp [hless]

theorem Stands.scanGreater (h : Stands text position ('>' :: rest)) :
    scanGreater text position = some ((Token.readGreater rest).1,
      position + byteLength ('>' :: rest.take (Token.readGreater rest).2)) := by
  rw [Scanner.scanGreater, h.advance]
  simp only [Option.bind_eq_bind, Option.bind_some, h.next.peek]
  split
  next hequal =>
    obtain ⟨tail, rfl⟩ := List.head?_eq_some_iff.1 hequal
    simp [h.next.scanOne, Token.readGreater, Nat.add_assoc]
  next hnotEqual =>
    have hgreater : Token.readGreater rest = (.operator .greater, 0) := by
      unfold Token.readGreater
      split
      next => exact absurd rfl hnotEqual
      next => rfl
    simp [hgreater]

theorem Stands.scanText (h : Stands text position ('"' :: rest)) :
    scanText text position = some ((Token.readText rest).1,
      position + byteLength ('"' :: rest.take (Token.readText rest).2)) := by
  rw [Scanner.scanText, h.advance]
  simp only [Option.bind_eq_bind, Option.bind_some, h.next.quotedFrom, Token.readText]
  cases Token.quoted? '"' rest with
  | none => simp [Nat.add_assoc]
  | some p => simp [Nat.add_assoc]

theorem Stands.scanQuotedSheet (h : Stands text position ('\'' :: rest)) :
    scanQuotedSheet text position = some ((Token.readQuotedSheet rest).1,
      position + byteLength ('\'' :: rest.take (Token.readQuotedSheet rest).2)) := by
  rw [Scanner.scanQuotedSheet, h.advance]
  simp only [Option.bind_eq_bind, Option.bind_some, h.next.quotedFrom, Token.readQuotedSheet]
  cases Token.quoted? '\'' rest with
  | none => simp [Nat.add_assoc]
  | some p =>
      obtain ⟨cs, count⟩ := p
      have hafter := h.next
      rw [← List.take_append_drop count rest] at hafter
      have hmarked := hafter.skip
      simp only [hmarked.peek, Option.bind_some, List.nil_append]
      split
      next hmark =>
        obtain ⟨tail, htail⟩ := List.head?_eq_some_iff.1 hmark
        rw [htail] at hmarked
        simp only [hmarked.advance, Option.bind_some, take_succ_of_drop hmark, byteLength_cons,
          byteLength_append, byteLength_nil, Nat.add_zero, ← Nat.add_assoc]
      next => simp [Nat.add_assoc]

/-- The scanner scans the token that is read, up to the end of it. -/
theorem Stands.scanFrom {c : Char} (h : Stands text position (c :: rest)) :
    scanFrom text c position =
      some ((Token.read c rest).1, position + byteLength (c :: rest.take (Token.read c rest).2)) := by
  have hsecond : Scanner.peekAt text position 1 = some rest.head? := by
    rw [h.peekAt, List.getElem?_cons_succ, List.head?_eq_getElem?]
  have hdigit : rest.head?.any Char.isDigit = Token.startsWithDigit rest := by
    cases rest <;> rfl
  rw [Scanner.scanFrom, hsecond, Option.bind_eq_bind, Option.bind_some, hdigit]
  unfold Token.read
  cases Token.ofSymbol? c with
  | some token => simp [h.scanOne]
  | none =>
    simp only []
    split
    next hc => subst hc; exact h.scanLess
    split
    next hc => subst hc; exact h.scanGreater
    split
    next hc => subst hc; exact h.scanText
    split
    next hc => subst hc; exact h.scanQuotedSheet
    split
    next hc => exact h.scanNumber_cons hc
    split
    next hc => subst hc; exact h.scanError
    split
    next hc => exact h.scanWord (continuesWord_of_startsWord hc)
    next => simp [h.scanOne]

/-! ## Lexemes -/

/-- Blanks are left out. -/
theorem scan_dropWhile (position : Nat) (cs : List Char) : Tokens.scan position 0 cs =
    Tokens.scan (position + byteLength (cs.takeWhile isBlank)) 0 (cs.dropWhile isBlank) := by
  induction cs generalizing position with
  | nil => rfl
  | cons c cs ih =>
      by_cases hc : isBlank c = true
      · rw [Tokens.scan, if_pos hc, ih, List.takeWhile_cons_of_pos hc, List.dropWhile_cons_of_pos hc,
          byteLength_cons, Nat.add_assoc]
      · rw [List.takeWhile_cons_of_neg hc, List.dropWhile_cons_of_neg hc]
        rfl

/-- The token that starts with a character comes first, and then those after it. -/
theorem scan_cons {c : Char} (hc : isBlank c = false) (position : Nat) (cs : List Char) :
    Tokens.scan position 0 (c :: cs) = .next position (Token.read c cs).1
      (Tokens.scan (position + byteLength (c :: cs.take (Token.read c cs).2)) 0
        (cs.drop (Token.read c cs).2)) := by
  rw [Tokens.scan, if_neg (Bool.eq_false_iff.1 hc), byteLength_cons, ← Nat.add_assoc, ← Tokens.scan_skip]

/-- A lexeme starts and stops between characters of the text, and it has one at least. -/
structure Within (text : List Char) (l : Lexeme) : Prop where
  start_lt_stop : l.start < l.stop
  stop_le : l.stop ≤ byteLength text
  isValid_start : (⟨l.start⟩ : String.Pos.Raw).IsValid (String.ofList text)
  isValid_stop : (⟨l.stop⟩ : String.Pos.Raw).IsValid (String.ofList text)

/-- Where only blanks are left the text ends. -/
theorem Stands.next_stop (h : Stands text position rest) (hrest : rest.dropWhile isBlank = []) :
    Scanner.next text position = some (.inl (byteLength text)) ∧
      Tokens.scan position 0 rest = .stop (byteLength text) := by
  have hstop := h.skipped isBlank
  rw [hrest] at hstop
  have hlength : position + byteLength (rest.takeWhile isBlank) = byteLength text := hstop.isValid.1
  rw [hlength] at hstop
  rw [Scanner.next, h.skipWhile, scan_dropWhile, hrest, hlength]
  simp only [Option.bind_eq_bind, Option.bind_some, hstop.peek, List.head?_nil, Tokens.scan, and_self]

/-- Where a character is left that is no blank, the token that is read there is scanned. -/
theorem Stands.next_lexeme {c : Char} {after : List Char} (h : Stands text position rest)
    (hrest : rest.dropWhile isBlank = c :: after) :
    ∃ l, Scanner.next text position = some (.inr l) ∧ Within text l ∧
      Stands text l.stop (after.drop (Token.read c after).2) ∧
        Tokens.scan position 0 rest = .next l.start l.token
          (Tokens.scan l.stop 0 (after.drop (Token.read c after).2)) := by
  have hstart := h.skipped isBlank
  rw [hrest] at hstart
  have hstop := hstart
  rw [← List.take_append_drop (Token.read c after).2 after, ← List.cons_append] at hstop
  replace hstop := hstop.skip
  refine ⟨⟨_, (Token.read c after).1, _⟩, ?_, ⟨?_, ?_, hstart.isValid.2, hstop.isValid.2⟩, hstop, ?_⟩
  · rw [Scanner.next, h.skipWhile]
    simp only [Option.bind_eq_bind, Option.bind_some, hstart.peek, List.head?_cons, hstart.scanFrom]
  · have hpos := c.utf8Size_pos
    simp only [byteLength_cons]
    omega
  · exact Nat.le.intro hstop.isValid.1
  · rw [scan_dropWhile, hrest, scan_cons (trimStart_head hrest)]

/-- From where it stands the scanner scans the tokens of the rest of the text, and comes to its end. -/
theorem Stands.lexemesFrom {bound : Nat} (h : Stands text position rest) (hbound : rest.length < bound) :
    ∃ lexemes, lexemesFrom text bound position = some (lexemes, byteLength text) ∧
      Tokens.scan position 0 rest = Tokens.ofLexemes (byteLength text) lexemes ∧
        ∀ l ∈ lexemes, Within text l := by
  induction bound generalizing rest position with
  | zero => cases hbound
  | succ bound ih =>
    rw [Scanner.lexemesFrom]
    cases hrest : rest.dropWhile isBlank with
    | nil =>
        obtain ⟨hnext, hscan⟩ := h.next_stop hrest
        rw [hnext]
        exact ⟨[], rfl, hscan, List.forall_mem_nil _⟩
    | cons c after =>
        obtain ⟨l, hnext, hl, hstop, hscan⟩ := h.next_lexeme hrest
        have hfewer : (after.drop (Token.read c after).2).length < bound := by
          have hle := (List.dropWhile_sublist isBlank (l := rest)).length_le
          rw [hrest, List.length_cons] at hle
          rw [List.length_drop]
          omega
        obtain ⟨lexemes, hlexemes, hmore, hwithin⟩ := ih hstop hfewer
        rw [hnext, hscan, hmore]
        refine ⟨l :: lexemes, ?_, rfl, List.forall_mem_cons.2 ⟨hl, hwithin⟩⟩
        simp only [Option.bind_eq_bind, Option.bind_some, hlexemes]

/-- The scanner scans the tokens of a text. -/
theorem lexemes_eq_some (text : List Char) : ∃ lexemes,
    Scanner.lexemes text = some (lexemes, byteLength text) ∧
      Tokens.ofChars text = Tokens.ofLexemes (byteLength text) lexemes ∧ ∀ l ∈ lexemes, Within text l :=
  (stands_start text).lexemesFrom (Nat.lt_succ_of_le (length_le_byteLength text))

end Scanner

end PaintQuote.Formula
