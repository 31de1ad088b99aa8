import PaintQuote.Proofs.Formula.Corners

/-!
# Which texts are addresses

A text is read as an address exactly if it is letters and digits between blanks, each with an optional
dollar sign in front, whose numerals are those of a column and of a row (`Address.ofBody_eq_ok_iff`).  The
letters are read only up to where they pass the last column, which changes nothing, since more letters
make a larger numeral (`le_foldl_numeral`).  For the same reason all steps have room in their words: a
numeral that may go on is that of a column, and digits that outgrow a word belong to no row
(`columnInWords?_eq`, `rowInWords?_eq`).

* `Address.read_exactly`: which texts are read, as what, and with which numbers on the way.
-/

namespace PaintQuote.Sheet

open Text Formula

/-! ## Numerals -/

/-- The bijective numeral of base 26 that letters are, in either case. -/
def lettersNumeral (letters : List Char) : Nat := letters.foldl (fun n c => n * 26 + letterValue c) 0

/-- More digits never make a numeral smaller. -/
theorem le_foldl_numeral {base : Nat} (hbase : 0 < base) (value : Char → Nat) (digits : List Char) :
    ∀ number, number ≤ digits.foldl (fun n c => n * base + value c) number := by
  induction digits with
  | nil => exact Nat.le_refl
  | cons c digits ih =>
      intro number
      calc number ≤ number * base := Nat.le_mul_of_pos_right _ hbase
        _ ≤ number * base + value c := Nat.le_add_right _ _
        _ ≤ _ := ih _

/-- The capital of a letter is one of the 26 from `A` to `Z`. -/
theorem toUpper_of_isAlpha {c : Char} (h : c.isAlpha = true) :
    'A'.toNat ≤ c.toUpper.toNat ∧ c.toUpper.toNat ≤ 'Z'.toNat := by
  have hall : ∀ n : Fin 128, (Char.ofNat n.val).isAlpha = true →
      'A'.toNat ≤ (Char.ofNat n.val).toUpper.toNat ∧ (Char.ofNat n.val).toUpper.toNat ≤ 'Z'.toNat := by
    decide
  have hlt : c.toNat < 128 := by
    have hrange := isAlpha_iff.1 h
    omega
  have hc := hall ⟨c.toNat, hlt⟩
  rw [Char.ofNat_toNat] at hc
  exact hc h

theorem letterValue_le {c : Char} (h : c.isAlpha = true) : letterValue c ≤ 26 := by
  have hupper := toUpper_of_isAlpha h
  have hlast : 'Z'.toNat = 'A'.toNat + 25 := rfl
  rw [letterValue]
  omega

/-! ## Columns -/

theorem readLetters_eq_ok_iff {all letters : List Char} (hletters : ∀ c ∈ letters, c.isAlpha = true) :
    ∀ {number n : Nat}, number ≤ columnLimit → (readLetters all number letters = .ok n ↔
      letters.foldl (fun n c => n * 26 + letterValue c) number ≤ columnLimit ∧
        n = letters.foldl (fun n c => n * 26 + letterValue c) number) := by
  induction letters with
  | nil =>
      intro number n hnumber
      rw [readLetters, List.foldl_nil, Except.ok.injEq, eq_comm]
      exact (and_iff_right hnumber).symm
  | cons c letters ih =>
      intro number n hnumber
      obtain ⟨hc, hrest⟩ := List.forall_mem_cons.1 hletters
      rw [readLetters, if_pos hc, List.foldl_cons]
      simp only
      split
      next hpast =>
        have hle := le_foldl_numeral (by decide : 0 < 26) letterValue letters (number * 26 + letterValue c)
        exact iff_of_false (by rintro ⟨⟩) fun h => absurd (Nat.le_trans hle h.1) (Nat.not_le.2 hpast)
      next hin => exact ih hrest (Nat.not_lt.1 hin)

/-- The letters of a column are those whose numeral is at most that of the last one. -/
theorem columnOfLetters_eq_ok_iff {letters : List Char} {column : Nat} (hne : letters ≠ [])
    (hletters : ∀ c ∈ letters, c.isAlpha = true) : columnOfLetters letters = .ok column ↔
      lettersNumeral letters ≤ columnLimit ∧ column = lettersNumeral letters - 1 := by
  have hread := @readLetters_eq_ok_iff letters letters hletters 0
  rw [columnOfLetters, if_neg (by simpa using hne)]
  constructor
  · intro h
    cases hnumber : readLetters letters 0 letters with
    | error e =>
        rw [hnumber] at h
        cases h
    | ok number =>
        rw [hnumber] at h
        cases h
        obtain ⟨hle, rfl⟩ := (hread (Nat.zero_le _)).1 hnumber
        exact ⟨hle, rfl⟩
  · rintro ⟨hle, rfl⟩
    rw [(hread (Nat.zero_le _)).2 ⟨hle, rfl⟩]
    rfl

/-! ## Rows -/

/-- The digits of a row are those whose numeral is from one to that of the last one. -/
theorem rowOfDigits_eq_ok_iff {text : String} {digits : List Char} {row : Nat} :
    rowOfDigits text digits = .ok row ↔ digits ≠ [] ∧ (∀ c ∈ digits, c.isDigit = true) ∧
      1 ≤ numeral digits ∧ numeral digits ≤ rowLimit ∧ row = numeral digits - 1 := by
  have hword : rowLimit < 0x100000000 := by decide
  by_cases hne : digits = []
  · rw [rowOfDigits, if_pos (by simp [hne])]
    exact iff_of_false (by rintro ⟨⟩) fun h => absurd hne h.1
  by_cases hdigits : ∀ c ∈ digits, c.isDigit = true
  · have hall : digits.all Char.isDigit = true := List.all_eq_true.2 hdigits
    rw [rowOfDigits, if_neg (by simpa using hne), hall]
    constructor
    · intro h
      split at h
      next => cases h
      next =>
        split at h
        next => cases h
        next hzero =>
          split at h
          next => cases h
          next hle =>
            cases h
            exact ⟨hne, hdigits, Nat.pos_of_ne_zero hzero, Nat.not_lt.1 hle, rfl⟩
    · rintro ⟨-, -, hpos, hle, rfl⟩
      rw [if_neg (by simp; omega), if_neg (by omega), if_neg (by omega)]
  · have hall : digits.all Char.isDigit = false :=
      Bool.eq_false_iff.2 fun h => hdigits (List.all_eq_true.1 h)
    rw [rowOfDigits, if_neg (by simpa using hne), hall]
    exact iff_of_false (by rintro ⟨⟩) fun h => hdigits h.2.1

/-! ## Words

The numbers of an address are worked out in words of fixed width: 32 bits while a column or a row is read,
and 16 bits for the column in the end.  Below, every step has to have room in its word.  A number of a row
that has none is refused with the text that it stands in; anywhere else there is no answer at all. -/

/-- A number, if it has room in a word of the given number of bits. -/
def inWord? (bits n : Nat) : Option Nat := if n < twoTo bits then some n else none

/-- A difference, unless it is below zero. -/
def minus? (m n : Nat) : Option Nat := if n ≤ m then some (m - n) else none

theorem inWord?_of_lt {bits n : Nat} (h : n < twoTo bits) : inWord? bits n = some n := if_pos h

theorem eq_of_inWord? {bits n m : Nat} (h : inWord? bits n = some m) : n = m :=
  Option.some.inj (Option.ite_none_right_eq_some.1 h).2

theorem minus?_of_le {m n : Nat} (h : n ≤ m) : minus? m n = some (m - n) := if_pos h

/-- The numeral of a letter, from one, in words of 32 bits. -/
def letterInWords? (c : Char) : Option Nat :=
  (minus? c.toUpper.toNat 'A'.toNat).bind fun digit => inWord? 32 (digit + 1)

/-- `readLetters` in words of 32 bits. -/
def lettersInWords? (all : List Char) (number : Nat) :
    List Char → Option (Except ReferenceError Nat)
  | [] => some (.ok number)
  | c :: rest =>
      if c.isAlpha then do
        let shifted ← inWord? 32 (number * 26)
        let letter ← letterInWords? c
        let next ← inWord? 32 (shifted + letter)
        if columnLimit < next then
          some (.error (.column (String.ofList (upperChars all)) (columnLimit - 1)))
        else lettersInWords? all next rest
      else some (.error (.address (.badLetter c)))

/-- `columnOfLetters` in words of 32 bits, with the column in a word of 16. -/
def columnInWords? (letters : List Char) : Option (Except ReferenceError Nat) :=
  if letters.isEmpty then some (.error (.address .emptyLetters))
  else do
    match ← lettersInWords? letters 0 letters with
    | .ok number =>
        let column ← minus? number 1
        let column ← inWord? 16 column
        some (.ok column)
    | .error e => some (.error e)

theorem letterInWords?_eq {c : Char} (h : c.isAlpha = true) : letterInWords? c = some (letterValue c) := by
  have hword : 26 < twoTo 32 := by decide
  have hdigit := minus?_of_le (toUpper_of_isAlpha h).1
  rw [letterInWords?, hdigit, Option.bind_some]
  exact inWord?_of_lt (Nat.lt_of_le_of_lt (letterValue_le h) hword)

/-- The numeral that goes on is that of a column, so there is room for one more letter. -/
theorem lettersInWords?_eq (all : List Char) {letters : List Char} :
    ∀ {number : Nat}, number ≤ columnLimit →
      lettersInWords? all number letters = some (readLetters all number letters) := by
  have hword : columnLimit * 26 + 26 < twoTo 32 := by decide
  induction letters with
  | nil => exact fun _ => rfl
  | cons c letters ih =>
      intro number hnumber
      rw [lettersInWords?, readLetters]
      split
      next hc =>
        have hletter := letterValue_le hc
        have hshifted : inWord? 32 (number * 26) = some (number * 26) := inWord?_of_lt (by omega)
        have hnext : inWord? 32 (number * 26 + letterValue c) = some (number * 26 + letterValue c) :=
          inWord?_of_lt (by omega)
        simp only [hshifted, letterInWords?_eq hc, hnext, Option.bind_eq_bind, Option.bind_some]
        split
        next => rfl
        next hin => exact ih (Nat.not_lt.1 hin)
      next => rfl

/-- Letters are never read as zero. -/
theorem readLetters_pos {all letters : List Char} {n : Nat} : ∀ {number : Nat},
    0 < number ∨ letters ≠ [] → readLetters all number letters = .ok n → 0 < n := by
  induction letters with
  | nil =>
      rintro number hpos ⟨⟩
      exact hpos.resolve_right (· rfl)
  | cons c letters ih =>
      intro number hpos h
      rw [readLetters] at h
      split at h
      next =>
        simp only at h
        split at h
        next => cases h
        next => exact ih (.inl (Nat.succ_pos _)) h
      next => cases h

/-- Every step from letters to a column has room in its word. -/
theorem columnInWords?_eq (letters : List Char) :
    columnInWords? letters = some (columnOfLetters letters) := by
  have hword : columnLimit ≤ twoTo 16 := by decide
  rw [columnInWords?, columnOfLetters, lettersInWords?_eq letters (Nat.zero_le _)]
  split
  next => rfl
  next hne =>
    cases hnumber : readLetters letters 0 letters with
    | error e => rfl
    | ok number =>
        have hpos : 1 ≤ number := readLetters_pos (.inr (by simpa using hne)) hnumber
        have hle : number ≤ columnLimit := Address.readLetters_le (Nat.zero_le _) hnumber
        have hcolumn : inWord? 16 (number - 1) = some (number - 1) := inWord?_of_lt (by omega)
        simp only [Option.bind_eq_bind, Option.bind_some, minus?_of_le hpos, hcolumn]
        rfl

/-- The number that digits make after a number, as long as it has room in 32 bits. -/
def digitsInWord? (number : Nat) : List Char → Option Nat
  | [] => some number
  | c :: rest => do
      let shifted ← inWord? 32 (number * 10)
      let next ← inWord? 32 (shifted + (c.toNat - '0'.toNat))
      digitsInWord? next rest

/-- `rowOfDigits` in words of 32 bits. -/
def rowInWords? (text : String) (digits : List Char) : Option (Except ReferenceError Nat) :=
  if digits.isEmpty then some (.error (.address (.noRow text)))
  else if !digits.all Char.isDigit then some (.error (.address (.badRow text)))
  else
    match digitsInWord? 0 digits with
    | none => some (.error (.address (.badRow text)))
    | some number =>
        if number = 0 then some (.error (.address (.rowZero text)))
        else do
          let row ← minus? number 1
          if rowLimit ≤ row then some (.error (.row row (rowLimit - 1))) else some (.ok row)

/-- Digits outgrow a word on the way exactly if their numeral does. -/
theorem digitsInWord?_eq {digits : List Char} : ∀ {number : Nat}, number < twoTo 32 →
    digitsInWord? number digits =
      inWord? 32 (digits.foldl (fun n c => n * 10 + (c.toNat - '0'.toNat)) number) := by
  induction digits with
  | nil => exact fun h => (inWord?_of_lt h).symm
  | cons c digits ih =>
      intro number hnumber
      have hle := le_foldl_numeral (by decide : 0 < 10) (fun c => c.toNat - '0'.toNat) digits
        (number * 10 + (c.toNat - '0'.toNat))
      rw [digitsInWord?, List.foldl_cons]
      by_cases hnext : number * 10 + (c.toNat - '0'.toNat) < twoTo 32
      · have hshifted : number * 10 < twoTo 32 := by omega
        simp only [inWord?_of_lt hshifted, inWord?_of_lt hnext, Option.bind_eq_bind, Option.bind_some]
        exact ih hnext
      · have hnone : inWord? 32 (number * 10 + (c.toNat - '0'.toNat)) = none := if_neg hnext
        have htotal : inWord? 32 (digits.foldl (fun n c => n * 10 + (c.toNat - '0'.toNat))
            (number * 10 + (c.toNat - '0'.toNat))) = none := if_neg (by omega)
        rw [htotal]
        cases hshifted : inWord? 32 (number * 10) with
        | none => rfl
        | some shifted =>
            obtain rfl := eq_of_inWord? hshifted
            simp only [hnone, Option.bind_eq_bind, Option.bind_some, Option.bind_none]

/-- Every step from digits to a row has room in its word, or the row is refused. -/
theorem rowInWords?_eq (text : String) (digits : List Char) :
    rowInWords? text digits = some (rowOfDigits text digits) := by
  have hword : twoTo 32 = 0x100000000 := by decide
  rw [rowInWords?, rowOfDigits, digitsInWord?_eq (by decide), ← numeral]
  split
  next => rfl
  next =>
    cases digits.all Char.isDigit with
    | false => rfl
    | true =>
        by_cases hroom : numeral digits < twoTo 32
        · have hpast : ¬ 0x100000000 ≤ numeral digits := by omega
          simp only [inWord?_of_lt hroom, hpast, Bool.not_true, Bool.false_or, decide_false,
            Bool.false_eq_true, if_false]
          split
          next => rfl
          next hzero =>
            have hlast : rowLimit ≤ numeral digits - 1 ↔ rowLimit < numeral digits := by omega
            simp only [minus?_of_le (Nat.pos_of_ne_zero hzero), Option.bind_eq_bind, Option.bind_some, hlast]
            split <;> rfl
        · have hnone : inWord? 32 (numeral digits) = none := if_neg hroom
          have hpast : 0x100000000 ≤ numeral digits := by omega
          simp only [hnone, hpast, decide_true, Bool.or_true, if_true, Bool.not_true, Bool.false_eq_true,
            if_false]

/-! ## Addresses -/

namespace Address

/-- The parts of an address: letters and digits, each with an optional dollar sign in front. -/
structure Parts where
  /-- Which parts have a dollar sign. -/
  anchors : Anchors
  /-- The letters of the column. -/
  letters : List Char
  /-- The digits of the row. -/
  digits : List Char
  letters_ne_nil : letters ≠ []
  isAlpha_letters : ∀ c ∈ letters, c.isAlpha = true
  digits_ne_nil : digits ≠ []
  isDigit_digits : ∀ c ∈ digits, c.isDigit = true

namespace Parts

/-- The text with given parts. -/
def chars (p : Parts) : List Char :=
  dollar p.anchors.column ++ (p.letters ++ (dollar p.anchors.row ++ p.digits))

/-- The text of an address is taken apart again. -/
theorem ofBody_chars (p : Parts) :
    ofBody p.chars = columnOfLetters p.letters >>= fun column =>
      rowOfDigits (String.ofList p.chars) p.digits >>= fun row => .ok ⟨row, column⟩ := by
  have hfirst : (p.letters ++ (dollar p.anchors.row ++ p.digits)).head? ≠ some '$' := by
    obtain ⟨c, letters, hletters⟩ := List.exists_cons_of_ne_nil p.letters_ne_nil
    rw [hletters]
    rintro ⟨⟩
    exact absurd (p.isAlpha_letters '$' (hletters ▸ List.mem_cons_self)) (by decide)
  have hsecond : p.digits.head? ≠ some '$' := fun h =>
    absurd (p.isDigit_digits '$' (List.mem_of_mem_head? h)) (by decide)
  have hrow : ∀ c ∈ (dollar p.anchors.row ++ p.digits).head?, c.isAlpha = false := by
    intro c hc
    rcases List.mem_append.1 (List.mem_of_mem_head? hc) with h | h
    · cases hanchor : p.anchors.row with
      | true =>
          rw [hanchor] at h
          rw [List.mem_singleton.1 h]
          rfl
      | false =>
          rw [hanchor] at h
          cases h
    · have hrange := isDigit_iff.1 (p.isDigit_digits c h)
      refine Bool.eq_false_iff.2 fun h' => ?_
      have hrange' := isAlpha_iff.1 h'
      omega
  have hne : p.chars.isEmpty = false := by simp [chars, p.letters_ne_nil]
  have hletters : (afterDollar p.chars).takeWhile Char.isAlpha = p.letters := by
    rw [chars, afterDollar_dollar _ hfirst, takeWhile_run p.isAlpha_letters hrow]
  have hdigits : afterDollar ((afterDollar p.chars).dropWhile Char.isAlpha) = p.digits := by
    rw [chars, afterDollar_dollar _ hfirst, dropWhile_run p.isAlpha_letters hrow,
      afterDollar_dollar _ hsecond]
  simp only [ofBody, hne, hletters, hdigits, List.isEmpty_eq_false_iff.2 p.letters_ne_nil]
  rfl

theorem ofBody_chars_eq_ok_iff (p : Parts) {a : Address} : ofBody p.chars = .ok a ↔
    columnOfLetters p.letters = .ok a.column ∧ rowOfDigits (String.ofList p.chars) p.digits = .ok a.row := by
  obtain ⟨row, column⟩ := a
  rw [p.ofBody_chars]
  cases columnOfLetters p.letters with
  | error e => exact iff_of_false (by rintro ⟨⟩) (by rintro ⟨⟨⟩, -⟩)
  | ok c =>
      cases rowOfDigits (String.ofList p.chars) p.digits with
      | error e => exact iff_of_false (by rintro ⟨⟩) (by rintro ⟨-, ⟨⟩⟩)
      | ok r =>
          constructor
          · rintro ⟨⟩
            exact ⟨rfl, rfl⟩
          · rintro ⟨⟨⟩, ⟨⟩⟩
            rfl

end Parts

/-- A text that is read has the shape of an address. -/
theorem hasAddressShape_of_ofBody {body : List Char} {a : Address} (h : ofBody body = .ok a) :
    Token.hasAddressShape body = true := by
  simp only [ofBody, bind, Except.bind] at h
  split at h
  next => cases h
  next =>
    split at h
    next => cases h
    next hletters =>
      split at h
      next => cases h
      next =>
        split at h
        next => cases h
        next row hrow =>
          obtain ⟨hne, hdigits, -⟩ := rowOfDigits_eq_ok_iff.1 hrow
          rw [Token.hasAddressShape, drop_length_takeWhile, List.all_eq_true.2 hdigits, List.isEmpty_eq_false_iff.2 hne]
          simpa using hletters

/-- A text without blanks at its ends is read exactly if it has the parts of an address that lies on a
sheet. -/
theorem ofBody_eq_ok_iff {body : List Char} {a : Address} : ofBody body = .ok a ↔
    ∃ p : Parts, body = p.chars ∧ lettersNumeral p.letters ≤ columnLimit ∧ 1 ≤ numeral p.digits ∧
      numeral p.digits ≤ rowLimit ∧ a = ⟨numeral p.digits - 1, lettersNumeral p.letters - 1⟩ := by
  have hparts : ∀ p : Parts, ofBody p.chars = .ok a ↔ lettersNumeral p.letters ≤ columnLimit ∧
      1 ≤ numeral p.digits ∧ numeral p.digits ≤ rowLimit ∧
        a = ⟨numeral p.digits - 1, lettersNumeral p.letters - 1⟩ := by
    intro p
    rw [p.ofBody_chars_eq_ok_iff, columnOfLetters_eq_ok_iff p.letters_ne_nil p.isAlpha_letters,
      rowOfDigits_eq_ok_iff]
    constructor
    · rintro ⟨⟨hle, hcolumn⟩, -, -, hpos, hlast, hrow⟩
      exact ⟨hle, hpos, hlast, by rw [← hcolumn, ← hrow]⟩
    · rintro ⟨hle, hpos, hlast, rfl⟩
      exact ⟨⟨hle, rfl⟩, p.digits_ne_nil, p.isDigit_digits, hpos, hlast, rfl⟩
  constructor
  · intro h
    obtain ⟨anchors, letters, digits, hletters, hdigits, halpha, hdigit, hbody⟩ :=
      exists_of_hasAddressShape (hasAddressShape_of_ofBody h)
    refine ⟨⟨anchors, letters, digits, hletters, halpha, hdigits, hdigit⟩, hbody, (hparts _).1 ?_⟩
    rw [← h, hbody]
    rfl
  · rintro ⟨p, rfl, h⟩
    exact (hparts p).2 h

/-- `ofBody` with its numbers in words. -/
def ofBodyInWords? (body : List Char) : Option (Except ReferenceError Address) :=
  let text := String.ofList body
  let fromLetters := afterDollar body
  let letters := fromLetters.takeWhile Char.isAlpha
  if body.isEmpty then some (.error (.address .blank))
  else if letters.isEmpty then some (.error (.address (.noLetters text)))
  else do
    match ← columnInWords? letters with
    | .error e => some (.error e)
    | .ok column =>
        match ← rowInWords? text (afterDollar (fromLetters.dropWhile Char.isAlpha)) with
        | .error e => some (.error e)
        | .ok row => some (.ok ⟨row, column⟩)

/-- `ofText` with its numbers in words. -/
def ofTextInWords? (s : String) : Option (Except ReferenceError Address) := ofBodyInWords? (trim s.toList)

/-- Every number on the way to an address has room in its word. -/
theorem ofBodyInWords?_eq (body : List Char) : ofBodyInWords? body = some (ofBody body) := by
  simp only [ofBodyInWords?, ofBody, columnInWords?_eq, rowInWords?_eq]
  split
  next => rfl
  next =>
    split
    next => rfl
    next =>
      cases columnOfLetters ((afterDollar body).takeWhile Char.isAlpha) with
      | error e => rfl
      | ok column =>
          cases rowOfDigits (String.ofList body)
            (afterDollar ((afterDollar body).dropWhile Char.isAlpha)) with
          | error e => rfl
          | ok row => rfl

/-- The texts that are read as addresses, trimmed, are those that have the parts of an address on a sheet,
and the address is the two numerals less one; on the way every number has room in its word.  The text of an
address on a sheet is read back as the address, with dollar signs too. -/
theorem read_exactly :
    (∀ (s : String) (a : Address), ofText s = .ok a ↔ ∃ p : Parts, trim s.toList = p.chars ∧
      lettersNumeral p.letters ≤ columnLimit ∧ 1 ≤ numeral p.digits ∧ numeral p.digits ≤ rowLimit ∧
        a = ⟨numeral p.digits - 1, lettersNumeral p.letters - 1⟩) ∧
    (∀ s : String, ofTextInWords? s = some (ofText s)) ∧
    ∀ a : Address, a.InBounds → ofText a.toText = .ok a ∧
      ∀ anchors : Anchors, ofText (String.ofList (anchoredChars a anchors)) = .ok a := by
  refine ⟨fun s a => ofBody_eq_ok_iff, fun s => ofBodyInWords?_eq _, fun a ha => ?_⟩
  have hread := fun anchors : Anchors => @ofText_anchoredChars a anchors ha
  refine ⟨?_, hread⟩
  rw [toText, chars_eq_anchoredChars]
  exact hread _

/-- The last cell of a sheet. -/
theorem read_exactly_last_cell :
    (⟨1048575, 16383⟩ : Address).InBounds ∧
      ofText (String.ofList (anchoredChars ⟨1048575, 16383⟩ ⟨true, true⟩)) = .ok ⟨1048575, 16383⟩ :=
  have hin : (⟨1048575, 16383⟩ : Address).InBounds := by decide
  ⟨hin, (read_exactly.2.2 ⟨1048575, 16383⟩ hin).2 ⟨true, true⟩⟩

end Address

end PaintQuote.Sheet
