import PaintQuote.Proofs.Formula.Scan

/-!
# Written formulas

The trees that a formula can be read back from (`Expr.isWellFormed`), the tokens that such a tree is
written for (`Expr.tokens`), and that its text is cut into these (`Expr.cutInto_chars`).  A text can
stand for a name exactly when the scanner takes it for one word (`isNameText_iff`).

What is written for an operand starts with no part of an operator and ends with no blank, so an
operator before it and the end of the formula after it stay apart from it.
-/

namespace PaintQuote.Formula

open Sheet Text
open Token (startsWord continuesWord hasAddressShape ofSymbol? ofWord)

/-! ## Well-formed trees -/

/-- Whether a number in a literal carries no minus. -/
def Literal.isWellFormed : Literal → Bool
  | number n => !n.negative
  | _ => true

/-- Whether a number in an item of an array constant carries no minus of its own. -/
def ArrayItem.isWellFormed : ArrayItem → Bool
  | literal l => l.isWellFormed
  | negated n => !n.negative

/-- Whether a sheet, if there is one, is the sheet that its own text names. -/
def isCanonicalSheet : Option SheetName → Bool
  | none => true
  | some sheet => (SheetName.ofText sheet.text).toOption == some sheet

/-- Whether a text is a word without dollar signs. -/
def isPlainWord (s : String) : Bool := isIdentifier s.toList && !s.toList.contains '$'

/-- Whether a text can stand for a defined name: a word that is no address and no logical value. -/
def isNameText (s : String) : Bool :=
  isPlainWord s && !hasAddressShape s.toList && upper s != "TRUE" && upper s != "FALSE"

/-- Whether a text can stand for a function: a word in upper case. -/
def isFunctionText (s : String) : Bool := isPlainWord s && upper s == s

/-- Whether rows of items form a rectangle that is not empty. -/
def isRectangle : List (List ArrayItem) → Bool
  | [] => false
  | row :: rows => !row.isEmpty && rows.all fun r => r.length == row.length

namespace Expr

mutual
/-- Whether a tree is one that the text of a formula can stand for. -/
def isWellFormed : Expr → Bool
  | literal l => l.isWellFormed
  | cell r => isCanonicalSheet r.sheet? && decide r.address.InBounds
  | range r =>
      isCanonicalSheet r.sheet? && decide r.area.start.InBounds && decide r.area.stop.InBounds
  | name s => isNameText s
  | binary _ left right => left.isWellFormed && right.isWellFormed
  | negate operand => operand.isWellFormed
  | percent operand => operand.isWellFormed
  | call function arguments => isFunctionText function && allWellFormed arguments
  | array rows => isRectangle rows && rows.all fun row => row.all ArrayItem.isWellFormed

/-- Whether all trees are well formed. -/
def allWellFormed : List Expr → Bool
  | [] => true
  | e :: es => e.isWellFormed && allWellFormed es
end

theorem allWellFormed_iff {es : List Expr} :
    allWellFormed es = true ↔ ∀ e ∈ es, e.isWellFormed = true := by
  induction es with
  | nil => simp [allWellFormed]
  | cons e es ih => simp [allWellFormed, ih]

end Expr

/-! ## Tokens -/

/-- The token of a cell without its sheet. -/
def addressToken (a : Address) (anchors : Anchors) : Token :=
  .reference (String.ofList (anchoredChars a anchors))

/-- The tokens of a sheet in front of a reference. -/
def sheetTokens : Option SheetName → List Token
  | none => []
  | some sheet => [.sheet sheet.text]

/-- The tokens of an item of an array constant. -/
def ArrayItem.tokens : ArrayItem → List Token
  | literal l => [.literal l]
  | negated n => [.operator .subtract, .literal (.number n)]

/-- Tokens between parentheses, if they are needed. -/
def grouped (needed : Bool) (ts : List Token) : List Token :=
  if needed then .leftParenthesis :: (ts ++ [.rightParenthesis]) else ts

/-- The tokens of a row of an array constant. -/
def rowTokens (row : List ArrayItem) : List Token :=
  List.intercalate [.comma] (row.map ArrayItem.tokens)

namespace Expr

mutual
/-- The tokens that an expression is written for. -/
def tokens : Expr → List Token
  | literal l => [.literal l]
  | cell r => sheetTokens r.sheet? ++ [addressToken r.address r.anchors]
  | range r =>
      sheetTokens r.sheet? ++ [addressToken r.area.start r.startAnchors]
        ++ .colon :: [addressToken r.area.stop r.stopAnchors]
  | name s => [.word s]
  | binary operator left right =>
      grouped (left.precedence < operator.precedence) left.tokens
        ++ [.operator operator]
        ++ grouped (right.precedence ≤ operator.precedence) right.tokens
  | negate operand =>
      .operator .subtract :: grouped (operand.precedence < unaryPrecedence) operand.tokens
  | percent operand => grouped (!operand.takesPercent) operand.tokens ++ [.percent]
  | call function arguments =>
      .word function :: .leftParenthesis
        :: (List.intercalate [.comma] (tokensAll arguments) ++ [.rightParenthesis])
  | array rows =>
      .leftBrace :: (List.intercalate [.semicolon] (rows.map rowTokens) ++ [.rightBrace])

/-- The tokens of expressions. -/
def tokensAll : List Expr → List (List Token)
  | [] => []
  | e :: es => e.tokens :: tokensAll es
end

theorem tokensAll_eq_map (es : List Expr) : tokensAll es = es.map tokens := by
  induction es with
  | nil => rfl
  | cons e es ih => rw [tokensAll, ih, List.map_cons]

end Expr

/-! ## The ends of a written operand -/

/-- A text starts with neither a blank nor what goes on with an operator. -/
def Opens (cs : List Char) : Prop :=
  ∃ c rest, cs = c :: rest ∧ isBlank c = false ∧ c ≠ '=' ∧ c ≠ '>'

/-- A text ends with something else than a blank. -/
def Closes (cs : List Char) : Prop := ∃ c, cs.getLast? = some c ∧ isBlank c = false

section

variable {cs : List Char} (ds : List Char)

theorem Opens.append (h : Opens cs) : Opens (cs ++ ds) := by
  obtain ⟨c, rest, rfl, hc⟩ := h
  exact ⟨c, rest ++ ds, rfl, hc⟩

theorem Closes.append (h : Closes cs) : Closes (ds ++ cs) := by
  obtain ⟨c, hlast, hc⟩ := h
  refine ⟨c, ?_, hc⟩
  rw [List.getLast?_append, hlast]
  rfl

theorem Closes.concat {c : Char} (hc : isBlank c = false) : Closes (ds ++ [c]) :=
  ⟨c, List.getLast?_concat, hc⟩

theorem Opens.operand (h : Opens cs) : Operand (cs ++ ds) := by
  obtain ⟨c, rest, rfl, -, hc⟩ := h
  rintro d ⟨⟩
  exact hc

/-- The characters of words open and close a text. -/
theorem opens_of_forall (hne : cs ≠ []) (h : ∀ c ∈ cs, continuesWord c = true) : Opens cs := by
  obtain ⟨c, rest, rfl⟩ := List.exists_cons_of_ne_nil hne
  have hc := h c List.mem_cons_self
  refine ⟨c, rest, rfl, not_isBlank_of_continuesWord hc, ?_, ?_⟩ <;>
    · rintro rfl
      rw [continuesWord_delimiter _ (by decide)] at hc
      cases hc

theorem closes_of_forall (hne : cs ≠ []) (h : ∀ c ∈ cs, continuesWord c = true) : Closes cs := by
  refine ⟨cs.getLast hne, List.getLast?_eq_some_getLast hne, ?_⟩
  exact not_isBlank_of_continuesWord (h _ (List.getLast_mem hne))

theorem continuesWord_of_isIdentifier (h : isIdentifier cs = true) :
    cs ≠ [] ∧ ∀ c ∈ cs, continuesWord c = true := by
  cases cs with
  | nil => cases h
  | cons c rest =>
      obtain ⟨hc, hrest⟩ := isIdentifier_cons.1 h
      exact ⟨List.cons_ne_nil _ _, List.forall_mem_cons.2 ⟨continuesWord_of_startsWord hc, hrest⟩⟩

end

theorem opens_parenthesized (needed : Bool) {cs : List Char} (h : Opens cs) :
    Opens (Expr.parenthesized needed cs) := by
  cases needed with
  | true => exact ⟨'(', _, rfl, by decide⟩
  | false => exact h

theorem closes_parenthesized (needed : Bool) {cs : List Char} (h : Closes cs) :
    Closes (Expr.parenthesized needed cs) := by
  cases needed with
  | true => exact Closes.concat ('(' :: cs) (by decide)
  | false => exact h

theorem opens_sheetMark (sheet? : Option SheetName) {cs : List Char} (h : Opens cs) :
    Opens (sheetMark sheet? ++ cs) := by
  cases sheet? with
  | none => exact h
  | some sheet =>
      cases hquotes : sheet.needsQuotes with
      | true =>
          rw [sheetMark, SheetName.chars, if_pos hquotes]
          exact ⟨'\'', _, rfl, by decide⟩
      | false =>
          have hword : isIdentifier sheet.text.toList = true :=
            isIdentifier_of_isWord (by simpa [SheetName.needsQuotes] using hquotes)
          obtain ⟨hne, hall⟩ := continuesWord_of_isIdentifier hword
          rw [sheetMark, SheetName.chars, if_neg (Bool.eq_false_iff.1 hquotes)]
          exact ((opens_of_forall hne hall).append _).append _

theorem Literal.opens_and_closes {l : Literal} (h : l.isWellFormed = true) :
    Opens l.chars ∧ Closes l.chars := by
  cases l with
  | number n =>
      obtain ⟨hne, hall⟩ := continuesWord_number (by simpa [isWellFormed] using h)
      exact ⟨opens_of_forall hne hall, closes_of_forall hne hall⟩
  | text s => exact ⟨⟨'"', _, rfl, by decide⟩, .concat ('"' :: double '"' s.toList) (by decide)⟩
  | boolean b => cases b <;> exact ⟨⟨_, _, rfl, by decide⟩, ⟨_, rfl, by decide⟩⟩
  | error e => cases e <;> exact ⟨⟨_, _, rfl, by decide⟩, ⟨_, rfl, by decide⟩⟩

theorem opens_anchoredChars (a : Address) (anchors : Anchors) : Opens (anchoredChars a anchors) :=
  opens_of_forall anchoredChars_ne_nil fun _ hc => continuesWord_of_mem_anchoredChars hc

theorem closes_anchoredChars (a : Address) (anchors : Anchors) : Closes (anchoredChars a anchors) :=
  closes_of_forall anchoredChars_ne_nil fun _ hc => continuesWord_of_mem_anchoredChars hc

namespace Expr

/-- What is written for an expression starts like an operand. -/
theorem opens_chars : (e : Expr) → e.isWellFormed = true → Opens e.chars
  | literal l, h => (Literal.opens_and_closes h).1
  | cell r, _ => opens_sheetMark r.sheet? (opens_anchoredChars r.address r.anchors)
  | range r, _ => (opens_sheetMark r.sheet? (opens_anchoredChars r.area.start r.startAnchors)).append _
  | name s, h => by
      simp only [isWellFormed, isNameText, isPlainWord, Bool.and_eq_true] at h
      obtain ⟨hne, hall⟩ := continuesWord_of_isIdentifier h.1.1.1.1
      exact opens_of_forall hne hall
  | binary o left right, h => by
      simp only [isWellFormed, Bool.and_eq_true] at h
      exact ((opens_parenthesized _ (opens_chars left h.1)).append _).append _
  | negate operand, _ => ⟨'-', _, rfl, by decide⟩
  | percent operand, h => (opens_parenthesized _ (opens_chars operand h)).append _
  | call function arguments, h => by
      simp only [isWellFormed, isFunctionText, isPlainWord, Bool.and_eq_true] at h
      obtain ⟨hne, hall⟩ := continuesWord_of_isIdentifier h.1.1.1
      exact (opens_of_forall hne hall).append _
  | array rows, _ => ⟨'\x7b', _, rfl, by decide⟩

theorem closes_call (function : String) (arguments : List Expr) :
    Closes (call function arguments).chars := Closes.append _ (.concat ('(' :: _) (by decide))

/-- What is written for an expression ends with no blank. -/
theorem closes_chars : (e : Expr) → e.isWellFormed = true → Closes e.chars
  | literal l, h => (Literal.opens_and_closes h).2
  | cell r, _ => (closes_anchoredChars r.address r.anchors).append _
  | range r, _ => ((closes_anchoredChars r.area.stop r.stopAnchors).append [':']).append _
  | name s, h => by
      simp only [isWellFormed, isNameText, isPlainWord, Bool.and_eq_true] at h
      obtain ⟨hne, hall⟩ := continuesWord_of_isIdentifier h.1.1.1.1
      exact closes_of_forall hne hall
  | binary o left right, h => by
      simp only [isWellFormed, Bool.and_eq_true] at h
      exact (closes_parenthesized _ (closes_chars right h.2)).append _
  | negate operand, h => (closes_parenthesized _ (closes_chars operand h)).append ['-']
  | percent operand, _ => .concat _ (by decide)
  | call function arguments, _ => closes_call function arguments
  | array rows, _ => .concat ('\x7b' :: _) (by decide)

end Expr

/-! ## Cutting -/

theorem delimited_symbol (o : BinaryOperator) (rest : List Char) :
    Delimited (o.symbol.toList ++ rest) := by
  cases o <;> exact Delimited.cons (by decide) _

theorem cutInto_parenthesized (needed : Bool) {cs : List Char} {lead : List Token}
    (h : CutInto Delimited cs lead) :
    CutInto Delimited (Expr.parenthesized needed cs) (grouped needed lead) := by
  cases needed with
  | false => exact h
  | true =>
      have hopen : CutInto Free ['('] [.leftParenthesis] := cutInto_symbol rfl
      have hclose : CutInto Free [')'] [.rightParenthesis] := cutInto_symbol rfl
      have hinner := h.append hclose fun rest _ => Delimited.cons (by decide) rest
      exact (hopen.append hinner fun _ _ => trivial).mono fun _ _ => trivial

/-- Parts with separators between them are cut one by one. -/
theorem cutInto_separated {α : Type} {separator : Char} {token : Token}
    (hsymbol : ofSymbol? separator = some token) (hdelimiter : separator ∈ delimiters)
    {chars : α → List Char} {lead : α → List Token} :
    (xs : List α) → (∀ x ∈ xs, CutInto Delimited (chars x) (lead x)) →
      CutInto Delimited (separated separator (xs.map chars)) (List.intercalate [token] (xs.map lead))
  | [], _ => .nil
  | [x], h => by
      have hx := h x List.mem_cons_self
      simpa [separated, List.intercalate] using hx
  | x :: y :: xs, h => by
      have hx := h x List.mem_cons_self
      have hrest := cutInto_separated hsymbol hdelimiter (y :: xs) fun z hz =>
        h z (List.mem_cons_of_mem _ hz)
      have hseparator : CutInto Free [separator] [token] := cutInto_symbol hsymbol
      have hmore := hseparator.append hrest fun _ _ => trivial
      have hall := hx.append hmore fun rest _ => Delimited.cons hdelimiter _
      simpa [separated, List.intercalate] using hall

theorem cutInto_literal {l : Literal} (h : l.isWellFormed = true) :
    CutInto Delimited l.chars [.literal l] := by
  cases l with
  | number n => exact cutInto_number (by simpa [Literal.isWellFormed] using h)
  | text s => exact cutInto_text s
  | boolean b => exact cutInto_boolean b
  | error e => exact cutInto_error e

theorem cutInto_item {x : ArrayItem} (h : x.isWellFormed = true) :
    CutInto Delimited x.chars x.tokens := by
  cases x with
  | literal l => exact cutInto_literal h
  | negated n =>
      have hminus : CutInto Free ['-'] [.operator .subtract] := cutInto_symbol rfl
      have hnumber := cutInto_number (d := n) (by simpa [ArrayItem.isWellFormed] using h)
      exact hminus.append hnumber fun _ _ => trivial

theorem cutInto_reference (sheet? : Option SheetName) (a : Address) (anchors : Anchors) :
    CutInto Delimited (sheetMark sheet? ++ anchoredChars a anchors)
      (sheetTokens sheet? ++ [addressToken a anchors]) := by
  have haddress := cutInto_anchoredChars a anchors
  cases sheet? with
  | none => exact haddress
  | some sheet => exact (cutInto_sheet sheet).append haddress fun _ _ => trivial

/-! ## Names -/

/-- A text that can stand for a name is the token of a word. -/
theorem ofWord_eq_word_iff {s : String} :
    ofWord s.toList false = .word s ↔
      s.toList.contains '$' = false ∧ hasAddressShape s.toList = false ∧ upper s ≠ "TRUE" ∧
        upper s ≠ "FALSE" := by
  have hupper : ∀ t : String, upperChars s.toList = t.toList ↔ upper s = t := fun t => by
    rw [upper, ← String.toList_inj, String.toList_ofList]
  simp only [ofWord, hupper, and_true]
  split
  next h => simp [h]
  next htrue =>
    split
    next h => simp [h]
    next hfalse =>
      split
      next h => simp [h]
      next hshape =>
        split
        next h => exact ⟨by rintro ⟨⟩, fun hs => absurd h (Bool.eq_false_iff.1 hs.1)⟩
        next hdollar => simpa [htrue, hfalse, Bool.eq_false_iff.2 hshape] using hdollar

theorem isNameText_iff_ofWord {s : String} :
    isNameText s = true ↔ isIdentifier s.toList = true ∧ ofWord s.toList false = .word s := by
  rw [ofWord_eq_word_iff]
  simp [isNameText, isPlainWord, and_assoc]

/-- Whether a token holds the text of a word. -/
def Token.holdsWord : Token → Bool
  | .word _ | .reference _ => true
  | _ => false

/-- Only what starts a word is read as one. -/
theorem read_word {c : Char} {rest : List Char} {token : Token} {further : Nat}
    (h : Token.read c rest = (token, further)) (htoken : token.holdsWord = true) :
    startsWord c = true ∧ Token.readWord c rest = (token, further) := by
  have hless : ∀ cs, (Token.readLess cs).1.holdsWord = false := by
    intro cs
    unfold Token.readLess
    split <;> rfl
  have hgreater : ∀ cs, (Token.readGreater cs).1.holdsWord = false := by
    intro cs
    unfold Token.readGreater
    split <;> rfl
  have htext : ∀ cs, (Token.readText cs).1.holdsWord = false := by
    intro cs
    unfold Token.readText
    split <;> rfl
  have hsheet : ∀ cs, (Token.readQuotedSheet cs).1.holdsWord = false := by
    intro cs
    unfold Token.readQuotedSheet
    split
    · split <;> rfl
    · rfl
  have hnumber : ∀ cs, (Token.readNumber cs).1.holdsWord = false := by
    intro cs
    simp only [Token.readNumber]
    split <;> rfl
  have herror : ∀ cs, (Token.readError cs).1.holdsWord = false := by
    intro cs
    unfold Token.readError
    split <;> rfl
  have hnone : ∀ {read : Token × Nat}, read.1.holdsWord = false → read ≠ (token, further) := by
    rintro read hread rfl
    exact Bool.eq_false_iff.1 hread htoken
  unfold Token.read at h
  split at h
  next _ hsymbol =>
    cases h
    unfold ofSymbol? at hsymbol
    split at hsymbol <;> cases hsymbol <;> cases htoken
  next =>
    split at h
    next => exact absurd h (hnone (hless _))
    split at h
    next => exact absurd h (hnone (hgreater _))
    split at h
    next => exact absurd h (hnone (htext _))
    split at h
    next => exact absurd h (hnone (hsheet _))
    split at h
    next => exact absurd h (hnone (hnumber _))
    split at h
    next => exact absurd h (hnone (herror _))
    split at h
    next hstarts => exact ⟨hstarts, h⟩
    next => exact absurd h (hnone rfl)

/-- A word is the text that it takes up, and it takes up all characters of words. -/
theorem readWord_word {c : Char} {rest : List Char} {s : String} {further : Nat}
    (h : Token.readWord c rest = (.word s, further)) :
    s.toList = c :: rest.takeWhile continuesWord ∧ further = (rest.takeWhile continuesWord).length ∧
      ofWord s.toList ((rest.drop further).head? == some '(') = .word s := by
  have hword : ∀ cs called, ofWord cs called = .word s → s.toList = cs := by
    intro cs called hs
    simp only [ofWord] at hs
    repeat' split at hs
    all_goals cases hs
    exact String.toList_ofList
  simp only [Token.readWord] at h
  split at h
  next => cases h
  next =>
    obtain ⟨htoken, rfl⟩ := Prod.mk.inj h
    have hs := hword _ _ htoken
    exact ⟨hs, rfl, by rw [hs]; exact htoken⟩

/-- A word that comes first in a text is no longer than the text. -/
theorem length_le_of_scan {s : String} {more : List Token} : (cs : List Char) → (position : Nat) →
    (Tokens.scan position 0 cs).toList = .word s :: more → s.toList.length ≤ cs.length
  | [], position, h => by cases h
  | c :: rest, position, h => by
      rw [Tokens.scan] at h
      split at h
      next => exact Nat.le_succ_of_le (length_le_of_scan rest _ h)
      next =>
        obtain ⟨htoken, -⟩ := List.cons.inj h
        have hread := readWord_word (read_word (Prod.ext htoken rfl) rfl).2
        rw [hread.1, List.length_cons, List.length_cons]
        exact Nat.succ_le_succ (List.takeWhile_sublist _).length_le

/-- The texts that can stand for names are those that the scanner takes for one word. -/
theorem isNameText_iff {s : String} :
    isNameText s = true ↔ (Tokens.ofChars s.toList).toList = [.word s] := by
  rw [isNameText_iff_ofWord]
  constructor
  · rintro ⟨hword, htoken⟩
    obtain ⟨position, start, rest, hnext, hrest⟩ := cutInto_word hword 0 [] .nil
    rw [List.append_nil] at hnext
    rw [Tokens.ofChars, hnext, hrest, htoken]
    rfl
  · intro h
    cases hs : s.toList with
    | nil =>
        rw [hs] at h
        cases h
    | cons c rest =>
        rw [hs, Tokens.ofChars, Tokens.scan] at h
        split at h
        next =>
          have hlength := length_le_of_scan rest _ h
          rw [hs, List.length_cons] at hlength
          omega
        next =>
          obtain ⟨htoken, -⟩ := List.cons.inj h
          obtain ⟨hstarts, hread⟩ := read_word (Prod.ext htoken rfl) rfl
          obtain ⟨htext, hfurther, hword⟩ := readWord_word hread
          have hrest : rest.takeWhile continuesWord = rest := by
            rw [hs] at htext
            exact (List.cons.inj htext).2.symm
          rw [hrest] at hfurther
          rw [hfurther, List.drop_length] at hword
          have hall : (rest.takeWhile continuesWord).all continuesWord = true := List.all_takeWhile
          rw [hrest] at hall
          exact ⟨isIdentifier_cons.2 ⟨hstarts, List.all_eq_true.1 hall⟩, hs ▸ hword⟩

theorem cutInto_name {s : String} (h : isNameText s = true) :
    CutInto Delimited s.toList [.word s] := by
  obtain ⟨hword, htoken⟩ := isNameText_iff_ofWord.1 h
  rw [← htoken]
  exact cutInto_word hword

theorem cutInto_function {s : String} (h : isFunctionText s = true) :
    CutInto (fun rest => rest.head? = some '(') s.toList [.word s] := by
  simp only [isFunctionText, isPlainWord, Bool.and_eq_true, Bool.not_eq_true'] at h
  have htoken : ofWord s.toList true = .word s := by
    simp only [ofWord, Bool.true_eq_false, and_false, if_false, h.1.2, Bool.false_eq_true,
      String.ofList_toList]
  rw [← htoken]
  exact cutInto_called h.1.1

namespace Expr

theorem cutInto_range (r : RangeReference) : CutInto Delimited (range r).chars (range r).tokens := by
  have hcolon : CutInto Free [':'] [.colon] := cutInto_symbol rfl
  have hstop := hcolon.append (cutInto_anchoredChars r.area.stop r.stopAnchors) fun _ _ => trivial
  have hstart := cutInto_reference r.sheet? r.area.start r.startAnchors
  exact hstart.append hstop fun rest _ => Delimited.cons (by decide) _

theorem cutInto_binary (o : BinaryOperator) {left right : Expr}
    (hleft : CutInto Delimited left.chars left.tokens) (hopens : Opens right.chars)
    (hright : CutInto Delimited right.chars right.tokens) :
    CutInto Delimited (binary o left right).chars (binary o left right).tokens := by
  have hstart := (cutInto_parenthesized (left.precedence < o.precedence) hleft).append
    (cutInto_operator o) fun rest _ => delimited_symbol o rest
  have hstop := cutInto_parenthesized (right.precedence ≤ o.precedence) hright
  exact hstart.append hstop fun rest _ => (opens_parenthesized _ hopens).operand rest

theorem cutInto_call {function : String} {arguments : List Expr} (hfunction : isFunctionText function)
    (h : ∀ a ∈ arguments, CutInto Delimited a.chars a.tokens) :
    CutInto Delimited (call function arguments).chars (call function arguments).tokens := by
  have hopen : CutInto Free ['('] [.leftParenthesis] := cutInto_symbol rfl
  have hclose : CutInto Free [')'] [.rightParenthesis] := cutInto_symbol rfl
  have hparts : CutInto Delimited (separated ',' (arguments.map chars))
      (List.intercalate [.comma] (arguments.map tokens)) := cutInto_separated rfl (by decide) arguments h
  have hinner := hparts.append hclose fun rest _ => Delimited.cons (by decide) rest
  have hbody := hopen.append hinner fun _ _ => trivial
  have hall := (cutInto_function hfunction).append hbody fun rest _ => rfl
  rw [chars, tokens, charsAll_eq_map, tokensAll_eq_map]
  exact hall.mono fun _ _ => trivial

/-- The text of a well-formed expression is cut into its tokens. -/
theorem cutInto_chars : (e : Expr) → e.isWellFormed = true → CutInto Delimited e.chars e.tokens
  | literal l, h => cutInto_literal h
  | cell r, _ => cutInto_reference r.sheet? r.address r.anchors
  | range r, _ => cutInto_range r
  | name s, h => cutInto_name h
  | binary o left right, h => by
      simp only [isWellFormed, Bool.and_eq_true] at h
      exact cutInto_binary o (cutInto_chars left h.1) (opens_chars right h.2) (cutInto_chars right h.2)
  | negate operand, h => by
      have hminus : CutInto Free ['-'] [.operator .subtract] := cutInto_symbol rfl
      exact hminus.append (cutInto_parenthesized _ (cutInto_chars operand h)) fun _ _ => trivial
  | percent operand, h => by
      have hsign : CutInto Free ['%'] [.percent] := cutInto_symbol rfl
      have hoperand := cutInto_parenthesized (!operand.takesPercent) (cutInto_chars operand h)
      have hall := hoperand.append hsign fun rest _ => Delimited.cons (by decide) rest
      exact hall.mono fun _ _ => trivial
  | call function arguments, h => by
      simp only [isWellFormed, Bool.and_eq_true, allWellFormed_iff] at h
      exact cutInto_call h.1 fun a ha => cutInto_chars a (h.2 a ha)
  | array rows, h => by
      simp only [isWellFormed, Bool.and_eq_true, List.all_eq_true] at h
      have hopen : CutInto Free ['\x7b'] [.leftBrace] := cutInto_symbol rfl
      have hclose : CutInto Free ['\x7d'] [.rightBrace] := cutInto_symbol rfl
      have hrows : CutInto Delimited
          (separated ';' (rows.map fun row => separated ',' (row.map ArrayItem.chars)))
          (List.intercalate [.semicolon] (rows.map rowTokens)) :=
        cutInto_separated rfl (by decide) rows fun row hrow =>
          cutInto_separated rfl (by decide) row fun x hx => cutInto_item (h.2 row hrow x hx)
      have hinner := hrows.append hclose fun rest _ => Delimited.cons (by decide) rest
      exact (hopen.append hinner fun _ _ => trivial).mono fun _ _ => trivial

end Expr

end PaintQuote.Formula
