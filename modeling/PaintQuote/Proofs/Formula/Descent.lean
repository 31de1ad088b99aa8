import PaintQuote.Proofs.Formula.Acceptance
import PaintQuote.Proofs.Formula.Corners
import PaintQuote.Proofs.Formula.Scanner

/-!
# Recursive descent

The readers of formulas as functions that call each other on what is left of the tokens.  The first argument
of each says how many calls may be within one another; a reading that needs more of them is given up, and so
is one that takes a slice of a text that does not exist.

With nine calls for each token and nine more, what is read is what the readers with bounds read, so nothing
is given up (`Descent.ofText_eq`).  There are nine calls from an expression down to a primary expression, and
whatever is called after that has a token less.  A text that is sliced has the shape of an address, and
starts with a dollar sign or a letter, which has one byte.
-/

namespace PaintQuote.Formula

open Sheet Text
open Token (hasAddressShape)

/-! ## Slices of addresses -/

theorem utf8Size_of_isAlpha {c : Char} (h : c.isAlpha = true) : c.utf8Size = 1 := by
  rw [Char.utf8Size_eq_one_iff, UInt32.le_iff_toNat_le]
  show c.toNat ≤ 127
  rcases isAlpha_iff.1 h with hupper | hlower <;> omega

theorem sliceFrom?_one {cs : List Char} (h : hasAddressShape cs = true) :
    sliceFrom? 1 cs = some (cs.drop 1) := by
  obtain ⟨anchors, letters, digits, hletters, -, halpha, -, rfl⟩ := exists_of_hasAddressShape h
  obtain ⟨c, letters, rfl⟩ := List.exists_cons_of_ne_nil hletters
  cases anchors.column with
  | true => exact sliceFrom?_eq_some_iff.2 ⟨['$'], rfl, rfl⟩
  | false => exact sliceFrom?_eq_some_iff.2 ⟨[c], rfl, utf8Size_of_isAlpha (halpha c List.mem_cons_self)⟩

/-! ## Calls within calls -/

/-- A reading that is given up, as `none`, when its calls are too deep. -/
abbrev Descent (α : Type) := ExceptT ParseError Option α

namespace Descent

variable {α : Type}

/-- A reading that has come to its end. -/
def ended (result : Except ParseError α) : Descent α := some result

/-- A reading that is given up. -/
def givenUp : Descent α := none

/-- The cell written in a text that has the shape of an address; a dollar sign for its row is looked for
from the second byte on. -/
def cellReference (sheet? : Option SheetName) (position : Nat) (text : String) :
    Descent CellReference :=
  match Address.ofText text with
  | .error error => ended (.error ⟨position, .reference text error⟩)
  | .ok address => (sliceFrom? 1 text.toList).bind fun rest =>
      ended (.ok ⟨sheet?, address, ⟨text.toList.head? == some '$', rest.contains '$'⟩⟩)

/-- Reads the cell after the name of a sheet. -/
def qualifiedCell (position : Nat) (name : String) (tokens : Tokens) : Descent (Expr × Tokens) :=
  match SheetName.ofText name with
  | .error error => ended (.error ⟨position, .sheetName error⟩)
  | .ok sheet =>
      match tokens with
      | .next position (.reference text) rest => do
          let r ← cellReference (some sheet) position text
          ended (.ok (.cell r, rest))
      | _ => ended (.error ⟨tokens.position, .sheetAlone⟩)

/-- Reads the items of an array constant up to its closing brace: those left in the row and the rows
after it. -/
def arrayRows : Nat → Tokens → Descent ((List ArrayItem × List (List ArrayItem)) × Tokens)
  | 0, _ => givenUp
  | depth + 1, tokens => do
      let (item, rest) ← ended (Reader.arrayItem tokens)
      match rest with
      | .next _ .comma after =>
          let ((row, rows), rest) ← arrayRows depth after
          ended (.ok ((item :: row, rows), rest))
      | .next _ .semicolon after =>
          let ((row, rows), rest) ← arrayRows depth after
          ended (.ok (([item], row :: rows), rest))
      | .next _ .rightBrace _ => ended (.ok (([item], []), rest))
      | _ => ended (.error (Reader.unexpected rest))

/-- Reads an array constant after its opening brace. -/
def array (depth : Nat) (tokens : Tokens) : Descent (Expr × Tokens) := do
  let ((row, rows), rest) ← arrayRows depth tokens
  if rows.all fun r => r.length == row.length then
    let rest ← ended (Reader.expect .rightBrace rest)
    ended (.ok (.array (row :: rows), rest))
  else ended (.error ⟨rest.position, .raggedArray⟩)

mutual

/-- Reads an expression that binds at least as tightly as given. -/
def level : Nat → Nat → Tokens → Descent (Expr × Tokens)
  | 0, _, _ => givenUp
  | depth + 1, precedence, tokens =>
      if precedence < 6 then do
        let (left, rest) ← level depth (precedence + 1) tokens
        operators depth precedence left rest
      else signed depth tokens

/-- Reads the operators of one precedence that follow a left operand, each with its right operand. -/
def operators : Nat → Nat → Expr → Tokens → Descent (Expr × Tokens)
  | 0, _, _, _ => givenUp
  | depth + 1, precedence, left, .next position (.operator o) rest =>
      if o.precedence = precedence then do
        let (right, rest) ← level depth (precedence + 1) rest
        operators depth precedence (.binary o left right) rest
      else ended (.ok (left, .next position (.operator o) rest))
  | _ + 1, _, left, tokens => ended (.ok (left, tokens))

/-- Reads an operand with the signs in front of it and the percent signs after it. -/
def signed : Nat → Tokens → Descent (Expr × Tokens)
  | 0, _ => givenUp
  | depth + 1, .next _ (.operator .subtract) rest => do
      let (e, rest) ← signed depth rest
      ended (.ok (.negate e, rest))
  | depth + 1, .next _ (.operator .add) rest => signed depth rest
  | depth + 1, tokens => do
      let (e, rest) ← range depth tokens
      ended (.ok (Reader.percents e rest))

/-- Reads a primary expression, or two cells with a colon between them. -/
def range : Nat → Tokens → Descent (Expr × Tokens)
  | 0, _ => givenUp
  | depth + 1, tokens => do
      let (left, rest) ← primary depth tokens
      match rest with
      | .next colon .colon after =>
          let (right, rest) ← primary depth after
          match left, right with
          | .cell a, .cell b =>
              match Reader.rangeSheet? a.sheet? b.sheet? with
              | some sheet? =>
                  ended (.ok
                    (.range ⟨sheet?, .between a.address b.address, a.anchors, b.anchors⟩, rest))
              | none => ended (.error ⟨after.position, .rangeSheets⟩)
          | _, _ => ended (.error ⟨colon, .rangeCorners⟩)
      | _ => ended (.ok (left, rest))

/-- Reads a primary expression. -/
def primary : Nat → Tokens → Descent (Expr × Tokens)
  | 0, _ => givenUp
  | _ + 1, .next _ (.literal l) rest => ended (.ok (.literal l, rest))
  | depth + 1, .next _ .leftParenthesis rest => do
      let (e, rest) ← level depth 1 rest
      let rest ← ended (Reader.expect .rightParenthesis rest)
      ended (.ok (e, rest))
  | depth + 1, .next _ .leftBrace rest => array depth rest
  | _ + 1, .next position (.sheet name) rest => qualifiedCell position name rest
  | _ + 1, .next position (.reference text) rest => do
      let r ← cellReference none position text
      ended (.ok (.cell r, rest))
  | depth + 1, .next _ (.word function) (.next _ .leftParenthesis rest) => do
      let (es, rest) ← arguments depth rest
      ended (.ok (.call (upper function) es, rest))
  | _ + 1, .next _ (.word name) rest => ended (.ok (.name name, rest))
  | _ + 1, tokens => ended (.error (Reader.unexpected tokens))

/-- Reads the arguments of a call after its opening parenthesis. -/
def arguments : Nat → Tokens → Descent (List Expr × Tokens)
  | 0, _ => givenUp
  | _ + 1, .next _ .rightParenthesis rest => ended (.ok ([], rest))
  | depth + 1, tokens => do
      let (e, rest) ← level depth 1 tokens
      let (es, rest) ← moreArguments depth rest
      ended (.ok (e :: es, rest))

/-- Reads further arguments, each after a comma, and the closing parenthesis. -/
def moreArguments : Nat → Tokens → Descent (List Expr × Tokens)
  | 0, _ => givenUp
  | depth + 1, .next _ .comma rest => do
      let (e, rest) ← level depth 1 rest
      let (es, rest) ← moreArguments depth rest
      ended (.ok (e :: es, rest))
  | _ + 1, tokens => do
      let rest ← ended (Reader.expect .rightParenthesis tokens)
      ended (.ok ([], rest))

end

/-- The tree of which the tokens are all. -/
def ofTokens (depth : Nat) (tokens : Tokens) : Descent Expr :=
  match tokens with
  | .stop _ => ended (.error ⟨0, .empty⟩)
  | .next _ _ _ => do
      let (e, rest) ← level depth 1 tokens
      match rest with
      | .stop _ => ended (.ok e)
      | .next _ _ _ => ended (.error (Reader.unexpected rest))

/-- The tree of a formula, of which the tokens are scanned by their positions. -/
def ofText (depth : Nat) (s : String) : Descent Expr :=
  (Scanner.lexemes (Expr.body s.toList)).bind fun (lexemes, finish) =>
    ofTokens depth (.ofLexemes finish lexemes)

/-! ## Readings come to an end -/

/-- There are fewer tokens than given, and each reference among them has the shape of an address. -/
structure Below (n : Nat) (tokens : Tokens) : Prop where
  length_lt : tokens.length < n
  shape : ∀ text, .reference text ∈ tokens.toList → hasAddressShape text.toList = true

/-- With nine calls for each token and some more, fewer tokens than given are read as a reader reads
them. -/
def Agrees (descent : Nat → Tokens → Descent (α × Tokens)) (reader : Reader α) (n calls : Nat) : Prop :=
  ∀ tokens, Below n tokens → ∀ depth, 9 * tokens.length + calls ≤ depth →
    descent depth tokens = ended (reader tokens)

section

variable {β : Type} {n k position depth calls : Nat} {token : Token} {rest tokens tail : Tokens}
  {lead : List Token}

theorem Below.of_leads (h : Below n tokens) (hlead : Leads lead tokens tail) : Below n tail where
  length_lt := by
    have hlength := hlead.length
    have hlt := h.length_lt
    omega
  shape text hmem := h.shape text (hlead.toList ▸ List.mem_append_right lead hmem)

theorem Below.below_tail (h : Below (n + 1) (.next position token rest)) : Below n rest where
  length_lt := Nat.lt_of_succ_lt_succ h.length_lt
  shape text hmem := h.shape text (List.mem_cons_of_mem token hmem)

theorem Below.of_next (h : Below n (.next position token rest)) : Below n rest :=
  h.of_leads (Reader.leads_cons (Reader.leads_nil rest))

theorem Below.of_sound {reader : Reader Expr} {e : Expr} (h : Below n tokens)
    (hsound : Reader.Sound reader k) (hread : reader tokens = .ok (e, tail)) :
    Below n tail ∧ tail.length ≤ tokens.length := by
  obtain ⟨lead, hlead, -⟩ := hsound _ _ _ hread
  refine ⟨h.of_leads hlead, ?_⟩
  rw [hlead.length]
  exact Nat.le_add_left _ _

/-- A reading that has come to its end goes on as the reader does. -/
theorem bind_eq_ended {x : Descent α} {r : Except ParseError α} {f : α → Descent β}
    {g : α → Except ParseError β} (hx : x = ended r) (hf : ∀ a, r = .ok a → f a = ended (g a)) :
    (x >>= f) = ended (r >>= g) := by
  subst hx
  cases r with
  | error e => rfl
  | ok a => exact hf a rfl

theorem agrees_of_succ {descent : Nat → Tokens → Descent (α × Tokens)} {reader : Reader α}
    (h : ∀ tokens, Below n tokens → ∀ depth, 9 * tokens.length + calls ≤ depth →
      descent (depth + 1) tokens = ended (reader tokens)) : Agrees descent reader n (calls + 1) := by
  intro tokens htokens depth hdepth
  obtain ⟨depth, rfl⟩ := Nat.exists_eq_add_one.2 (Nat.zero_lt_of_lt hdepth)
  exact h tokens htokens depth (Nat.le_of_succ_le_succ hdepth)

/-! ### References -/

theorem cellReference_eq {text : String} (h : hasAddressShape text.toList = true)
    (sheet? : Option SheetName) (position : Nat) :
    cellReference sheet? position text = ended (Reader.cellReference sheet? position text) := by
  unfold cellReference Reader.cellReference
  cases Address.ofText text with
  | error error => rfl
  | ok address => rw [sliceFrom?_one h]; rfl

theorem qualifiedCell_eq (h : Below n tokens) (position : Nat) (name : String) :
    qualifiedCell position name tokens = ended (Reader.qualifiedCell position name tokens) := by
  unfold qualifiedCell Reader.qualifiedCell
  cases SheetName.ofText name with
  | error error => rfl
  | ok sheet =>
      cases tokens with
      | stop position => rfl
      | next position token rest =>
          cases token with
          | reference text =>
              exact bind_eq_ended (cellReference_eq (h.shape text List.mem_cons_self) _ _)
                fun _ _ => rfl
          | _ => rfl

/-! ### Operators and signs -/

section

variable {operand : Reader Expr}

theorem operators_eq (hsound : Reader.Sound operand (k + 1))
    (h : Agrees (fun depth => level depth (k + 1)) operand n calls) (hcalls : calls ≤ 9) {bound : Nat}
    {left : Expr} (htokens : Below n tokens) (hbound : tokens.length ≤ bound)
    (hdepth : 9 * tokens.length + 1 ≤ depth) :
    operators depth k left tokens = ended (Reader.chainFrom k operand bound left tokens) := by
  obtain ⟨depth, rfl⟩ := Nat.exists_eq_add_one.2 (show 0 < depth by omega)
  fun_induction Reader.chainFrom k operand bound left tokens generalizing depth with
  | case1 bound left position o rest hprecedence ih =>
      rw [Tokens.length] at hbound hdepth
      rw [operators, if_pos hprecedence]
      refine bind_eq_ended (h rest htokens.of_next depth (by omega)) ?_
      rintro ⟨right, after⟩ hright
      obtain ⟨hafter, hlength⟩ := htokens.of_next.of_sound hsound hright
      obtain ⟨depth, rfl⟩ := Nat.exists_eq_add_one.2 (show 0 < depth by omega)
      exact ih right after hafter (by omega) depth (by omega)
  | case2 bound left position o rest hprecedence => rw [operators, if_neg hprecedence]
  | case3 bound left tokens hstop =>
      rw [operators]
      intro position o rest htokens
      subst htokens
      cases bound with
      | zero => cases hbound
      | succ bound => exact hstop bound position o rest rfl rfl

theorem agrees_chain (hk : k < 6) (hsound : Reader.Sound operand (k + 1))
    (h : Agrees (fun depth => level depth (k + 1)) operand n calls) (hpos : 1 ≤ calls)
    (hcalls : calls ≤ 9) :
    Agrees (fun depth => level depth k) (Reader.chain k operand) n (calls + 1) := by
  refine agrees_of_succ ?_
  intro tokens htokens depth hdepth
  simp only [level, if_pos hk]
  refine bind_eq_ended (h tokens htokens depth (by omega)) ?_
  rintro ⟨left, rest⟩ hleft
  obtain ⟨hrest, hlength⟩ := htokens.of_sound hsound hleft
  show operators depth k left rest = _
  exact operators_eq hsound h hcalls hrest (Nat.le_refl _) (by omega)

theorem agrees_signed (h : Agrees range operand n 2) : Agrees signed (Reader.signed operand) n 3 := by
  refine agrees_of_succ ?_
  intro tokens htokens depth hdepth
  fun_induction Reader.signed operand tokens generalizing depth with
  | case1 position rest ih =>
      rw [Tokens.length] at hdepth
      obtain ⟨depth, rfl⟩ := Nat.exists_eq_add_one.2 (show 0 < depth by omega)
      rw [signed]
      exact bind_eq_ended (ih htokens.of_next depth (by omega)) fun _ _ => rfl
  | case2 position rest ih =>
      rw [Tokens.length] at hdepth
      obtain ⟨depth, rfl⟩ := Nat.exists_eq_add_one.2 (show 0 < depth by omega)
      rw [signed]
      exact ih htokens.of_next depth (by omega)
  | case3 tokens hsubtract hadd =>
      rw [signed]
      · exact bind_eq_ended (h tokens htokens depth (by omega)) fun _ _ => rfl
      · exact hsubtract
      · exact hadd

theorem agrees_range (hsound : Reader.Sound operand 9) (h : Agrees primary operand n 1) :
    Agrees range (Reader.range operand) n 2 := by
  refine agrees_of_succ ?_
  intro tokens htokens depth hdepth
  rw [range]
  refine bind_eq_ended (h tokens htokens depth (by omega)) ?_
  rintro ⟨left, rest⟩ hleft
  obtain ⟨hrest, hlength⟩ := htokens.of_sound hsound hleft
  cases rest with
  | stop position => rfl
  | next position token after =>
      cases token with
      | colon =>
          rw [Tokens.length] at hlength
          refine bind_eq_ended (h after hrest.of_next depth (by omega)) ?_
          rintro ⟨right, tail⟩ -
          cases left with
          | cell a =>
              cases right with
              | cell b => cases hsheet : Reader.rangeSheet? a.sheet? b.sheet? <;> simp only [hsheet]
              | _ => rfl
          | _ => rfl
      | _ => rfl

end

/-! ### Arrays -/

theorem arrayRows_eq {bound : Nat} (hbound : tokens.length < bound) (hdepth : tokens.length < depth) :
    arrayRows depth tokens = ended (Reader.arrayRows bound tokens) := by
  induction bound generalizing tokens depth with
  | zero => cases hbound
  | succ bound ih =>
      obtain ⟨depth, rfl⟩ := Nat.exists_eq_add_one.2 (show 0 < depth by omega)
      rw [arrayRows]
      refine bind_eq_ended rfl ?_
      rintro ⟨item, rest⟩ hitem
      have hlength := (Reader.sound_arrayItem hitem).length
      cases rest with
      | stop position => rfl
      | next position token after =>
          rw [Tokens.length] at hlength
          have hmore : arrayRows depth after = ended (Reader.arrayRows bound after) :=
            ih (by omega) (by omega)
          cases token with
          | comma => exact bind_eq_ended hmore fun _ _ => rfl
          | semicolon => exact bind_eq_ended hmore fun _ _ => rfl
          | _ => rfl

theorem array_eq (h : tokens.length < depth) : array depth tokens = ended (Reader.array tokens) := by
  refine bind_eq_ended (arrayRows_eq (Nat.lt_succ_self _) h) ?_
  rintro ⟨⟨row, rows⟩, rest⟩ -
  simp only []
  split
  next => exact bind_eq_ended rfl fun _ _ => rfl
  next => rfl

/-! ### Calls -/

section

variable {expression : Reader Expr}

theorem moreArguments_eq (hsound : Reader.Sound expression 1)
    (h : Agrees (fun depth => level depth 1) expression n 9) {bound : Nat} (htokens : Below n tokens)
    (hbound : tokens.length ≤ bound) (hdepth : 9 * tokens.length + 1 ≤ depth) :
    moreArguments depth tokens = ended (Reader.moreArguments expression bound tokens) := by
  obtain ⟨depth, rfl⟩ := Nat.exists_eq_add_one.2 (show 0 < depth by omega)
  fun_induction Reader.moreArguments expression bound tokens generalizing depth with
  | case1 bound position rest ih =>
      rw [Tokens.length] at hbound hdepth
      rw [moreArguments]
      refine bind_eq_ended (h rest htokens.of_next depth (by omega)) ?_
      rintro ⟨e, after⟩ he
      obtain ⟨hafter, hlength⟩ := htokens.of_next.of_sound hsound he
      obtain ⟨depth, rfl⟩ := Nat.exists_eq_add_one.2 (show 0 < depth by omega)
      refine bind_eq_ended ?_ fun _ _ => rfl
      exact ih after hafter (by omega) depth (by omega)
  | case2 bound tokens hstop =>
      rw [moreArguments]
      · exact bind_eq_ended rfl fun _ _ => rfl
      · intro position rest htokens
        subst htokens
        cases bound with
        | zero => cases hbound
        | succ bound => exact hstop bound position rest rfl rfl

theorem agrees_arguments (hsound : Reader.Sound expression 1)
    (h : Agrees (fun depth => level depth 1) expression n 9) :
    Agrees arguments (Reader.arguments expression) n 10 := by
  refine agrees_of_succ ?_
  intro tokens htokens depth hdepth
  fun_cases Reader.arguments expression tokens with
  | case1 position rest => rw [arguments]
  | case2 tokens hclosed =>
      rw [arguments]
      · refine bind_eq_ended (h tokens htokens depth (by omega)) ?_
        rintro ⟨e, rest⟩ he
        obtain ⟨hrest, hlength⟩ := htokens.of_sound hsound he
        refine bind_eq_ended ?_ fun _ _ => rfl
        exact moreArguments_eq hsound h hrest (Nat.le_refl _) (by omega)
      · exact hclosed

/-! ### Expressions -/

theorem agrees_primary (hsound : Reader.Sound expression 1)
    (h : Agrees (fun depth => level depth 1) expression n 9) :
    Agrees primary (Reader.primary expression) (n + 1) 1 := by
  refine agrees_of_succ ?_
  intro tokens htokens depth hdepth
  fun_cases Reader.primary expression tokens with
  | case1 position l rest => rw [primary]
  | case2 position rest =>
      rw [Tokens.length] at hdepth
      rw [primary]
      refine bind_eq_ended (h rest htokens.below_tail depth (by omega)) ?_
      rintro ⟨e, after⟩ -
      exact bind_eq_ended rfl fun _ _ => rfl
  | case3 position rest =>
      rw [Tokens.length] at hdepth
      rw [primary]
      exact array_eq (by omega)
  | case4 position name rest =>
      rw [primary]
      exact qualifiedCell_eq htokens.below_tail position name
  | case5 position text rest =>
      rw [primary]
      exact bind_eq_ended (cellReference_eq (htokens.shape text List.mem_cons_self) _ _) fun _ _ => rfl
  | case6 position function position' rest =>
      rw [Tokens.length, Tokens.length] at hdepth
      rw [primary]
      refine bind_eq_ended ?_ fun _ _ => rfl
      exact agrees_arguments hsound h rest htokens.below_tail.of_next depth (by omega)
  | case7 position name rest hcall => rw [primary]; exact hcall
  | case8 tokens => rw [primary] <;> assumption

end

/-- Fewer tokens than given are read as the reader reads them that has as many levels of parentheses. -/
theorem agrees_level (n : Nat) : Agrees (fun depth => level depth 1) (Reader.expression n) n 9 := by
  induction n with
  | zero => exact fun tokens htokens => absurd htokens.length_lt (Nat.not_lt_zero _)
  | succ n ih =>
      have hinner := Reader.sound_expression n
      have hlevels : Reader.Sound (Reader.expressionOver (Reader.primary (Reader.expression n))) 1 ∧
          Agrees (fun depth => level depth 1)
            (Reader.expressionOver (Reader.primary (Reader.expression n))) (n + 1) (10 - 1) := by
        refine Reader.expressionOver_of_levels
          (Q := fun k reader => Reader.Sound reader k ∧
            Agrees (fun depth => level depth k) reader (n + 1) (10 - k)) ?_ ?_
        · refine ⟨hinner.primary.range.next.signed, ?_⟩
          refine agrees_of_succ ?_
          intro tokens htokens depth hdepth
          simp only [level]
          have hrange := agrees_range hinner.primary (agrees_primary hinner ih)
          exact agrees_signed hrange tokens htokens depth (by omega)
        · rintro k operand hk ⟨hsound, h⟩
          refine ⟨hsound.chain, ?_⟩
          have hchain := agrees_chain hk hsound h (by omega) (by omega)
          rwa [show 10 - (k + 1) + 1 = 10 - k by omega] at hchain
      exact hlevels.2

theorem ofTokens_eq (h : ∀ text, .reference text ∈ tokens.toList → hasAddressShape text.toList = true)
    (hdepth : 9 * (tokens.length + 1) ≤ depth) :
    ofTokens depth tokens = ended (Expr.ofTokens tokens) := by
  cases tokens with
  | stop position => rfl
  | next position token rest =>
      refine bind_eq_ended (agrees_level _ _ ⟨Nat.lt_succ_self _, h⟩ depth hdepth) ?_
      rintro ⟨e, tail⟩ -
      cases tail <;> rfl

/-- With nine calls for each lexeme and nine more, recursive descent reads what is read of the text. -/
theorem ofText_eq {s : String} {lexemes : List Lexeme} {finish : Nat}
    (hlexemes : Scanner.lexemes (Expr.body s.toList) = some (lexemes, finish))
    (htokens : Tokens.ofChars (Expr.body s.toList) = Tokens.ofLexemes finish lexemes)
    (hdepth : 9 * (lexemes.length + 1) ≤ depth) : ofText depth s = ended (Expr.ofText s) := by
  rw [ofText, hlexemes, Option.bind_some, Expr.ofText, htokens]
  refine ofTokens_eq ?_ ?_
  · intro text hmem
    rw [← htokens] at hmem
    exact hasAddressShape_of_scan hmem
  · rwa [Tokens.length_ofLexemes]

end

end Descent

end PaintQuote.Formula
