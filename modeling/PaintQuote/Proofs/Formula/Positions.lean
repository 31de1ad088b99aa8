import PaintQuote.Proofs.Formula.Descent
import PaintQuote.Proofs.Text.Cuts

/-!
# Where errors are noticed

The position of an error is that of a token which the reader was given, or of the end after them
(`Reader.Placed`).  What a reader leaves is an end of its tokens, so the positions of what is left are among
those of the tokens, and each reader is placed if the reader of its parts is.

* `Expr.ofText_positions`: a formula is read to an end, all positions are between characters of it, and its
  errors are where its tokens start or where it ends.
-/

namespace PaintQuote.Formula

open Sheet Text

/-- The positions of the tokens and of the end. -/
def Tokens.positions : Tokens → List Nat
  | stop position => [position]
  | next position _ rest => position :: rest.positions

theorem Tokens.position_mem (tokens : Tokens) : tokens.position ∈ tokens.positions := by
  cases tokens <;> exact List.mem_cons_self

theorem mem_positions_ofLexemes {position finish : Nat} {lexemes : List Lexeme} :
    position ∈ (Tokens.ofLexemes finish lexemes).positions ↔
      position = finish ∨ ∃ l ∈ lexemes, position = l.start := by
  induction lexemes with
  | nil => simp [Tokens.ofLexemes, Tokens.positions]
  | cons l lexemes ih => simp [Tokens.ofLexemes, Tokens.positions, ih, or_left_comm]

theorem Leads.positions_subset {lead : List Token} {tokens tail : Tokens} (h : Leads lead tokens tail) :
    tail.positions ⊆ tokens.positions := by
  induction lead generalizing tokens with
  | nil =>
      cases h
      exact List.Subset.refl _
  | cons token lead ih =>
      obtain ⟨position, rest, rfl, hrest⟩ := h
      exact List.subset_cons_of_subset position (ih hrest)

namespace Reader

theorem bind_eq_error {ε α β : Type} {x : Except ε α} {f : α → Except ε β} {e : ε} :
    (x >>= f) = .error e ↔ x = .error e ∨ ∃ a, x = .ok a ∧ f a = .error e := by
  cases x <;> simp [bind, Except.bind]

/-- Where there is an error, it is at a token or at the end. -/
def Placed {α : Type} (result : Except ParseError α) (tokens : Tokens) : Prop :=
  ∀ e, result = .error e → e.position ∈ tokens.positions

section

variable {α β : Type} {tokens tail : Tokens} {k position : Nat} {token : Token} {lead : List Token}

theorem placed_ok (a : α) : Placed (.ok a) tokens := by
  intro e he
  cases he

theorem placed_error {e : ParseError} (h : e.position ∈ tokens.positions) :
    Placed (.error e : Except ParseError α) tokens := by
  rintro _ ⟨⟩
  exact h

/-- What is placed in the rest of the tokens is placed in the tokens. -/
theorem Placed.of_leads {result : Except ParseError α} (h : Placed result tail)
    (hlead : Leads lead tokens tail) : Placed result tokens :=
  fun e he => hlead.positions_subset (h e he)

theorem Placed.next {result : Except ParseError α} (h : Placed result tail) :
    Placed result (.next position token tail) := h.of_leads (leads_cons (leads_nil tail))

theorem Placed.bind {x : Except ParseError α} {f : α → Except ParseError β} (hx : Placed x tokens)
    (hf : ∀ a, x = .ok a → Placed (f a) tokens) : Placed (x >>= f) tokens := by
  intro e he
  rcases bind_eq_error.1 he with he | ⟨a, ha, he⟩
  · exact hx e he
  · exact hf a ha e he

theorem placed_unexpected (tokens : Tokens) :
    Placed (.error (unexpected tokens) : Except ParseError α) tokens := by
  apply placed_error
  unfold unexpected
  split <;> exact List.mem_cons_self

theorem placed_expect (wanted : Token) (tokens : Tokens) : Placed (expect wanted tokens) tokens := by
  unfold expect
  split
  next => exact placed_error List.mem_cons_self
  next =>
    split
    next => exact placed_ok _
    next => split <;> exact placed_error List.mem_cons_self

/-! ## References -/

theorem placed_cellReference (sheet? : Option SheetName) (text : String)
    (h : position ∈ tokens.positions) : Placed (cellReference sheet? position text) tokens := by
  unfold cellReference
  split
  next => exact placed_error h
  next => exact placed_ok _

theorem placed_qualifiedCell (name : String) (tokens : Tokens) :
    Placed (qualifiedCell position name tokens) (.next position token tokens) := by
  unfold qualifiedCell
  split
  next => exact placed_error List.mem_cons_self
  next =>
    refine Placed.next ?_
    split
    next text rest =>
      exact (placed_cellReference _ text List.mem_cons_self).bind fun _ _ => placed_ok _
    next => exact placed_error tokens.position_mem

/-! ## Operators and signs -/

/-- All errors of a reader are placed. -/
def AllPlaced (reader : Reader α) : Prop := ∀ tokens, Placed (reader tokens) tokens

variable {operand : Reader Expr}

/-- After a sound reader an error may be anywhere in what it leaves. -/
theorem Sound.placed_bind (hsound : Sound operand k) (h : AllPlaced operand)
    {f : Expr × Tokens → Except ParseError β} (hf : ∀ e tail, Placed (f (e, tail)) tail) (tokens : Tokens) :
    Placed (operand tokens >>= f) tokens := by
  refine (h tokens).bind ?_
  rintro ⟨e, tail⟩ hread
  obtain ⟨lead, hlead, -⟩ := hsound _ _ _ hread
  exact (hf e tail).of_leads hlead

theorem placed_chainFrom (hsound : Sound operand (k + 1)) (h : AllPlaced operand) (bound : Nat)
    (left : Expr) (tokens : Tokens) : Placed (chainFrom k operand bound left tokens) tokens := by
  fun_induction chainFrom k operand bound left tokens with
  | case1 bound left position o rest _ ih =>
      refine (hsound.placed_bind h ?_ rest).next
      exact fun right tail => ih right tail
  | case2 bound left position o rest _ => exact placed_ok _
  | case3 bound left tokens _ => exact placed_ok _

theorem Sound.allPlaced_chain (hsound : Sound operand (k + 1)) (h : AllPlaced operand) :
    AllPlaced (Reader.chain k operand) := by
  refine hsound.placed_bind h ?_
  exact fun left tail => placed_chainFrom hsound h _ left tail

theorem AllPlaced.signed (h : AllPlaced operand) : AllPlaced (signed operand) := by
  intro tokens
  fun_induction Reader.signed operand tokens with
  | case1 position rest ih => exact (ih.bind fun _ _ => placed_ok _).next
  | case2 position rest ih => exact ih.next
  | case3 tokens _ _ => exact (h tokens).bind fun _ _ => placed_ok _

theorem Sound.allPlaced_range (hsound : Sound operand k) (h : AllPlaced operand) :
    AllPlaced (Reader.range operand) := by
  refine hsound.placed_bind h ?_
  intro left rest
  simp only []
  split
  next colon after =>
    refine (h after).next.bind ?_
    rintro ⟨right, tail⟩ -
    simp only []
    split
    next x y =>
      split
      next => exact placed_ok _
      next => exact (placed_error after.position_mem).next
    next => exact placed_error List.mem_cons_self
  next => exact placed_ok _

/-! ## Arrays -/

theorem allPlaced_arrayItem : AllPlaced arrayItem := by
  intro tokens
  unfold arrayItem
  split
  next => exact placed_ok _
  next => exact (placed_unexpected _).next
  next => exact placed_ok _
  next => exact placed_unexpected _

theorem allPlaced_arrayRows (bound : Nat) : AllPlaced (arrayRows bound) := by
  induction bound with
  | zero => exact placed_unexpected
  | succ bound ih =>
      intro tokens
      refine (allPlaced_arrayItem tokens).bind ?_
      rintro ⟨item, rest⟩ hitem
      refine Placed.of_leads ?_ (sound_arrayItem hitem)
      simp only []
      split
      next after => exact ((ih after).bind fun _ _ => placed_ok _).next
      next after => exact ((ih after).bind fun _ _ => placed_ok _).next
      next => exact placed_ok _
      next => exact placed_unexpected rest

theorem allPlaced_array : AllPlaced array := by
  intro tokens
  refine (allPlaced_arrayRows _ tokens).bind ?_
  rintro ⟨⟨row, rows⟩, rest⟩ hrows
  refine Placed.of_leads ?_ (sound_arrayRows hrows).2
  simp only []
  split
  next => exact (placed_expect _ rest).bind fun _ _ => placed_ok _
  next => exact placed_error rest.position_mem

/-! ## Calls -/

theorem placed_moreArguments (hsound : Sound operand 1) (h : AllPlaced operand) (bound : Nat)
    (tokens : Tokens) : Placed (moreArguments operand bound tokens) tokens := by
  fun_induction moreArguments operand bound tokens with
  | case1 bound position rest ih =>
      refine (hsound.placed_bind h (fun e tail => ?_) rest).next
      exact (ih _).bind fun _ _ => placed_ok _
  | case2 bound tokens _ => exact (placed_expect _ tokens).bind fun _ _ => placed_ok _

theorem Sound.allPlaced_arguments (hsound : Sound operand 1) (h : AllPlaced operand) :
    AllPlaced (arguments operand) := by
  intro tokens
  unfold arguments
  split
  next => exact placed_ok _
  next =>
    refine hsound.placed_bind h (fun e tail => ?_) tokens
    exact (placed_moreArguments hsound h _ tail).bind fun _ _ => placed_ok _

/-! ## Expressions -/

theorem Sound.allPlaced_primary (hsound : Sound operand 1) (h : AllPlaced operand) :
    AllPlaced (Reader.primary operand) := by
  intro tokens
  unfold Reader.primary
  split
  next => exact placed_ok _
  next rest =>
    refine (hsound.placed_bind h (fun e tail => ?_) rest).next
    exact (placed_expect _ tail).bind fun _ _ => placed_ok _
  next rest => exact (allPlaced_array rest).next
  next name rest => exact placed_qualifiedCell name rest
  next text rest =>
    exact (placed_cellReference none text List.mem_cons_self).bind fun _ _ => placed_ok _
  next rest =>
    exact ((hsound.allPlaced_arguments h rest).bind fun _ _ => placed_ok _).next.next
  next => exact placed_ok _
  next => exact placed_unexpected _

theorem allPlaced_expression (depth : Nat) : AllPlaced (expression depth) := by
  induction depth with
  | zero => exact placed_unexpected
  | succ depth ih =>
      have hinner := sound_expression depth
      have hlevels := expressionOver_of_levels (Q := fun k reader => Sound reader k ∧ AllPlaced reader)
        ⟨hinner.primary.range.next.signed,
          (hinner.primary.allPlaced_range (hinner.allPlaced_primary ih)).signed⟩
        fun _ _ _ h => ⟨h.1.chain, h.1.allPlaced_chain h.2⟩
      exact hlevels.2

end

end Reader

namespace Expr

/-! ## Formulas -/

theorem placed_ofTokens {tokens : Tokens} (h : ∀ position, tokens = .stop position → position = 0) :
    Reader.Placed (ofTokens tokens) tokens := by
  cases tokens with
  | stop position => exact Reader.placed_error (List.mem_singleton.2 (h position rfl).symm)
  | next position token rest =>
      refine Reader.Sound.placed_bind (Reader.sound_expression _) (Reader.allPlaced_expression _) ?_ _
      intro e tail
      cases tail with
      | stop position => exact Reader.placed_ok e
      | next position token rest => exact Reader.placed_unexpected _

/-- A formula without blanks at its ends does not end in a blank without its equals sign either. -/
theorem getLast?_body {cs : List Char} {c : Char} (h : (body cs).getLast? = some c) :
    isBlank c = false := by
  unfold body at h
  cases hlead : afterLead? ['='] (trim cs) with
  | none =>
      rw [hlead] at h
      exact getLast?_trim h
  | some rest =>
      rw [hlead] at h
      apply getLast?_trim
      rw [eq_of_afterLead? hlead, List.getLast?_append, show rest.getLast? = some c from h]
      rfl

/-- A formula without tokens has no characters. -/
theorem body_eq_nil {cs : List Char} {position : Nat} (h : Tokens.ofChars (body cs) = .stop position) :
    body cs = [] := by
  have hblank : (body cs).dropWhile isBlank = [] := by
    rw [Tokens.ofChars, Scanner.scan_dropWhile] at h
    cases hrest : (body cs).dropWhile isBlank with
    | nil => rfl
    | cons c rest =>
        rw [hrest, Scanner.scan_cons (trimStart_head hrest)] at h
        cases h
  cases hlast : (body cs).getLast? with
  | none => exact List.getLast?_eq_none_iff.1 hlast
  | some c =>
      have hc := List.dropWhile_eq_nil_iff.1 hblank c (List.mem_of_getLast? hlast)
      rw [getLast?_body hlast] at hc
      cases hc

theorem placed_ofText (s : String) : Reader.Placed (ofText s) (.ofChars (body s.toList)) := by
  refine placed_ofTokens ?_
  intro position hstop
  have hnil := body_eq_nil hstop
  rw [hnil] at hstop
  cases hstop
  rfl

/-- Reading a formula comes to an end, with nine calls in one another for each token and nine more, and takes
no slice that does not exist.  Each token starts and stops between characters, and has one at least.  Each
error is at the start of a token or at the end of the text. -/
theorem ofText_positions (s : String) : ∃ lexemes,
    Scanner.lexemes (body s.toList) = some (lexemes, byteLength (body s.toList)) ∧
      (∀ depth, 9 * (lexemes.length + 1) ≤ depth → (Descent.ofText depth s).run = some (ofText s)) ∧
      (∀ l ∈ lexemes, Scanner.Within (body s.toList) l) ∧
      ∀ e, ofText s = .error e →
        e.position ≤ byteLength (body s.toList) ∧
          (⟨e.position⟩ : String.Pos.Raw).IsValid (String.ofList (body s.toList)) ∧
            (e.position = byteLength (body s.toList) ∨ ∃ l ∈ lexemes, e.position = l.start) := by
  obtain ⟨lexemes, hlexemes, htokens, hwithin⟩ := Scanner.lexemes_eq_some (body s.toList)
  refine ⟨lexemes, hlexemes, fun depth => Descent.ofText_eq hlexemes htokens, hwithin, ?_⟩
  intro e he
  have hmem := placed_ofText s e he
  rw [htokens, mem_positions_ofLexemes] at hmem
  refine ⟨?_, ?_, hmem⟩
  · rcases hmem with hend | ⟨l, hl, hstart⟩
    · exact Nat.le_of_eq hend
    · exact hstart ▸ Nat.le_trans (Nat.le_of_lt (hwithin l hl).start_lt_stop) (hwithin l hl).stop_le
  · rcases hmem with hend | ⟨l, hl, hstart⟩
    · exact hend ▸ (Scanner.stands_stop _).isValid.2
    · exact hstart ▸ (hwithin l hl).isValid_start

end Expr

end PaintQuote.Formula
