import PaintQuote.Proofs.Formula.Parse

/-!
# The grammar of formulas

A grammar in nine levels, apart from the readers (`Derives`).  The first five are those of the binary
operators, and group to the left.  Then come the signs in front of an operand, the percent signs after
it, two cells with a colon between them, and the primary expressions.

What a reader reads is derived by the grammar (`Reader.sound_expression`): each reader is sound on its
level if the reader of its parts is on the next.
-/

namespace PaintQuote.Formula

open Sheet Text

/-! ## Derivations -/

/-- A text in the shape of an address stands for a cell. -/
def CellReference.IsWritten (sheet? : Option SheetName) (text : String) (r : CellReference) : Prop :=
  Address.ofText text = .ok r.address ∧ r.sheet? = sheet? ∧
    r.anchors = ⟨text.toList.head? == some '$', (text.toList.drop 1).contains '$'⟩

/-- The tokens are an expression of a level.  The first argument says which tokens may be the corners of
a range. -/
inductive Derives (corner : List Token → Prop) : Nat → List Token → Expr → Prop where
  | next {k : Nat} {tokens : List Token} {e : Expr} :
      Derives corner (k + 1) tokens e → Derives corner k tokens e
  | binary {o : BinaryOperator} {a b : List Token} {left right : Expr} :
      Derives corner o.precedence a left → Derives corner (o.precedence + 1) b right →
      Derives corner o.precedence (a ++ .operator o :: b) (.binary o left right)
  | minus {a : List Token} {e : Expr} : Derives corner 6 a e →
      Derives corner 6 (.operator .subtract :: a) (.negate e)
  | plus {a : List Token} {e : Expr} : Derives corner 6 a e →
      Derives corner 6 (.operator .add :: a) e
  | percent {a : List Token} {e : Expr} : Derives corner 7 a e →
      Derives corner 7 (a ++ [.percent]) (.percent e)
  | range {a b : List Token} {x y : CellReference} : corner a → corner b →
      Derives corner 9 a (.cell x) → Derives corner 9 b (.cell y) →
      (y.sheet? = none ∨ y.sheet? = x.sheet?) →
      Derives corner 8 (a ++ .colon :: b)
        (.range ⟨x.sheet?, .between x.address y.address, x.anchors, y.anchors⟩)
  | literal (l : Literal) : Derives corner 9 [.literal l] (.literal l)
  | cell {text : String} {r : CellReference} : r.IsWritten none text →
      Derives corner 9 [.reference text] (.cell r)
  | sheetCell {name text : String} {sheet : SheetName} {r : CellReference} :
      SheetName.ofText name = .ok sheet → r.IsWritten (some sheet) text →
      Derives corner 9 [.sheet name, .reference text] (.cell r)
  | name (s : String) : Derives corner 9 [.word s] (.name s)
  | parentheses {a : List Token} {e : Expr} : Derives corner 1 a e →
      Derives corner 9 (.leftParenthesis :: (a ++ [.rightParenthesis])) e
  | call {f : String} {arguments : List (List Token × Expr)} :
      (∀ a ∈ arguments, Derives corner 1 a.1 a.2) →
      Derives corner 9 (.word f :: .leftParenthesis ::
        (List.intercalate [.comma] (arguments.map (·.1)) ++ [.rightParenthesis]))
        (.call (upper f) (arguments.map (·.2)))
  | array {rows : List (List ArrayItem)} : isRectangle rows = true →
      Derives corner 9
        (.leftBrace :: (List.intercalate [.semicolon] (rows.map rowTokens) ++ [.rightBrace]))
        (.array rows)

/-- The tokens are an expression of a level, where any cell may be a corner of a range. -/
abbrev Yields (k : Nat) (tokens : List Token) (e : Expr) : Prop := Derives (fun _ => True) k tokens e

theorem Derives.of_le {corner : List Token → Prop} {k j : Nat} {tokens : List Token} {e : Expr}
    (h : Derives corner j tokens e) (hkj : k ≤ j) : Derives corner k tokens e := by
  induction hkj with
  | refl => exact h
  | step _ ih => exact ih h.next

namespace Reader

/-! ## Taking readers apart -/

theorem bind_eq_ok {ε α β : Type} {x : Except ε α} {f : α → Except ε β} {b : β} :
    (x >>= f) = .ok b ↔ ∃ a, x = .ok a ∧ f a = .ok b := by
  cases x <;> simp [bind, Except.bind]

theorem expect_eq_ok {wanted : Token} {tokens tail : Tokens} :
    expect wanted tokens = .ok tail ↔ Leads [wanted] tokens tail := by
  cases tokens with
  | stop position => simp [expect, Leads]
  | next position token rest =>
      simp only [expect, Leads]
      split
      next heq => simp [heq]
      next hne => split <;> simp [hne]

theorem cellReference_eq_ok {sheet? : Option SheetName} {position : Nat} {text : String}
    {r : CellReference} :
    cellReference sheet? position text = .ok r ↔ r.IsWritten sheet? text := by
  obtain ⟨sheet'?, address, anchors⟩ := r
  unfold cellReference CellReference.IsWritten
  cases Address.ofText text <;> simp [and_left_comm, eq_comm]

theorem rangeSheet?_eq_some {a b sheet? : Option SheetName} :
    rangeSheet? a b = some sheet? ↔ sheet? = a ∧ (b = none ∨ b = a) := by
  cases a <;> cases b <;> simp [rangeSheet?, eq_comm]
  constructor
  · rintro ⟨rfl, h⟩
    exact ⟨h, rfl⟩
  · rintro ⟨h, rfl⟩
    exact ⟨rfl, h⟩

theorem leads_nil (tail : Tokens) : Leads [] tail tail := rfl

theorem leads_cons {position : Nat} {token : Token} {lead : List Token} {rest tail : Tokens}
    (h : Leads lead rest tail) : Leads (token :: lead) (.next position token rest) tail :=
  ⟨position, rest, rfl, h⟩

/-! ## Soundness -/

/-- What a reader reads is derived on a level. -/
def Sound (reader : Reader Expr) (k : Nat) : Prop :=
  ∀ tokens e tail, reader tokens = .ok (e, tail) → ∃ lead, Leads lead tokens tail ∧ Yields k lead e

section

variable {tokens tail : Tokens} {k : Nat}

theorem sound_percents {e e' : Expr} {lead : List Token} (h : percents e tokens = (e', tail))
    (hlead : Yields 7 lead e) : ∃ more, Leads more tokens tail ∧ Yields 7 (lead ++ more) e' := by
  fun_induction percents e tokens generalizing lead with
  | case1 e position rest ih =>
      obtain ⟨more, hmore, hyields⟩ := ih h hlead.percent
      refine ⟨.percent :: more, leads_cons hmore, ?_⟩
      rw [← List.append_cons] at hyields
      exact hyields
  | case2 e tokens _ =>
      cases h
      exact ⟨[], leads_nil tail, by rwa [List.append_nil]⟩

theorem Sound.signed {operand : Reader Expr} (h : Sound operand 7) : Sound (signed operand) 6 := by
  intro tokens e tail hread
  fun_induction Reader.signed operand tokens generalizing e tail with
  | case1 position rest ih =>
      obtain ⟨⟨a, rest⟩, ha, hrest⟩ := bind_eq_ok.1 hread
      cases hrest
      obtain ⟨lead, hlead, hyields⟩ := ih _ _ ha
      exact ⟨_ :: lead, leads_cons hlead, .minus hyields⟩
  | case2 position rest ih =>
      obtain ⟨lead, hlead, hyields⟩ := ih _ _ hread
      exact ⟨_ :: lead, leads_cons hlead, .plus hyields⟩
  | case3 tokens _ _ =>
      obtain ⟨⟨a, rest⟩, ha, hrest⟩ := bind_eq_ok.1 hread
      obtain ⟨lead, hlead, hyields⟩ := h _ _ _ ha
      obtain ⟨more, hmore, hyields⟩ := sound_percents (Except.ok.inj hrest) hyields
      exact ⟨lead ++ more, leads_append.2 ⟨rest, hlead, hmore⟩, hyields.next⟩

theorem sound_chainFrom {operand : Reader Expr} (h : Sound operand (k + 1)) {bound : Nat}
    {left e : Expr} {lead : List Token} (hread : chainFrom k operand bound left tokens = .ok (e, tail))
    (hleft : Yields k lead left) : ∃ more, Leads more tokens tail ∧ Yields k (lead ++ more) e := by
  fun_induction chainFrom k operand bound left tokens generalizing lead with
  | case1 bound left position o rest heq ih =>
      obtain ⟨⟨right, after⟩, hright, hrest⟩ := bind_eq_ok.1 hread
      subst heq
      obtain ⟨first, hfirst, hyields⟩ := h _ _ _ hright
      obtain ⟨more, hmore, hyields⟩ := ih _ _ hrest (hleft.binary hyields)
      refine ⟨.operator o :: (first ++ more), leads_cons (leads_append.2 ⟨after, hfirst, hmore⟩), ?_⟩
      · rw [List.append_assoc] at hyields
        exact hyields
  | case2 bound left position o rest hne =>
      cases hread
      exact ⟨[], leads_nil _, by rwa [List.append_nil]⟩
  | case3 bound left tokens _ =>
      cases hread
      exact ⟨[], leads_nil tail, by rwa [List.append_nil]⟩

theorem Sound.chain {operand : Reader Expr} (h : Sound operand (k + 1)) :
    Sound (chain k operand) k := by
  intro tokens e tail hread
  obtain ⟨⟨left, rest⟩, hleft, hrest⟩ := bind_eq_ok.1 hread
  obtain ⟨lead, hlead, hyields⟩ := h _ _ _ hleft
  obtain ⟨more, hmore, hyields⟩ := sound_chainFrom h hrest hyields.next
  exact ⟨lead ++ more, leads_append.2 ⟨rest, hlead, hmore⟩, hyields⟩

theorem Sound.range {primary : Reader Expr} (h : Sound primary 9) : Sound (range primary) 8 := by
  intro tokens e tail hread
  obtain ⟨⟨left, rest⟩, hleft, hread⟩ := bind_eq_ok.1 hread
  obtain ⟨a, ha, hyields⟩ := h _ _ _ hleft
  simp only [] at hread
  split at hread
  next colon after =>
    obtain ⟨⟨right, rest⟩, hright, hread⟩ := bind_eq_ok.1 hread
    obtain ⟨b, hb, hyields'⟩ := h _ _ _ hright
    simp only [] at hread
    split at hread
    next x y =>
      split at hread
      next sheet? hsheet =>
        cases hread
        obtain ⟨rfl, hsheets⟩ := rangeSheet?_eq_some.1 hsheet
        exact ⟨a ++ .colon :: b, leads_append.2 ⟨_, ha, leads_cons hb⟩,
          .range trivial trivial hyields hyields' hsheets⟩
      next => cases hread
    next => cases hread
  next =>
    cases hread
    exact ⟨a, ha, hyields.next⟩

/-! ### Arrays -/

theorem sound_arrayItem {x : ArrayItem} (h : arrayItem tokens = .ok (x, tail)) :
    Leads x.tokens tokens tail := by
  unfold arrayItem at h
  split at h
  next => cases h; exact leads_cons (leads_cons (leads_nil tail))
  next => cases h
  next => cases h; exact leads_cons (leads_nil tail)
  next => cases h

theorem sound_arrayRows {bound : Nat} {row : List ArrayItem} {rows : List (List ArrayItem)}
    (h : arrayRows bound tokens = .ok ((row, rows), tail)) :
    row ≠ [] ∧ Leads (rowTokens row ++ (rows.map rowTokens).flatMap (.semicolon :: ·)) tokens tail := by
  induction bound generalizing tokens row rows with
  | zero => cases h
  | succ bound ih =>
      obtain ⟨⟨item, rest⟩, hitem, h⟩ := bind_eq_ok.1 h
      have hlead := sound_arrayItem hitem
      simp only [] at h
      split at h
      next position after =>
        obtain ⟨⟨⟨row', rows'⟩, rest⟩, hmore, h⟩ := bind_eq_ok.1 h
        cases h
        obtain ⟨hne, hrest⟩ := ih hmore
        refine ⟨List.cons_ne_nil _ _, ?_⟩
        obtain ⟨y, row', rfl⟩ := List.exists_cons_of_ne_nil hne
        rw [rowTokens_cons_cons, List.append_assoc]
        exact leads_append.2 ⟨_, hlead, leads_cons hrest⟩
      next position after =>
        obtain ⟨⟨⟨row', rows'⟩, rest⟩, hmore, h⟩ := bind_eq_ok.1 h
        cases h
        refine ⟨List.cons_ne_nil _ _, ?_⟩
        rw [rowTokens_singleton, List.map_cons, List.flatMap_cons]
        exact leads_append.2 ⟨_, hlead, leads_cons (ih hmore).2⟩
      next position after =>
        cases h
        refine ⟨List.cons_ne_nil _ _, ?_⟩
        rw [rowTokens_singleton, List.map_nil, List.flatMap_nil, List.append_nil]
        exact hlead
      next => cases h

theorem sound_array {e : Expr} (h : array tokens = .ok (e, tail)) :
    ∃ lead, Leads lead tokens tail ∧ Yields 9 (.leftBrace :: lead) e := by
  obtain ⟨⟨⟨row, rows⟩, rest⟩, hrows, h⟩ := bind_eq_ok.1 h
  obtain ⟨hne, hlead⟩ := sound_arrayRows hrows
  simp only [] at h
  split at h
  next hlengths =>
    obtain ⟨after, hafter, h⟩ := bind_eq_ok.1 h
    cases h
    have hrectangle : isRectangle (row :: rows) = true := by
      simp [isRectangle, hne, hlengths]
    refine ⟨_, ?_, .array hrectangle⟩
    rw [List.map_cons, intercalate_cons]
    exact leads_append.2 ⟨_, hlead, expect_eq_ok.1 hafter⟩
  next => cases h

/-! ### Calls -/

theorem sound_moreArguments {expression : Reader Expr} (h : Sound expression 1) {bound : Nat}
    {es : List Expr} (hread : moreArguments expression bound tokens = .ok (es, tail)) :
    ∃ parts : List (List Token × Expr), parts.map (·.2) = es ∧ (∀ a ∈ parts, Yields 1 a.1 a.2) ∧
      Leads ((parts.map (·.1)).flatMap (.comma :: ·) ++ [.rightParenthesis]) tokens tail := by
  fun_induction moreArguments expression bound tokens generalizing es with
  | case1 bound position rest ih =>
      obtain ⟨⟨e, after⟩, he, hread⟩ := bind_eq_ok.1 hread
      obtain ⟨⟨more, after'⟩, hmore, hread⟩ := bind_eq_ok.1 hread
      cases hread
      obtain ⟨lead, hlead, hyields⟩ := h _ _ _ he
      obtain ⟨parts, rfl, hparts, hleads⟩ := ih _ hmore
      refine ⟨(lead, e) :: parts, rfl, List.forall_mem_cons.2 ⟨hyields, hparts⟩, leads_cons ?_⟩
      have happend := leads_append.2 ⟨after, hlead, hleads⟩
      rw [← List.append_assoc] at happend
      exact happend
  | case2 bound tokens _ =>
      obtain ⟨rest, hrest, hread⟩ := bind_eq_ok.1 hread
      cases hread
      exact ⟨[], rfl, List.forall_mem_nil _, expect_eq_ok.1 hrest⟩

theorem sound_arguments {expression : Reader Expr} (h : Sound expression 1) {es : List Expr}
    (hread : arguments expression tokens = .ok (es, tail)) :
    ∃ parts : List (List Token × Expr), parts.map (·.2) = es ∧ (∀ a ∈ parts, Yields 1 a.1 a.2) ∧
      Leads (List.intercalate [.comma] (parts.map (·.1)) ++ [.rightParenthesis]) tokens tail := by
  unfold arguments at hread
  split at hread
  next position rest =>
    cases hread
    exact ⟨[], rfl, List.forall_mem_nil _, leads_cons (leads_nil tail)⟩
  next =>
    obtain ⟨⟨e, after⟩, he, hread⟩ := bind_eq_ok.1 hread
    obtain ⟨⟨more, after'⟩, hmore, hread⟩ := bind_eq_ok.1 hread
    cases hread
    obtain ⟨lead, hlead, hyields⟩ := h _ _ _ he
    obtain ⟨parts, rfl, hparts, hleads⟩ := sound_moreArguments h hmore
    refine ⟨(lead, e) :: parts, rfl, List.forall_mem_cons.2 ⟨hyields, hparts⟩, ?_⟩
    rw [List.map_cons, intercalate_cons, List.append_assoc]
    exact leads_append.2 ⟨after, hlead, hleads⟩

/-! ### Expressions -/

theorem Sound.primary {expression : Reader Expr} (h : Sound expression 1) :
    Sound (primary expression) 9 := by
  intro tokens e tail hread
  unfold Reader.primary at hread
  split at hread
  next l rest =>
    cases hread
    exact ⟨_, leads_cons (leads_nil tail), .literal l⟩
  next position rest =>
    obtain ⟨⟨a, after⟩, ha, hread⟩ := bind_eq_ok.1 hread
    obtain ⟨after', hafter, hread⟩ := bind_eq_ok.1 hread
    cases hread
    obtain ⟨lead, hlead, hyields⟩ := h _ _ _ ha
    exact ⟨_, leads_cons (leads_append.2 ⟨_, hlead, expect_eq_ok.1 hafter⟩), .parentheses hyields⟩
  next position rest =>
    obtain ⟨lead, hlead, hyields⟩ := sound_array hread
    exact ⟨_, leads_cons hlead, hyields⟩
  next position name rest =>
    unfold qualifiedCell at hread
    split at hread
    next => cases hread
    next sheet hsheet =>
      split at hread
      next position' text after =>
        obtain ⟨r, hr, hread⟩ := bind_eq_ok.1 hread
        cases hread
        exact ⟨_, leads_cons (leads_cons (leads_nil tail)), .sheetCell hsheet (cellReference_eq_ok.1 hr)⟩
      next => cases hread
  next position text rest =>
    obtain ⟨r, hr, hread⟩ := bind_eq_ok.1 hread
    cases hread
    exact ⟨_, leads_cons (leads_nil tail), .cell (cellReference_eq_ok.1 hr)⟩
  next position function position' rest =>
    obtain ⟨⟨es, after⟩, hes, hread⟩ := bind_eq_ok.1 hread
    cases hread
    obtain ⟨parts, rfl, hparts, hleads⟩ := sound_arguments h hes
    exact ⟨_, leads_cons (leads_cons hleads), .call hparts⟩
  next position name rest _ =>
    cases hread
    exact ⟨_, leads_cons (leads_nil tail), .name name⟩
  next => cases hread

/-- What holds of operands with their signs, and passes from the operands of a chain to the chain, holds of
expressions. -/
theorem expressionOver_of_levels {Q : Nat → Reader Expr → Prop} {primary : Reader Expr}
    (hsigned : Q 6 (Reader.signed (Reader.range primary)))
    (hchain : ∀ k operand, k < 6 → Q (k + 1) operand → Q k (Reader.chain k operand)) :
    Q 1 (expressionOver primary) :=
  hchain 1 _ (by decide) <| hchain 2 _ (by decide) <| hchain 3 _ (by decide) <|
    hchain 4 _ (by decide) <| hchain 5 _ (by decide) hsigned

theorem Sound.next {reader : Reader Expr} (h : Sound reader (k + 1)) : Sound reader k := by
  intro tokens e tail hread
  obtain ⟨lead, hlead, hyields⟩ := h _ _ _ hread
  exact ⟨lead, hlead, hyields.next⟩

/-- What is read with any number of levels of parentheses is derived. -/
theorem sound_expression (depth : Nat) : Sound (expression depth) 1 := by
  induction depth with
  | zero => exact fun tokens e tail hread => by cases hread
  | succ depth ih =>
      exact expressionOver_of_levels (Q := fun k reader => Sound reader k)
        ih.primary.range.next.signed fun _ _ _ h => h.chain

end

end Reader

end PaintQuote.Formula
