import PaintQuote.Proofs.Formula.Written

/-!
# Reading the tokens of a tree

The tokens that a tree is written for are read as the tree (`Reader.readBack`).  The readers form
levels, one for each precedence, and a tree without parentheses is read on every level up to its
own precedence, provided that what comes after it does not go on with it (`Reader.Ends`).  A chain
of operators is read from its left end, so what is shown by induction on the tree is how the chain
goes on from there (`Reader.ChainsTo`), and the same holds of percent signs (`Reader.PercentsTo`).
-/

namespace PaintQuote.Formula

open Sheet Text

namespace Reader

/-! ## Levels -/

/-- What comes after an expression goes on with none that binds at least as tightly as given. -/
def Ends (precedence : Nat) : Tokens → Prop
  | .next _ (.operator o) _ => o.precedence < precedence
  | .next _ .percent _ => Expr.unaryPrecedence < precedence
  | .next _ .colon _ => False
  | .next _ .leftParenthesis _ => False
  | _ => True

theorem Ends.mono {k j : Nat} {tail : Tokens} (h : Ends k tail) (hle : k ≤ j) : Ends j tail := by
  unfold Ends at h ⊢
  split at h <;> omega

/-- The reader of expressions that bind at least as tightly as given. -/
def level (primary : Reader Expr) (precedence : Nat) : Reader Expr :=
  if precedence < 6 then chain precedence (level primary (precedence + 1))
  else if precedence = 6 then signed (range primary)
  else range primary
termination_by 6 - precedence

theorem level_chain {primary : Reader Expr} {k : Nat} (hk : k < 6) :
    level primary k = chain k (level primary (k + 1)) := by
  rw [level, if_pos hk]

theorem level_six (primary : Reader Expr) : level primary 6 = signed (range primary) := by
  rw [level, if_neg (by decide), if_pos rfl]

theorem level_seven (primary : Reader Expr) : level primary 7 = range primary := by
  rw [level, if_neg (by decide), if_neg (by decide)]

theorem expressionOver_eq_level (primary : Reader Expr) :
    expressionOver primary = level primary 1 := by
  rw [level_chain (by decide), level_chain (by decide), level_chain (by decide),
    level_chain (by decide), level_chain (by decide), level_six]
  rfl

/-- A reader reads tokens as an expression, if what comes after them ends it. -/
def Reads (reader : Reader Expr) (precedence : Nat) (lead : List Token) (e : Expr) : Prop :=
  ∀ tokens tail, Leads lead tokens tail → Ends precedence tail → reader tokens = .ok (e, tail)

section

variable {inner : Reader Expr} {k j : Nat} {tokens tail : Tokens} {lead more : List Token}
  {e : Expr}

/-! ## Ends of chains and signs -/

theorem chainFrom_of_ends (h : Ends k tail) (operand : Reader Expr) (bound : Nat) (e : Expr) :
    chainFrom k operand bound e tail = .ok (e, tail) := by
  unfold chainFrom
  split
  next bound position o rest =>
    have hne : ¬ o.precedence = k := fun heq => by
      have : o.precedence < k := h
      omega
    rw [if_neg hne]
  next => rfl

theorem percents_of_ends (h : Ends 6 tail) (e : Expr) : percents e tail = (e, tail) := by
  unfold percents
  split
  next => exact absurd h (Nat.lt_irrefl 6)
  next => rfl

theorem range_of_primary (h : primary inner tokens = .ok (e, tail)) (hends : Ends k tail) :
    range (primary inner) tokens = .ok (e, tail) := by
  rw [range, h]
  cases tail with
  | stop position => rfl
  | next position token rest =>
      cases token with
      | colon => exact hends.elim
      | _ => rfl

/-- What is read below the signs has no sign in front. -/
theorem signed_of_range (h : range (primary inner) tokens = .ok (e, tail)) :
    signed (range (primary inner)) tokens = .ok (percents e tail) := by
  unfold signed
  split
  next => cases h
  next => cases h
  next => rw [h]; rfl

/-- What is read on one level is read on the level before, if it ends there. -/
theorem level_succ (h : level (primary inner) (k + 1) tokens = .ok (e, tail)) (hends : Ends k tail)
    (hk : k < 7) : level (primary inner) k tokens = .ok (e, tail) := by
  by_cases hlt : k < 6
  · rw [level_chain hlt, chain, h]
    exact chainFrom_of_ends hends _ _ e
  · obtain rfl : k = 6 := by omega
    rw [level_seven] at h
    rw [level_six, signed_of_range h, percents_of_ends hends]

theorem level_of_le (hkj : k ≤ j) (hj : j ≤ 7) (h : level (primary inner) j tokens = .ok (e, tail))
    (hends : Ends k tail) : level (primary inner) k tokens = .ok (e, tail) := by
  induction hkj with
  | refl => exact h
  | step hle ih => exact ih (by omega) (level_succ h (hends.mono hle) (by omega))

theorem Reads.of_le (h : Reads (level (primary inner) j) j lead e) (hkj : k ≤ j) (hj : j ≤ 7) :
    Reads (level (primary inner) k) k lead e := fun tokens tail hlead hends =>
  level_of_le hkj hj (h tokens tail hlead (hends.mono hkj)) hends

/-! ## Parentheses -/

theorem primary_parentheses (h : Reads inner 1 lead e)
    (htokens : Leads (.leftParenthesis :: (lead ++ [.rightParenthesis])) tokens tail) :
    primary inner tokens = .ok (e, tail) := by
  obtain ⟨position, rest, rfl, hrest⟩ := htokens
  obtain ⟨middle, hlead, position', tail, rfl, rfl⟩ := leads_append.1 hrest
  rw [primary, h rest _ hlead trivial]
  rfl

/-- What stands between parentheses is read as one operand. -/
theorem reads_parentheses (h : Reads inner 1 lead e) :
    Reads (level (primary inner) 7) 7 (.leftParenthesis :: (lead ++ [.rightParenthesis])) e := by
  intro tokens tail htokens hends
  rw [level_seven]
  exact range_of_primary (primary_parentheses h htokens) hends

/-- An operand between parentheses is read on every level, and one without where it is read. -/
theorem reads_grouped (needed : Bool) (hinner : Reads inner 1 lead e) (hk : k ≤ 7)
    (h : needed = false → Reads (level (primary inner) k) k lead e) :
    Reads (level (primary inner) k) k (grouped needed lead) e := by
  cases needed with
  | false => exact h rfl
  | true => exact (reads_parentheses hinner).of_le hk (Nat.le_refl 7)

/-! ## Chains of operators -/

/-- A chain of operators of one precedence reads an operand and goes on, and has read the expression
when the tokens are used up. -/
def ChainsTo (inner : Reader Expr) (k : Nat) (lead : List Token) (e : Expr) : Prop :=
  ∀ tokens tail, Leads lead tokens tail → Ends (k + 1) tail →
    ∃ left rest, level (primary inner) (k + 1) tokens = .ok (left, rest) ∧
      ∀ bound, rest.length ≤ bound → ∃ bound', tail.length ≤ bound' ∧
        chainFrom k (level (primary inner) (k + 1)) bound left rest =
          chainFrom k (level (primary inner) (k + 1)) bound' e tail

theorem Reads.chainsTo (h : Reads (level (primary inner) (k + 1)) (k + 1) lead e) :
    ChainsTo inner k lead e := fun tokens tail hlead hends =>
  ⟨e, tail, h tokens tail hlead hends, fun bound hbound => ⟨bound, hbound, rfl⟩⟩

/-- A chain goes on with an operator of its precedence and a right operand. -/
theorem ChainsTo.binary {o : BinaryOperator} {left right : Expr} (ho : o.precedence = k)
    (hleft : ChainsTo inner k lead left)
    (hright : Reads (level (primary inner) (k + 1)) (k + 1) more right) :
    ChainsTo inner k (lead ++ [.operator o] ++ more) (.binary o left right) := by
  intro tokens tail htokens hends
  obtain ⟨after, hfront, hmore⟩ := leads_append.1 htokens
  obtain ⟨middle, hlead, position, after, rfl, rfl⟩ := leads_append.1 hfront
  have hmiddle : Ends (k + 1) (.next position (.operator o) after) := by
    show o.precedence < k + 1
    omega
  obtain ⟨first, rest, hfirst, hchain⟩ := hleft _ _ hlead hmiddle
  refine ⟨first, rest, hfirst, fun bound hbound => ?_⟩
  obtain ⟨bound', hbound', heq⟩ := hchain bound hbound
  cases bound' with
  | zero => cases hbound'
  | succ bound' =>
      have hlength := hmore.length
      have hroom : after.length + 1 ≤ bound' + 1 := hbound'
      refine ⟨bound', by omega, ?_⟩
      rw [heq, chainFrom, if_pos ho, hright after tail hmore hends]
      rfl

/-- A chain reads an expression that is its tokens, if no operator of its precedence follows. -/
theorem ChainsTo.reads (h : ChainsTo inner k lead e) (hk : k < 6) :
    Reads (level (primary inner) k) k lead e := by
  intro tokens tail hlead hends
  obtain ⟨left, rest, hleft, hchain⟩ := h tokens tail hlead (hends.mono (Nat.le_succ k))
  obtain ⟨bound', -, heq⟩ := hchain rest.length (Nat.le_refl _)
  rw [level_chain hk, chain, hleft]
  exact heq.trans (chainFrom_of_ends hends _ _ e)

/-! ## Percent signs -/

/-- An operand is read and then percent signs, and the expression is there when the tokens are used
up. -/
def PercentsTo (inner : Reader Expr) (lead : List Token) (e : Expr) : Prop :=
  ∀ tokens tail, Leads lead tokens tail → Ends 7 tail →
    ∃ operand rest, range (primary inner) tokens = .ok (operand, rest) ∧
      percents operand rest = percents e tail

theorem Reads.percentsTo (h : Reads (level (primary inner) 7) 7 lead e) :
    PercentsTo inner lead e := by
  intro tokens tail hlead hends
  have hread := h tokens tail hlead hends
  rw [level_seven] at hread
  exact ⟨e, tail, hread, rfl⟩

theorem PercentsTo.percent (h : PercentsTo inner lead e) :
    PercentsTo inner (lead ++ [.percent]) (.percent e) := by
  intro tokens tail htokens _
  obtain ⟨middle, hlead, position, _, rfl, rfl⟩ := leads_append.1 htokens
  exact h tokens _ hlead (Nat.lt_succ_self 6)

theorem PercentsTo.reads (h : PercentsTo inner lead e) :
    Reads (level (primary inner) 6) 6 lead e := by
  intro tokens tail hlead hends
  obtain ⟨operand, rest, hoperand, heq⟩ := h tokens tail hlead (hends.mono (Nat.le_succ 6))
  rw [level_six, signed_of_range hoperand, heq, percents_of_ends hends]

/-- A minus goes with the operand after it. -/
theorem reads_negate (h : Reads (level (primary inner) 6) 6 lead e) :
    Reads (level (primary inner) 6) 6 (.operator .subtract :: lead) (.negate e) := by
  rintro _ tail ⟨position, rest, rfl, hrest⟩ hends
  have hread := h rest tail hrest hends
  rw [level_six] at hread ⊢
  rw [signed, hread]
  rfl

/-! ## References -/

/-- A cell is read with its sheet. -/
theorem primary_reference {sheet? : Option SheetName} {a : Address} {anchors : Anchors}
    (hsheet : isCanonicalSheet sheet? = true) (ha : a.InBounds)
    (h : Leads (sheetTokens sheet? ++ [addressToken a anchors]) tokens tail) :
    primary inner tokens = .ok (.cell ⟨sheet?, a, anchors⟩, tail) := by
  cases sheet? with
  | none =>
      obtain ⟨position, rest, rfl, rfl⟩ := h
      simp only [addressToken, primary, cellReference_anchoredChars ha]
      rfl
  | some sheet =>
      obtain ⟨position, _, rfl, position', rest, rfl, rfl⟩ := h
      have hname : SheetName.ofText sheet.text = .ok sheet := by
        simp only [isCanonicalSheet, beq_iff_eq] at hsheet
        cases hread : SheetName.ofText sheet.text with
        | error error =>
            rw [hread] at hsheet
            cases hsheet
        | ok sheet' =>
            rw [hread] at hsheet
            cases hsheet
            rfl
      simp only [addressToken, primary, qualifiedCell, hname, cellReference_anchoredChars ha]
      rfl

theorem between_corners (r : Range) : Range.between r.start r.stop = r := by
  obtain ⟨start, stop, hrow, hcolumn⟩ := r
  simp [Range.between, Nat.min_eq_left hrow, Nat.min_eq_left hcolumn, Nat.max_eq_right hrow,
    Nat.max_eq_right hcolumn]

/-- Two cells with a colon between them are read as a range. -/
theorem reads_range {r : RangeReference} (h : (Expr.range r).isWellFormed = true) :
    Reads (level (primary inner) 7) 7 (Expr.range r).tokens (.range r) := by
  simp only [Expr.isWellFormed, Bool.and_eq_true, decide_eq_true_eq] at h
  intro tokens tail htokens hends
  obtain ⟨middle, hstart, position, rest, rfl, hstop⟩ := leads_append.1 htokens
  have hleft : primary inner tokens =
      .ok (.cell ⟨r.sheet?, r.area.start, r.startAnchors⟩, .next position .colon rest) :=
    primary_reference h.1.1 h.1.2 hstart
  have hright : primary inner rest = .ok (.cell ⟨none, r.area.stop, r.stopAnchors⟩, tail) :=
    primary_reference rfl h.2 hstop
  have hsheet : rangeSheet? r.sheet? none = some r.sheet? := by
    cases r.sheet? <;> rfl
  rw [level_seven, range, hleft]
  simp only [bind, Except.bind, hright, hsheet, between_corners]

/-! ## Calls -/

theorem intercalate_cons {α : Type} (separator : α) (x : List α) (xs : List (List α)) :
    List.intercalate [separator] (x :: xs) = x ++ xs.flatMap (separator :: ·) := by
  induction xs generalizing x with
  | nil => simp
  | cons y xs ih => simp [ih]

/-- After an argument stands a comma or the closing parenthesis. -/
theorem ends_of_arguments {parts : List (List Token)}
    (h : Leads (parts.flatMap (.comma :: ·) ++ [.rightParenthesis]) tokens tail) :
    Ends k tokens := by
  cases parts <;> obtain ⟨position, rest, rfl, -⟩ := h <;> trivial

/-- Further arguments are read up to the closing parenthesis. -/
theorem moreArguments_eq : (parts : List (List Token × Expr)) →
    (∀ a ∈ parts, Reads inner 1 a.1 a.2) →
    ∀ (bound : Nat) (tokens tail : Tokens), tokens.length ≤ bound →
      Leads ((parts.map (·.1)).flatMap (.comma :: ·) ++ [.rightParenthesis]) tokens tail →
      moreArguments inner bound tokens = .ok (parts.map (·.2), tail)
  | [], _, bound, tokens, tail, _, htokens => by
      obtain ⟨position, rest, rfl, rfl⟩ := htokens
      cases bound <;> rfl
  | a :: parts, h, bound, tokens, tail, hbound, htokens => by
      rw [List.map_cons, List.flatMap_cons, List.cons_append, List.cons_append,
        List.append_assoc] at htokens
      obtain ⟨position, rest, rfl, hrest⟩ := htokens
      obtain ⟨middle, ha, hparts⟩ := leads_append.1 hrest
      have hfirst := h a List.mem_cons_self rest middle ha (ends_of_arguments hparts)
      have hlength := ha.length
      cases bound with
      | zero => cases hbound
      | succ bound =>
          have hroom : rest.length + 1 ≤ bound + 1 := hbound
          have hmore := moreArguments_eq parts (fun b hb => h b (List.mem_cons_of_mem _ hb)) bound
            middle tail (by omega) hparts
          rw [moreArguments, hfirst]
          simp only [bind, Except.bind, hmore, List.map_cons]

/-- No expression starts with a closing parenthesis. -/
theorem first_token : (e : Expr) →
    ∃ token lead, e.tokens = token :: lead ∧ token ≠ .rightParenthesis
  | .literal l => ⟨_, _, rfl, by rintro ⟨⟩⟩
  | .cell r => by
      rw [Expr.tokens]
      cases r.sheet? <;> exact ⟨_, _, rfl, by rintro ⟨⟩⟩
  | .range r => by
      rw [Expr.tokens]
      cases r.sheet? <;> exact ⟨_, _, rfl, by rintro ⟨⟩⟩
  | .name s => ⟨_, _, rfl, by rintro ⟨⟩⟩
  | .binary o left right => by
      obtain ⟨token, lead, hlead, hne⟩ := first_token left
      rw [Expr.tokens, hlead, grouped]
      split <;> exact ⟨_, _, rfl, by first | exact hne | rintro ⟨⟩⟩
  | .negate operand => ⟨_, _, rfl, by rintro ⟨⟩⟩
  | .percent operand => by
      obtain ⟨token, lead, hlead, hne⟩ := first_token operand
      rw [Expr.tokens, hlead, grouped]
      split <;> exact ⟨_, _, rfl, by first | exact hne | rintro ⟨⟩⟩
  | .call function arguments => ⟨_, _, rfl, by rintro ⟨⟩⟩
  | .array rows => ⟨_, _, rfl, by rintro ⟨⟩⟩

/-- The arguments of a call are read up to the closing parenthesis. -/
theorem arguments_eq {parts : List (List Token × Expr)} (h : ∀ a ∈ parts, Reads inner 1 a.1 a.2)
    (hfirst : ∀ a ∈ parts, ∃ token lead, a.1 = token :: lead ∧ token ≠ .rightParenthesis)
    (htokens :
      Leads (List.intercalate [.comma] (parts.map (·.1)) ++ [.rightParenthesis]) tokens tail) :
    arguments inner tokens = .ok (parts.map (·.2), tail) := by
  cases parts with
  | nil =>
      obtain ⟨position, rest, rfl, rfl⟩ := htokens
      rfl
  | cons a parts =>
      rw [List.map_cons, intercalate_cons, List.append_assoc] at htokens
      obtain ⟨middle, ha, hparts⟩ := leads_append.1 htokens
      have hread := h a List.mem_cons_self tokens middle ha (ends_of_arguments hparts)
      have hmore := moreArguments_eq parts (fun b hb => h b (List.mem_cons_of_mem _ hb))
        middle.length middle tail (Nat.le_refl _) hparts
      obtain ⟨token, lead, hlead, hne⟩ := hfirst a List.mem_cons_self
      rw [hlead] at ha
      obtain ⟨position, rest, rfl, -⟩ := ha
      unfold arguments
      split
      next heq =>
        cases heq
        exact absurd rfl hne
      next => simp only [bind, Except.bind, hread, hmore, List.map_cons]

theorem primary_call {f : String} {parts : List (List Token × Expr)}
    (h : ∀ a ∈ parts, Reads inner 1 a.1 a.2)
    (hfirst : ∀ a ∈ parts, ∃ token lead, a.1 = token :: lead ∧ token ≠ .rightParenthesis)
    (htokens : Leads (.word f :: .leftParenthesis ::
      (List.intercalate [.comma] (parts.map (·.1)) ++ [.rightParenthesis])) tokens tail) :
    primary inner tokens = .ok (.call (upper f) (parts.map (·.2)), tail) := by
  obtain ⟨position, _, rfl, position', rest, rfl, hrest⟩ := htokens
  simp only [primary, bind, Except.bind, arguments_eq h hfirst hrest]

/-- A function with its arguments is read as a call. -/
theorem reads_call {f : String} {es : List Expr} (hf : isFunctionText f = true)
    (h : ∀ e ∈ es, Reads inner 1 e.tokens e) :
    Reads (level (primary inner) 7) 7 (Expr.call f es).tokens (.call f es) := by
  intro tokens tail htokens hends
  rw [Expr.tokens, Expr.tokensAll_eq_map] at htokens
  have hupper : upper f = f := by
    simp only [isFunctionText, Bool.and_eq_true, beq_iff_eq] at hf
    exact hf.2
  have hleads : (es.map fun e => (e.tokens, e)).map (·.1) = es.map Expr.tokens := List.map_map
  have htrees : (es.map fun e => (e.tokens, e)).map (·.2) = es := List.map_map.trans (List.map_id es)
  rw [← hleads] at htokens
  have hprimary : primary inner tokens = _ := primary_call
    (List.forall_mem_map.2 h) (List.forall_mem_map.2 fun e _ => first_token e) htokens
  rw [hupper, htrees] at hprimary
  rw [level_seven]
  exact range_of_primary hprimary hends

/-- A word that no parenthesis follows is read as a name. -/
theorem primary_word (position : Nat) (s : String) (hends : Ends k tail) :
    primary inner (.next position (.word s) tail) = .ok (.name s, tail) := by
  cases tail with
  | stop position => rfl
  | next position token rest =>
      cases token with
      | leftParenthesis => exact hends.elim
      | _ => rfl

/-! ## Arrays -/

theorem arrayItem_eq {x : ArrayItem} (h : Leads x.tokens tokens tail) :
    arrayItem tokens = .ok (x, tail) := by
  cases x with
  | literal l =>
      obtain ⟨position, rest, rfl, rfl⟩ := h
      rfl
  | negated n =>
      obtain ⟨position, _, rfl, position', rest, rfl, rfl⟩ := h
      rfl

theorem rowTokens_singleton (x : ArrayItem) : rowTokens [x] = x.tokens := by
  simp [rowTokens]

theorem rowTokens_cons_cons (x y : ArrayItem) (row : List ArrayItem) :
    rowTokens (x :: y :: row) = x.tokens ++ .comma :: rowTokens (y :: row) := by
  simp [rowTokens]

/-- The rows of an array constant are read up to the closing brace. -/
theorem arrayRows_eq {position : Nat} : ∀ (bound : Nat) (x : ArrayItem) (row : List ArrayItem)
    (rows : List (List ArrayItem)) (tokens : Tokens), (∀ r ∈ rows, r ≠ []) → tokens.length ≤ bound →
      Leads (rowTokens (x :: row) ++ (rows.map rowTokens).flatMap (.semicolon :: ·)) tokens
        (.next position .rightBrace tail) →
      arrayRows bound tokens = .ok ((x :: row, rows), .next position .rightBrace tail)
  | 0, x, row, rows, tokens, _, hbound, h => by
      have hlength := h.length
      rw [Tokens.length] at hlength
      omega
  | bound + 1, x, [], [], tokens, _, _, h => by
      rw [List.map_nil, List.flatMap_nil, List.append_nil, rowTokens_singleton] at h
      rw [arrayRows, arrayItem_eq h]
      rfl
  | bound + 1, x, [], [] :: rows, tokens, hrows, _, _ => absurd rfl (hrows [] List.mem_cons_self)
  | bound + 1, x, [], (y :: r) :: rows, tokens, hrows, hbound, h => by
      rw [List.map_cons, List.flatMap_cons, rowTokens_singleton] at h
      obtain ⟨_, hx, position', rest, rfl, hrest⟩ := leads_append.1 h
      have hlength := hx.length
      rw [Tokens.length] at hlength
      have hmore := arrayRows_eq bound y r rows rest (fun a ha => hrows a (List.mem_cons_of_mem _ ha))
        (by omega) hrest
      rw [arrayRows, arrayItem_eq hx]
      simp only [bind, Except.bind, hmore]
  | bound + 1, x, y :: row, rows, tokens, hrows, hbound, h => by
      rw [rowTokens_cons_cons, List.append_assoc] at h
      obtain ⟨_, hx, position', rest, rfl, hrest⟩ := leads_append.1 h
      have hlength := hx.length
      rw [Tokens.length] at hlength
      have hmore := arrayRows_eq bound y row rows rest hrows (by omega) hrest
      rw [arrayRows, arrayItem_eq hx]
      simp only [bind, Except.bind, hmore]

theorem primary_array {rows : List (List ArrayItem)} (h : isRectangle rows = true)
    (htokens : Leads (.leftBrace ::
      (List.intercalate [.semicolon] (rows.map rowTokens) ++ [.rightBrace])) tokens tail) :
    primary inner tokens = .ok (.array rows, tail) := by
  cases rows with
  | nil => cases h
  | cons row rows =>
      cases row with
      | nil => cases h
      | cons x row =>
          simp only [isRectangle, List.isEmpty_cons, Bool.not_false, Bool.true_and, List.all_eq_true,
            beq_iff_eq] at h
          have hrows : ∀ r ∈ rows, r ≠ [] := by
            rintro _ hr rfl
            cases h [] hr
          rw [List.map_cons, intercalate_cons] at htokens
          obtain ⟨position, rest, rfl, hrest⟩ := htokens
          obtain ⟨_, hitems, position', tail, rfl, rfl⟩ := leads_append.1 hrest
          have hread := arrayRows_eq (rest.length + 1) x row rows rest hrows (Nat.le_succ _) hitems
          have hlengths : (rows.all fun r => r.length == (x :: row).length) = true := by
            simpa using h
          simp only [primary, array, bind, Except.bind, hread, hlengths, if_true]
          rfl

/-- A rectangle of items is read as an array constant. -/
theorem reads_array {rows : List (List ArrayItem)} (h : isRectangle rows = true) :
    Reads (level (primary inner) 7) 7 (Expr.array rows).tokens (.array rows) := by
  intro tokens tail htokens hends
  rw [Expr.tokens] at htokens
  rw [level_seven]
  exact range_of_primary (primary_array h htokens) hends

/-! ## Trees -/

/-- A tree is read back wherever it may stand without parentheses. -/
structure ReadBack (inner : Reader Expr) (e : Expr) : Prop where
  /-- It is read on every level up to its own. -/
  reads : ∀ k ≤ e.precedence, Reads (level (primary inner) k) k e.tokens e
  /-- A chain that starts with it goes on from it. -/
  chainsTo : ∀ k ≤ e.precedence, k < 6 → ChainsTo inner k e.tokens e
  /-- A percent sign may follow it. -/
  percentsTo : e.takesPercent = true → PercentsTo inner e.tokens e

theorem ReadBack.of_primary (he : e.precedence = 7)
    (h : Reads (level (primary inner) 7) 7 e.tokens e) : ReadBack inner e where
  reads k hk := h.of_le (by omega) (Nat.le_refl 7)
  chainsTo k _ hk := (h.of_le (by omega) (Nat.le_refl 7)).chainsTo
  percentsTo _ := h.percentsTo

/-- What binds like a sign is read back if it is read there, and goes on with percent signs. -/
theorem ReadBack.of_unary (he : e.precedence = 6)
    (h : Reads (level (primary inner) 6) 6 e.tokens e)
    (hpercents : e.takesPercent = true → PercentsTo inner e.tokens e) : ReadBack inner e where
  reads k hk := h.of_le (by omega) (by decide)
  chainsTo k _ hk := (h.of_le (by omega) (by decide)).chainsTo
  percentsTo := hpercents

theorem ReadBack.negate {a : Expr} (hinner : Reads inner 1 a.tokens a) (h : ReadBack inner a) :
    ReadBack inner (.negate a) := by
  refine .of_unary rfl (reads_negate (reads_grouped _ hinner (by decide) fun hneeded => ?_)) nofun
  exact h.reads 6 (Nat.not_lt.1 (of_decide_eq_false hneeded))

theorem ReadBack.percent {a : Expr} (hinner : Reads inner 1 a.tokens a) (h : ReadBack inner a) :
    ReadBack inner (.percent a) := by
  have hoperand : PercentsTo inner (grouped (!a.takesPercent) a.tokens) a := by
    cases htakes : a.takesPercent with
    | true => exact h.percentsTo htakes
    | false => exact (reads_parentheses hinner).percentsTo
  exact .of_unary rfl hoperand.percent.reads fun _ => hoperand.percent

theorem precedence_bounds (o : BinaryOperator) : 1 ≤ o.precedence ∧ o.precedence < 6 := by
  cases o <;> decide

theorem ReadBack.binary {o : BinaryOperator} {a b : Expr} (hinner : Reads inner 1 a.tokens a)
    (ha : ReadBack inner a) (hinner' : Reads inner 1 b.tokens b) (hb : ReadBack inner b) :
    ReadBack inner (.binary o a b) := by
  have hlt := (precedence_bounds o).2
  have hleft : ChainsTo inner o.precedence (grouped (a.precedence < o.precedence) a.tokens) a := by
    cases hneeded : decide (a.precedence < o.precedence) with
    | true => exact ((reads_parentheses hinner).of_le (by omega) (Nat.le_refl 7)).chainsTo
    | false => exact ha.chainsTo _ (Nat.not_lt.1 (of_decide_eq_false hneeded)) hlt
  have hright : Reads (level (primary inner) (o.precedence + 1)) (o.precedence + 1)
      (grouped (b.precedence ≤ o.precedence) b.tokens) b :=
    reads_grouped _ hinner' (by omega) fun hneeded =>
      hb.reads _ (Nat.not_le.1 (of_decide_eq_false hneeded))
  have hchain : ChainsTo inner o.precedence (Expr.binary o a b).tokens (.binary o a b) :=
    hleft.binary rfl hright
  have hreads := hchain.reads hlt
  refine ⟨fun k hk => hreads.of_le hk (by omega), fun k hk _ => ?_, fun htakes => ?_⟩
  · rcases Nat.eq_or_lt_of_le hk with rfl | hk
    · exact hchain
    · exact (hreads.of_le hk (by omega)).chainsTo
  · have hprimary : o.precedence = 7 := by
      simp only [Expr.takesPercent, beq_iff_eq] at htakes
      exact htakes
    omega

/-! ## Depth -/

theorem length_le_grouped (needed : Bool) (lead : List Token) :
    lead.length ≤ (grouped needed lead).length := by
  cases needed with
  | true =>
      simp only [grouped, if_true, List.length_cons, List.length_append]
      omega
  | false => exact Nat.le_refl _

theorem length_le_intercalate (separator : Token) : {parts : List (List Token)} → lead ∈ parts →
    lead.length ≤ (List.intercalate [separator] parts).length
  | [x], h => Nat.le_of_eq (by rw [List.mem_singleton.1 h, List.intercalate_singleton])
  | x :: y :: parts, h => by
      rw [List.intercalate_cons_cons, List.length_append, List.length_append]
      rcases List.mem_cons.1 h with rfl | h
      · omega
      · have hrest := length_le_intercalate separator h
        omega

theorem one_le_precedence (e : Expr) : 1 ≤ e.precedence := by
  cases e with
  | binary o left right => exact (precedence_bounds o).1
  | _ => exact Nat.le_add_left 1 _

/-- An expression is read by a reader with more levels than it has tokens. -/
theorem reads_expression {a : Expr}
    (h : ∀ depth, a.tokens.length ≤ depth → ReadBack (expression depth) a) {depth : Nat}
    (hdepth : a.tokens.length < depth) : Reads (expression depth) 1 a.tokens a := by
  cases depth with
  | zero => cases hdepth
  | succ depth =>
      have hread := (h depth (Nat.le_of_lt_succ hdepth)).reads 1 (one_le_precedence a)
      rw [← expressionOver_eq_level] at hread
      exact hread

/-- The tokens of a well-formed expression are read as the expression. -/
theorem readBack : (e : Expr) → e.isWellFormed = true →
    ∀ depth, e.tokens.length ≤ depth → ReadBack (expression depth) e
  | .literal l, _, depth, _ => by
      refine .of_primary rfl ?_
      rintro _ tail ⟨position, rest, rfl, rfl⟩ hends
      rw [level_seven]
      exact range_of_primary rfl hends
  | .cell r, h, depth, _ => by
      refine .of_primary rfl fun tokens tail htokens hends => ?_
      simp only [Expr.isWellFormed, Bool.and_eq_true, decide_eq_true_eq] at h
      rw [level_seven]
      exact range_of_primary (primary_reference h.1 h.2 htokens) hends
  | .range r, h, depth, _ => .of_primary rfl (reads_range h)
  | .name s, _, depth, _ => by
      refine .of_primary rfl ?_
      rintro _ tail ⟨position, rest, rfl, rfl⟩ hends
      rw [level_seven]
      exact range_of_primary (primary_word position s hends) hends
  | .binary o a b, h, depth, hdepth => by
      simp only [Expr.isWellFormed, Bool.and_eq_true] at h
      simp only [Expr.tokens, List.length_append, List.length_singleton] at hdepth
      have ha := readBack a h.1
      have hb := readBack b h.2
      have hleft := length_le_grouped (a.precedence < o.precedence) a.tokens
      have hright := length_le_grouped (b.precedence ≤ o.precedence) b.tokens
      exact .binary (reads_expression ha (by omega)) (ha depth (by omega))
        (reads_expression hb (by omega)) (hb depth (by omega))
  | .negate a, h, depth, hdepth => by
      have ha := readBack a h
      have hoperand := length_le_grouped (a.precedence < Expr.unaryPrecedence) a.tokens
      rw [Expr.tokens, List.length_cons] at hdepth
      exact .negate (reads_expression ha (by omega)) (ha depth (by omega))
  | .percent a, h, depth, hdepth => by
      have ha := readBack a h
      have hoperand := length_le_grouped (!a.takesPercent) a.tokens
      rw [Expr.tokens, List.length_append, List.length_singleton] at hdepth
      exact .percent (reads_expression ha (by omega)) (ha depth (by omega))
  | .call f es, h, depth, hdepth => by
      simp only [Expr.isWellFormed, Bool.and_eq_true, Expr.allWellFormed_iff] at h
      simp only [Expr.tokens, List.length_cons, List.length_append, Expr.tokensAll_eq_map] at hdepth
      refine .of_primary rfl (reads_call h.1 fun a ha => ?_)
      have hlength := length_le_intercalate .comma (List.mem_map_of_mem (f := Expr.tokens) ha)
      exact reads_expression (readBack a (h.2 a ha)) (by omega)
  | .array rows, h, depth, _ => by
      simp only [Expr.isWellFormed, Bool.and_eq_true] at h
      exact .of_primary rfl (reads_array h.1)

end

end Reader

end PaintQuote.Formula
