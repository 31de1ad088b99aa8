import PaintQuote.Proofs.Formula.Grammar

/-!
# What is read as a formula

A text is read as a tree exactly when all of its tokens derive the tree, and tokens derive one tree at
most (`Expr.ofText_eq_ok_iff`).  A reader that is given enough levels of parentheses reads every
derivation (`Reader.accepts`).  Since the chains of operators are read from their left ends, what is
shown of a derivation is how the chain goes on from it, as for the trees that are printed.

A corner of a range need not be written bare, and only numbers are negated in an array constant
(`Expr.parenthesized_corner`).
-/

namespace PaintQuote.Formula

open Sheet Text

/-- What an expression may start with. -/
def Token.Begins : Token → Prop
  | .literal _ | .word _ | .reference _ | .sheet _ => True
  | .operator .add | .operator .subtract | .leftParenthesis | .leftBrace => True
  | _ => False

theorem Derives.begins {corner : List Token → Prop} {k : Nat} {tokens : List Token} {e : Expr}
    (h : Derives corner k tokens e) : ∃ token rest, tokens = token :: rest ∧ token.Begins := by
  induction h with
  | next _ ih => exact ih
  | binary _ _ ih _ =>
      obtain ⟨token, rest, rfl, hbegins⟩ := ih
      exact ⟨token, _, rfl, hbegins⟩
  | percent _ ih =>
      obtain ⟨token, rest, rfl, hbegins⟩ := ih
      exact ⟨token, _, rfl, hbegins⟩
  | range _ _ _ _ _ ih _ =>
      obtain ⟨token, rest, rfl, hbegins⟩ := ih
      exact ⟨token, _, rfl, hbegins⟩
  | _ => exact ⟨_, _, rfl, trivial⟩

/-- No expression starts with a closing parenthesis. -/
theorem Derives.first {corner : List Token → Prop} {k : Nat} {tokens : List Token} {e : Expr}
    (h : Derives corner k tokens e) :
    ∃ token rest, tokens = token :: rest ∧ token ≠ .rightParenthesis := by
  obtain ⟨token, rest, rfl, hbegins⟩ := h.begins
  refine ⟨token, rest, rfl, ?_⟩
  rintro rfl
  exact hbegins

theorem Leads.toList {lead : List Token} {tokens tail : Tokens} (h : Leads lead tokens tail) :
    tokens.toList = lead ++ tail.toList := by
  induction lead generalizing tokens with
  | nil =>
      cases h
      rfl
  | cons token lead ih =>
      obtain ⟨position, rest, rfl, hrest⟩ := h
      rw [Tokens.toList, ih hrest, List.cons_append]

namespace Reader

/-! ## Completeness -/

/-- No opening parenthesis comes next. -/
def Uncalled : Tokens → Prop
  | .next _ .leftParenthesis _ => False
  | _ => True

theorem Ends.uncalled {k : Nat} {tail : Tokens} (h : Ends k tail) : Uncalled tail := by
  unfold Uncalled
  split
  next => exact h
  next => trivial

/-- Readers over a reader of what stands between parentheses read a derivation of a level. -/
structure Accepts (inner : Reader Expr) (k : Nat) (lead : List Token) (e : Expr) : Prop where
  le : k ≤ 9
  chainsTo : k < 6 → ChainsTo inner k lead e
  signed : k = 6 → Reads (level (primary inner) 6) 6 lead e
  percentsTo : k = 7 → PercentsTo inner lead e
  range : k = 8 → Reads (level (primary inner) 7) 7 lead e
  primary : k = 9 → ∀ tokens tail, Leads lead tokens tail → Uncalled tail →
    primary inner tokens = .ok (e, tail)

section

variable {inner : Reader Expr} {k : Nat} {lead : List Token} {e : Expr}

theorem Accepts.of_primary (h : ∀ tokens tail, Leads lead tokens tail → Uncalled tail →
    Reader.primary inner tokens = .ok (e, tail)) : Accepts inner 9 lead e :=
  ⟨Nat.le_refl 9, by omega, by omega, by omega, by omega, fun _ => h⟩

theorem Accepts.reads (h : Accepts inner k lead e) (hk : k ≤ 6) :
    Reads (level (Reader.primary inner) k) k lead e := by
  rcases Nat.lt_or_eq_of_le hk with hlt | rfl
  · exact (h.chainsTo hlt).reads hlt
  · exact h.signed rfl

/-- What is read on one level is read on the level before. -/
theorem Accepts.next (h : Accepts inner (k + 1) lead e) : Accepts inner k lead e where
  le := Nat.le_of_succ_le h.le
  chainsTo hk := (h.reads hk).chainsTo
  signed hk := (h.percentsTo (congrArg (· + 1) hk)).reads
  percentsTo hk := (h.range (congrArg (· + 1) hk)).percentsTo
  range hk := by
    intro tokens tail hlead hends
    rw [level_seven]
    exact range_of_primary (h.primary (congrArg (· + 1) hk) tokens tail hlead hends.uncalled) hends
  primary hk := by
    have hle := h.le
    omega

/-- A plus changes nothing. -/
theorem reads_plus (h : Reads (level (primary inner) 6) 6 lead e) :
    Reads (level (primary inner) 6) 6 (.operator .add :: lead) e := by
  rintro _ tail ⟨position, rest, rfl, hrest⟩ hends
  have hread := h rest tail hrest hends
  rw [level_six] at hread ⊢
  rw [Reader.signed, hread]

theorem Accepts.between {more : List Token} {x y : CellReference}
    (hx : Accepts inner 9 lead (.cell x)) (hy : Accepts inner 9 more (.cell y))
    (hsheet : y.sheet? = none ∨ y.sheet? = x.sheet?) :
    Reads (level (Reader.primary inner) 7) 7 (lead ++ .colon :: more)
      (.range ⟨x.sheet?, .between x.address y.address, x.anchors, y.anchors⟩) := by
  intro tokens tail htokens hends
  obtain ⟨_, hlead, position, rest, rfl, hmore⟩ := leads_append.1 htokens
  have hleft := hx.primary rfl _ _ hlead trivial
  have hright := hy.primary rfl _ _ hmore hends.uncalled
  rw [level_seven, Reader.range, hleft]
  simp only [bind, Except.bind, hright, rangeSheet?_eq_some.2 ⟨rfl, hsheet⟩]

theorem primary_name (s : String) {tail : Tokens} (position : Nat) (h : Uncalled tail) :
    primary inner (.next position (.word s) tail) = .ok (.name s, tail) := by
  cases tail with
  | stop position => rfl
  | next position token rest =>
      cases token with
      | leftParenthesis => exact h.elim
      | _ => rfl

/-- A reader with more levels of parentheses than there are tokens reads an expression. -/
theorem Accepts.reads_expression (h : ∀ depth, lead.length ≤ depth → Accepts (expression depth) 1 lead e)
    {depth : Nat} (hdepth : lead.length < depth) : Reads (expression depth) 1 lead e := by
  cases depth with
  | zero => cases hdepth
  | succ depth =>
      have hread := (h depth (Nat.le_of_lt_succ hdepth)).reads (by decide)
      rw [← expressionOver_eq_level] at hread
      exact hread

end

/-- Every derivation is read. -/
theorem accepts {k : Nat} {lead : List Token} {e : Expr} (h : Yields k lead e) :
    ∀ depth, lead.length ≤ depth → Accepts (expression depth) k lead e := by
  induction h with
  | next _ ih => exact fun depth hdepth => (ih depth hdepth).next
  | @binary o a b left right _ _ ihleft ihright =>
      intro depth hdepth
      rw [List.length_append, List.length_cons] at hdepth
      have hlt := (precedence_bounds o).2
      have hleft := (ihleft depth (by omega)).chainsTo hlt
      have hright := (ihright depth (by omega)).reads hlt
      have hchain := hleft.binary rfl hright
      rw [List.append_assoc, List.singleton_append] at hchain
      exact ⟨by omega, fun _ => hchain, by omega, by omega, by omega, by omega⟩
  | minus _ ih =>
      intro depth hdepth
      have hread := (ih depth (Nat.le_of_succ_le hdepth)).signed rfl
      exact ⟨by decide, by omega, fun _ => reads_negate hread, by omega, by omega, by omega⟩
  | plus _ ih =>
      intro depth hdepth
      have hread := (ih depth (Nat.le_of_succ_le hdepth)).signed rfl
      exact ⟨by decide, by omega, fun _ => reads_plus hread, by omega, by omega, by omega⟩
  | percent _ ih =>
      intro depth hdepth
      rw [List.length_append] at hdepth
      have hread := (ih depth (by omega)).percentsTo rfl
      exact ⟨by decide, by omega, by omega, fun _ => hread.percent, by omega, by omega⟩
  | range _ _ _ _ hsheet ihx ihy =>
      intro depth hdepth
      rw [List.length_append, List.length_cons] at hdepth
      have hread := (ihx depth (by omega)).between (ihy depth (by omega)) hsheet
      exact ⟨by decide, by omega, by omega, by omega, fun _ => hread, by omega⟩
  | literal l =>
      refine fun depth _ => .of_primary ?_
      rintro _ tail ⟨position, rest, rfl, rfl⟩ _
      rfl
  | cell hr =>
      refine fun depth _ => .of_primary ?_
      rintro _ tail ⟨position, rest, rfl, rfl⟩ _
      rw [primary, cellReference_eq_ok.2 hr]
      rfl
  | sheetCell hsheet hr =>
      refine fun depth _ => .of_primary ?_
      rintro _ tail ⟨position, _, rfl, position', rest, rfl, rfl⟩ _
      simp only [primary, qualifiedCell, hsheet, cellReference_eq_ok.2 hr]
      rfl
  | name s =>
      refine fun depth _ => .of_primary ?_
      rintro _ tail ⟨position, rest, rfl, rfl⟩ huncalled
      exact primary_name s position huncalled
  | parentheses _ ih =>
      intro depth hdepth
      rw [List.length_cons, List.length_append] at hdepth
      exact .of_primary fun tokens tail htokens _ =>
        primary_parentheses (Accepts.reads_expression ih (by omega)) htokens
  | call hparts ih =>
      intro depth hdepth
      simp only [List.length_cons, List.length_append] at hdepth
      refine .of_primary fun tokens tail htokens _ => primary_call ?_ ?_ htokens
      · intro a ha
        have hlength := length_le_intercalate .comma (List.mem_map_of_mem (f := (·.1)) ha)
        exact Accepts.reads_expression (ih a ha) (by omega)
      · exact fun a ha => (hparts a ha).first
  | array hrectangle =>
      exact fun depth _ => .of_primary fun tokens tail htokens _ => primary_array hrectangle htokens

end Reader

namespace Expr

/-! ## Formulas -/

theorem leads_toList : ∀ tokens : Tokens, ∃ position, Leads tokens.toList tokens (.stop position)
  | .stop position => ⟨position, rfl⟩
  | .next position token rest => by
      obtain ⟨stop, hrest⟩ := leads_toList rest
      exact ⟨stop, position, rest, rfl, hrest⟩

theorem toList_of_leads {lead : List Token} {tokens : Tokens} {position : Nat}
    (h : Leads lead tokens (.stop position)) : tokens.toList = lead := by
  rw [h.toList, Tokens.toList, List.append_nil]

/-- Tokens are read as the tree that all of them derive. -/
theorem ofTokens_eq_ok_iff (tokens : Tokens) (e : Expr) :
    ofTokens tokens = .ok e ↔ Yields 1 tokens.toList e := by
  constructor
  · intro h
    cases tokens with
    | stop position => cases h
    | next position token rest =>
        obtain ⟨⟨a, tail⟩, ha, h⟩ := Reader.bind_eq_ok.1 h
        simp only [] at h
        split at h
        next =>
          cases h
          obtain ⟨lead, hlead, hyields⟩ := Reader.sound_expression _ _ _ _ ha
          rw [toList_of_leads hlead]
          exact hyields
        next => cases h
  · intro h
    obtain ⟨stop, hleads⟩ := leads_toList tokens
    have hlength := hleads.length
    have hread := Reader.Accepts.reads_expression (Reader.accepts h)
      (show tokens.toList.length < tokens.length + 1 by omega) tokens _ hleads trivial
    obtain ⟨token, rest, hfirst, -⟩ := h.first
    cases tokens with
    | stop position => cases hfirst
    | next position token rest => rw [ofTokens, hread]; rfl

/-- The tokens of the text of a formula. -/
def textTokens (s : String) : List Token := (Tokens.ofChars (body s.toList)).toList

/-- A text is read as the tree that all of its tokens derive; there is one such tree at most, and
without one there is an error. -/
theorem ofText_eq_ok_iff (s : String) :
    (∀ e, ofText s = .ok e ↔ Yields 1 (textTokens s) e) ∧
      (∀ e e', Yields 1 (textTokens s) e → Yields 1 (textTokens s) e' → e = e') ∧
      ((∃ error, ofText s = .error error) ↔ ¬ ∃ e, Yields 1 (textTokens s) e) := by
  have hiff : ∀ e, ofText s = .ok e ↔ Yields 1 (textTokens s) e :=
    ofTokens_eq_ok_iff (Tokens.ofChars (body s.toList))
  refine ⟨hiff, ?_, ?_⟩
  · intro e e' h h'
    exact Except.ok.inj (((hiff e).2 h).symm.trans ((hiff e').2 h'))
  · cases hread : ofText s with
    | ok e =>
        refine iff_of_false ?_ fun hnone => hnone ⟨e, (hiff e).1 hread⟩
        rintro ⟨_, ⟨⟩⟩
    | error error =>
        refine iff_of_true ⟨error, rfl⟩ ?_
        rintro ⟨e, he⟩
        rw [(hiff e).2 he] at hread
        cases hread

/-- A corner without parentheses. -/
def Bare (tokens : List Token) : Prop := .leftParenthesis ∉ tokens

/-- A cell between parentheses starts no range with bare corners. -/
theorem not_derives_bare {k : Nat} {tokens : List Token} {e : Expr} (h : Derives Bare k tokens e) :
    tokens ≠ [.leftParenthesis, .reference "A1", .rightParenthesis, .colon, .reference "B1"] := by
  induction h with
  | next _ ih => exact ih
  | @binary o a b _ _ _ _ _ _ =>
      intro heq
      have hmem : .operator o ∈ a ++ .operator o :: b := by simp
      rw [heq] at hmem
      simp at hmem
  | @percent a _ _ _ =>
      intro heq
      have hmem : .percent ∈ a ++ [Token.percent] := by simp
      rw [heq] at hmem
      simp at hmem
  | range hcorner _ hx _ _ _ _ =>
      intro heq
      obtain ⟨token, rest, rfl, -⟩ := hx.first
      obtain ⟨rfl, -⟩ := List.cons.inj heq
      exact hcorner List.mem_cons_self
  | parentheses _ _ =>
      intro heq
      have hlast := congrArg List.getLast? heq
      rw [← List.cons_append, List.getLast?_append] at hlast
      cases hlast
  | _ => nofun

/-- A corner of a range may stand between parentheses, though it is then no bare cell, and no logical
value is negated in an array constant. -/
theorem parenthesized_corner :
    (ofText "=(A1):B1").toOption = some (.range ⟨none, .between ⟨0, 0⟩ ⟨0, 1⟩, {}, {}⟩) ∧
      (¬ ∃ e, Derives Bare 1 (textTokens "=(A1):B1") e) ∧
      textTokens "=\x7b-TRUE\x7d" =
        [.leftBrace, .operator .subtract, .literal (.boolean true), .rightBrace] ∧
      (ofText "=\x7b-TRUE\x7d").toOption = none := by
  have htokens : textTokens "=(A1):B1" =
      [.leftParenthesis, .reference "A1", .rightParenthesis, .colon, .reference "B1"] := by
    decide +kernel
  have hbare : ¬ ∃ e, Derives Bare 1 (textTokens "=(A1):B1") e := by
    rintro ⟨e, he⟩
    exact not_derives_bare he htokens
  refine ⟨?_, hbare, ?_, ?_⟩
  · decide +kernel
  · decide +kernel
  · decide +kernel

end Expr

end PaintQuote.Formula
