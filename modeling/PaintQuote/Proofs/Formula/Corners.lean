import PaintQuote.Proofs.Formula.Calls
import PaintQuote.Proofs.Formula.DefinedNames
import PaintQuote.Proofs.Sheet.Ranges

/-!
# The dollar signs of a range

The corners of a range may be written in any order; its area goes from the least row and column to the
greatest, while the dollar signs stay with the first and the second corner.  So a coordinate keeps its
dollar sign only where the corners are in order, or where both are marked alike.

What is written is taken from the text itself: a coordinate is marked if a dollar sign stands directly in
front of its letters or digits (`writtenAnchors`).  Every text that is read as a range has two addresses
in it, those of the corners (`writtenAs_of_derives`).

* `markers_kept_iff`: the marked coordinates of the text, of its range and of the printed range.
-/

namespace PaintQuote.Formula

open Sheet Text
open Token (hasAddressShape ofWord readWord startsWord)

/-! ## Marks -/

/-- The coordinates of an address. -/
inductive Axis where
  | column | row
deriving DecidableEq, Repr

/-- A coordinate of a corner, and whether it is marked as absolute. -/
structure Mark where
  /-- The coordinate that is meant. -/
  axis : Axis
  /-- Its value, from zero. -/
  index : Nat
  /-- Whether it is absolute. -/
  absolute : Bool
deriving DecidableEq, Repr

/-- The coordinates of an address with their marks. -/
def marks (a : Address) (anchors : Anchors) : List Mark :=
  [⟨.column, a.column, anchors.column⟩, ⟨.row, a.row, anchors.row⟩]

/-- The coordinates of both corners with their marks. -/
def RangeReference.marks (r : RangeReference) : List Mark :=
  Formula.marks r.area.start r.startAnchors ++ Formula.marks r.area.stop r.stopAnchors

/-- Whether a dollar sign stands directly in front of a character of a kind. -/
def dollarBefore (kind : Char → Bool) : List Char → Bool
  | [] => false
  | c :: rest => (c == '$' && rest.head?.any kind) || dollarBefore kind rest

/-- The dollar signs in front of the letters and in front of the digits of an address. -/
def writtenAnchors (cs : List Char) : Anchors := ⟨dollarBefore Char.isAlpha cs, dollarBefore Char.isDigit cs⟩

/-- The coordinates that are written in the text of an address. -/
def writtenMarks (text : String) : List Mark :=
  match Address.ofText text with
  | .ok a => marks a (writtenAnchors text.toList)
  | .error _ => []

/-- The texts of addresses among tokens. -/
def references (tokens : List Token) : List String :=
  tokens.filterMap fun token => match token with
    | .reference text => some text
    | _ => none

/-- The coordinates of all addresses that are written in the text of a formula. -/
def Expr.textMarks (s : String) : List Mark := (references (textTokens s)).flatMap writtenMarks

/-! ## The dollar signs of one address -/

section

variable (kind : Char → Bool) {cs : List Char} (rest : List Char)

/-- A run without dollar signs is passed over. -/
theorem dollarBefore_append (h : '$' ∉ cs) : dollarBefore kind (cs ++ rest) = dollarBefore kind rest := by
  induction cs with
  | nil => rfl
  | cons c cs ih =>
      obtain ⟨hc, hcs⟩ := not_or.1 (List.mem_cons.not.1 h)
      rw [List.cons_append, dollarBefore, ih hcs, beq_false_of_ne (Ne.symm hc)]
      rfl

/-- A text in the shape of an address is letters and digits, each with an optional dollar sign. -/
theorem exists_of_hasAddressShape (h : hasAddressShape cs = true) :
    ∃ (anchors : Anchors) (letters digits : List Char), letters ≠ [] ∧ digits ≠ [] ∧
      (∀ c ∈ letters, c.isAlpha = true) ∧ (∀ c ∈ digits, c.isDigit = true) ∧
      cs = dollar anchors.column ++ (letters ++ (dollar anchors.row ++ digits)) := by
  have hafter : ∀ ds : List Char, ∃ absolute, ds = dollar absolute ++ Address.afterDollar ds := by
    intro ds
    cases hcut : afterLead? ['$'] ds with
    | none => exact ⟨false, by simp [Address.afterDollar, hcut, dollar]⟩
    | some after => exact ⟨true, by rw [Address.afterDollar, hcut]; exact eq_of_afterLead? hcut⟩
  simp only [hasAddressShape, Bool.and_eq_true, Bool.not_eq_true', List.isEmpty_eq_false_iff,
    List.all_eq_true] at h
  obtain ⟨⟨hletters, hdigits⟩, hall⟩ := h
  obtain ⟨column, hcolumn⟩ := hafter cs
  obtain ⟨row, hrow⟩ := hafter ((Address.afterDollar cs).drop
    ((Address.afterDollar cs).takeWhile Char.isAlpha).length)
  have hsplit := List.prefix_iff_eq_append.1 (List.takeWhile_prefix Char.isAlpha (l := Address.afterDollar cs))
  refine ⟨⟨column, row⟩, _, _, hletters, hdigits, fun c hc => List.mem_takeWhile_imp hc, hall, ?_⟩
  rw [← hrow, hsplit]
  exact hcolumn

/-- A dollar sign marks the run that stands behind it. -/
theorem dollarBefore_dollar (absolute : Bool) {c : Char} (h : '$' ∉ c :: cs) :
    dollarBefore kind (dollar absolute ++ (c :: cs ++ rest)) =
      ((absolute && kind c) || dollarBefore kind rest) := by
  cases absolute with
  | false => exact (dollarBefore_append kind rest h).trans (Bool.false_or _).symm
  | true =>
      show dollarBefore kind ('$' :: (c :: cs ++ rest)) = _
      rw [dollarBefore, dollarBefore_append kind rest h]
      rfl

/-- The dollar signs that are kept of an address are those in front of its letters and its digits. -/
theorem anchors_of_hasAddressShape (h : hasAddressShape cs = true) :
    (⟨cs.head? == some '$', (cs.drop 1).contains '$'⟩ : Anchors) = writtenAnchors cs := by
  obtain ⟨⟨column, row⟩, letters, digits, hletters, hdigits, halpha, hdigit, rfl⟩ :=
    exists_of_hasAddressShape h
  obtain ⟨c, letters, rfl⟩ := List.exists_cons_of_ne_nil hletters
  obtain ⟨d, digits, rfl⟩ := List.exists_cons_of_ne_nil hdigits
  have hletter : '$' ∉ c :: letters := fun hmem => absurd (halpha '$' hmem) (by decide)
  have hnumeral : '$' ∉ d :: digits := fun hmem => absurd (hdigit '$' hmem) (by decide)
  have hkinds : ∀ d ∈ digitChars, d.isAlpha = false := List.all_iff_forall_prop.1 (by decide)
  have hc := halpha c List.mem_cons_self
  have hd := hdigit d List.mem_cons_self
  have hcdigit : c.isDigit = false := Bool.eq_false_iff.2 fun hdig =>
    absurd (hkinds c (mem_digitChars hdig)) (by rw [hc]; decide)
  have hwritten : ∀ kind, dollarBefore kind
      (dollar column ++ (c :: letters ++ (dollar row ++ d :: digits))) =
        ((column && kind c) || (row && kind d)) := by
    intro kind
    have hstop := dollarBefore_dollar kind [] row hnumeral
    rw [List.append_nil] at hstop
    rw [dollarBefore_dollar kind _ column hletter, hstop]
    simp [dollarBefore]
  simp only [writtenAnchors, hwritten, hc, hd, hcdigit, hkinds d (mem_digitChars hd)]
  have hne : c ≠ '$' := fun heq => hletter (heq ▸ List.mem_cons_self)
  simp only [List.mem_cons, not_or] at hletter hnumeral
  cases column <;> cases row <;> simp [dollar, hletter, hnumeral, hne]

end

/-! ## The addresses in a text -/

/-- What is read as a reference has the shape of an address. -/
theorem hasAddressShape_of_read {c : Char} {rest : List Char} {text : String} {further : Nat}
    (h : Token.read c rest = (.reference text, further)) : hasAddressShape text.toList = true := by
  have hword : ∀ cs called, ofWord cs called = .reference text → hasAddressShape text.toList = true := by
    intro cs called hs
    simp only [ofWord] at hs
    split at hs
    next => cases hs
    split at hs
    next => cases hs
    split at hs
    next hshape =>
      cases hs
      rw [String.toList_ofList]
      exact hshape.1
    split at hs
    next => cases hs
    next => cases hs
  obtain ⟨-, hread⟩ := read_word h rfl
  simp only [readWord] at hread
  split at hread
  next => cases hread
  next => exact hword _ _ (Prod.mk.inj hread).1

theorem hasAddressShape_of_scan {text : String} : ∀ {cs : List Char} {position skip : Nat},
    .reference text ∈ (Tokens.scan position skip cs).toList → hasAddressShape text.toList = true
  | [], _, _, h => by
      rw [Tokens.scan] at h
      cases h
  | c :: rest, position, skip + 1, h => by
      rw [Tokens.scan] at h
      exact hasAddressShape_of_scan h
  | c :: rest, position, 0, h => by
      rw [Tokens.scan] at h
      split at h
      next => exact hasAddressShape_of_scan h
      next =>
        rcases List.mem_cons.1 h with htoken | h
        · exact hasAddressShape_of_read (Prod.ext htoken.symm rfl)
        · exact hasAddressShape_of_scan h

theorem mem_references {tokens : List Token} {text : String} :
    text ∈ references tokens ↔ .reference text ∈ tokens := by
  rw [references, List.mem_filterMap]
  constructor
  · rintro ⟨token, hmem, h⟩
    split at h
    next => cases h; exact hmem
    next => cases h
  · exact fun hmem => ⟨_, hmem, rfl⟩

theorem references_append (a b : List Token) : references (a ++ b) = references a ++ references b :=
  List.filterMap_append

/-- The texts are those of the cell that a tree is, or of the corners of the range. -/
def WrittenAs (texts : List String) : Expr → Prop
  | .cell x => ∃ t, texts = [t] ∧ x.IsWritten x.sheet? t
  | .range r => ∃ t u x y, texts = [t, u] ∧ CellReference.IsWritten x.sheet? t x ∧
      CellReference.IsWritten y.sheet? u y ∧
      r = ⟨x.sheet?, .between x.address y.address, x.anchors, y.anchors⟩
  | _ => True

/-- A cell or range has no addresses in its text but its own, whatever signs and parentheses surround
them. -/
theorem writtenAs_of_derives {corner : List Token → Prop} {k : Nat} {tokens : List Token} {e : Expr}
    (h : Derives corner k tokens e) : WrittenAs (references tokens) e := by
  induction h with
  | next _ ih => exact ih
  | plus _ ih => exact ih
  | @range a b x y _ _ _ _ _ ihx ihy =>
      obtain ⟨t, ht, hx⟩ := ihx
      obtain ⟨u, hu, hy⟩ := ihy
      refine ⟨t, u, x, y, ?_, hx, hy, rfl⟩
      rw [references_append, ht]
      exact congrArg (t :: ·) hu
  | @cell text r hr =>
      obtain ⟨haddress, hsheet, hanchors⟩ := hr
      exact ⟨text, rfl, haddress, rfl, hanchors⟩
  | @sheetCell name text sheet r _ hr =>
      obtain ⟨haddress, hsheet, hanchors⟩ := hr
      exact ⟨text, rfl, haddress, rfl, hanchors⟩
  | @parentheses a e _ ih =>
      have hinner : references (.leftParenthesis :: (a ++ [.rightParenthesis])) = references a :=
        (references_append a [.rightParenthesis]).trans (List.append_nil _)
      rw [hinner]
      exact ih
  | _ => trivial

/-- The text of an address in a formula has the coordinates of the cell that it stands for. -/
theorem writtenMarks_of_isWritten {sheet? : Option SheetName} {text : String} {x : CellReference}
    (h : x.IsWritten sheet? text) (hshape : hasAddressShape text.toList = true) :
    writtenMarks text = marks x.address x.anchors := by
  obtain ⟨haddress, -, hanchors⟩ := h
  rw [writtenMarks, haddress, hanchors, anchors_of_hasAddressShape hshape]

/-! ## Corners in another order -/

/-- Two coordinates in their order keep their marks if they were written in it, or are marked alike. -/
theorem pair_perm_iff (axis : Axis) {i j : Nat} {p q : Bool} :
    [(⟨axis, min i j, p⟩ : Mark), ⟨axis, max i j, q⟩].Perm [⟨axis, i, p⟩, ⟨axis, j, q⟩] ↔
      i ≤ j ∨ p = q := by
  rcases Nat.lt_or_ge j i with hlt | hle
  · rw [Nat.min_eq_right hlt.le, Nat.max_eq_left hlt.le]
    constructor
    · intro h
      have hmem : (⟨axis, j, p⟩ : Mark) ∈ [(⟨axis, i, p⟩ : Mark), ⟨axis, j, q⟩] :=
        h.mem_iff.1 List.mem_cons_self
      rcases List.mem_cons.1 hmem with heq | hmem
      · exact absurd (congrArg Mark.index heq) hlt.ne
      · exact Or.inr (congrArg Mark.absolute (List.mem_singleton.1 hmem))
    · rintro (hle | rfl)
      · exact absurd hle (Nat.not_le.2 hlt)
      · exact .swap _ _ _
  · rw [Nat.min_eq_left hle, Nat.max_eq_right hle]
    exact iff_of_true (.refl _) (Or.inl hle)

theorem marks_between_perm_iff (a b : Address) (p q : Anchors) :
    (marks (Range.between a b).start p ++ marks (Range.between a b).stop q).Perm (marks a p ++ marks b q) ↔
      (a.column ≤ b.column ∨ p.column = q.column) ∧ (a.row ≤ b.row ∨ p.row = q.row) := by
  -- Columns are exchanged with columns only, and rows with rows.
  have hregroup : ∀ c r c' r' : Mark, [c, r, c', r'].Perm ([c, c'] ++ [r, r']) := fun c r c' r' =>
    .cons c (.swap c' r [r'])
  rw [← pair_perm_iff .column, ← pair_perm_iff .row]
  constructor
  · intro h
    have hcolumns := h.filter fun m : Mark => decide (m.axis = .column)
    have hrows := h.filter fun m : Mark => decide (m.axis = .row)
    exact ⟨hcolumns, hrows⟩
  · rintro ⟨hcolumns, hrows⟩
    exact (hregroup _ _ _ _).trans ((hcolumns.append hrows).trans (hregroup _ _ _ _).symm)

/-! ## Ranges -/

namespace Expr

/-- The text of a range on a sheet has the coordinates of its corners. -/
theorem textMarks_toText {r : RangeReference} (hstart : r.area.start.InBounds)
    (hstop : r.area.stop.InBounds) : textMarks (toText (.range r)) = r.marks := by
  have hwritten : ∀ {a : Address} {anchors : Anchors}, a.InBounds →
      writtenMarks (String.ofList (anchoredChars a anchors)) = marks a anchors := by
    intro a anchors ha
    rw [writtenMarks, ofText_anchoredChars ha, String.toList_ofList,
      ← anchors_of_hasAddressShape hasAddressShape_anchoredChars, anchors_anchoredChars]
  have hcloses : Closes (range r).chars :=
    ((closes_anchoredChars r.area.stop r.stopAnchors).append [':']).append _
  have hreferences : references (range r).tokens =
      [String.ofList (anchoredChars r.area.start r.startAnchors),
        String.ofList (anchoredChars r.area.stop r.stopAnchors)] := by
    rw [tokens, references_append, references_append]
    cases r.sheet? <;> rfl
  rw [textMarks, textTokens_toText hcloses (cutInto_range r), hreferences, List.flatMap_cons,
    List.flatMap_cons, List.flatMap_nil, List.append_nil, hwritten hstart, hwritten hstop]
  rfl

/-- What is read as a range is a range between two written corners. -/
theorem exists_corners {s : String} {r : RangeReference} (h : ofText s = .ok (.range r)) :
    ∃ x y : CellReference, r = ⟨x.sheet?, .between x.address y.address, x.anchors, y.anchors⟩ ∧
      textMarks s = marks x.address x.anchors ++ marks y.address y.anchors ∧
      x.address.InBounds ∧ y.address.InBounds := by
  obtain ⟨t, u, x, y, htexts, hx, hy, hr⟩ := writtenAs_of_derives ((ofTokens_eq_ok_iff _ _).1 h)
  have hshape : ∀ text ∈ [t, u], hasAddressShape text.toList = true := fun text htext =>
    hasAddressShape_of_scan (mem_references.1 (htexts ▸ htext))
  refine ⟨x, y, hr, ?_, Address.inBounds_of_ofChars hx.1, Address.inBounds_of_ofChars hy.1⟩
  rw [textMarks, textTokens, htexts, List.flatMap_cons, List.flatMap_cons, List.flatMap_nil, List.append_nil,
    writtenMarks_of_isWritten hx (hshape t List.mem_cons_self),
    writtenMarks_of_isWritten hy (hshape u (List.mem_cons_of_mem _ List.mem_cons_self))]

end Expr

/-! ## Corners with a colon between them -/

/-- A text in the shape of an address is formed as a word. -/
theorem isIdentifier_of_hasAddressShape {cs : List Char} (h : hasAddressShape cs = true) :
    isIdentifier cs = true := by
  obtain ⟨⟨column, row⟩, letters, digits, hletters, -, halpha, hdigit, rfl⟩ := exists_of_hasAddressShape h
  obtain ⟨c, letters, rfl⟩ := List.exists_cons_of_ne_nil hletters
  have hdollar : ∀ absolute, ∀ c ∈ dollar absolute, startsWord c = true := by
    intro absolute
    cases absolute with
    | false => exact List.forall_mem_nil _
    | true => exact List.forall_mem_singleton.2 (by decide)
  have hletter : ∀ d ∈ c :: letters, startsWord d = true := fun d hd => startsWord_of_isAlpha (halpha d hd)
  have hrest : ∀ d ∈ letters ++ (dollar row ++ digits), Token.continuesWord d = true := by
    intro d hd
    rcases List.mem_append.1 hd with hd | hd
    · exact continuesWord_of_startsWord (hletter d (List.mem_cons_of_mem _ hd))
    rcases List.mem_append.1 hd with hd | hd
    · exact continuesWord_of_startsWord (hdollar row d hd)
    · exact continuesWord_of_isDigit (hdigit d hd)
  have hc := hletter c List.mem_cons_self
  cases column with
  | false => exact isIdentifier_cons.2 ⟨hc, hrest⟩
  | true =>
      exact isIdentifier_cons.2
        ⟨by decide, List.forall_mem_cons.2 ⟨continuesWord_of_startsWord hc, hrest⟩⟩

/-- It is one token, since it has a digit and is therefore no logical value. -/
theorem cutInto_shape {cs : List Char} (h : hasAddressShape cs = true) :
    CutInto Delimited cs [.reference (String.ofList cs)] := by
  obtain ⟨anchors, letters, digits, -, hdigits, -, hdigit, hcs⟩ := exists_of_hasAddressShape h
  obtain ⟨d, digits, rfl⟩ := List.exists_cons_of_ne_nil hdigits
  have hmem : d ∈ cs := by
    rw [hcs]
    exact List.mem_append_right _ (List.mem_append_right _ (List.mem_append_right _ List.mem_cons_self))
  have hupper := upperChars_ne_of_isDigit (hdigit d List.mem_cons_self) hmem
  have hword : ofWord cs false = .reference (String.ofList cs) := by
    rw [ofWord, if_neg fun heq => hupper true heq.1, if_neg fun heq => hupper false heq.1,
      if_pos ⟨h, rfl⟩]
  rw [← hword]
  exact cutInto_word (isIdentifier_of_hasAddressShape h)

theorem textTokens_corners {x y : String} (hx : hasAddressShape x.toList = true)
    (hy : hasAddressShape y.toList = true) :
    Expr.textTokens (x ++ ":" ++ y) = [.reference x, .colon, .reference y] := by
  have hcutx := cutInto_shape hx
  have hcuty := cutInto_shape hy
  rw [String.ofList_toList] at hcutx hcuty
  have hcolon : CutInto Free [':'] [.colon] := cutInto_symbol rfl
  have hcut := hcutx.append (hcolon.append hcuty fun _ _ => trivial) fun rest _ =>
    Delimited.cons (by decide) _
  have htext : (x ++ ":" ++ y).toList = x.toList ++ ([':'] ++ y.toList) := by
    rw [String.toList_append, String.toList_append, List.append_assoc]
    rfl
  obtain ⟨hxne, hxword⟩ := continuesWord_of_isIdentifier (isIdentifier_of_hasAddressShape hx)
  obtain ⟨hyne, hyword⟩ := continuesWord_of_isIdentifier (isIdentifier_of_hasAddressShape hy)
  have hopens : Opens (x.toList ++ ([':'] ++ y.toList)) := (opens_of_forall hxne hxword).append _
  have hcloses : Closes (x.toList ++ ([':'] ++ y.toList)) :=
    ((closes_of_forall hyne hyword).append [':']).append _
  obtain ⟨position, hleads⟩ := hcut 0 [] .nil
  rw [List.append_nil, Tokens.scan] at hleads
  rw [Expr.textTokens, htext, Expr.body_eq_self hopens hcloses]
  exact Expr.toList_of_leads hleads

/-! ## Markers -/

/-- Any two addresses of a sheet can be the corners of a range. -/
theorem ofText_corners {x y : String} {a b : Address} (hx : hasAddressShape x.toList = true)
    (hy : hasAddressShape y.toList = true) (ha : Address.ofText x = .ok a) (hb : Address.ofText y = .ok b) :
    Expr.ofText (x ++ ":" ++ y) =
        .ok (.range ⟨none, .between a b, writtenAnchors x.toList, writtenAnchors y.toList⟩) ∧
      Expr.textMarks (x ++ ":" ++ y) =
        marks a (writtenAnchors x.toList) ++ marks b (writtenAnchors y.toList) := by
  have htokens := textTokens_corners hx hy
  have hwritten : ∀ {text : String} {c : Address}, hasAddressShape text.toList = true →
      Address.ofText text = .ok c →
      CellReference.IsWritten none text ⟨none, c, writtenAnchors text.toList⟩ := fun hshape hc =>
    ⟨hc, rfl, (anchors_of_hasAddressShape hshape).symm⟩
  have hyields : Yields 8 [.reference x, .colon, .reference y] _ :=
    .range trivial trivial (.cell (hwritten hx ha)) (.cell (hwritten hy hb)) (Or.inl rfl)
  constructor
  · refine (Expr.ofTokens_eq_ok_iff _ _).2 ?_
    have heq : (Tokens.ofChars (Expr.body (x ++ ":" ++ y).toList)).toList = _ := htokens
    rw [heq]
    exact hyields.of_le (by decide)
  · rw [Expr.textMarks, htokens]
    show writtenMarks x ++ (writtenMarks y ++ []) = _
    rw [List.append_nil, writtenMarks, writtenMarks, ha, hb]

/-- Of every text that is read as a range, the printed range has the coordinates of the range, each with
its mark.  They are those of the text, with the marks of the text, exactly if columns written in falling
order are marked alike, and rows as well. -/
theorem markers_kept_iff {s : String} {r : RangeReference} (h : Expr.ofText s = .ok (.range r)) :
    ∃ a b p q, Expr.textMarks s = marks a p ++ marks b q ∧ r.area = .between a b ∧
      Expr.textMarks (Expr.toText (.range r)) = r.marks ∧
      (r.marks.Perm (Expr.textMarks s) ↔
        (a.column ≤ b.column ∨ p.column = q.column) ∧ (a.row ≤ b.row ∨ p.row = q.row)) := by
  obtain ⟨x, y, rfl, hmarks, hx, hy⟩ := Expr.exists_corners h
  obtain ⟨hstart, hstop⟩ := Range.inBounds_between hx hy
  refine ⟨_, _, _, _, hmarks, rfl, Expr.textMarks_toText hstart hstop, ?_⟩
  rw [hmarks]
  exact marks_between_perm_iff _ _ _ _

/-- Columns that rise and rows that fall, but are both marked, keep their marks. -/
theorem markers_kept_falling :
    ∃ r, Expr.ofText ("$A$5" ++ ":" ++ "B$2") = .ok (.range r) ∧
      r.marks.Perm (Expr.textMarks ("$A$5" ++ ":" ++ "B$2")) := by
  have hfrom : Address.ofText "$A$5" = .ok ⟨4, 0⟩ := by rfl
  have hto : Address.ofText "B$2" = .ok ⟨1, 1⟩ := by rfl
  obtain ⟨hread, htext⟩ := ofText_corners (by decide +kernel) (by decide +kernel) hfrom hto
  obtain ⟨a, b, p, q, hmarks, -, -, hiff⟩ := markers_kept_iff hread
  have hfirst : writtenAnchors "$A$5".toList = ⟨true, true⟩ := by decide +kernel
  have hsecond : writtenAnchors "B$2".toList = ⟨false, true⟩ := by decide +kernel
  rw [htext, hfirst, hsecond] at hmarks
  simp only [marks, List.cons_append, List.nil_append, List.cons.injEq, Mark.mk.injEq] at hmarks
  obtain ⟨⟨-, hcolumn, -⟩, ⟨-, -, hrow⟩, ⟨-, hcolumn', -⟩, ⟨-, -, hrow'⟩, -⟩ := hmarks
  refine ⟨_, hread, hiff.2 ⟨Or.inl ?_, Or.inr (hrow.symm.trans hrow')⟩⟩
  rw [← hcolumn, ← hcolumn']
  decide

/-- The dollar signs of a second corner that is written first move to other coordinates. -/
theorem markers_moved :
    (∃ r, (Expr.ofText "=$B$2:A1").toOption = some (.range r) ∧ Expr.toText (.range r) = "=$A$1:B2" ∧
      ¬ r.marks.Perm (Expr.textMarks "=$B$2:A1")) ∧
    ∃ r, (Expr.ofText "=$B2:A$1").toOption = some (.range r) ∧ Expr.toText (.range r) = "=$A1:B$2" ∧
      ¬ r.marks.Perm (Expr.textMarks "=$B2:A$1") := by
  refine ⟨⟨⟨none, .between ⟨1, 1⟩ ⟨0, 0⟩, ⟨true, true⟩, ⟨false, false⟩⟩, ?_, ?_, ?_⟩,
    ⟨⟨none, .between ⟨1, 1⟩ ⟨0, 0⟩, ⟨true, false⟩, ⟨false, true⟩⟩, ?_, ?_, ?_⟩⟩
  all_goals decide +kernel

end PaintQuote.Formula
