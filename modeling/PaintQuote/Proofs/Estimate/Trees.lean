import PaintQuote.Proofs.Estimate.Perimeter

/-!
# The formulas of a project that can be read

The formulas of a project whose rooms fit on its sheet are read as their trees (`ofText_totals`).  Formulas
that name a room past the end of the sheet cannot be read at all, so that what can be read is a tree of the
list in any case (`eq_of_ofText_totals`).
-/

namespace PaintQuote

open Sheet Formula Text Estimate

/-! ## Addresses in a formula -/

theorem Sheet.rowOfDigits_toDigits_ne_ok (text : String) {row : Nat} (h : rowLimit ≤ row) (n : Nat) :
    rowOfDigits text (Nat.toDigits 10 (row + 1)) ≠ .ok n := by
  have hnumeral : numeral (Nat.toDigits 10 (row + 1)) = row + 1 := by
    rw [numeral_eq, Nat.ofDigitChars_ten_toDigits]
  rw [rowOfDigits, hnumeral, if_neg (by simp [Nat.toDigits_ne_nil]), if_neg (Nat.succ_ne_zero _),
    if_pos (Nat.lt_succ_of_le h)]
  intro hrow
  split at hrow <;> cases hrow

/-- No row past the end of a sheet is read. -/
theorem Formula.ofText_anchoredChars_ne_ok {a : Address} {anchors : Anchors} (hrow : rowLimit ≤ a.row)
    (hcolumn : a.column < columnLimit) (b : Address) :
    Address.ofText (String.ofList (anchoredChars a anchors)) ≠ .ok b := by
  have hbody : Address.ofBody (anchoredChars a anchors) ≠ .ok b := by
    simp only [Address.ofBody, afterDollar_anchoredChars, takeWhile_isAlpha_letters,
      dropWhile_isAlpha_letters, afterDollar_rowChars, columnOfLetters_columnLetters hcolumn]
    rw [if_neg (by simp [anchoredChars_ne_nil]), if_neg (by simp [columnLetters_ne_nil])]
    intro h
    obtain ⟨column, -, h⟩ := Reader.bind_eq_ok.1 h
    obtain ⟨row, h, -⟩ := Reader.bind_eq_ok.1 h
    exact rowOfDigits_toDigits_ne_ok _ hrow row h
  have hword : ∀ c ∈ anchoredChars a anchors, Text.isBlank c = false := fun c hc =>
    not_isBlank_of_continuesWord (continuesWord_of_mem_anchoredChars hc)
  rw [Address.ofText, Address.ofChars, String.toList_ofList, trim_of_forall hword]
  exact hbody

namespace Formula.Expr

theorem exists_mem_of_mem_intercalate {separator token : Token} (hne : token ≠ separator)
    {parts : List (List Token)} (h : token ∈ List.intercalate [separator] parts) :
    ∃ part ∈ parts, token ∈ part := by
  cases parts with
  | nil => simp at h
  | cons first parts =>
      rw [Reader.intercalate_cons, List.mem_append] at h
      rcases h with h | h
      · exact ⟨first, List.mem_cons_self, h⟩
      · obtain ⟨part, hpart, h⟩ := List.mem_flatMap.1 h
        exact ⟨part, List.mem_cons_of_mem _ hpart, (List.mem_cons.1 h).resolve_left hne⟩

/-- A token in the shape of an address is an address, if the tokens are an expression. -/
theorem address_of_derives {corner : List Token → Prop} {k : Nat} {tokens : List Token} {e : Expr}
    (h : Derives corner k tokens e) :
    ∀ s, .reference s ∈ tokens → ∃ a, Address.ofText s = .ok a := by
  induction h with
  | next _ ih => exact ih
  | binary _ _ ihleft ihright =>
      intro s hs
      rcases List.mem_append.1 hs with hs | hs
      · exact ihleft s hs
      · exact ihright s ((List.mem_cons.1 hs).resolve_left nofun)
  | minus _ ih => exact fun s hs => ih s ((List.mem_cons.1 hs).resolve_left nofun)
  | plus _ ih => exact fun s hs => ih s ((List.mem_cons.1 hs).resolve_left nofun)
  | percent _ ih =>
      intro s hs
      rcases List.mem_append.1 hs with hs | hs
      · exact ih s hs
      · exact absurd (List.mem_singleton.1 hs) nofun
  | range _ _ _ _ _ ihfirst ihsecond =>
      intro s hs
      rcases List.mem_append.1 hs with hs | hs
      · exact ihfirst s hs
      · exact ihsecond s ((List.mem_cons.1 hs).resolve_left nofun)
  | cell hwritten =>
      intro s hs
      cases List.mem_singleton.1 hs
      exact ⟨_, hwritten.1⟩
  | sheetCell _ hwritten =>
      intro s hs
      cases List.mem_singleton.1 ((List.mem_cons.1 hs).resolve_left nofun)
      exact ⟨_, hwritten.1⟩
  | parentheses _ ih =>
      intro s hs
      rcases List.mem_append.1 ((List.mem_cons.1 hs).resolve_left nofun) with hs | hs
      · exact ih s hs
      · exact absurd (List.mem_singleton.1 hs) nofun
  | call _ ih =>
      intro s hs
      have hs := (List.mem_cons.1 ((List.mem_cons.1 hs).resolve_left nofun)).resolve_left nofun
      rcases List.mem_append.1 hs with hs | hs
      · have hne : Token.reference s ≠ .comma := nofun
        obtain ⟨part, hpart, hs⟩ := exists_mem_of_mem_intercalate hne hs
        obtain ⟨a, ha, rfl⟩ := List.mem_map.1 hpart
        exact ih a ha s hs
      · exact absurd (List.mem_singleton.1 hs) nofun
  | array =>
      intro s hs
      rcases List.mem_append.1 ((List.mem_cons.1 hs).resolve_left nofun) with hs | hs
      · have hsemicolon : Token.reference s ≠ .semicolon := nofun
        have hcomma : Token.reference s ≠ .comma := nofun
        obtain ⟨part, hpart, hs⟩ := exists_mem_of_mem_intercalate hsemicolon hs
        obtain ⟨row, -, rfl⟩ := List.mem_map.1 hpart
        obtain ⟨part, hpart, hs⟩ := exists_mem_of_mem_intercalate hcomma hs
        obtain ⟨x, -, rfl⟩ := List.mem_map.1 hpart
        cases x <;> simp [ArrayItem.tokens] at hs
      · exact absurd (List.mem_singleton.1 hs) nofun
  | _ => exact fun s hs => absurd (List.mem_singleton.1 hs) nofun

/-- A token in the shape of an address is an address, if the formula can be read. -/
theorem address_of_ofText {text : String} {e : Expr} (h : ofText text = .ok e) :
    ∀ s, .reference s ∈ textTokens text → ∃ a, Address.ofText s = .ok a :=
  address_of_derives ((ofTokens_eq_ok_iff _ e).1 h)

end Formula.Expr

namespace Estimate.Layout

section

variable {rooms column : Nat} {function : String}

/-! ## Rooms that fit -/

section

variable (hrooms : rooms < rowLimit) (hcolumn : column < columnLimit)
include hrooms hcolumn

theorem isWellFormed_totalExpr (hfunction : isFunctionText function = true) :
    (totalExpr function rooms column).isWellFormed = true := by
  have hfirst : (1 : Nat) < rowLimit := by decide
  have hlast : max rooms 1 < rowLimit := Nat.max_lt.2 ⟨hrooms, hfirst⟩
  simp [totalExpr, roomRange, Expr.isWellFormed, Expr.allWellFormed, isCanonicalSheet, Address.InBounds,
    hfunction, hfirst, hlast, hcolumn]

theorem isWellFormed_priceExpr : (priceExpr rooms column).isWellFormed = true := by
  have htexts : isFunctionText "ROUND" = true ∧ isFunctionText "MAX" = true ∧
      isFunctionText "SUM" = true ∧ isNameText "PROJECT_MINIMUM" = true ∧
      remainder.isWellFormed = true ∧ (Literal.number 2).isWellFormed = true := by decide
  obtain ⟨hround, hmax, hsum, hminimum, hremainder, htwo⟩ := htexts
  simp only [priceExpr, roundedExpr, reducedExpr, Expr.isWellFormed, Expr.allWellFormed, hround, hmax,
    hminimum, hremainder, htwo, isWellFormed_totalExpr hrooms hcolumn hsum, Bool.and_self]

end

/-- The formulas of a project whose rooms fit on its sheet are read as their trees. -/
theorem ofText_totals (hrooms : rooms < rowLimit) :
    List.Forall₂ (fun t e => Expr.ofText t = .ok e) (totals rooms) (totalExprs rooms) := by
  have hlimit : 7 ≤ columnLimit := by decide
  rw [← toText_totalExprs]
  refine List.forall₂_map_left_iff.2 (List.forall₂_same.2 fun e he => Expr.ofText_toText ?_)
  rcases mem_totalExprs rooms he with ⟨function, hfunction, column, hcolumn, rfl⟩ | rfl | ⟨column, hcolumn, rfl⟩
  · exact isWellFormed_totalExpr hrooms (Nat.lt_of_lt_of_le hcolumn hlimit)
      (isFunctionText_of_mem function hfunction)
  · exact isWellFormed_discountExpr
  · exact isWellFormed_priceExpr hrooms (Nat.lt_of_lt_of_le hcolumn hlimit)

/-! ## Rooms that do not fit -/

theorem last_mem_totalExpr : addressToken ⟨max rooms 1, column⟩ ⟨false, false⟩ ∈
    (totalExpr function rooms column).tokens := by
  simp [totalExpr, roomRange, Expr.tokens, Expr.tokensAll]

theorem last_mem_priceExpr : addressToken ⟨max rooms 1, column⟩ ⟨false, false⟩ ∈
    (priceExpr rooms column).tokens := by
  have hgrouped : ∀ (needed : Bool) (token : Token) (tokens : List Token), token ∈ tokens →
      token ∈ grouped needed tokens := by
    intro needed token tokens h
    cases needed <;> simp [grouped, h]
  have hreduced : addressToken ⟨max rooms 1, column⟩ ⟨false, false⟩ ∈ (reducedExpr rooms column).tokens := by
    simp only [reducedExpr, Expr.tokens, List.append_assoc, List.mem_append]
    exact Or.inl (hgrouped _ _ _ last_mem_totalExpr)
  simp [priceExpr, roundedExpr, Expr.tokens, Expr.tokensAll, List.intercalate_cons_cons, hreduced]

/-- A formula with the last room in its tree cannot be read if this room does not fit. -/
theorem ofText_ne_ok {e : Expr} (hrooms : rowLimit ≤ rooms) (hcolumn : column < columnLimit)
    (he : e ∈ totalExprs rooms)
    (hlast : addressToken ⟨max rooms 1, column⟩ ⟨false, false⟩ ∈ e.tokens) (e' : Expr) :
    Expr.ofText e.toText ≠ .ok e' := by
  intro h
  rw [← textTokens_of_mem_totalExprs rooms he] at hlast
  obtain ⟨a, ha⟩ := Expr.address_of_ofText h _ hlast
  exact ofText_anchoredChars_ne_ok (Nat.le_trans hrooms (Nat.le_max_left _ _)) hcolumn a ha

/-- The formulas of a project that can be read are read as their trees, also where the rooms do not fit. -/
theorem eq_of_ofText_totals (rooms : Nat) :
    List.Forall₂ (fun t e => ∀ e', Expr.ofText t = .ok e' → e' = e) (totals rooms) (totalExprs rooms) := by
  by_cases hrooms : rooms < rowLimit
  · refine (ofText_totals hrooms).imp fun t e ht e' h => ?_
    rw [ht] at h
    exact (Except.ok.inj h).symm
  have hunfit := Nat.not_lt.1 hrooms
  have hlimit : 7 ≤ columnLimit := by decide
  rw [← toText_totalExprs]
  refine List.forall₂_map_left_iff.2 (List.forall₂_same.2 fun e he e' h => ?_)
  rcases mem_totalExprs rooms he with ⟨function, hfunction, column, hcolumn, rfl⟩ | rfl | ⟨column, hcolumn, rfl⟩
  · exact absurd h (ofText_ne_ok hunfit (Nat.lt_of_lt_of_le hcolumn hlimit) he last_mem_totalExpr e')
  · rw [Expr.ofText_toText isWellFormed_discountExpr] at h
    exact (Except.ok.inj h).symm
  · exact absurd h (ofText_ne_ok hunfit (Nat.lt_of_lt_of_le hcolumn hlimit) he last_mem_priceExpr e')

end

end Estimate.Layout

end PaintQuote
