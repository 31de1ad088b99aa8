import PaintQuote.Estimate.Layout
import PaintQuote.Proofs.Formula.Calls

/-!
# The formulas of an estimate

The formulas of a room are read as the trees listed here (`ofText_measures`, `ofText_tierFormulas`).  The
formulas of a project name the last of its rooms.  They are written for trees (`toText_totalExprs`) whose
words do not depend on the number of rooms, also where this number is too large for the formulas to be
read.  No function in the formulas of an estimate tells equal numbers apart
(`isUniform_of_mem_roomFormulas`, `isUniform_of_mem_totals`).
-/

namespace PaintQuote.Estimate.Layout

open Sheet Formula Text

/-! ## Rooms -/

/-- The formulas on the sheet of a room. -/
def roomFormulas : List String := measures ++ priceFormulas.toList

/-- The tree of a reference to a cell of a room. -/
def cellExpr (column : Char) (row : Nat) : Expr := .cell ⟨none, place column row, ⟨false, false⟩⟩

/-- The tree of a number. -/
def countExpr (n : Nat) : Expr := .literal (.number (.ofNat n))

/-- The tree of the formula that says whether a room can be measured. -/
def measurableExpr : Expr :=
  .call "AND" [.binary .greater (cellExpr 'B' 2) (countExpr 0),
    .binary .greater (cellExpr 'B' 3) (countExpr 0), .binary .greater (cellExpr 'B' 4) (countExpr 0),
    .binary .greaterEqual (cellExpr 'B' 9) (countExpr 1)]

/-- The tree of the formula for the perimeter. -/
def perimeterExpr : Expr :=
  .call "IF" [cellExpr 'D' 1,
    .binary .multiply (countExpr 2) (.binary .add (cellExpr 'B' 2) (cellExpr 'B' 3)), .call "NA" []]

/-- The trees of the formulas that measure a room. -/
def measureExprs : List Expr :=
  let d := cellExpr 'D'
  let b := cellExpr 'B'
  let column (table : String) (key : Expr) : Expr :=
    .call "VLOOKUP" [key, .name table, countExpr 2, .literal (.boolean false)]
  let painted := Expr.binary .multiply (d 8) (b 9)
  [measurableExpr,
    perimeterExpr,
    .binary .multiply (d 2) (b 4),
    .binary .add (.binary .multiply (b 5) (.name "DOOR_AREA"))
      (.binary .multiply (b 6) (.name "WINDOW_AREA")),
    .call "MAX" [countExpr 0, .binary .subtract (d 3) (d 4)],
    .call "IF" [d 1, .call "IF" [b 10, .binary .multiply (b 2) (b 3), countExpr 0], .call "NA" []],
    .call "IF" [b 11, d 2, countExpr 0],
    .binary .add (d 5) (d 6),
    column "PAINT_TABLE" (b 8),
    .call "CEILING" [.binary .divide painted (d 9), countExpr 1],
    column "CONDITION_TABLE" (b 7),
    .call "ROUND" [.binary .multiply
      (.binary .add
        (.binary .add (.binary .divide painted (.name "PRODUCTIVITY"))
          (.binary .multiply (.binary .add (b 5) (b 6)) (.name "OPENING_HOURS")))
        (.binary .divide (d 7) (.name "TRIM_SPEED")))
      (d 11), countExpr 2]]

/-- The tree of the formula that prices a room in a tier, with the places of the tier among the prices of
labor and among the columns of the table of paints. -/
def tierExpr (labor paint : Nat) : Expr :=
  let d := cellExpr 'D'
  let product (x y : Expr) : Expr := .binary .multiply x y
  let sum (x y : Expr) : Expr := .binary .add x y
  let wage := product (product (d 8) (.call "INDEX" [.name "TIER_LABOR", countExpr labor])) (d 11)
  let price : Expr :=
    .call "VLOOKUP" [cellExpr 'B' 8, .name "PAINT_TABLE", countExpr paint, .literal (.boolean false)]
  let cost := sum (sum (sum (sum wage (product (d 10) price)) (product (d 8) (.name "MATERIAL_RATE")))
    (product (d 7) (.name "TRIM_RATE"))) (.name "PREP_FEE")
  .call "ROUND" [.call "MAX" [.name "MIN_CHARGE",
    product cost (sum (countExpr 1) (.name "MARKUP"))], countExpr 2]

/-- The trees of the formulas that price a room. -/
def tierExprs : List Expr := [tierExpr 1 3, tierExpr 2 4, tierExpr 3 5]

theorem toText_roomExprs : (measureExprs ++ tierExprs).map Expr.toText = roomFormulas := by decide +kernel

theorem isWellFormed_roomExprs : ∀ e ∈ measureExprs ++ tierExprs, e.isWellFormed = true := by decide

/-- The formulas that measure a room are read as their trees. -/
theorem ofText_measures : List.Forall₂ (fun t e => Expr.ofText t = .ok e) measures measureExprs := by
  have htexts := toText_roomExprs
  rw [List.map_append] at htexts
  rw [← (List.append_inj htexts rfl).1]
  refine List.forall₂_map_left_iff.2 (List.forall₂_same.2 fun e he => ?_)
  exact Expr.ofText_toText (isWellFormed_roomExprs e (List.mem_append_left _ he))

/-- The formulas that price a room are read as their trees. -/
theorem ofText_tierFormulas :
    List.Forall₂ (fun t e => Expr.ofText t = .ok e) priceFormulas.toList tierExprs := by
  have htexts := toText_roomExprs
  rw [List.map_append] at htexts
  rw [← (List.append_inj htexts rfl).2]
  refine List.forall₂_map_left_iff.2 (List.forall₂_same.2 fun e he => ?_)
  exact Expr.ofText_toText (isWellFormed_roomExprs e (List.mem_append_right _ he))

theorem isUniform_of_mem_roomFormulas {t : String} (ht : t ∈ roomFormulas) {e : Expr}
    (h : Expr.ofText t = .ok e) : e.isUniform = true := by
  have huniform : ∀ e ∈ measureExprs ++ tierExprs, e.isUniform = true := by decide
  rw [← toText_roomExprs] at ht
  obtain ⟨e', he', rfl⟩ := List.mem_map.1 ht
  rw [Expr.ofText_toText (isWellFormed_roomExprs e' he')] at h
  rw [← Except.ok.inj h]
  exact huniform e' he'

/-! ## Projects -/

/-- The cells of the rooms in a column, for a number of rooms. -/
def roomRange (rooms column : Nat) : Expr :=
  .range ⟨none, ⟨⟨1, column⟩, ⟨max rooms 1, column⟩, Nat.le_max_right _ _, Nat.le_refl _⟩,
    ⟨false, false⟩, ⟨false, false⟩⟩

/-- The tree of a formula that sums a column up. -/
def totalExpr (function : String) (rooms column : Nat) : Expr :=
  .call function [roomRange rooms column]

/-- The tree of the part of the prices that is to be paid. -/
def remainder : Expr :=
  .binary .subtract (.literal (.number 1)) (.cell ⟨none, place 'J' 6, ⟨false, false⟩⟩)

/-- The tree of the sum of the prices in a column, less the discount. -/
def reducedExpr (rooms column : Nat) : Expr :=
  .binary .multiply (totalExpr "SUM" rooms column) remainder

/-- The tree of the formula that prices a project, with the price before it is rounded. -/
def roundedExpr (price : Expr) : Expr :=
  .call "ROUND" [.call "MAX" [.name "PROJECT_MINIMUM", price], .literal (.number 2)]

/-- The tree of the formula that prices a project from the prices in a column. -/
def priceExpr (rooms column : Nat) : Expr := roundedExpr (reducedExpr rooms column)

/-- The tree of the formula that looks the discount up. -/
def discountExpr : Expr :=
  .call "VLOOKUP" [cellExpr 'J' 5, .name "DISCOUNTS", countExpr 2, .literal (.boolean true)]

/-- The trees of the formulas that sum a number of rooms up. -/
def totalExprs (rooms : Nat) : List Expr :=
  [totalExpr "SUM" rooms 1, totalExpr "SUM" rooms 2, totalExpr "SUM" rooms 3, totalExpr "COUNTA" rooms 0,
    discountExpr, priceExpr rooms 4, priceExpr rooms 5, priceExpr rooms 6]

theorem isWellFormed_discountExpr : discountExpr.isWellFormed = true := by decide

theorem isFunctionText_of_mem : ∀ function ∈ ["SUM", "COUNTA"], isFunctionText function = true := by decide

section

variable (rooms : Nat) {column : Nat} {letter : String}

/-! ### Their texts -/

theorem toList_roomCells (hletter : letter.toList = columnLetters column) :
    (roomCells rooms letter).toList = (roomRange rooms column).chars := by
  have hstop : (toString (max rooms 1 + 1)).toList = Nat.toDigits 10 (max rooms 1 + 1) :=
    String.toList_ofList
  simp only [roomCells, String.toList_append, hletter, hstop, roomRange, Expr.chars,
    RangeReference.chars, sheetMark, anchoredChars, dollar]
  simp [Nat.toDigits_of_lt_base]

theorem totalExpr_chars (function : String) (column : Nat) : (totalExpr function rooms column).chars =
    function.toList ++ '(' :: ((roomRange rooms column).chars ++ [')']) := by
  rw [totalExpr, Expr.chars, Expr.charsAll, Expr.charsAll, separated, List.intercalate_singleton]

theorem reducedExpr_chars (column : Nat) : (reducedExpr rooms column).chars =
    "SUM(".toList ++ ((roomRange rooms column).chars ++ ")*(1-J6)".toList) := by
  have hremainder : remainder.chars = "1-J6".toList := by decide +kernel
  rw [reducedExpr, Expr.chars, hremainder, totalExpr_chars]
  show "SUM".toList ++ '(' :: ((roomRange rooms column).chars ++ [')']) ++
    BinaryOperator.multiply.symbol.toList ++ "(1-J6)".toList = _
  simp only [List.append_assoc, List.cons_append]
  rfl

theorem roundedExpr_chars (price : Expr) : (roundedExpr price).chars =
    "ROUND(MAX(PROJECT_MINIMUM,".toList ++ (price.chars ++ "),2)".toList) := by
  have htwo : (Literal.number 2).chars = "2".toList := rfl
  simp only [roundedExpr, Expr.chars, Expr.charsAll, htwo, separated, List.intercalate_cons_cons,
    List.intercalate_singleton, List.append_assoc, List.cons_append]
  rfl

theorem totalExpr_toText (function : String) (hletter : letter.toList = columnLetters column) :
    (totalExpr function rooms column).toText =
      "=" ++ function ++ "(" ++ roomCells rooms letter ++ ")" := by
  rw [← String.toList_inj, Expr.toText, String.toList_ofList, totalExpr_chars]
  simp [toList_roomCells rooms hletter]

theorem priceExpr_toText (hletter : letter.toList = columnLetters column) :
    (priceExpr rooms column).toText = projectPrice rooms letter := by
  have hprice : (projectPrice rooms letter).toList = "=ROUND(MAX(PROJECT_MINIMUM,SUM(".toList ++
      (roomRange rooms column).chars ++ ")*(1-J6)),2)".toList := by
    rw [← toList_roomCells rooms hletter]
    exact String.toList_append.trans (congrArg (· ++ _) String.toList_append)
  rw [← String.toList_inj, hprice, Expr.toText, String.toList_ofList, priceExpr, roundedExpr_chars,
    reducedExpr_chars]
  simp only [List.append_assoc]
  rfl

theorem toText_totalExprs : (totalExprs rooms).map Expr.toText = totals rooms := by
  have hletter : ∀ column < 7, [columnLetter column] = columnLetters column := by decide +kernel
  have htotal : ∀ function letter column, letter.toList = columnLetters column →
      (totalExpr function rooms column).toText = "=" ++ function ++ "(" ++ roomCells rooms letter ++ ")" :=
    fun function _ _ h => totalExpr_toText rooms function h
  have hprice : ∀ letter column, letter.toList = columnLetters column →
      (priceExpr rooms column).toText = projectPrice rooms letter :=
    fun _ _ h => priceExpr_toText rooms h
  have hdiscount : discountExpr.toText = "=VLOOKUP(J5,DISCOUNTS,2,TRUE)" := by decide +kernel
  simp only [totalExprs, List.map_cons, List.map_nil, htotal _ "B" 1 (hletter 1 (by omega)),
    htotal _ "C" 2 (hletter 2 (by omega)), htotal _ "D" 3 (hletter 3 (by omega)),
    htotal _ "A" 0 (hletter 0 (by omega)), hprice "E" 4 (hletter 4 (by omega)),
    hprice "F" 5 (hletter 5 (by omega)), hprice "G" 6 (hletter 6 (by omega)), hdiscount]
  rfl

theorem mem_totalExprs {e : Expr} (he : e ∈ totalExprs rooms) :
    (∃ function ∈ ["SUM", "COUNTA"], ∃ column < 7, e = totalExpr function rooms column) ∨
      e = discountExpr ∨ ∃ column < 7, e = priceExpr rooms column := by
  simp only [totalExprs, List.mem_cons, List.not_mem_nil, or_false] at he
  rcases he with rfl | rfl | rfl | rfl | rfl | rfl | rfl | rfl
  · exact Or.inl ⟨"SUM", by simp, 1, by omega, rfl⟩
  · exact Or.inl ⟨"SUM", by simp, 2, by omega, rfl⟩
  · exact Or.inl ⟨"SUM", by simp, 3, by omega, rfl⟩
  · exact Or.inl ⟨"COUNTA", by simp, 0, by omega, rfl⟩
  · exact Or.inr (Or.inl rfl)
  · exact Or.inr (Or.inr ⟨4, by omega, rfl⟩)
  · exact Or.inr (Or.inr ⟨5, by omega, rfl⟩)
  · exact Or.inr (Or.inr ⟨6, by omega, rfl⟩)

/-! ### Their words -/

theorem cutInto_totalExpr {function : String} (hfunction : isFunctionText function = true)
    (column : Nat) : CutInto Delimited (totalExpr function rooms column).chars
      (totalExpr function rooms column).tokens := by
  refine Expr.cutInto_call hfunction ?_
  intro a ha
  rw [List.mem_singleton.1 ha]
  exact Expr.cutInto_range _

theorem cutInto_priceExpr (column : Nat) :
    CutInto Delimited (priceExpr rooms column).chars (priceExpr rooms column).tokens := by
  have hremainder : remainder.isWellFormed = true := by decide
  have hreduced : CutInto Delimited (reducedExpr rooms column).chars (reducedExpr rooms column).tokens :=
    Expr.cutInto_binary .multiply (cutInto_totalExpr rooms (by decide) column)
      (Expr.opens_chars _ hremainder) (Expr.cutInto_chars _ hremainder)
  refine Expr.cutInto_call (by decide) ?_
  simp only [List.forall_mem_cons]
  refine ⟨Expr.cutInto_call (by decide) ?_, cutInto_literal rfl, nofun⟩
  simp only [List.forall_mem_cons]
  exact ⟨cutInto_name (by decide), hreduced, nofun⟩

/-- A formula of a project has the tokens of its tree, also where it cannot be read. -/
theorem textTokens_of_mem_totalExprs {e : Expr} (he : e ∈ totalExprs rooms) :
    Expr.textTokens e.toText = e.tokens := by
  rcases mem_totalExprs rooms he with ⟨function, hfunction, column, -, rfl⟩ | rfl | ⟨column, -, rfl⟩
  · exact Expr.textTokens_toText (Expr.closes_call _ _)
      (cutInto_totalExpr rooms (isFunctionText_of_mem function hfunction) column)
  · exact Expr.textTokens_toText (Expr.closes_call _ _) (Expr.cutInto_chars _ isWellFormed_discountExpr)
  · exact Expr.textTokens_toText (Expr.closes_call _ _) (cutInto_priceExpr rooms column)

theorem word_mem_grouped {s : String} {needed : Bool} {tokens : List Token} :
    .word s ∈ grouped needed tokens ↔ .word s ∈ tokens := by
  cases needed <;> simp [grouped]

theorem eq_of_word_mem_totalExpr {function s : String}
    (h : .word s ∈ (totalExpr function rooms column).tokens) : s = function := by
  simpa [totalExpr, roomRange, Expr.tokens, Expr.tokensAll, sheetTokens, addressToken] using h

theorem word_mem_priceExpr {s : String} (h : .word s ∈ (priceExpr rooms column).tokens) :
    s ∈ ["ROUND", "MAX", "PROJECT_MINIMUM", "SUM"] := by
  simpa [priceExpr, roundedExpr, reducedExpr, totalExpr, remainder, roomRange, Expr.tokens,
    Expr.tokensAll, sheetTokens, addressToken, List.intercalate_cons_cons, word_mem_grouped] using h

theorem word_mem_discountExpr {s : String} (h : .word s ∈ discountExpr.tokens) :
    s ∈ ["VLOOKUP", "DISCOUNTS"] := by
  simpa [discountExpr, cellExpr, countExpr, Expr.tokens, Expr.tokensAll, sheetTokens, addressToken,
    List.intercalate_cons_cons] using h

theorem isUniform_of_mem_totals {t : String} (ht : t ∈ totals rooms) {e : Expr}
    (h : Expr.ofText t = .ok e) : e.isUniform = true := by
  rw [← toText_totalExprs, List.mem_map] at ht
  obtain ⟨e', he', rfl⟩ := ht
  refine Expr.isUniform_of_words h fun s hs => ?_
  rw [textTokens_of_mem_totalExprs rooms he'] at hs
  rcases mem_totalExprs rooms he' with ⟨function, hfunction, column, -, rfl⟩ | rfl | ⟨column, -, rfl⟩
  · have huniform : ∀ f ∈ ["SUM", "COUNTA"], Expr.isUniformFunction (upper f) = true := by decide
    rw [eq_of_word_mem_totalExpr rooms hs]
    exact huniform function hfunction
  · have huniform : ∀ s ∈ ["VLOOKUP", "DISCOUNTS"], Expr.isUniformFunction (upper s) = true := by decide
    exact huniform s (word_mem_discountExpr hs)
  · have huniform : ∀ s ∈ ["ROUND", "MAX", "PROJECT_MINIMUM", "SUM"],
        Expr.isUniformFunction (upper s) = true := by decide
    exact huniform s (word_mem_priceExpr rooms hs)

/-! ## Rooms and projects -/

/-- Every formula of a project has a word that no formula of a room has. -/
theorem exists_word_of_mem_totalExprs {e : Expr} (he : e ∈ totalExprs rooms) :
    ∃ s ∈ ["SUM", "COUNTA", "DISCOUNTS", "PROJECT_MINIMUM"], .word s ∈ e.tokens := by
  rcases mem_totalExprs rooms he with ⟨function, hfunction, column, -, rfl⟩ | rfl | ⟨column, -, rfl⟩
  · refine ⟨function, List.mem_append_left ["DISCOUNTS", "PROJECT_MINIMUM"] hfunction, ?_⟩
    simp [totalExpr, Expr.tokens]
  · refine ⟨"DISCOUNTS", by simp, ?_⟩
    simp [discountExpr, Expr.tokens, Expr.tokensAll, List.intercalate_cons_cons]
  · refine ⟨"PROJECT_MINIMUM", by simp, ?_⟩
    simp [priceExpr, roundedExpr, Expr.tokens, Expr.tokensAll, List.intercalate_cons_cons]

/-- No formula of a room is a formula of a project. -/
theorem not_mem_totals_of_mem_roomFormulas {t : String} (hroom : t ∈ roomFormulas) :
    t ∉ totals rooms := by
  have hwords : ∀ e ∈ measureExprs ++ tierExprs,
      ∀ s ∈ ["SUM", "COUNTA", "DISCOUNTS", "PROJECT_MINIMUM"], .word s ∉ e.tokens := by decide
  intro htotal
  rw [← toText_roomExprs, List.mem_map] at hroom
  rw [← toText_totalExprs, List.mem_map] at htotal
  obtain ⟨e, he, rfl⟩ := hroom
  obtain ⟨e', he', htext⟩ := htotal
  have hwellFormed := isWellFormed_roomExprs e he
  have htokens : e'.tokens = e.tokens := by
    rw [← textTokens_of_mem_totalExprs rooms he', htext,
      Expr.textTokens_toText (Expr.closes_chars e hwellFormed) (Expr.cutInto_chars e hwellFormed)]
  obtain ⟨s, hs, hword⟩ := exists_word_of_mem_totalExprs rooms he'
  rw [htokens] at hword
  exact hwords e he s hs hword

end

end PaintQuote.Estimate.Layout
