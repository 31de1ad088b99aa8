import PaintQuote.Proofs.Formula.Parse

/-!
# Printing and reading

The text of a well-formed tree is read back as the tree (`Expr.ofText_toText`): it is cut into the
tokens of the tree, and these are read as the tree.
-/

namespace PaintQuote.Formula

open Sheet Text

namespace Expr

/-- The tokens of a well-formed tree, with nothing after them, are read as the tree. -/
theorem ofTokens_eq {e : Expr} (h : e.isWellFormed = true) {tokens : Tokens} {position : Nat}
    (htokens : Leads e.tokens tokens (.stop position)) : ofTokens tokens = .ok e := by
  have hlength : tokens.length = e.tokens.length := htokens.length
  have hdepth : e.tokens.length < tokens.length + 1 := by omega
  have hread : Reader.expression (tokens.length + 1) tokens = .ok (e, .stop position) :=
    Reader.reads_expression (Reader.readBack e h) hdepth tokens _ htokens trivial
  obtain ⟨token, lead, hlead, -⟩ := Reader.first_token e
  rw [hlead] at htokens
  obtain ⟨position', rest, rfl, -⟩ := htokens
  rw [ofTokens, hread]
  rfl

/-- The body of a written formula is what is written for its tree. -/
theorem body_toText {e : Expr} (h : Closes e.chars) : body e.toText.toList = e.chars := by
  obtain ⟨d, hlast, hd⟩ := h.append ['=']
  have htrim : trim ('=' :: e.chars) = '=' :: e.chars := trim_eq_self (by decide) hlast hd
  rw [toText, String.toList_ofList, body, htrim]
  simp [afterLead?]

/-- A formula without an equals sign is its own body. -/
theorem body_eq_self {cs : List Char} (hopens : Opens cs) (hcloses : Closes cs) : body cs = cs := by
  obtain ⟨c, rest, rfl, hblank, hequals, -⟩ := hopens
  obtain ⟨d, hlast, hd⟩ := hcloses
  rw [body, trim_eq_self hblank hlast hd, afterLead?, if_neg hequals.symm]
  rfl

/-- A well-formed tree is read back from its text without the equals sign. -/
theorem ofText_chars {e : Expr} (h : e.isWellFormed = true) : ofText (String.ofList e.chars) = .ok e := by
  obtain ⟨position, hcut⟩ := cutInto_chars e h 0 [] .nil
  rw [List.append_nil, Tokens.scan] at hcut
  rw [ofText, String.toList_ofList, body_eq_self (opens_chars e h) (closes_chars e h)]
  exact ofTokens_eq h hcut

/-- A well-formed tree is read back from its text. -/
theorem ofText_toText {e : Expr} (h : e.isWellFormed = true) : ofText e.toText = .ok e := by
  obtain ⟨position, hcut⟩ := cutInto_chars e h 0 [] .nil
  rw [List.append_nil, Tokens.scan] at hcut
  rw [ofText, body_toText (closes_chars e h)]
  exact ofTokens_eq h hcut

/-- A formula with parts of every kind. -/
def assorted : Expr :=
  .call "IF"
    [.binary .greaterEqual
      (.range ⟨some ⟨"MY ROOM"⟩, .between ⟨0, 0⟩ ⟨1, 27⟩, ⟨true, true⟩, ⟨false, false⟩⟩)
      (.percent (.percent (.binary .subtract (.literal (.number (Decimal.scaled 1500 3)))
        (.binary .subtract (.name "rate") (.cell ⟨none, ⟨4, 2⟩, ⟨false, true⟩⟩))))),
    .binary .concatenate
      (.negate (.binary .power (.literal (.boolean true)) (.negate (.call "LOG10" []))))
      (.literal (.text "say \"hi\"")),
    .array [[.literal (.number 1), .negated 2], [.literal (.error .notAvailable), .literal (.text "")]]]

/-- A formula with parts of every kind is read back from its text. -/
theorem assorted_ofText_toText :
    assorted.isWellFormed = true ∧ ofText assorted.toText = .ok assorted := by
  have hwellFormed : assorted.isWellFormed = true := by decide +kernel
  exact ⟨hwellFormed, ofText_toText hwellFormed⟩

example : assorted.toText =
    "=IF('MY ROOM'!$A$1:AB2>=(1.500-(rate-C$5))%%,-(TRUE^-LOG10())" ++
      "&\"say \"\"hi\"\"\",\x7b1,-2;#N/A,\"\"\x7d)" := by
  decide +kernel

end Expr

end PaintQuote.Formula
