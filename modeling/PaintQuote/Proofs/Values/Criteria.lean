import PaintQuote.Proofs.Values.Gives

/-!
# Opposite criteria

The criteria that ask for `x` and for anything but `x` are opposite conditions, whatever the text `x`
is.  The texts `=x` and `<>x` have the same rest after their relation, so they come to conditions of one
kind: two comparisons with one number, two conditions on one pattern, or, where nothing is left of `x`,
the conditions to be nothing and to be something (`related_opposite`).  Every cell of an array is
therefore counted by exactly one of them.

* `criteria_partition`: a value meets one of the two conditions and not the other, and their counts over
  an array add up to the number of its cells.
-/

namespace PaintQuote.Text

theorem lowerChar_ne_nil (c : Char) : lowerChar c ≠ [] := by
  unfold lowerChar
  split
  next => exact List.cons_ne_nil _ _
  next =>
    split
    next => exact List.cons_ne_nil _ _
    next => exact List.cons_ne_nil _ _

/-- Lower case leaves something of every character, of a sigma too. -/
theorem lowerChars_eq_nil_iff {cs : List Char} : lowerChars cs = [] ↔ cs = [] := by
  constructor
  · intro h
    cases cs with
    | nil => rfl
    | cons c rest =>
        obtain ⟨hhere, -⟩ := List.append_eq_nil_iff.1 h
        split at hhere
        next =>
          split at hhere
          next => cases hhere
          next => cases hhere
        next => exact absurd hhere (lowerChar_ne_nil c)
  · rintro rfl
    rfl

theorem trimEnd_cons {c : Char} (hc : isBlank c = false) (cs : List Char) :
    trimEnd (c :: cs) = c :: trimEnd cs := by
  have hmark : [c].dropWhile isBlank = [c] := List.dropWhile_cons_of_neg (Bool.eq_false_iff.1 hc)
  rw [trimEnd, trimEnd, List.reverse_cons, List.dropWhile_append, hmark]
  split
  next hempty =>
    rw [List.isEmpty_iff.1 hempty]
    rfl
  next => rw [List.reverse_append, List.reverse_singleton, List.singleton_append]

/-- In a text that starts with no blank only the end is trimmed. -/
theorem trim_cons {c : Char} (hc : isBlank c = false) (cs : List Char) :
    trim (c :: cs) = c :: trimEnd cs := by
  rw [trim, trimStart, List.dropWhile_cons_of_neg (Bool.eq_false_iff.1 hc), trimEnd_cons hc]

end PaintQuote.Text

namespace PaintQuote.Formula

open Sheet Text

namespace Criterion

/-! ## Conditions with a relation -/

/-- The condition for a relation and the text after it. -/
def related (relation : BinaryOperator) (rest : List Char) : Criterion :=
  match Decimal.readNumeric? rest with
  | some n => .comparison relation n
  | none => ofPattern (some relation) rest

theorem ofText_equal (x : String) : ofText ("=" ++ x) = related .equal (trim (trimEnd x.toList)) := by
  have hbody : trim ("=" ++ x).toList = '=' :: trimEnd x.toList := by
    rw [String.toList_append]
    exact trim_cons (by decide) _
  unfold ofText related
  simp only [hbody, List.isEmpty_cons, Bool.false_eq_true, if_false, leadingRelation]
  cases Decimal.readNumeric? (trim (trimEnd x.toList)) <;> rfl

theorem ofText_notEqual (x : String) :
    ofText ("<>" ++ x) = related .notEqual (trim (trimEnd x.toList)) := by
  have hbody : trim ("<>" ++ x).toList = '<' :: '>' :: trimEnd x.toList := by
    rw [String.toList_append]
    exact (trim_cons (by decide) _).trans (congrArg _ (trimEnd_cons (by decide) _))
  unfold ofText related
  simp only [hbody, List.isEmpty_cons, Bool.false_eq_true, if_false, leadingRelation]
  cases Decimal.readNumeric? (trim (trimEnd x.toList)) <;> rfl

/-! ## Opposites -/

/-- What is no number differs from every number. -/
theorem comparison_opposite (n : Decimal) (v : Value) :
    (comparison .notEqual n).accepts v = !(comparison .equal n).accepts v := by
  rcases v with (_ | _ | _ | _ | _) | _ <;> rfl

theorem text_opposite (pattern : List Char) (v : Value) :
    (text pattern false).accepts v = !(text pattern true).accepts v := by
  show (fitsPattern pattern v == false) = !(fitsPattern pattern v == true)
  cases fitsPattern pattern v <;> rfl

/-- The empty pattern fits what is nothing: an empty text or no value. -/
theorem blank_eq_text (v : Value) : blank.accepts v = (text [] true).accepts v := by
  rcases v with (_ | _ | s | _ | _) | _
  case scalar.text s =>
    show s.isEmpty = (Wildcard.fits [] (lowerChars s.toList) == true)
    rw [beq_true, Bool.eq_iff_iff, String.isEmpty_iff]
    show _ ↔ ([] == lowerChars s.toList) = true
    rw [beq_iff_eq, @eq_comm _ [], lowerChars_eq_nil_iff, String.toList_eq_nil_iff]
  all_goals rfl

theorem related_opposite (rest : List Char) (v : Value) :
    (related .notEqual rest).accepts v = !(related .equal rest).accepts v := by
  unfold related
  split
  next n _ => exact comparison_opposite n v
  next =>
    cases rest with
    | nil => exact (text_opposite [] v).trans (congrArg _ (blank_eq_text v).symm)
    | cons c rest => exact text_opposite _ v

theorem accepts_opposite (x : String) (v : Value) :
    (ofText ("<>" ++ x)).accepts v = !(ofText ("=" ++ x)).accepts v := by
  rw [ofText_equal, ofText_notEqual, related_opposite]

end Criterion

/-! ## Counts -/

namespace Functions

/-- Each cell of an array is counted by one of two opposite criteria. -/
theorem countIf_opposite (rows : List (List CellValue)) (x : String) :
    ∃ m n, countIf (.array rows) (.text ("=" ++ x)) = .ok (countValue m) ∧
      countIf (.array rows) (.text ("<>" ++ x)) = .ok (countValue n) ∧ m + n = rows.flatten.length := by
  refine ⟨_, _, rfl, rfl, ?_⟩
  show (rows.flatten.filter fun v => (Criterion.ofText ("=" ++ x)).accepts (.scalar v)).length +
    (rows.flatten.filter fun v => (Criterion.ofText ("<>" ++ x)).accepts (.scalar v)).length = _
  have htotal := List.length_eq_countP_add_countP
    (fun v : CellValue => (Criterion.ofText ("=" ++ x)).accepts (.scalar v)) (l := rows.flatten)
  simp only [Criterion.accepts_opposite, ← List.countP_eq_length_filter]
  simpa using htotal.symm

theorem add_countValue {m n : Nat} (h : m + n < Decimal.coefficientLimit) :
    BinaryOperator.add.apply (countValue m) (countValue n) = .ok (countValue (m + n)) := by
  show numberOr ((Decimal.ofNat m).add? (.ofNat n)) = _
  rw [Decimal.add?_ofNat h]
  rfl

end Functions

namespace Expr

/-- The formula that counts the cells of a range by a text and a relation in front of it. -/
def counting (relation : String) (range x : Expr) : Expr :=
  .call "COUNTIF" [range, .binary .concatenate (.literal (.text relation)) x]

theorem gives_counting {c : Context} {relation x : String} {range text : Expr} {v : Value} {n : Nat}
    (hrange : Gives c range v) (htext : Gives c text (.text x))
    (hcount : Functions.countIf v (.text (relation ++ x)) = .ok (countValue n)) :
    Gives c (counting relation range text) (countValue n) := by
  have hcriterion : Gives c (.binary .concatenate (.literal (.text relation)) text)
      (.text (relation ++ x)) := Gives.binary (Gives.literal _) htext rfl
  exact Gives.call rfl rfl rfl (.cons hrange (.cons hcriterion .nil)) (congrArg settled hcount)

end Expr

/-- Whatever the text `x` is, a value meets the criterion `<>x` if and only if it does not meet `=x`.  So
the counts of the cells of an array that meet the one and the other add up to the number of the cells,
and a formula that adds them gives this number, as long as it has a decimal. -/
theorem criteria_partition (x : String) :
    (∀ v, (Criterion.ofValue (.text ("<>" ++ x))).accepts v =
      !(Criterion.ofValue (.text ("=" ++ x))).accepts v) ∧
    ∀ (c : Context) (range text : Expr) (rows : List (List CellValue)), range.Gives c (.array rows) →
      text.Gives c (.text x) → ∃ m n, (Expr.counting "=" range text).Gives c (countValue m) ∧
        (Expr.counting "<>" range text).Gives c (countValue n) ∧ m + n = rows.flatten.length ∧
        (rows.flatten.length < Decimal.coefficientLimit →
          (Expr.binary .add (.counting "=" range text) (.counting "<>" range text)).Gives c
            (countValue rows.flatten.length)) := by
  refine ⟨Criterion.accepts_opposite x, fun c range text rows hrange htext => ?_⟩
  obtain ⟨m, n, hm, hn, htotal⟩ := Functions.countIf_opposite rows x
  have hequal := Expr.gives_counting hrange htext hm
  have hother := Expr.gives_counting hrange htext hn
  refine ⟨m, n, hequal, hother, htotal, fun hlimit => ?_⟩
  rw [← htotal] at hlimit ⊢
  exact .binary hequal hother (congrArg settled (Functions.add_countValue hlimit))

/-- A text in another case, an empty text, an error and a number are counted once each by `= flat ` and
`<> flat `. -/
theorem criteria_partition_flat :
    (Expr.binary .add
      (.counting "=" (.array [[.literal (.text "FLAT"), .literal (.text "")],
        [.literal (.error .value), .negated 1]]) (.literal (.text " flat ")))
      (.counting "<>" (.array [[.literal (.text "FLAT"), .literal (.text "")],
        [.literal (.error .value), .negated 1]]) (.literal (.text " flat ")))).Gives .bare (.number 4) := by
  obtain ⟨-, -, -, -, -, hsum⟩ := (criteria_partition " flat ").2 .bare
    (.array [[.literal (.text "FLAT"), .literal (.text "")], [.literal (.error .value), .negated 1]])
    (.literal (.text " flat ")) _ (.pure _) (.literal _)
  exact hsum (by decide)

end PaintQuote.Formula
