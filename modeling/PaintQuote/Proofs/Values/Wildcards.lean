import Mathlib.Data.List.Forall2
import PaintQuote.Formula.Functions.Wildcard

/-!
# The language of a pattern

A text has a split along a pattern when every `?` takes one character of it, every `*` a run of
characters, and every other character itself (`Splits`).  The matcher prefers to take a character of
the pattern for itself, a star as well, so a star in front of a star of the text takes that star and
nothing else (`Takes`).

It keeps no more than the last star to which it can go back.  That is enough, because what fits after
the stretch up to the next star fits at the first place where the stretch does: an end of the text
that fits after a later place lies in the end after an earlier one (`fitsEnd_stretch`).

* `fits_language`: the matcher decides `Takes`.  This is `Splits` for all patterns exactly on the texts
  without a star, and for all texts exactly on the patterns without one.
-/

namespace PaintQuote.Formula.Wildcard

/-! ## Splits of a text -/

/-- A text can be split along a pattern. -/
inductive Splits : List Char → List Char → Prop where
  | nil : Splits [] []
  | one {pattern text : List Char} (c : Char) : Splits pattern text →
      Splits ('?' :: pattern) (c :: text)
  | run {pattern text : List Char} (taken : List Char) : Splits pattern text →
      Splits ('*' :: pattern) (taken ++ text)
  | self {c : Char} {pattern text : List Char} : c ≠ '?' → c ≠ '*' → Splits pattern text →
      Splits (c :: pattern) (c :: text)

/-- A text can be split along a pattern in such a way that a star in front of a star of the text takes
that star only. -/
inductive Takes : List Char → List Char → Prop where
  | nil : Takes [] []
  | one {pattern text : List Char} (c : Char) : Takes pattern text →
      Takes ('?' :: pattern) (c :: text)
  | run {pattern text : List Char} (taken : List Char) : (taken ++ text).head? ≠ some '*' →
      Takes pattern text → Takes ('*' :: pattern) (taken ++ text)
  | self {c : Char} {pattern text : List Char} : c ≠ '?' → Takes pattern text →
      Takes (c :: pattern) (c :: text)

variable {q c : Char} {pattern text : List Char}

theorem Takes.splits (h : Takes pattern text) : Splits pattern text := by
  induction h with
  | nil => exact .nil
  | one c _ ih => exact .one c ih
  | run taken _ _ ih => exact .run taken ih
  | @self c pattern text hc _ ih =>
      by_cases hstar : c = '*'
      · subst hstar
        exact .run ['*'] ih
      · exact .self hc hstar ih

/-- In a text without stars every split is one that the matcher considers. -/
theorem Splits.takes_of_text (h : Splits pattern text) (htext : '*' ∉ text) : Takes pattern text := by
  induction h with
  | nil => exact .nil
  | one c _ ih => exact .one c (ih (List.not_mem_of_not_mem_cons htext))
  | run taken _ ih =>
      refine .run taken (fun hhead => htext (List.mem_of_mem_head? hhead)) (ih fun hmem => ?_)
      exact htext (List.mem_append_right taken hmem)
  | self hc _ _ ih => exact .self hc (ih (List.not_mem_of_not_mem_cons htext))

theorem Splits.takes_of_pattern (h : Splits pattern text) (hpattern : '*' ∉ pattern) :
    Takes pattern text := by
  induction h with
  | nil => exact .nil
  | one c _ ih => exact .one c (ih (List.not_mem_of_not_mem_cons hpattern))
  | run => exact absurd List.mem_cons_self hpattern
  | self hc _ _ ih => exact .self hc (ih (List.not_mem_of_not_mem_cons hpattern))

/-- Without stars every character of the pattern takes one of the text. -/
theorem Takes.length_eq (h : Takes pattern text) (hpattern : '*' ∉ pattern) :
    pattern.length = text.length := by
  induction h with
  | nil => rfl
  | one _ _ ih => exact congrArg Nat.succ (ih (List.not_mem_of_not_mem_cons hpattern))
  | run => exact absurd List.mem_cons_self hpattern
  | self _ _ ih => exact congrArg Nat.succ (ih (List.not_mem_of_not_mem_cons hpattern))

/-! ## Characters side by side -/

/-- A character of a pattern takes the character beside it. -/
def Beside (q c : Char) : Prop := q = '?' ∨ q = c

/-- Some end of a text fits a pattern. -/
def FitsEnd (pattern text : List Char) : Prop := ∃ rest, rest <:+ text ∧ Takes pattern rest

/-- The first character of a pattern takes that of the text, or it is a star in front of no star and
leaves some end of the text. -/
theorem Takes.cons_cases (h : Takes (q :: pattern) text) :
    (∃ c rest, text = c :: rest ∧ Beside q c ∧ Takes pattern rest) ∨
      q = '*' ∧ text.head? ≠ some '*' ∧ FitsEnd pattern text := by
  cases h with
  | one c ht => exact Or.inl ⟨c, _, rfl, Or.inl rfl, ht⟩
  | run taken hhead ht => exact Or.inr ⟨rfl, hhead, _, List.suffix_append _ _, ht⟩
  | self _ ht => exact Or.inl ⟨_, _, rfl, Or.inr rfl, ht⟩

theorem takes_cons_iff (h : Beside q c) :
    Takes (q :: pattern) (c :: text) ↔ Takes pattern text := by
  constructor
  · intro ht
    rcases ht.cons_cases with ⟨_, _, ⟨⟩, _, ht⟩ | ⟨rfl, hhead, _⟩
    · exact ht
    · rcases h with h | rfl
      · cases h
      · exact absurd rfl hhead
  · intro ht
    by_cases hq : q = '?'
    · subst hq
      exact .one c ht
    · obtain rfl := h.resolve_left hq
      exact .self hq ht

theorem takes_append_iff {front taken : List Char} (h : List.Forall₂ Beside front taken) :
    Takes (front ++ pattern) (taken ++ text) ↔ Takes pattern text := by
  induction h with
  | nil => rfl
  | cons hbeside _ ih => exact (takes_cons_iff hbeside).trans ih

theorem splits_append {front taken : List Char} (h : List.Forall₂ Beside front taken)
    (hs : Splits pattern text) : Splits (front ++ pattern) (taken ++ text) := by
  induction h with
  | nil => exact hs
  | @cons q c front taken hbeside _ ih =>
      by_cases hq : q = '?'
      · subst hq
        exact .one c ih
      · obtain rfl := hbeside.resolve_left hq
        by_cases hstar : q = '*'
        · subst hstar
          exact .run ['*'] ih
        · exact .self hq hstar ih

/-- A star in front of another character takes any run. -/
theorem takes_star_iff (h : text.head? ≠ some '*') :
    Takes ('*' :: pattern) text ↔ FitsEnd pattern text := by
  constructor
  · intro ht
    rcases ht.cons_cases with ⟨c, rest, rfl, hbeside, _⟩ | ⟨_, _, hend⟩
    · exact absurd (congrArg some (hbeside.resolve_left (by decide)).symm) h
    · exact hend
  · rintro ⟨rest, ⟨taken, rfl⟩, ht⟩
    exact .run taken h ht

theorem takes_nil_iff : Takes pattern [] ↔ allStars pattern = true := by
  induction pattern with
  | nil => exact iff_of_true .nil rfl
  | cons q pattern ih =>
      rw [allStars, List.all_cons, Bool.and_eq_true, beq_iff_eq, ← allStars, ← ih]
      constructor
      · intro ht
        rcases ht.cons_cases with ⟨_, _, ⟨⟩, _⟩ | ⟨hq, _, rest, hrest, ht⟩
        exact ⟨hq, List.suffix_nil.1 hrest ▸ ht⟩
      · rintro ⟨rfl, ht⟩
        exact .run [] (by rintro ⟨⟩) ht

/-! ## Ends of a text -/

theorem FitsEnd.of_takes (h : Takes pattern text) : FitsEnd pattern text := ⟨text, List.suffix_rfl, h⟩

/-- An end that fits is the whole text or lies behind its first character. -/
theorem fitsEnd_cons_iff : FitsEnd pattern (c :: text) ↔
    Takes pattern (c :: text) ∨ FitsEnd pattern text := by
  constructor
  · rintro ⟨rest, hrest, ht⟩
    rcases List.suffix_cons_iff.1 hrest with rfl | hrest
    · exact Or.inl ht
    · exact Or.inr ⟨rest, hrest, ht⟩
  · rintro (ht | ⟨rest, hrest, ht⟩)
    · exact .of_takes ht
    · exact ⟨rest, hrest.trans (List.suffix_cons _ _), ht⟩

/-- Behind an end that fits a pattern lies one that fits the pattern without its first character. -/
theorem FitsEnd.drop_pattern (h : FitsEnd (q :: pattern) text) : FitsEnd pattern text := by
  obtain ⟨rest, hrest, ht⟩ := h
  rcases ht.cons_cases with ⟨c, rest', rfl, _, ht⟩ | ⟨_, _, rest', hrest', ht⟩
  · exact ⟨rest', (List.suffix_cons _ _).trans hrest, ht⟩
  · exact ⟨rest', hrest'.trans hrest, ht⟩

theorem FitsEnd.drop (h : FitsEnd (q :: pattern) (c :: text)) (hbeside : Beside q c) :
    FitsEnd pattern text := by
  rcases fitsEnd_cons_iff.1 h with ht | hend
  · exact .of_takes ((takes_cons_iff hbeside).1 ht)
  · exact hend.drop_pattern

/-! ## Stretches -/

/-- What is left to fit after a stretch fits. -/
def Stretch.Fits : Stretch → Prop
  | finished flag => flag = true
  | stuck => False
  | star pattern text => FitsEnd pattern text

theorem takes_stretch (pattern text : List Char) :
    Takes pattern text ↔ (stretch pattern text).Fits := by
  fun_induction stretch pattern text with
  | case1 pattern => exact takes_nil_iff
  | case2 c text => exact iff_of_false (by rintro ⟨⟩) id
  | case3 q pattern c text hbeside ih => exact (takes_cons_iff hbeside).trans ih
  | case4 pattern c text hbeside =>
      refine takes_star_iff ?_
      rintro ⟨⟩
      exact hbeside (Or.inr rfl)
  | case5 q pattern c text hbeside hstar =>
      refine iff_of_false ?_ id
      intro ht
      rcases ht.cons_cases with ⟨_, _, ⟨⟩, h, _⟩ | ⟨hq, _⟩
      · exact hbeside h
      · exact hstar hq

/-- Where a stretch does not get stuck, no later place has to be tried. -/
theorem fitsEnd_stretch (h : stretch pattern text ≠ .stuck) :
    FitsEnd pattern text ↔ (stretch pattern text).Fits := by
  refine ⟨?_, fun hfits => .of_takes ((takes_stretch _ _).2 hfits)⟩
  fun_induction stretch pattern text with
  | case1 pattern =>
      rintro ⟨rest, hrest, ht⟩
      exact takes_nil_iff.1 (List.suffix_nil.1 hrest ▸ ht)
  | case2 => exact absurd rfl h
  | case3 q pattern c text hbeside ih =>
      -- An end behind this character that fits the pattern has one behind it for the rest of the pattern.
      exact fun hend => ih h (hend.drop hbeside)
  | case4 => exact FitsEnd.drop_pattern
  | case5 => exact absurd rfl h

/-! ## The matcher -/

theorem fitsAfterStar_iff (pattern text : List Char) :
    fitsAfterStar pattern text = true ↔ FitsEnd pattern text := by
  fun_induction fitsAfterStar pattern text with
  | case1 pattern text flag hs =>
      rw [fitsEnd_stretch (by rw [hs]; rintro ⟨⟩), hs]
      rfl
  | case2 pattern text pattern' text' hs _ ih =>
      rw [fitsEnd_stretch (by rw [hs]; rintro ⟨⟩), hs, ih]
      rfl
  | case3 pattern hs => cases pattern <;> cases hs
  | case4 pattern c text hs ih =>
      have hnot : ¬ Takes pattern (c :: text) := by
        rw [takes_stretch, hs]
        exact id
      rw [ih, fitsEnd_cons_iff, or_iff_right hnot]

theorem beside_self (front : List Char) : List.Forall₂ Beside front front :=
  List.forall₂_same.2 fun _ _ => Or.inr rfl

theorem beside_marks (taken : List Char) :
    List.Forall₂ Beside (List.replicate taken.length '?') taken := by
  induction taken with
  | nil => exact .nil
  | cons c taken ih => exact .cons (Or.inl rfl) ih

/-- A pattern without wildcards takes itself and nothing else. -/
theorem takes_plain_iff (h : hasWildcard pattern = false) : Takes pattern text ↔ pattern = text := by
  constructor
  · intro ht
    induction ht with
    | nil => rfl
    | one => simp [hasWildcard] at h
    | run => simp [hasWildcard] at h
    | self _ _ ih =>
        simp only [hasWildcard, List.any_cons, Bool.or_eq_false_iff] at h
        rw [ih h.2]
  · rintro rfl
    simpa using (takes_append_iff (beside_self pattern)).2 Takes.nil

/-- The matcher finds out whether a text can be split so that a star in front of a star takes that star
only. -/
theorem fits_iff_takes (pattern text : List Char) : fits pattern text = true ↔ Takes pattern text := by
  unfold fits
  split
  next =>
    rw [takes_stretch]
    cases hs : stretch pattern text with
    | finished flag => rfl
    | stuck => exact iff_of_false Bool.false_ne_true id
    | star pattern' text' => exact fitsAfterStar_iff pattern' text'
  next hnone => rw [takes_plain_iff (Bool.eq_false_iff.2 hnone), beq_iff_eq]

/-! ## Where a star stands in front of a star -/

/-- On a text with a star some pattern leaves splits out: one in which a star would have to take
nothing in front of it. -/
theorem exists_pattern_of_star (h : '*' ∈ text) :
    ∃ pattern, Splits pattern text ∧ ¬ Takes pattern text := by
  obtain ⟨front, back, rfl⟩ := List.append_of_mem h
  have hmarks : Splits (List.replicate ('*' :: back).length '?') ('*' :: back) := by
    simpa using splits_append (beside_marks ('*' :: back)) Splits.nil
  -- The marks after the star of the pattern need all that is left, the star of the text as well.
  refine ⟨List.replicate front.length '?' ++ '*' :: List.replicate ('*' :: back).length '?',
    splits_append (beside_marks front) (.run [] hmarks), ?_⟩
  rw [takes_append_iff (beside_marks front), takes_cons_iff (Or.inr rfl)]
  intro ht
  have hlength := ht.length_eq (by simp)
  simp at hlength

/-- For a pattern with a star some text has a split that is left out: one in which the last star would
have to take more than the star in front of it. -/
theorem exists_text_of_star (h : '*' ∈ pattern) :
    ∃ text, Splits pattern text ∧ ¬ Takes pattern text := by
  obtain ⟨back, front, hpattern, hback⟩ := List.eq_append_cons_of_mem (List.mem_reverse.2 h)
  -- Behind the last star as many characters are needed as the pattern has there.
  obtain ⟨front, back, rfl, hback⟩ : ∃ front back, pattern = front ++ '*' :: back ∧ '*' ∉ back := by
    refine ⟨front.reverse, back.reverse, ?_, by simpa using hback⟩
    rw [← List.reverse_reverse pattern, hpattern]
    simp
  have hrest : Splits back back := by simpa using splits_append (beside_self back) Splits.nil
  refine ⟨front ++ '*' :: 'a' :: back, splits_append (beside_self front) (.run ['*', 'a'] hrest), ?_⟩
  rw [takes_append_iff (beside_self front), takes_cons_iff (Or.inr rfl)]
  intro ht
  have hlength := ht.length_eq hback
  simp at hlength

/-- The matcher finds out whether a text can be split along a pattern so that a star in front of a star
of the text takes that star only.  So it finds out whether the text can be split at all exactly if there
is such a split or none.  For all patterns this is so exactly if the text has no star, and for all texts
exactly if the pattern has none. -/
theorem fits_language (pattern text : List Char) :
    (fits pattern text = true ↔ Takes pattern text) ∧
      ((fits pattern text = true ↔ Splits pattern text) ↔ (Splits pattern text → Takes pattern text)) ∧
      ((∀ other, fits other text = true ↔ Splits other text) ↔ '*' ∉ text) ∧
      ((∀ other, fits pattern other = true ↔ Splits pattern other) ↔ '*' ∉ pattern) := by
  simp only [fits_iff_takes, true_and]
  refine ⟨⟨fun h => h.2, fun h => ⟨Takes.splits, h⟩⟩, ?_, ?_⟩
  · constructor
    · intro hall hstar
      obtain ⟨other, hs, hnot⟩ := exists_pattern_of_star hstar
      exact hnot ((hall other).2 hs)
    · intro hstar other
      exact ⟨Takes.splits, fun hs => hs.takes_of_text hstar⟩
  · constructor
    · intro hall hstar
      obtain ⟨other, hs, hnot⟩ := exists_text_of_star hstar
      exact hnot ((hall other).2 hs)
    · intro hstar other
      exact ⟨Takes.splits, fun hs => hs.takes_of_pattern hstar⟩

/-- A star of a pattern may take a star and more, but the matcher lets it take the star in front of it
only. -/
theorem fits_star_before_star :
    ¬ (fits "*".toList "*a".toList = true ↔ Splits "*".toList "*a".toList) := by
  intro h
  have hsplits : Splits "*".toList "*a".toList := .run ['*', 'a'] .nil
  have hnot : fits "*".toList "*a".toList = false := by decide +kernel
  rw [h.2 hsplits] at hnot
  cases hnot

end PaintQuote.Formula.Wildcard
