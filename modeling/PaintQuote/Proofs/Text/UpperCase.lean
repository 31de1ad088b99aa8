import PaintQuote.Proofs.Formula.Characters

/-!
# Upper case

A text in upper case is its own upper case (`upperChars_upperChars`).  The tables of letters are walked
for this: no letter to which a run or an expansion leads has an upper case of its own.  Such a letter is
no ASCII character but a capital, so that a text in upper case has the marks and digits of the text, and
no others (`mem_upperChars_iff`).
-/

namespace PaintQuote.Text

open Formula

/-! ## ASCII -/

theorem toUpper_of_ge {c : Char} (h : 128 ≤ c.toNat) : c.toUpper = c := by
  have hrange : ¬ ('a'.val ≤ c.val ∧ c.val ≤ 'z'.val) := by
    simp [UInt32.le_iff_toNat_le]
    intro h'
    omega
  exact dif_neg hrange

/-- The upper case of an ASCII character is an ASCII character and its own upper case. -/
theorem toUpper_of_lt {c : Char} (h : c.toNat < 128) :
    c.toUpper.toNat < 128 ∧ c.toUpper.toUpper = c.toUpper := by
  have hall : ∀ n : Fin 128, (Char.ofNat n.val).toUpper.toNat < 128 ∧
      (Char.ofNat n.val).toUpper.toUpper = (Char.ofNat n.val).toUpper := by
    decide
  have hc := hall ⟨c.toNat, h⟩
  rw [Char.ofNat_toNat] at hc
  exact hc

theorem toUpper_toUpper (c : Char) : c.toUpper.toUpper = c.toUpper := by
  by_cases h : c.toNat < 128
  · exact (toUpper_of_lt h).2
  · have hsame := toUpper_of_ge (Nat.le_of_not_lt h)
    rw [hsame, hsame]

theorem upperChar_toUpper (c : Char) : upperChar c.toUpper = upperChar c := by
  by_cases h : c.toNat < 128
  · obtain ⟨hupper, hsame⟩ := toUpper_of_lt h
    rw [upperChar_of_lt hupper, upperChar_of_lt h, hsame]
  · rw [toUpper_of_ge (Nat.le_of_not_lt h)]

theorem upper_asciiUpper (s : String) : upper (asciiUpper s) = upper s := by
  rw [upper, upper, asciiUpper, String.toList_ofList, upperChars, upperChars, List.flatMap_map]
  simp only [upperChar_toUpper]

theorem asciiUpper_asciiUpper (s : String) : asciiUpper (asciiUpper s) = asciiUpper s := by
  rw [asciiUpper, asciiUpper, String.toList_ofList, List.map_map]
  refine congrArg String.ofList (List.map_congr_left ?_)
  intro c _
  exact toUpper_toUpper c

/-- The upper case of an ASCII letter has one byte, as the letter has. -/
theorem utf8Size_toUpper (c : Char) : c.toUpper.utf8Size = c.utf8Size := by
  unfold Char.toUpper
  split
  next hlower =>
    have hlow : c.utf8Size = 1 := Char.utf8Size_eq_one_iff.2 (UInt32.le_trans hlower.2 (by decide))
    rw [hlow]
    apply Char.utf8Size_eq_one_iff.2
    obtain ⟨hfirst, hlast⟩ := hlower
    rw [UInt32.le_iff_toNat_le] at *
    simp at *
    omega
  next => rfl

theorem byteLength_map_toUpper (cs : List Char) :
    byteLength (cs.map Char.toUpper) = byteLength cs := by
  induction cs with
  | nil => rfl
  | cons c cs ih => rw [List.map_cons, byteLength_cons, byteLength_cons, ih, utf8Size_toUpper]

/-- A text has as many bytes in upper case. -/
theorem utf8ByteSize_asciiUpper (s : String) : (asciiUpper s).utf8ByteSize = s.utf8ByteSize := by
  rw [asciiUpper, ← byteLength_eq, byteLength_map_toUpper, byteLength_eq, String.ofList_toList]

/-- Only letters have another upper case, which is a letter. -/
theorem toUpper_eq_or (c : Char) :
    c.toUpper = c ∨ c.isAlpha = true ∧ c.toUpper.isAlpha = true := by
  by_cases h : c.toNat < 128
  · have hall : ∀ n : Fin 128, (Char.ofNat n.val).toUpper = Char.ofNat n.val ∨
        (Char.ofNat n.val).isAlpha = true ∧ (Char.ofNat n.val).toUpper.isAlpha = true := by
      decide
    have hc := hall ⟨c.toNat, h⟩
    rwa [Char.ofNat_toNat] at hc
  · exact Or.inl (toUpper_of_ge (Nat.le_of_not_lt h))

/-! ## The tables -/

/-- The code points of a run. -/
def CaseRun.points (r : CaseRun) : List Nat :=
  (List.range' r.first (r.last + 1 - r.first)).filter r.contains

/-- The code point to which a run leads. -/
def CaseRun.image (r : CaseRun) (n : Nat) : Nat := (n + r.shift).toNat

/-- Whether code points between two bounds are characters without another upper case, and capitals if
they are ASCII.  Most runs are told by the bounds alone. -/
def areCapitals (low high : Nat) (points : List Nat) : Bool :=
  (Nat.blt high 0xD800 || Nat.blt 0xDFFF low && Nat.blt high 0x110000)
    && (Nat.blt 127 low || Nat.blt 64 low && Nat.blt high 91)
    && (upperRuns.toList.all fun r =>
      Nat.blt high r.first || Nat.blt r.last low || points.all fun n => !r.contains n)
    && upperExpansions.toList.all fun e =>
      Nat.blt high e.1 || Nat.blt e.1 low || points.all fun n => !n == e.1

theorem runs_capital : upperRuns.toList.all (fun r =>
    areCapitals (r.image r.first) (r.image r.last) (r.points.map r.image)) = true := by
  decide +kernel

theorem expansions_capital :
    upperExpansions.toList.all (fun e => e.2.all fun n => areCapitals n n [n]) = true := by
  decide +kernel

theorem CaseRun.bounds {r : CaseRun} {n : Nat} (h : r.contains n = true) :
    r.first ≤ n ∧ n ≤ r.last := by
  simp only [contains, Bool.and_eq_true, decide_eq_true_eq] at h
  exact h.1

theorem CaseRun.mem_points {r : CaseRun} {n : Nat} (h : r.contains n = true) : n ∈ r.points := by
  obtain ⟨hfirst, hlast⟩ := bounds h
  exact List.mem_filter.2 ⟨List.mem_range'_1.2 (by omega), h⟩

/-! ## Capitals -/

/-- A character is its own upper case, and a letter if it is ASCII. -/
def IsCapital (c : Char) : Prop := upperChar c = [c] ∧ (c.toNat < 128 → c.isAlpha = true)

instance (c : Char) : Decidable (IsCapital c) := inferInstanceAs (Decidable (_ ∧ _))

theorem upperChar_eq_self {c : Char} (h : 128 ≤ c.toNat)
    (hexpansions : ∀ e ∈ upperExpansions.toList, c.toNat ≠ e.1)
    (hruns : ∀ r ∈ upperRuns.toList, r.contains c.toNat = false) : upperChar c = [c] := by
  have hexpansion : upperExpansions.find? (·.1 == c.toNat) = none := by
    rw [← Array.find?_toList, List.find?_eq_none]
    exact fun e he heq => hexpansions e he (beq_iff_eq.1 heq).symm
  have hrun : upperRuns.find? (·.contains c.toNat) = none := by
    rw [← Array.find?_toList, List.find?_eq_none]
    exact fun r hr => Bool.eq_false_iff.1 (hruns r hr)
  rw [upperChar, if_neg (Nat.not_lt.2 h), hexpansion, applyRuns, hrun]

theorem isCapital_of_areCapitals {low high n : Nat} {points : List Nat}
    (h : areCapitals low high points = true) (hn : n ∈ points) (hlow : low ≤ n) (hhigh : n ≤ high) :
    IsCapital (Char.ofNat n) := by
  simp only [areCapitals, Bool.and_eq_true, Bool.or_eq_true, Nat.blt_eq, List.all_eq_true] at h
  obtain ⟨⟨⟨hvalid, hascii⟩, hruns⟩, hexpansions⟩ := h
  have hcode : (Char.ofNat n).toNat = n := by
    have hn : n.isValidChar := by
      rcases hvalid with hvalid | hvalid
      · exact Or.inl (by omega)
      · exact Or.inr (by omega)
    rw [Char.ofNat, dif_pos hn]
    rfl
  by_cases hlt : n < 128
  · have hall : ∀ n, n ≤ 90 → 65 ≤ n → IsCapital (Char.ofNat n) := by decide
    exact hall n (by omega) (by omega)
  · refine ⟨upperChar_eq_self (by omega) ?_ ?_, fun hascii => absurd (hcode ▸ hascii) hlt⟩
    · intro e he heq
      rw [hcode] at heq
      rcases hexpansions e he with (hbound | hbound) | hnone
      · omega
      · omega
      · simpa [heq] using hnone n hn
    · intro r hr
      rw [hcode]
      rcases hruns r hr with (hbound | hbound) | hnone
      · exact Bool.eq_false_iff.2 fun hin => by have := CaseRun.bounds hin; omega
      · exact Bool.eq_false_iff.2 fun hin => by have := CaseRun.bounds hin; omega
      · simpa using hnone n hn

/-- Every character of the upper case of a character is this character, with no other upper case, or a
capital. -/
theorem mem_upperChar {c d : Char} (h : d ∈ upperChar c) :
    (d = c ∧ upperChar c = [c]) ∨ IsCapital d := by
  by_cases hlt : c.toNat < 128
  · rw [upperChar_of_lt hlt] at h ⊢
    obtain rfl := List.mem_singleton.1 h
    rcases toUpper_eq_or c with hself | ⟨-, halpha⟩
    · exact Or.inl ⟨hself, congrArg (fun d => [d]) hself⟩
    · exact Or.inr ⟨by rw [upperChar_toUpper, upperChar_of_lt hlt], fun _ => halpha⟩
  · rw [upperChar, if_neg hlt] at h ⊢
    cases hexpansion : upperExpansions.find? (·.1 == c.toNat) with
    | some e =>
        rw [hexpansion] at h
        obtain ⟨n, hn, rfl⟩ := List.mem_map.1 h
        have hall := List.all_eq_true.1 expansions_capital e
          (Array.mem_toList_iff.2 (Array.mem_of_find?_eq_some hexpansion))
        exact Or.inr (isCapital_of_areCapitals (List.all_eq_true.1 hall n hn)
          (List.mem_singleton.2 rfl) (Nat.le_refl _) (Nat.le_refl _))
    | none =>
        rw [hexpansion, applyRuns] at h
        cases hrun : upperRuns.find? (·.contains c.toNat) with
        | none =>
            rw [hrun] at h
            exact Or.inl ⟨List.mem_singleton.1 h, by simp only [applyRuns, hrun]⟩
        | some r =>
            rw [hrun] at h
            obtain rfl := List.mem_singleton.1 h
            have hin := Array.find?_some hrun
            have hall := List.all_eq_true.1 runs_capital r
              (Array.mem_toList_iff.2 (Array.mem_of_find?_eq_some hrun))
            obtain ⟨hfirst, hlast⟩ := CaseRun.bounds hin
            refine Or.inr (isCapital_of_areCapitals hall
              (List.mem_map_of_mem (CaseRun.mem_points hin)) ?_ ?_)
            · exact Int.toNat_le_toNat (by omega)
            · exact Int.toNat_le_toNat (by omega)

theorem upperChar_ne_nil (c : Char) : upperChar c ≠ [] := by
  have hall : upperExpansions.toList.all (fun e => !e.2.isEmpty) = true := by decide +kernel
  rw [upperChar]
  split
  next => exact List.cons_ne_nil _ _
  next =>
    split
    next e he =>
      have hne := List.all_eq_true.1 hall e (Array.mem_toList_iff.2 (Array.mem_of_find?_eq_some he))
      simpa using hne
    next => exact List.cons_ne_nil _ _

/-! ## Texts -/

section

variable {c : Char} {cs : List Char}

/-- A text of characters without another upper case is its own upper case. -/
theorem upperChars_eq_self (h : ∀ c ∈ cs, upperChar c = [c]) : upperChars cs = cs := by
  induction cs with
  | nil => rfl
  | cons c cs ih =>
      obtain ⟨hc, hcs⟩ := List.forall_mem_cons.1 h
      rw [upperChars, List.flatMap_cons, hc, ← upperChars, ih hcs]
      rfl

/-- No character of a text in upper case has another upper case. -/
theorem upperChar_of_mem_upperChars (h : c ∈ upperChars cs) : upperChar c = [c] := by
  obtain ⟨d, -, hc⟩ := List.mem_flatMap.1 h
  rcases mem_upperChar hc with ⟨rfl, hself⟩ | ⟨hself, -⟩
  · exact hself
  · exact hself

/-- A text in upper case is its own upper case. -/
theorem upperChars_upperChars (cs : List Char) : upperChars (upperChars cs) = upperChars cs :=
  upperChars_eq_self fun _ => upperChar_of_mem_upperChars

/-- A text in upper case has the ASCII characters of the text other than letters, and no others. -/
theorem mem_upperChars_iff (hascii : c.toNat < 128) (hletter : c.isAlpha = false) :
    c ∈ upperChars cs ↔ c ∈ cs := by
  constructor
  · intro hc
    obtain ⟨d, hd, hc⟩ := List.mem_flatMap.1 hc
    rcases mem_upperChar hc with ⟨rfl, -⟩ | ⟨-, halpha⟩
    · exact hd
    · rw [halpha hascii] at hletter
      cases hletter
  · intro hc
    refine List.mem_flatMap.2 ⟨c, hc, ?_⟩
    rw [upperChar_of_lt hascii]
    rcases toUpper_eq_or c with hself | ⟨halpha, -⟩
    · rw [hself]
      exact List.mem_singleton.2 rfl
    · rw [halpha] at hletter
      cases hletter

/-- A text in upper case begins with a mark only if the text does. -/
theorem head?_of_upperChars (hascii : c.toNat < 128) (hletter : c.isAlpha = false)
    (h : (upperChars cs).head? = some c) : cs.head? = some c := by
  cases cs with
  | nil => cases h
  | cons d cs =>
      obtain ⟨e, es, hes⟩ := List.exists_cons_of_ne_nil (upperChar_ne_nil d)
      rw [upperChars, List.flatMap_cons, hes] at h
      have hmem : c ∈ upperChars [d] := by
        rw [upperChars, List.flatMap_singleton, hes]
        exact List.mem_of_mem_head? h
      rw [mem_upperChars_iff hascii hletter, List.mem_singleton] at hmem
      rw [hmem]
      rfl

/-- A text in upper case ends with a mark only if the text does. -/
theorem getLast?_of_upperChars (hascii : c.toNat < 128) (hletter : c.isAlpha = false)
    (h : (upperChars cs).getLast? = some c) : cs.getLast? = some c := by
  rcases List.eq_nil_or_concat cs with rfl | ⟨front, d, rfl⟩
  · cases h
  · obtain ⟨es, e, hes⟩ := (List.eq_nil_or_concat (upperChar d)).resolve_left (upperChar_ne_nil d)
    rw [List.concat_eq_append] at hes h ⊢
    rw [upperChars, List.flatMap_append, List.flatMap_singleton, hes, ← List.append_assoc,
      List.getLast?_concat] at h
    cases h
    have hmem : c ∈ upperChars [d] := by
      rw [upperChars, List.flatMap_singleton, hes]
      exact List.mem_append_right _ (List.mem_singleton.2 rfl)
    rw [mem_upperChars_iff hascii hletter, List.mem_singleton] at hmem
    rw [List.getLast?_concat, hmem]

end

end PaintQuote.Text
