/-!
# Cutting text

Cutting a text at its first or last separator, taking a mark off one of its ends, and measuring it
in bytes.  A cut loses nothing but the separator (`eq_of_cutFirst?`, `eq_of_cutLast?`).  At a number of
bytes a text is cut exactly if one of its beginnings has this length (`splitAt?_eq_some_iff`).
-/

namespace PaintQuote.Text

/-! ## At a separator -/

/-- The parts before and after the first separator. -/
def cutFirst? (separator : Char) : List Char → Option (List Char × List Char)
  | [] => none
  | c :: rest =>
      if c = separator then some ([], rest)
      else (cutFirst? separator rest).map fun p => (c :: p.1, p.2)

/-- The parts before and after the last separator. -/
def cutLast? (separator : Char) : List Char → Option (List Char × List Char)
  | [] => none
  | c :: rest =>
      match cutLast? separator rest with
      | some p => some (c :: p.1, p.2)
      | none => if c = separator then some ([], rest) else none

theorem eq_of_cutFirst? {separator : Char} {cs before after : List Char}
    (h : cutFirst? separator cs = some (before, after)) :
    cs = before ++ separator :: after ∧ separator ∉ before := by
  induction cs generalizing before with
  | nil => simp [cutFirst?] at h
  | cons c rest ih =>
      rw [cutFirst?] at h
      split at h
      · next hc =>
          cases h
          simp [hc]
      · next hc =>
          obtain ⟨p, hp, hq⟩ := Option.map_eq_some_iff.1 h
          cases hq
          obtain ⟨h₁, h₂⟩ := ih hp
          exact ⟨by rw [h₁]; rfl, by simpa [h₂] using fun e => hc e.symm⟩

theorem eq_of_cutLast? {separator : Char} {cs before after : List Char}
    (h : cutLast? separator cs = some (before, after)) :
    cs = before ++ separator :: after := by
  induction cs generalizing before with
  | nil => simp [cutLast?] at h
  | cons c rest ih =>
      rw [cutLast?] at h
      split at h
      · next p hp =>
          cases h
          rw [ih hp]
          rfl
      · split at h
        · next hc =>
            cases h
            simp [hc]
        · cases h

/-! ## At the ends -/

/-- A text without the given text at its start, if it starts so. -/
def afterLead? : List Char → List Char → Option (List Char)
  | [], cs => some cs
  | _ :: _, [] => none
  | l :: lead, c :: rest => if l = c then afterLead? lead rest else none

/-- A text without the given character at its end, if it ends so. -/
def beforeEnd? (mark : Char) (cs : List Char) : Option (List Char) :=
  if cs.getLast? = some mark then some cs.dropLast else none

/-- The text between two marks of one kind, if it begins and ends with one. -/
def between? (mark : Char) (cs : List Char) : Option (List Char) :=
  (afterLead? [mark] cs).bind (beforeEnd? mark)

/-- A text without the marks of one kind at its ends. -/
def stripMarks (mark : Char) (cs : List Char) : List Char :=
  ((cs.dropWhile (· == mark)).reverse.dropWhile (· == mark)).reverse

theorem eq_of_afterLead? {lead cs rest : List Char} (h : afterLead? lead cs = some rest) :
    cs = lead ++ rest := by
  induction lead generalizing cs with
  | nil => simpa [afterLead?] using h
  | cons l lead ih =>
      cases cs with
      | nil => simp [afterLead?] at h
      | cons c cs =>
          rw [afterLead?] at h
          split at h
          · next hc => rw [ih h, hc]; rfl
          · cases h

/-! ## Doubled marks -/

/-- A text with every mark written twice. -/
def double (mark : Char) : List Char → List Char
  | [] => []
  | c :: rest => if c = mark then mark :: mark :: double mark rest else c :: double mark rest

/-- A text with every pair of marks written once; a mark that stands alone is kept. -/
def undouble (mark : Char) : List Char → List Char
  | [] => []
  | [c] => [c]
  | c :: d :: rest =>
      if c = mark ∧ d = mark then mark :: undouble mark rest else c :: undouble mark (d :: rest)

theorem undouble_double (mark : Char) (cs : List Char) : undouble mark (double mark cs) = cs := by
  induction cs with
  | nil => rfl
  | cons c rest ih =>
      rw [double]
      split
      · next hc => simp [undouble, ih, hc]
      · next hc =>
          cases hd : double mark rest with
          | nil => rw [hd] at ih; simp [undouble, ← ih]
          | cons d ds => rw [hd] at ih; simp [undouble, hc, ih]

/-! ## Lengths in bytes -/

/-- The number of bytes of a text in UTF-8. -/
def byteLength (cs : List Char) : Nat := cs.foldr (fun c n => c.utf8Size + n) 0

@[simp] theorem byteLength_nil : byteLength [] = 0 := rfl

@[simp] theorem byteLength_cons (c : Char) (cs : List Char) :
    byteLength (c :: cs) = c.utf8Size + byteLength cs := rfl

@[simp] theorem byteLength_append (cs ds : List Char) :
    byteLength (cs ++ ds) = byteLength cs + byteLength ds := by
  induction cs with
  | nil => simp
  | cons c cs ih => simp [ih, Nat.add_assoc]

theorem length_le_byteLength (cs : List Char) : cs.length ≤ byteLength cs := by
  induction cs with
  | nil => exact Nat.le_refl 0
  | cons c cs ih =>
      have hpos := c.utf8Size_pos
      rw [List.length_cons, byteLength_cons]
      omega

theorem byteLength_eq (cs : List Char) : byteLength cs = (String.ofList cs).utf8ByteSize := by
  induction cs with
  | nil => rfl
  | cons c cs ih =>
      rw [byteLength_cons, ih, ← List.singleton_append, String.ofList_append,
        String.utf8ByteSize_append, ← String.singleton_eq_ofList, String.utf8ByteSize_singleton]

/-! ## At a number of bytes

No part starts or stops past the end or inside a character. -/

/-- The parts of a text before and after a number of bytes. -/
def splitAt? : Nat → List Char → Option (List Char × List Char)
  | 0, cs => some ([], cs)
  | _ + 1, [] => none
  | n + 1, c :: cs =>
      if c.utf8Size ≤ n + 1 then (splitAt? (n + 1 - c.utf8Size) cs).map fun p => (c :: p.1, p.2)
      else none

/-- The part of a text after a number of bytes. -/
def sliceFrom? (start : Nat) (cs : List Char) : Option (List Char) :=
  (splitAt? start cs).map Prod.snd

/-- The part of a text between two numbers of bytes. -/
def slice? (start stop : Nat) (cs : List Char) : Option (List Char) :=
  if stop < start then none
  else (sliceFrom? start cs).bind fun rest => (splitAt? (stop - start) rest).map Prod.fst

theorem splitAt?_append (cs ds : List Char) : splitAt? (byteLength cs) (cs ++ ds) = some (cs, ds) := by
  induction cs with
  | nil => cases ds <;> rfl
  | cons c cs ih =>
      have hpos := c.utf8Size_pos
      obtain ⟨n, hn⟩ : ∃ n, byteLength (c :: cs) = n + 1 :=
        Nat.exists_eq_add_one.2 (Nat.add_pos_left hpos _)
      have hrest : n + 1 - c.utf8Size = byteLength cs := by
        rw [← hn, byteLength_cons, Nat.add_sub_cancel_left]
      rw [hn, List.cons_append, splitAt?, hrest, ih, if_pos]
      · rfl
      · rw [← hn]
        exact Nat.le_add_right _ _

theorem eq_of_splitAt? {n : Nat} {cs before after : List Char}
    (h : splitAt? n cs = some (before, after)) : cs = before ++ after ∧ byteLength before = n := by
  induction cs generalizing n before with
  | nil =>
      cases n with
      | zero =>
          cases h
          exact ⟨rfl, rfl⟩
      | succ n => cases h
  | cons c cs ih =>
      cases n with
      | zero =>
          cases h
          exact ⟨rfl, rfl⟩
      | succ n =>
          rw [splitAt?] at h
          split at h
          next hle =>
            obtain ⟨⟨front, rest⟩, hsplit, heq⟩ := Option.map_eq_some_iff.1 h
            cases heq
            obtain ⟨rfl, hlength⟩ := ih hsplit
            exact ⟨rfl, by rw [byteLength_cons, hlength, Nat.add_sub_cancel' hle]⟩
          next => cases h

/-- A text is cut where one of its beginnings ends. -/
theorem splitAt?_eq_some_iff {n : Nat} {cs before after : List Char} :
    splitAt? n cs = some (before, after) ↔ cs = before ++ after ∧ byteLength before = n := by
  refine ⟨eq_of_splitAt?, ?_⟩
  rintro ⟨rfl, rfl⟩
  exact splitAt?_append before after

theorem sliceFrom?_eq_some_iff {start : Nat} {cs rest : List Char} :
    sliceFrom? start cs = some rest ↔ ∃ before, cs = before ++ rest ∧ byteLength before = start := by
  simp only [sliceFrom?, Option.map_eq_some_iff, Prod.exists, exists_eq_right, splitAt?_eq_some_iff]

example : sliceFrom? 2 ['é', '+', '1'] = some ['+', '1'] ∧ sliceFrom? 1 ['é', '+', '1'] = none := by
  decide

end PaintQuote.Text
