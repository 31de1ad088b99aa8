import PaintQuote.Proofs.Values.Lookup
import PaintQuote.Proofs.Values.Order

/-!
# Positions among keys

Halving finds where a test turns, if there is one place before which it holds and from which it fails
(`turningPoint_eq`).  Keys that are in order are such places: what may precede a value comes first
(`filter_append_filter_not`).  So an approximate lookup finds the last key that may precede the value, and
answers if it is of the kind of the value (`findPosition?_iff`), and in a table it gives what stands in the
row of this key (`verticalLookup_ascending`).
-/

namespace PaintQuote.Formula.Functions

open Sheet

/-! ## The place where a test turns -/

section

variable {test : Nat → Bool} {n cut : Nat}

/-- Halving ends at the place before the cut, or at the cut if nothing is before it. -/
theorem halve_near (htest : ∀ i < n, test i = true ↔ i < cut) (base size : Nat) (hsize : 0 < size)
    (hn : base + size ≤ n) (hlow : base ≤ cut) (hhigh : cut ≤ base + size) :
    halve test base size ≤ cut ∧ cut ≤ halve test base size + 1 := by
  fun_induction halve test base size with
  | case1 base size hone => omega
  | case2 base size hmany ih =>
      have hmiddle := htest (base + size / 2) (by omega)
      refine ih (by omega) ?_ ?_ ?_
      · split <;> omega
      · split
        next hupper => exact (hmiddle.1 hupper).le
        next => exact hlow
      · split
        next => omega
        next hlower =>
          have hbelow := mt hmiddle.2 hlower
          omega

/-- A test that holds before one place and fails from it turns at this place. -/
theorem turningPoint_eq (htest : ∀ i < n, test i = true ↔ i < cut) (hcut : cut ≤ n) :
    turningPoint test n = cut := by
  rw [turningPoint]
  split
  next hzero => omega
  next hpos =>
    have hnear := halve_near htest 0 n (Nat.pos_of_ne_zero hpos) (by omega) (Nat.zero_le _) (by omega)
    have hlt := halve_lt test 0 n
    have hplace := htest (halve test 0 n) (by omega)
    by_cases hholds : test (halve test 0 n) = true
    · have hbelow := hplace.1 hholds
      simp only [if_pos hholds]
      omega
    · have hbelow := mt hplace.2 hholds
      simp only [if_neg hholds]
      omega

end

/-! ## Lists that a test parts -/

section

variable {α : Type} {p : α → Bool} {xs : List α}

/-- If a test holds of whatever stands before something of which it holds, then what it holds of comes
first. -/
theorem filter_append_filter_not (h : xs.Pairwise fun x y => p y = true → p x = true) :
    xs.filter p ++ xs.filter (fun x => !p x) = xs := by
  induction xs with
  | nil => rfl
  | cons x xs ih =>
      obtain ⟨hx, hxs⟩ := List.pairwise_cons.1 h
      cases hpx : p x with
      | true => simp [hpx, ih hxs]
      | false =>
          have hnone : ∀ y ∈ xs, p y = false := fun y hy =>
            Bool.eq_false_iff.2 fun hpy => by simp [hx y hy hpy] at hpx
          have hfilter : xs.filter p = [] := List.filter_eq_nil_iff.2 (by simpa using hnone)
          have hall : xs.filter (fun x => !p x) = xs := List.filter_eq_self.2 (by simpa using hnone)
          simp [hpx, hfilter, hall]

/-- What a test holds of stands where it stands in the list, if it comes first. -/
theorem getElem?_of_parted (h : xs.Pairwise fun x y => p y = true → p x = true) (i : Nat) :
    xs[i]? = if i < (xs.filter p).length then (xs.filter p)[i]?
      else (xs.filter fun x => !p x)[i - (xs.filter p).length]? := by
  rw [← List.getElem?_append, filter_append_filter_not h]

/-- Where a test parts a list, it turns behind all that it holds of. -/
theorem turningPoint_filter (h : xs.Pairwise fun x y => p y = true → p x = true) :
    turningPoint (fun i => (xs[i]?.map p).getD false) xs.length = (xs.filter p).length := by
  refine turningPoint_eq (fun i hi => ?_) (List.length_filter_le _ _)
  rw [getElem?_of_parted h]
  split
  next hbefore =>
    have hholds := List.of_mem_filter (List.getElem_mem hbefore)
    simp [hbefore, hholds]
  next hbehind =>
    refine iff_of_false ?_ hbehind
    cases hx : (xs.filter fun x => !p x)[i - (xs.filter p).length]? with
    | none => simp
    | some x => simpa using List.of_mem_filter (List.mem_of_getElem? hx)

end

theorem getElem?_concat_eq_some_iff {α : Type} {xs : List α} {x z : α} {i : Nat} :
    (xs ++ [z])[i]? = some x ↔ xs[i]? = some x ∨ i = xs.length ∧ x = z := by
  rcases Nat.lt_trichotomy i xs.length with hlt | rfl | hgt
  · simp [List.getElem?_append_left hlt, hlt.ne]
  · simp [eq_comm]
  · have hshort : (xs ++ [z]).length ≤ i := by
      rw [List.length_append, List.length_singleton]
      exact hgt
    rw [List.getElem?_eq_none hshort, List.getElem?_eq_none hgt.le]
    simp [hgt.ne']

/-- The last position at which a test holds. -/
theorem getLast?_filter_zipIdx {α : Type} {q : α → Bool} {xs : List α} {x : α} {i : Nat} :
    (xs.zipIdx.filter fun k => q k.1).getLast? = some (x, i) ↔
      (xs[i]? = some x ∧ q x = true) ∧ ∀ j y, i < j → xs[j]? = some y → q y = false := by
  induction xs using List.reverseRecOn with
  | nil => simp
  | append_singleton xs z ih =>
      have hlt : ∀ {j y}, xs[j]? = some y → j < xs.length := fun h => (List.getElem?_eq_some_iff.1 h).1
      rw [List.zipIdx_append, List.filter_append, Nat.zero_add]
      simp only [getElem?_concat_eq_some_iff]
      cases hz : q z with
      | true =>
          have hlast : ([z].zipIdx xs.length).filter (fun k => q k.1) = [(z, xs.length)] := by simp [hz]
          rw [hlast, List.getLast?_concat, Option.some.injEq, Prod.mk.injEq]
          constructor
          · rintro ⟨rfl, rfl⟩
            refine ⟨⟨Or.inr ⟨rfl, rfl⟩, hz⟩, ?_⟩
            rintro j y hj (hy | ⟨rfl, -⟩)
            · exact absurd (hlt hy) hj.not_gt
            · exact absurd hj (lt_irrefl _)
          · rintro ⟨⟨hx | ⟨rfl, rfl⟩, -⟩, hafter⟩
            · have hnot := hafter xs.length z (hlt hx) (Or.inr ⟨rfl, rfl⟩)
              rw [hz] at hnot
              cases hnot
            · exact ⟨rfl, rfl⟩
      | false =>
          have hnone : ([z].zipIdx xs.length).filter (fun k => q k.1) = [] := by simp [hz]
          rw [hnone, List.append_nil, ih]
          constructor
          · rintro ⟨⟨hx, hq⟩, hafter⟩
            refine ⟨⟨Or.inl hx, hq⟩, ?_⟩
            rintro j y hj (hy | ⟨-, rfl⟩)
            · exact hafter j y hj hy
            · exact hz
          · rintro ⟨⟨hx | ⟨-, rfl⟩, hq⟩, hafter⟩
            · exact ⟨⟨hx, hq⟩, fun j y hj hy => hafter j y hj (Or.inl hy)⟩
            · rw [hz] at hq
              cases hq

/-- What a test holds of has a last position. -/
theorem exists_last {α : Type} {q : α → Bool} {xs : List α} {x : α} (hx : x ∈ xs) (hq : q x = true) :
    ∃ (i : Nat) (y : α), (xs[i]? = some y ∧ q y = true) ∧
      ∀ j z, i < j → xs[j]? = some z → q z = false := by
  obtain ⟨i, hi, rfl⟩ := List.getElem_of_mem hx
  have hmem : (xs[i], i) ∈ xs.zipIdx.filter fun k => q k.1 :=
    List.mem_filter.2 ⟨List.mk_mem_zipIdx_iff_getElem?.2 (List.getElem?_eq_getElem hi), hq⟩
  obtain ⟨⟨y, j⟩, hlast⟩ := Option.isSome_iff_exists.1 (List.getLast?_isSome.2 (List.ne_nil_of_mem hmem))
  exact ⟨j, y, getLast?_filter_zipIdx.1 hlast⟩

/-- What stands at the last position at which a test holds comes last of all that it holds of. -/
theorem getLast?_filter {α : Type} {q : α → Bool} {xs : List α} {x : α} {i : Nat}
    (hx : xs[i]? = some x ∧ q x = true) (hafter : ∀ j y, i < j → xs[j]? = some y → q y = false) :
    (xs.filter q).getLast? = some x := by
  have hlast := getLast?_filter_zipIdx.2 ⟨hx, hafter⟩
  conv_lhs => rw [← List.zipIdx_map_fst 0 xs, List.filter_map, List.getLast?_map]
  exact congrArg (Option.map Prod.fst) hlast

/-! ## Keys in order -/

variable {mode : MatchMode} {v key a b : CellValue} {keys : List CellValue} {i : Nat}

/-- Whether a key may stand before another where a lookup halves the keys, if both are something. -/
def Before (mode : MatchMode) (a b : CellValue) : Prop :=
  match mode with
  | .descending => (Value.compareFilled (.scalar a) (.scalar b)).isGE = true
  | _ => (Value.compareFilled (.scalar a) (.scalar b)).isLE = true

theorem Before.trans {a b c : CellValue} (h : Before mode a b) (h' : Before mode b c) :
    Before mode a c := by
  cases mode with
  | descending => exact Std.TransCmp.isGE_trans h h'
  | _ => exact Std.TransCmp.isLE_trans h h'

instance : Trans (Before mode) (Before mode) (Before mode) := ⟨Before.trans⟩

theorem mayPrecede_iff (ha : a ≠ .empty) (hb : b ≠ .empty) :
    mayPrecede mode b a = true ↔ Before mode a b := by
  have hfilled := Value.compareTo_of_filled ha hb
  cases mode <;> simp [mayPrecede, Before, hfilled, Ordering.isLE_iff_ne_gt, Ordering.isGE_iff_ne_lt]

theorem mem_filledKeys {k : CellValue × Nat} (h : k ∈ filledKeys keys) : k.1 ≠ .empty := by
  simpa using List.of_mem_filter h

/-- If each of some keys may precede the next one, those that may precede a value come first. -/
theorem parted_of_isChain (hv : v ≠ .empty) {ks : List (CellValue × Nat)}
    (hfilled : ∀ k ∈ ks, k.1 ≠ .empty)
    (h : (ks.map Prod.fst).IsChain fun a b => mayPrecede mode b a = true) :
    ks.Pairwise fun j k => mayPrecede mode v k.1 = true → mayPrecede mode v j.1 = true := by
  have hne : ∀ a ∈ ks.map Prod.fst, a ≠ .empty := List.forall_mem_map.2 hfilled
  have hchain : (ks.map Prod.fst).IsChain (Before mode) :=
    h.imp_of_mem_imp fun a b ha hb hab => (mayPrecede_iff (hne a ha) (hne b hb)).1 hab
  have hpairwise := List.pairwise_map.1 (List.isChain_iff_pairwise.1 hchain)
  refine hpairwise.imp_of_mem fun hj hk hjk hbefore => ?_
  rw [mayPrecede_iff (hfilled _ hk) hv] at hbefore
  rw [mayPrecede_iff (hfilled _ hj) hv]
  exact hjk.trans hbefore

/-- If each key that is something may precede the next one, those that may precede a value come first. -/
theorem filledKeys_parted (hv : v ≠ .empty)
    (h : (keys.filter (· != .empty)).IsChain fun a b => mayPrecede mode b a = true) :
    (filledKeys keys).Pairwise fun j k => mayPrecede mode v k.1 = true → mayPrecede mode v j.1 = true := by
  have hmap : (filledKeys keys).map Prod.fst = keys.filter (· != .empty) := by
    conv_rhs => rw [← List.zipIdx_map_fst 0 keys, List.filter_map]
    rfl
  refine parted_of_isChain hv (fun k hk => mem_filledKeys hk) ?_
  rw [hmap]
  exact h

/-- Where keys that may precede a value come first, the last of them is found. -/
theorem approximatePosition?_of_parted
    (h : (filledKeys keys).Pairwise fun j k =>
      mayPrecede mode v k.1 = true → mayPrecede mode v j.1 = true) :
    approximatePosition? mode v keys =
      ((filledKeys keys).filter fun k => mayPrecede mode v k.1).getLast?.bind fun k =>
        if k.1.kind = v.kind then some k.2 else none := by
  have hturn := turningPoint_filter (p := fun k : CellValue × Nat => mayPrecede mode v k.1) h
  have hget := getElem?_of_parted (p := fun k : CellValue × Nat => mayPrecede mode v k.1) h
  simp only [approximatePosition?, List.getElem?_toArray, List.size_toArray, hturn]
  rw [List.getLast?_eq_getElem?]
  split
  next hzero => simp [List.length_eq_zero_iff.1 hzero]
  next place hplace => simp [hget place, hplace]

/-- The last key that is something and may precede a value. -/
theorem getLast?_filter_filledKeys {k : CellValue × Nat} :
    ((filledKeys keys).filter fun k => mayPrecede mode v k.1).getLast? = some k ↔
      (keys[k.2]? = some k.1 ∧ k.1 ≠ .empty ∧ mayPrecede mode v k.1 = true) ∧
        ∀ j key, k.2 < j → keys[j]? = some key → key ≠ .empty → mayPrecede mode v key = false := by
  have hboth : ∀ key, key ≠ .empty ∧ mayPrecede mode v key = true ↔
      (key != .empty && mayPrecede mode v key) = true := by simp
  have hneither : ∀ key, (key ≠ .empty → mayPrecede mode v key = false) ↔
      (key != .empty && mayPrecede mode v key) = false := by simp [Decidable.imp_iff_not_or]
  simp only [hboth, hneither]
  rw [← getLast?_filter_zipIdx (q := fun key => key != .empty && mayPrecede mode v key), filledKeys,
    List.filter_filter]
  simp only [Bool.and_comm]

/-- Where each key that is something may precede the next one, the last that may precede a value is found
if it is of the kind of the value. -/
theorem approximatePosition?_iff (hv : v ≠ .empty)
    (h : (keys.filter (· != .empty)).IsChain fun a b => mayPrecede mode b a = true) :
    approximatePosition? mode v keys = some i ↔
      (∃ key, keys[i]? = some key ∧ key ≠ .empty ∧ mayPrecede mode v key = true ∧ key.kind = v.kind) ∧
        ∀ j key, i < j → keys[j]? = some key → key ≠ .empty → mayPrecede mode v key = false := by
  rw [approximatePosition?_of_parted (filledKeys_parted hv h), Option.bind_eq_some_iff]
  simp only [getLast?_filter_filledKeys]
  constructor
  · rintro ⟨⟨key, j⟩, ⟨⟨hkey, hfilled, hholds⟩, hafter⟩, hfound⟩
    obtain ⟨hkind, hi⟩ := Option.ite_none_right_eq_some.1 hfound
    cases hi
    exact ⟨⟨key, hkey, hfilled, hholds, hkind⟩, hafter⟩
  · rintro ⟨⟨key, hkey, hfilled, hholds, hkind⟩, hafter⟩
    exact ⟨(key, i), ⟨⟨hkey, hfilled, hholds⟩, hafter⟩, if_pos hkind⟩

/-- Where the keys of a table ascend, an approximate lookup gives what stands in the last row whose key is
not greater, if this key is of the kind of the value. -/
theorem verticalLookup_ascending {α : Type} {xs : List α} {x : α} (key : α → CellValue)
    (rest : α → List CellValue) {w : CellValue} {number : Value} {column width : Nat} (hv : v ≠ .empty)
    (herror : v.error? = none) (hnumber : wholeNumber number = .ok ((column + 1 + 1 : Nat) : Int))
    (hwidth : ∀ y ∈ xs, (rest y).length = width) (hfilled : ∀ y ∈ xs, key y ≠ .empty)
    (hascend : (xs.map key).IsChain fun a b => mayPrecede .ascending b a = true)
    (hx : xs[i]? = some x) (hbefore : mayPrecede .ascending v (key x) = true)
    (hkind : (key x).kind = v.kind)
    (hafter : ∀ j y, i < j → xs[j]? = some y → mayPrecede .ascending v (key y) = false)
    (hw : (rest x)[column]? = some w) :
    verticalLookup (.scalar v) (.array (xs.map fun y => key y :: rest y)) number (some (.boolean true)) =
      .ok (.scalar w) := by
  have hall : (xs.map key).filter (· != .empty) = xs.map key :=
    List.filter_eq_self.2 fun k hk => by
      obtain ⟨y, hy, rfl⟩ := List.mem_map.1 hk
      exact bne_iff_ne.2 (hfilled y hy)
  refine verticalLookup_of_position key rest herror hnumber hwidth (m := .ascending) rfl ?_ hx hw
  rw [findPosition?, if_neg hv, if_neg (by decide), approximatePosition?_iff hv (hall.symm ▸ hascend)]
  refine ⟨⟨key x, ?_, hfilled x (List.mem_of_getElem? hx), hbefore, hkind⟩, fun j k hj hk _ => ?_⟩
  · rw [List.getElem?_map, hx]
    rfl
  · rw [List.getElem?_map] at hk
    obtain ⟨y, hy, rfl⟩ := Option.map_eq_some_iff.1 hk
    exact hafter j y hj hy

/-- An exact lookup finds the first key of the kind of the value that is equal to it. -/
theorem findPosition?_exact_iff (hv : v ≠ .empty) :
    findPosition? .exact v keys = some i ↔
      (∃ key, keys[i]? = some key ∧ isEqualKey key v = true) ∧
        ∀ j key, j < i → keys[j]? = some key → isEqualKey key v = false := by
  rw [findPosition?, if_neg hv, if_pos rfl, List.findIdx?_eq_some_iff_getElem]
  constructor
  · rintro ⟨hi, hequal, hbefore⟩
    refine ⟨⟨_, List.getElem?_eq_getElem hi, hequal⟩, fun j key hj hkey => ?_⟩
    obtain ⟨_, rfl⟩ := List.getElem?_eq_some_iff.1 hkey
    simpa using hbefore j hj
  · rintro ⟨⟨key, hkey, hequal⟩, hbefore⟩
    obtain ⟨hi, rfl⟩ := List.getElem?_eq_some_iff.1 hkey
    refine ⟨hi, hequal, fun j hj => ?_⟩
    simpa using hbefore j _ hj (List.getElem?_eq_getElem (hj.trans hi))

/-- Among keys that ascend an approximate lookup finds the last that is not greater than the value, and
among keys that descend the last that is not smaller, if it is of the kind of the value; keys that are
nothing are passed over.  An exact lookup finds the first key of the kind of the value that is equal to
it, whatever the order of the keys. -/
theorem findPosition?_iff (v : CellValue) (hv : v ≠ .empty) (keys : List CellValue) :
    ((keys.filter (· != .empty)).IsChain
        (fun a b => (Value.scalar a).compareTo (.scalar b) ≠ .gt) →
      ∀ i, findPosition? .ascending v keys = some i ↔
        (∃ key, keys[i]? = some key ∧ key ≠ .empty ∧
          (Value.scalar key).compareTo (.scalar v) ≠ .gt ∧ key.kind = v.kind) ∧
        ∀ j key, i < j → keys[j]? = some key → key ≠ .empty →
          (Value.scalar key).compareTo (.scalar v) = .gt) ∧
    ((keys.filter (· != .empty)).IsChain
        (fun a b => (Value.scalar a).compareTo (.scalar b) ≠ .lt) →
      ∀ i, findPosition? .descending v keys = some i ↔
        (∃ key, keys[i]? = some key ∧ key ≠ .empty ∧
          (Value.scalar key).compareTo (.scalar v) ≠ .lt ∧ key.kind = v.kind) ∧
        ∀ j key, i < j → keys[j]? = some key → key ≠ .empty →
          (Value.scalar key).compareTo (.scalar v) = .lt) ∧
    ∀ i, findPosition? .exact v keys = some i ↔
      (∃ key, keys[i]? = some key ∧ key.kind = v.kind ∧ (Value.scalar key).compareTo (.scalar v) = .eq) ∧
      ∀ j key, j < i → keys[j]? = some key →
        ¬ (key.kind = v.kind ∧ (Value.scalar key).compareTo (.scalar v) = .eq) := by
  refine ⟨fun h i => ?_, fun h i => ?_, fun i => ?_⟩
  · rw [findPosition?, if_neg hv, if_neg (by decide), approximatePosition?_iff hv]
    · simp [mayPrecede]
    · simpa [mayPrecede] using h
  · rw [findPosition?, if_neg hv, if_neg (by decide), approximatePosition?_iff hv]
    · simp [mayPrecede]
    · simpa [mayPrecede] using h
  · rw [findPosition?_exact_iff hv]
    simp [isEqualKey]

/-- Among numbers, texts and logical values with empty cells between them, three is found at the last of
its two keys, and nothing behind it is as small. -/
theorem findPosition?_mixed :
    findPosition? .ascending (.number 3)
        [.number 1, .empty, .number 3, .number (.scaled 30 1), .empty, .text "b", .boolean false] = some 3 ∧
      (∀ j key, 3 < j →
        [.number 1, .empty, .number 3, .number (.scaled 30 1), .empty, .text "b", .boolean false][j]? =
          some key →
        key ≠ .empty → (Value.scalar key).compareTo (.number 3) = .gt) ∧
      findPosition? .descending (.text "B") [.boolean false, .text "c", .text "b", .empty, .number 3] =
        some 2 := by
  have hfound : findPosition? .ascending (.number 3)
      [.number 1, .empty, .number 3, .number (.scaled 30 1), .empty, .text "b", .boolean false] =
        some 3 := by decide +kernel
  have hascending := (findPosition?_iff (.number 3) (by decide)
    [.number 1, .empty, .number 3, .number (.scaled 30 1), .empty, .text "b", .boolean false]).1
      (by decide +kernel)
  have hdescending := (findPosition?_iff (.text "B") (by decide)
    [.boolean false, .text "c", .text "b", .empty, .number 3]).2.1 (by decide +kernel)
  refine ⟨hfound, ((hascending 3).1 hfound).2, (hdescending 2).2 ⟨⟨.text "b", by decide +kernel⟩, ?_⟩⟩
  intro j key hj hkey hfilled
  have hlt : j < 5 := (List.getElem?_eq_some_iff.1 hkey).1
  have hcases : j = 3 ∨ j = 4 := by omega
  rcases hcases with rfl | rfl
  · cases hkey
    exact absurd rfl hfilled
  · cases hkey
    decide +kernel

end PaintQuote.Formula.Functions
