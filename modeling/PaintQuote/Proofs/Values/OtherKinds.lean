import PaintQuote.Proofs.Values.Positions

/-!
# Keys of other kinds

An approximate lookup halves all keys that are something, also those that are not of the kind of its
value.  Such a key stands before or behind the value by its kind alone, wherever it stands in the list.
So a lookup among keys that are in order but for the other kinds finds what it would find without these
exactly if each of them that it looks at points to the side where the right key is
(`findPosition?_eq_kindred_iff`).  Whatever it finds is of the kind of the value (`of_findPosition?`) and
may precede it (`of_approximatePosition?`).
-/

namespace PaintQuote.Formula.Functions

open Sheet

/-! ## The places that halving looks at -/

/-- The places that halving looks at, among the places from `base`, `size` of them. -/
def probes (test : Nat → Bool) (base size : Nat) : List Nat :=
  if size ≤ 1 then [base]
  else
    (base + size / 2) ::
      probes test (if test (base + size / 2) then base + size / 2 else base) (size - size / 2)
termination_by size
decreasing_by omega

section

variable {test : Nat → Bool} {base size cut n i : Nat}

theorem le_halve (test : Nat → Bool) (base size : Nat) : base ≤ halve test base size := by
  fun_induction halve test base size with
  | case1 => exact Nat.le_refl _
  | case2 base size _ ih =>
      refine Nat.le_trans ?_ ih
      split <;> omega

/-- Halving moves up only to places where the test holds. -/
theorem halve_eq_or (test : Nat → Bool) (base size : Nat) :
    halve test base size = base ∨ test (halve test base size) = true := by
  fun_induction halve test base size with
  | case1 => exact Or.inl rfl
  | case2 base size _ ih =>
      rcases ih with heq | hholds
      · split at heq
        next hupper => exact Or.inr (by rw [if_pos hupper, heq, hupper])
        next hlower => exact Or.inl (by rw [if_neg hlower, heq])
      · exact Or.inr hholds

theorem lt_of_mem_probes (hsize : 0 < size) (hi : i ∈ probes test base size) : i < base + size := by
  fun_induction probes test base size with
  | case1 base size hone =>
      rw [List.mem_singleton] at hi
      omega
  | case2 base size _ ih =>
      rcases List.mem_cons.1 hi with rfl | hi
      · omega
      · have hlt := ih (by omega) hi
        split at hlt <;> omega

/-- The place that a test turns behind, among those from `base`. -/
def turn (test : Nat → Bool) (base size : Nat) : Nat :=
  halve test base size + (test (halve test base size)).toNat

theorem turningPoint_eq_turn (hn : 0 < n) : turningPoint test n = turn test 0 n := by
  simp only [turningPoint, turn, if_neg hn.ne']
  cases test (halve test 0 n) <;> rfl

theorem turn_of_many (hmany : ¬ size ≤ 1) :
    turn test base size =
      turn test (if test (base + size / 2) then base + size / 2 else base) (size - size / 2) := by
  simp only [turn]
  rw [halve, if_neg hmany]

theorem turn_of_one (hone : size ≤ 1) : turn test base size = base + (test base).toNat := by
  rw [turn, halve, if_pos hone]

/-- A test holds at the place before the one where it turns. -/
theorem test_of_turningPoint (h : turningPoint test n = i + 1) : test i = true := by
  rcases Nat.eq_zero_or_pos n with rfl | hn
  · cases h
  rw [turningPoint_eq_turn hn, turn] at h
  cases hend : test (halve test 0 n) with
  | true =>
      rw [hend, Bool.toNat_true, Nat.add_right_cancel_iff] at h
      rw [← h, hend]
  | false =>
      rcases halve_eq_or test 0 n with hzero | hholds
      · rw [hend, hzero] at h
        cases h
      · rw [hend] at hholds
        cases hholds

/-- Wherever halving looks, the test holds before the place where it ends and fails from it. -/
theorem test_of_mem_probes (hsize : 0 < size) (hi : i ∈ probes test base size) :
    test i = true ↔ i < turn test base size := by
  fun_induction probes test base size with
  | case1 base size hone =>
      rw [List.mem_singleton.1 hi, turn_of_one hone]
      cases test base <;> simp
  | case2 base size hmany ih =>
      rw [turn_of_many hmany]
      rcases List.mem_cons.1 hi with rfl | hi
      · -- The middle is the first place of the upper half, or the last that the lower half can reach.
        cases hmiddle : test (base + size / 2) with
        | true =>
            have hlow := le_halve test (base + size / 2) (size - size / 2)
            rw [if_pos rfl, turn]
            rcases Nat.eq_or_lt_of_le hlow with heq | hlt
            · simp [← heq, hmiddle]
            · simp only [true_iff]
              omega
        | false =>
            have hhigh := halve_lt test base (size - size / 2)
            rw [if_neg Bool.false_ne_true, turn, Bool.false_eq_true, false_iff, Nat.not_lt]
            rcases Nat.lt_or_ge (halve test base (size - size / 2)) (base + size / 2) with hlt | hge
            · have hone := Bool.toNat_le (test (halve test base (size - size / 2)))
              omega
            · have heq : halve test base (size - size / 2) = base + size / 2 := by omega
              simp [heq, hmiddle]
      · exact ih (by omega) hi

/-- Halving ends at a cut that all places looked at agree on. -/
theorem turn_of_probes (hsize : 0 < size) (hlow : base ≤ cut) (hhigh : cut ≤ base + size)
    (h : ∀ i ∈ probes test base size, test i = true ↔ i < cut) : turn test base size = cut := by
  fun_induction probes test base size with
  | case1 base size hone =>
      have hbase := h base (List.mem_singleton_self _)
      rw [turn_of_one hone]
      cases htest : test base with
      | true =>
          have hlt := hbase.1 htest
          simp only [Bool.toNat_true]
          omega
      | false =>
          have hnot : ¬ base < cut := fun hlt => by simp [hbase.2 hlt] at htest
          simp only [Bool.toNat_false]
          omega
  | case2 base size hmany ih =>
      have hmiddle := h _ List.mem_cons_self
      refine (turn_of_many hmany).trans
        (ih (by omega) ?_ ?_ fun i hi => h i (List.mem_cons_of_mem _ hi))
      · split
        next hupper => exact (hmiddle.1 hupper).le
        next => exact hlow
      · split
        next => omega
        next hlower =>
          have hnot := mt hmiddle.2 hlower
          omega

/-- A test turns at a cut exactly if all places that halving looks at agree on it. -/
theorem turningPoint_eq_iff (hn : 0 < n) (hcut : cut ≤ n) :
    turningPoint test n = cut ↔ ∀ i ∈ probes test 0 n, (test i = true ↔ i < cut) := by
  rw [turningPoint_eq_turn hn]
  constructor
  · rintro rfl i hi
    exact test_of_mem_probes hn hi
  · intro h
    exact turn_of_probes hn (Nat.zero_le _) (by omega) h

end

/-! ## Keys with their positions -/

variable {mode : MatchMode} {v key : CellValue} {keys : List CellValue} {i j : Nat}

/-- The keys of the kind of a value, each with its position. -/
def kindredKeys (v : CellValue) (keys : List CellValue) : List (CellValue × Nat) :=
  keys.zipIdx.filter fun k => k.1.kind == v.kind

/-- The position that is found when the keys of other kinds are taken out. -/
def kindredPosition? (mode : MatchMode) (v : CellValue) (keys : List CellValue) : Option Nat :=
  (findPosition? mode v ((kindredKeys v keys).map Prod.fst)).bind fun place =>
    ((kindredKeys v keys)[place]?).map Prod.snd

/-- Whether the key at a place may precede a value. -/
def precedesAt (mode : MatchMode) (v : CellValue) (candidates : List (CellValue × Nat)) (place : Nat) :
    Bool :=
  (candidates[place]?.map fun k => mayPrecede mode v k.1).getD false

/-- The keys that an approximate lookup compares with its value, each with its position. -/
def probedKeys (mode : MatchMode) (v : CellValue) (keys : List CellValue) : List (CellValue × Nat) :=
  (probes (precedesAt mode v (filledKeys keys)) 0 (filledKeys keys).length).filterMap fun place =>
    (filledKeys keys)[place]?

theorem mem_zipIdx_filter {q : CellValue × Nat → Bool} :
    (key, i) ∈ keys.zipIdx.filter q ↔ keys[i]? = some key ∧ q (key, i) = true := by
  rw [List.mem_filter, List.mk_mem_zipIdx_iff_getElem?]

/-- Positions go up along a list of keys. -/
theorem pairwise_positions (q : CellValue × Nat → Bool) :
    (keys.zipIdx.filter q).Pairwise fun j k => j.2 < k.2 := by
  have hall : (keys.zipIdx.map Prod.snd).Pairwise (· < ·) := by
    rw [List.zipIdx_map_snd]
    exact List.pairwise_lt_range'
  exact (List.pairwise_map.1 hall).filter q

/-- Of two keys the one at the earlier place has the earlier position. -/
theorem place_le_iff {ks : List (CellValue × Nat)} (h : ks.Pairwise fun j k => j.2 < k.2)
    {p q : Nat} {j k : CellValue × Nat} (hp : ks[p]? = some j) (hq : ks[q]? = some k) :
    p ≤ q ↔ j.2 ≤ k.2 := by
  obtain ⟨hplt, rfl⟩ := List.getElem?_eq_some_iff.1 hp
  obtain ⟨hqlt, rfl⟩ := List.getElem?_eq_some_iff.1 hq
  have hless := List.pairwise_iff_getElem.1 h
  rcases Nat.lt_trichotomy p q with hlt | rfl | hgt
  · exact iff_of_true hlt.le (hless p q hplt hqlt hlt).le
  · exact iff_of_true le_rfl le_rfl
  · exact iff_of_false hgt.not_ge (hless q p hqlt hplt hgt).not_ge

/-! ## What is found -/

theorem approximatePosition?_eq_some_iff :
    approximatePosition? mode v keys = some i ↔
      ∃ place key, turningPoint (precedesAt mode v (filledKeys keys)) (filledKeys keys).length = place + 1 ∧
        (filledKeys keys)[place]? = some (key, i) ∧ key.kind = v.kind := by
  have htest : (fun place => ((filledKeys keys)[place]?.map fun k => mayPrecede mode v k.1).getD false) =
      precedesAt mode v (filledKeys keys) := rfl
  simp only [approximatePosition?, List.getElem?_toArray, List.size_toArray, htest]
  cases turningPoint (precedesAt mode v (filledKeys keys)) (filledKeys keys).length with
  | zero => simp
  | succ place =>
      simp only [Option.bind_eq_some_iff, Option.ite_none_right_eq_some, Prod.exists,
        Option.some.injEq, Nat.add_right_cancel_iff]
      constructor
      · rintro ⟨key, j, hkey, hkind, rfl⟩
        exact ⟨place, key, rfl, hkey, hkind⟩
      · rintro ⟨place', key, rfl, hkey, hkind⟩
        exact ⟨key, i, hkey, hkind, rfl⟩

theorem precedesAt_eq {candidates : List (CellValue × Nat)} {place : Nat} {k : CellValue × Nat}
    (hk : candidates[place]? = some k) : precedesAt mode v candidates place = mayPrecede mode v k.1 := by
  rw [precedesAt, hk]
  rfl

/-- What an approximate lookup finds is of the kind of the value and may precede it, whatever the keys
are. -/
theorem of_approximatePosition? (h : approximatePosition? mode v keys = some i) :
    ∃ key, keys[i]? = some key ∧ key.kind = v.kind ∧ mayPrecede mode v key = true := by
  obtain ⟨place, key, hturn, hkey, hkind⟩ := approximatePosition?_eq_some_iff.1 h
  refine ⟨key, (mem_zipIdx_filter.1 (List.mem_of_getElem? hkey)).1, hkind, ?_⟩
  rw [← precedesAt_eq hkey]
  exact test_of_turningPoint hturn

/-- What a lookup finds is a key of the kind of the value. -/
theorem of_findPosition? (h : findPosition? mode v keys = some i) :
    ∃ key, keys[i]? = some key ∧ key.kind = v.kind := by
  unfold findPosition? at h
  split at h
  next => cases h
  next =>
    split at h
    next =>
      obtain ⟨hi, hequal, -⟩ := List.findIdx?_eq_some_iff_getElem.1 h
      rw [isEqualKey, Bool.and_eq_true, beq_iff_eq] at hequal
      exact ⟨keys[i], List.getElem?_eq_getElem hi, hequal.1⟩
    next =>
      obtain ⟨key, hkey, hkind, -⟩ := of_approximatePosition? h
      exact ⟨key, hkey, hkind⟩

theorem ne_empty_of_kind_eq (hv : v ≠ .empty) (hkind : key.kind = v.kind) : key ≠ .empty := by
  rintro rfl
  cases v with
  | empty => exact hv rfl
  | _ => simp [CellValue.kind] at hkind

/-! ## The keys of the kind of a value -/

theorem mem_kindredKeys : (key, i) ∈ kindredKeys v keys ↔ keys[i]? = some key ∧ key.kind = v.kind := by
  rw [kindredKeys, mem_zipIdx_filter, beq_iff_eq]

theorem map_fst_kindredKeys :
    (kindredKeys v keys).map Prod.fst = keys.filter fun key => key.kind == v.kind := by
  conv_rhs => rw [← List.zipIdx_map_fst 0 keys, List.filter_map]
  rfl

/-- Among the keys of the kind of the value the last that may precede it is found, if they are in
order. -/
theorem kindredPosition?_eq_some_iff (hmode : mode ≠ .exact) (hv : v ≠ .empty)
    (h : (keys.filter fun key => key.kind == v.kind).IsChain fun a b => mayPrecede mode b a = true) :
    kindredPosition? mode v keys = some i ↔
      (∃ key, keys[i]? = some key ∧ key.kind = v.kind ∧ mayPrecede mode v key = true) ∧
        ∀ j key, i < j → keys[j]? = some key → key.kind = v.kind → mayPrecede mode v key = false := by
  have hkind : ∀ key ∈ (kindredKeys v keys).map Prod.fst, key.kind = v.kind := by
    rw [map_fst_kindredKeys]
    exact fun key hkey => beq_iff_eq.1 (List.mem_filter.1 hkey).2
  have hchain : (((kindredKeys v keys).map Prod.fst).filter (· != .empty)).IsChain
      fun a b => mayPrecede mode b a = true := by
    rw [List.filter_eq_self.2 fun key hkey => bne_iff_ne.2 (ne_empty_of_kind_eq hv (hkind key hkey)),
      map_fst_kindredKeys]
    exact h
  have hplaces := @place_le_iff (kindredKeys v keys) (pairwise_positions _)
  rw [kindredPosition?, findPosition?, if_neg hv, if_neg hmode, Option.bind_eq_some_iff]
  simp only [approximatePosition?_iff hv hchain, List.getElem?_map, Option.map_eq_some_iff]
  constructor
  · rintro ⟨place, ⟨⟨-, ⟨⟨key, i⟩, hplace, rfl⟩, -, hbefore, -⟩, hafter⟩, k, hk, rfl⟩
    obtain rfl := Option.some.inj (hplace.symm.trans hk)
    obtain ⟨hkey, hkind⟩ := mem_kindredKeys.1 (List.mem_of_getElem? hplace)
    refine ⟨⟨key, hkey, hkind, hbefore⟩, fun j key' hj hkey' hkind' => ?_⟩
    obtain ⟨place', hplace'⟩ := List.mem_iff_getElem?.1 (mem_kindredKeys.2 ⟨hkey', hkind'⟩)
    have hlt := mt (hplaces hplace' hplace).1 hj.not_ge
    exact hafter place' key' (Nat.lt_of_not_le hlt) ⟨_, hplace', rfl⟩ (ne_empty_of_kind_eq hv hkind')
  · rintro ⟨⟨key, hkey, hkind, hbefore⟩, hafter⟩
    obtain ⟨place, hplace⟩ := List.mem_iff_getElem?.1 (mem_kindredKeys.2 ⟨hkey, hkind⟩)
    refine ⟨place, ⟨⟨key, ⟨_, hplace, rfl⟩, ne_empty_of_kind_eq hv hkind, hbefore, hkind⟩, ?_⟩,
      (key, i), hplace, rfl⟩
    rintro place' - hlt ⟨⟨key', j⟩, hplace', rfl⟩ -
    obtain ⟨hkey', hkind'⟩ := mem_kindredKeys.1 (List.mem_of_getElem? hplace')
    have hj := mt (hplaces hplace' hplace).2 (Nat.not_le.2 hlt)
    exact hafter j key' (Nat.lt_of_not_le hj) hkey' hkind'

/-! ## Keys that point the wrong way -/

theorem mem_probedKeys {k : CellValue × Nat} :
    k ∈ probedKeys mode v keys ↔
      ∃ place ∈ probes (precedesAt mode v (filledKeys keys)) 0 (filledKeys keys).length,
        (filledKeys keys)[place]? = some k := List.mem_filterMap

/-- A key that is something stands where the lookup ends exactly if all keys that it compares with the
value point there. -/
theorem approximatePosition?_eq_some_iff_probed (hkey : (filledKeys keys)[j]? = some (key, i))
    (hkind : key.kind = v.kind) :
    approximatePosition? mode v keys = some i ↔
      ∀ k ∈ probedKeys mode v keys, (mayPrecede mode v k.1 = true ↔ k.2 ≤ i) := by
  have hplaces := @place_le_iff (filledKeys keys) (pairwise_positions _)
  have hlt : j < (filledKeys keys).length := (List.getElem?_eq_some_iff.1 hkey).1
  have hturn : approximatePosition? mode v keys = some i ↔
      turningPoint (precedesAt mode v (filledKeys keys)) (filledKeys keys).length = j + 1 := by
    rw [approximatePosition?_eq_some_iff]
    constructor
    · rintro ⟨place, key', hturn, hkey', -⟩
      have hsame : place = j := Nat.le_antisymm ((hplaces hkey' hkey).2 le_rfl) ((hplaces hkey hkey').2 le_rfl)
      rw [hturn, hsame]
    · intro hturn
      exact ⟨j, key, hturn, hkey, hkind⟩
  rw [hturn, turningPoint_eq_iff (by omega) (by omega)]
  constructor
  · intro h k hk
    obtain ⟨place, hprobe, hk⟩ := mem_probedKeys.1 hk
    rw [← precedesAt_eq hk, h place hprobe, Nat.lt_succ_iff]
    exact hplaces hk hkey
  · intro h place hprobe
    have hin := lt_of_mem_probes (by omega) hprobe
    rw [Nat.zero_add] at hin
    have hk := List.getElem?_eq_getElem hin
    rw [precedesAt_eq hk, h _ (mem_probedKeys.2 ⟨place, hprobe, hk⟩), Nat.lt_succ_iff]
    exact (hplaces hk hkey).symm

section

variable (hv : v ≠ .empty)
  (h : (keys.filter fun key => key.kind == v.kind).IsChain fun a b => mayPrecede mode b a = true)
include hv h

/-- The keys of the kind of the value that may precede it come first among those of its kind. -/
theorem mayPrecede_of_le (hi : keys[i]? = some key) (hkind : key.kind = v.kind)
    (hbefore : mayPrecede mode v key = true) {key' : CellValue} (hj : keys[j]? = some key')
    (hkind' : key'.kind = v.kind) (hle : j ≤ i) : mayPrecede mode v key' = true := by
  rw [← map_fst_kindredKeys] at h
  have hparted : (kindredKeys v keys).Pairwise fun j k =>
      mayPrecede mode v k.1 = true → mayPrecede mode v j.1 = true :=
    parted_of_isChain hv (fun k hk => ne_empty_of_kind_eq hv (mem_kindredKeys.1 hk).2) h
  obtain ⟨p, hp⟩ := List.mem_iff_getElem?.1 (mem_kindredKeys.2 ⟨hi, hkind⟩)
  obtain ⟨q, hq⟩ := List.mem_iff_getElem?.1 (mem_kindredKeys.2 ⟨hj, hkind'⟩)
  have hqp : q ≤ p := (place_le_iff (pairwise_positions _) hq hp).2 hle
  rcases Nat.eq_or_lt_of_le hqp with rfl | hlt
  · cases hp.symm.trans hq
    exact hbefore
  · obtain ⟨hplt, hp⟩ := List.getElem?_eq_some_iff.1 hp
    obtain ⟨hqlt, hq⟩ := List.getElem?_eq_some_iff.1 hq
    have hfirst := List.pairwise_iff_getElem.1 hparted q p hqlt hplt hlt
    rw [hp, hq] at hfirst
    exact hfirst hbefore

/-- Without a key of the kind of the value that may precede it nothing is found. -/
theorem approximatePosition?_of_kindred_none (hmode : mode ≠ .exact)
    (hnone : kindredPosition? mode v keys = none) : approximatePosition? mode v keys = none := by
  refine Option.eq_none_iff_forall_ne_some.2 fun i hi => ?_
  obtain ⟨key, hkey, hkind, hbefore⟩ := of_approximatePosition? hi
  have hmem : (key, i) ∈ keys.zipIdx.filter fun k => k.1.kind == v.kind && mayPrecede mode v k.1 :=
    mem_zipIdx_filter.2 ⟨hkey, by simp [hkind, hbefore]⟩
  obtain ⟨⟨last, place⟩, hlast⟩ := Option.isSome_iff_exists.1
    (List.getLast?_isSome.2 (List.ne_nil_of_mem hmem))
  obtain ⟨⟨hplace, hholds⟩, hafter⟩ :=
    (getLast?_filter_zipIdx (q := fun key => key.kind == v.kind && mayPrecede mode v key)).1 hlast
  rw [Bool.and_eq_true, beq_iff_eq] at hholds
  have hfound := (kindredPosition?_eq_some_iff hmode hv h).2
    ⟨⟨last, hplace, hholds⟩, fun j key hj hkey hkind => by simpa [hkind] using hafter j key hj hkey⟩
  rw [hnone] at hfound
  cases hfound

end

/-- If the keys of the kind of a value are in order, an approximate lookup finds what it finds without the
keys of other kinds exactly if each of these that it compares with the value points to the side where that
is. -/
theorem findPosition?_eq_kindred_iff (mode : MatchMode) (hmode : mode ≠ .exact) (v : CellValue)
    (keys : List CellValue)
    (h : (keys.filter fun key => key.kind == v.kind).IsChain fun a b => mayPrecede mode b a = true) :
    findPosition? mode v keys = kindredPosition? mode v keys ↔
      ∀ i, kindredPosition? mode v keys = some i →
        ∀ k ∈ probedKeys mode v keys, k.1.kind ≠ v.kind → (mayPrecede mode v k.1 = true ↔ k.2 ≤ i) := by
  by_cases hv : v = .empty
  · simp [hv, findPosition?, kindredPosition?]
  rw [findPosition?, if_neg hv, if_neg hmode]
  cases hfound : kindredPosition? mode v keys with
  | none => simp [approximatePosition?_of_kindred_none hv h hmode hfound]
  | some i =>
      obtain ⟨⟨key, hkey, hkind, hbefore⟩, hafter⟩ :=
        (kindredPosition?_eq_some_iff hmode hv h).1 hfound
      have hmem : (key, i) ∈ filledKeys keys :=
        mem_zipIdx_filter.2 ⟨hkey, bne_iff_ne.2 (ne_empty_of_kind_eq hv hkind)⟩
      obtain ⟨place, hplace⟩ := List.mem_iff_getElem?.1 hmem
      rw [approximatePosition?_eq_some_iff_probed hplace hkind]
      constructor
      · rintro hall _ ⟨⟩ k hk -
        exact hall k hk
      · rintro hother ⟨key', j⟩ hk
        by_cases hkind' : key'.kind = v.kind
        · -- A key of the kind of the value points to where it stands itself.
          obtain ⟨_, -, hin⟩ := mem_probedKeys.1 hk
          have hkey' := (mem_zipIdx_filter.1 (List.mem_of_getElem? hin)).1
          constructor
          · intro hbefore'
            refine Nat.le_of_not_lt fun hlt => ?_
            rw [hafter j key' hlt hkey' hkind'] at hbefore'
            cases hbefore'
          · exact mayPrecede_of_le hv h hkey hkind hbefore hkey' hkind'
        · exact hother i rfl _ hk hkind'

/-- Five is found behind two texts and a logical value that are compared with it and point the right
way. -/
theorem findPosition?_eq_kindred_five :
    findPosition? .descending (.number 5)
        [.boolean true, .text "rooms", .number 9, .number 5, .empty, .number 2] = some 3 ∧
      kindredPosition? .descending (.number 5)
        [.boolean true, .text "rooms", .number 9, .number 5, .empty, .number 2] = some 3 := by
  have hfound : kindredPosition? .descending (.number 5)
      [.boolean true, .text "rooms", .number 9, .number 5, .empty, .number 2] = some 3 := by
    decide +kernel
  refine ⟨?_, hfound⟩
  rw [← hfound]
  refine (findPosition?_eq_kindred_iff .descending (by decide) _ _ (by decide +kernel)).2 ?_
  rw [hfound]
  rintro _ ⟨⟩
  decide +kernel

/-- A text between one and two hides the two from a lookup, although the numbers ascend. -/
theorem findPosition?_misled :
    ([.number 1, .text "x", .number 2].filter fun key : CellValue => key.kind == (CellValue.number 2).kind).IsChain
        (fun a b => mayPrecede .ascending b a = true) ∧
      findPosition? .ascending (.number 2) [.number 1, .text "x", .number 2] = some 0 ∧
      kindredPosition? .ascending (.number 2) [.number 1, .text "x", .number 2] = some 2 := by
  decide +kernel

end PaintQuote.Formula.Functions
