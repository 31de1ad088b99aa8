import PaintQuote.Proofs.Decimal.Units
import PaintQuote.Proofs.Estimate.Validity
import PaintQuote.Proofs.Values.Positions

/-!
# Discounts

The discount for a number of rooms is the one that is listed for the greatest number up to it, and the last
one of several that are listed for that number (`Rates.IsDiscountFor`).  Sorting the list keeps the order of
those for one number (`Rates.filter_sortedDiscounts`), so this is the last one in the sorted list for no more
rooms (`Rates.isDiscountFor_of_last`), and a lookup in the table of discounts gives it
(`Rates.exists_discountLookup`).
-/

namespace PaintQuote.Estimate.Rates

open Sheet Formula

/-- The last of the discounts for the greatest number of rooms that is no greater than the given one. -/
structure IsDiscountFor (r : Rates) (n : Nat) (d : RoomDiscount) : Prop where
  last : (r.discounts.filter (·.rooms = d.rooms)).getLast? = some d
  le : d.rooms.toNat ≤ n
  greatest : ∀ d' ∈ r.discounts, d'.rooms.toNat ≤ n → d'.rooms ≤ d.rooms

/-- There are no two discounts for a number of rooms. -/
theorem IsDiscountFor.unique {r : Rates} {n : Nat} {d d' : RoomDiscount} (h : r.IsDiscountFor n d)
    (h' : r.IsDiscountFor n d') : d = d' := by
  have hmem : ∀ {e : RoomDiscount}, r.IsDiscountFor n e → e ∈ r.discounts := fun he =>
    (List.mem_filter.1 (List.mem_of_getLast? he.last)).1
  have hrooms : d.rooms = d'.rooms :=
    UInt32.le_antisymm (h'.greatest d (hmem h) h.le) (h.greatest d' (hmem h') h'.le)
  exact Option.some.inj (h.last.symm.trans (hrooms ▸ h'.last))

/-! ## The sorted list -/

section

variable (r : Rates)

theorem rooms_le_trans (a b c : RoomDiscount) (h : decide (a.rooms ≤ b.rooms) = true)
    (h' : decide (b.rooms ≤ c.rooms) = true) : decide (a.rooms ≤ c.rooms) = true :=
  decide_eq_true (UInt32.le_trans (of_decide_eq_true h) (of_decide_eq_true h'))

theorem rooms_le_total (a b : RoomDiscount) :
    (decide (a.rooms ≤ b.rooms) || decide (b.rooms ≤ a.rooms)) = true := by
  rw [Bool.or_eq_true, decide_eq_true_eq, decide_eq_true_eq]
  exact UInt32.le_total _ _

theorem sortedDiscounts_pairwise : r.sortedDiscounts.Pairwise fun a b => a.rooms ≤ b.rooms :=
  (List.pairwise_mergeSort rooms_le_trans rooms_le_total _).imp of_decide_eq_true

theorem mem_sortedDiscounts {d : RoomDiscount} : d ∈ r.sortedDiscounts ↔ d ∈ r.discounts :=
  List.mem_mergeSort

/-- The sorted list has the discounts for one number of rooms in the order of the list. -/
theorem filter_sortedDiscounts (rooms : UInt32) :
    r.sortedDiscounts.filter (·.rooms = rooms) = r.discounts.filter (·.rooms = rooms) := by
  have hequal : (r.discounts.filter (·.rooms = rooms)).Pairwise fun a b =>
      decide (a.rooms ≤ b.rooms) = true := by
    refine List.pairwise_of_forall_mem_list fun a ha b hb => decide_eq_true ?_
    rw [of_decide_eq_true (List.mem_filter.1 ha).2, of_decide_eq_true (List.mem_filter.1 hb).2]
    exact UInt32.le_refl _
  have hsublist : (r.discounts.filter (·.rooms = rooms)).Sublist r.sortedDiscounts :=
    List.sublist_mergeSort rooms_le_trans rooms_le_total hequal List.filter_sublist
  have hfilter := hsublist.filter fun d => decide (d.rooms = rooms)
  rw [List.filter_filter] at hfilter
  simp only [Bool.and_self] at hfilter
  exact (hfilter.eq_of_length ((List.mergeSort_perm r.discounts _).filter _).length_eq.symm).symm

variable {r} {n i : Nat} {d : RoomDiscount}

/-- The last of the sorted discounts for no more than a number of rooms is the discount for this number. -/
theorem isDiscountFor_of_last (hd : r.sortedDiscounts[i]? = some d) (hle : d.rooms.toNat ≤ n)
    (hafter : ∀ j d', i < j → r.sortedDiscounts[j]? = some d' → n < d'.rooms.toNat) :
    r.IsDiscountFor n d where
  last := by
    rw [← filter_sortedDiscounts]
    refine Functions.getLast?_filter ⟨hd, decide_eq_true rfl⟩ fun j d' hj hd' => decide_eq_false fun h => ?_
    have hgreater := hafter j d' hj hd'
    rw [h] at hgreater
    omega
  le := hle
  greatest d' hd' hle' := by
    obtain ⟨j, hj, rfl⟩ := List.getElem_of_mem ((mem_sortedDiscounts r).2 hd')
    obtain ⟨hi, rfl⟩ := List.getElem?_eq_some_iff.1 hd
    rcases Nat.lt_trichotomy j i with hlt | rfl | hgt
    · exact List.pairwise_iff_getElem.1 (sortedDiscounts_pairwise r) j i hj hi hlt
    · exact UInt32.le_refl _
    · exact absurd hle' (Nat.not_le.2 (hafter j _ hgt (List.getElem?_eq_getElem hj)))

end

/-! ## The table -/

/-- The number of rooms of a discount, as its key in the table. -/
def roomsKey (d : RoomDiscount) : CellValue := .number (.ofNat d.rooms.toNat)

/-- A number of rooms comes behind a key that is no greater. -/
theorem mayPrecede_roomsKey {n : Nat} (hn : n < Decimal.coefficientLimit) (d : RoomDiscount) :
    Functions.mayPrecede .ascending (.number (.ofNat n)) (roomsKey d) = decide (d.rooms.toNat ≤ n) := by
  have hlimit : d.rooms.toNat < Decimal.coefficientLimit := Nat.lt_trans d.rooms.toNat_lt (by decide)
  show ((Decimal.ofNat d.rooms.toNat).compare (.ofNat n) != .gt) = _
  rw [Decimal.compare_ofNat hlimit hn, Bool.eq_iff_iff, bne_iff_ne, Nat.compare_ne_gt, decide_eq_true_eq]

/-- The table of discounts has the discount for every number of rooms. -/
theorem exists_discountLookup {r : Rates} (hvalid : r.fault? = none) {n : Nat} (hone : 1 ≤ n)
    (hn : n < Decimal.coefficientLimit) :
    ∃ d, r.IsDiscountFor n d ∧
      Functions.verticalLookup (.number (.ofNat n)) (.array (r.sortedDiscounts.map fun d =>
        roomsKey d :: [.number d.discount])) (.number (.ofNat 2)) (some (.boolean true)) =
        .ok (.scalar (.number d.discount)) := by
  obtain ⟨first, hfirst, hrooms⟩ := exists_discount hvalid
  have hfirstLe : first.rooms.toNat ≤ n := Nat.le_trans (UInt32.le_iff_toNat_le.1 hrooms) hone
  obtain ⟨i, d, ⟨hd, hle⟩, hafter⟩ := Functions.exists_last (q := fun d => decide (d.rooms.toNat ≤ n))
    ((mem_sortedDiscounts r).2 hfirst) (decide_eq_true hfirstLe)
  have hgreater : ∀ j d', i < j → r.sortedDiscounts[j]? = some d' → n < d'.rooms.toNat := fun j d' hj hd' =>
    Nat.not_le.1 (of_decide_eq_false (hafter j d' hj hd'))
  refine ⟨d, isDiscountFor_of_last hd (of_decide_eq_true hle) hgreater, ?_⟩
  have hnumber : wholeNumber (.number (.ofNat 2)) = .ok ((0 + 1 + 1 : Nat) : Int) := by decide
  have hascend : (r.sortedDiscounts.map roomsKey).IsChain fun a b =>
      Functions.mayPrecede .ascending b a = true := by
    refine (List.pairwise_map.2 ((sortedDiscounts_pairwise r).imp fun {a b} hab => ?_)).isChain
    rw [roomsKey, mayPrecede_roomsKey (Nat.lt_trans b.rooms.toNat_lt (by decide))]
    exact decide_eq_true (UInt32.le_iff_toNat_le.1 hab)
  refine Functions.verticalLookup_ascending roomsKey (fun d => [.number d.discount]) nofun rfl hnumber
    (fun _ _ => rfl) (fun _ _ => nofun) hascend hd ?_ rfl (fun j d' hj hd' => ?_) rfl
  · rw [mayPrecede_roomsKey hn]
    exact hle
  · rw [mayPrecede_roomsKey hn]
    exact hafter j d' hj hd'

end PaintQuote.Estimate.Rates
