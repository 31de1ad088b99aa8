import Mathlib.Data.List.Forall2
import PaintQuote.Engine.CacheKey
import PaintQuote.Proofs.Decimal.Normalize

/-!
# What cache keys tell apart

The code of each part of a key says where it ends and which part it is, except that names count in
either case and numbers by value (`Separates`).  So two keys are equal exactly when they were made
from the same formula and from parts that agree one by one (`CacheKey.ofParts_eq_iff`).
-/

namespace PaintQuote.Engine

open Sheet

/-- The code of a part can be told from what follows it, and tells parts apart up to a relation. -/
def Separates {α : Type} (code : α → List Nat) (alike : α → α → Prop) : Prop :=
  ∀ a b r r', code a ++ r = code b ++ r' ↔ alike a b ∧ r = r'

namespace CacheKey

/-! ## Texts and cells -/

theorem separates_text : Separates textCode Eq := by
  intro s t r r'
  constructor
  · intro h
    obtain ⟨hlength, hrest⟩ := List.cons.inj h
    have hlists : (s.toList.map Char.toNat).length = (t.toList.map Char.toNat).length := by
      rw [List.length_map, List.length_map, String.length_toList, String.length_toList, hlength]
    obtain ⟨hmap, htail⟩ := List.append_inj hrest hlists
    have hinj : Function.Injective Char.toNat := fun c d hcd => Char.toNat_inj.1 hcd
    exact ⟨String.toList_inj.1 (List.map_injective_iff.2 hinj hmap), htail⟩
  · rintro ⟨rfl, rfl⟩
    rfl

theorem separates_address : Separates addressCode Eq := by
  intro a b r r'
  obtain ⟨row, column⟩ := a
  obtain ⟨row', column'⟩ := b
  simp [addressCode, and_assoc]

theorem separates_cell : Separates cellCode Eq := by
  intro k l r r'
  obtain ⟨⟨sheet⟩, address⟩ := k
  obtain ⟨⟨sheet'⟩, address'⟩ := l
  rw [cellCode, cellCode, List.append_assoc, List.append_assoc, separates_text, separates_address]
  simp [and_assoc]

/-! ## Values -/

theorem separates_number : Separates numberCode fun m n => m.normalize = n.normalize := by
  intro m n r r'
  simp only [numberCode, List.cons_append, List.nil_append, List.cons.injEq]
  constructor
  · rintro ⟨hn, hs, hc, hr⟩
    refine ⟨Decimal.ext_parts ?_ hc hs, hr⟩
    cases hm : m.normalize.negative <;> cases hn' : n.normalize.negative <;> simp_all
  · rintro ⟨heq, hr⟩
    rw [heq]
    exact ⟨rfl, rfl, rfl, hr⟩

theorem separates_value : Separates valueCode fun v w => v.agrees w = true := by
  intro v w r r'
  show valueCode v ++ r = valueCode w ++ r' ↔ v.agrees w = true ∧ r = r'
  rw [CellValue.agrees_iff]
  cases v <;> cases w <;>
    simp [valueCode, CellValue.normalize, separates_number _ _ r r', separates_text _ _ r r']
  case boolean.boolean b b' =>
    cases b <;> cases b' <;> simp
  case error.error e e' =>
    intro _
    exact ⟨ErrorValue.code_injective, congrArg ErrorValue.code⟩

/-! ## Parts -/

/-- Two names stand for the same, up to the form of numbers. -/
def TargetsAgree : Option Target → Option Target → Prop
  | some (.constant v), some (.constant w) => v.agrees w = true
  | target?, target?' => target? = target?'

theorem separates_target : Separates targetCode TargetsAgree := by
  intro t t' r r'
  cases t with
  | none =>
      rcases t' with _ | ⟨_⟩ | ⟨_, _⟩ | ⟨_⟩ <;> simp [targetCode, TargetsAgree]
  | some t =>
      rcases t with ⟨k⟩ | ⟨sheet, area⟩ | ⟨v⟩
      · rcases t' with _ | ⟨k'⟩ | ⟨_, _⟩ | ⟨_⟩ <;>
          simp [targetCode, TargetsAgree, separates_cell _ _ r r']
      · rcases t' with _ | ⟨_⟩ | ⟨sheet', area'⟩ | ⟨_⟩ <;> simp [targetCode, TargetsAgree]
        obtain ⟨sheet⟩ := sheet
        obtain ⟨sheet'⟩ := sheet'
        obtain ⟨start, stop, _, _⟩ := area
        obtain ⟨start', stop', _, _⟩ := area'
        rw [separates_text, separates_address, separates_address]
        simp [and_assoc]
      · rcases t' with _ | ⟨_⟩ | ⟨_, _⟩ | ⟨w⟩ <;>
          simp [targetCode, TargetsAgree, separates_value _ _ r r']

/-- Two parts of a key are the same, up to the case of names and the form of numbers. -/
def Part.Agree : Part → Part → Prop
  | .name s target?, .name s' target?' =>
      Text.asciiUpper s = Text.asciiUpper s' ∧ TargetsAgree target? target?'
  | .dependency cell value, .dependency cell' value' => cell = cell' ∧ value.agrees value' = true
  | _, _ => False

theorem separates_part : Separates partCode Part.Agree := by
  intro p q r r'
  cases p with
  | name name target? =>
      cases q with
      | name name' target?' =>
          simp only [partCode, Part.Agree, List.cons_append, List.append_assoc, List.cons.injEq,
            true_and]
          rw [separates_text, separates_target, and_assoc]
      | dependency _ _ => simp [partCode, Part.Agree]
  | dependency cell value =>
      cases q with
      | name _ _ => simp [partCode, Part.Agree]
      | dependency cell' value' =>
          simp only [partCode, Part.Agree, List.cons_append, List.append_assoc, List.cons.injEq,
            true_and]
          rw [separates_cell, separates_value, and_assoc]

theorem partCode_ne_nil (p : Part) : partCode p ≠ [] := by
  cases p <;> simp [partCode]

/-! ## Keys -/

theorem flatMap_partCode_eq_iff (ps : List Part) :
    ∀ qs : List Part, ps.flatMap partCode = qs.flatMap partCode ↔ List.Forall₂ Part.Agree ps qs := by
  induction ps with
  | nil =>
      intro qs
      cases qs with
      | nil => simp
      | cons q qs => simp [partCode_ne_nil]
  | cons p ps ih =>
      intro qs
      cases qs with
      | nil => simp [partCode_ne_nil]
      | cons q qs =>
          rw [List.flatMap_cons, List.flatMap_cons, separates_part, List.forall₂_cons, ih]

/-- Two keys are equal exactly when they were made from the same formula and from parts that agree
one by one. -/
theorem ofParts_eq_iff (formula formula' : String) (ps qs : List Part) :
    ofParts formula ps = ofParts formula' qs ↔
      formula = formula' ∧ List.Forall₂ Part.Agree ps qs := by
  rw [ofParts, ofParts, CacheKey.mk.injEq, separates_text, flatMap_partCode_eq_iff]

end CacheKey

end PaintQuote.Engine
