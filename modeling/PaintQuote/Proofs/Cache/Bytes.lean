import PaintQuote.Engine.KeyBytes
import PaintQuote.Proofs.Cache.Codes
import PaintQuote.Proofs.Text.UpperCase

/-!
# What the bytes of cache keys tell apart

Nothing ends the bytes of a key, but each part of it says how far it goes: a text by its length, other
numbers by their width, and everything else by the tag before it.  So a part can be told from whatever
follows it (`Delimits`), and what is put together of such parts can be told apart as well
(`Delimits.append`).  Two keys are equal exactly when they were made from the same formula and from parts
that agree one by one, and exactly when their bytes are equal (`bytes_eq_iff`).
-/

namespace PaintQuote

open Sheet

namespace Engine.CacheKey

/-- The bytes of what fits can be told from those that follow, and tell things apart up to a relation. -/
def Delimits {α : Type} (fits : α → Prop) (bytes : α → List UInt8) (alike : α → α → Prop) : Prop :=
  ∀ a b, fits a → fits b → ∀ r r', bytes a ++ r = bytes b ++ r' ↔ alike a b ∧ r = r'

namespace Delimits

variable {α β : Type} {fits fits' : α → Prop} {bytes bytes' : α → List UInt8} {alike alike' : α → α → Prop}

/-- Bytes of one length are told apart if they are different. -/
theorem of_length {n : Nat} (hlength : ∀ a, (bytes a).length = n)
    (hbytes : ∀ a b, fits a → fits b → (bytes a = bytes b ↔ alike a b)) : Delimits fits bytes alike := by
  intro a b ha hb r r'
  rw [← hbytes a b ha hb]
  constructor
  · intro h
    exact List.append_inj h ((hlength a).trans (hlength b).symm)
  · rintro ⟨h, rfl⟩
    rw [h]

theorem append (h : Delimits fits bytes alike) (h' : Delimits fits' bytes' alike') :
    Delimits (fun a => fits a ∧ fits' a) (fun a => bytes a ++ bytes' a)
      fun a b => alike a b ∧ alike' a b := by
  rintro a b ⟨ha, ha'⟩ ⟨hb, hb'⟩ r r'
  rw [List.append_assoc, List.append_assoc, h a b ha hb, h' a b ha' hb', and_assoc]

/-- What is told apart by a part of it is told apart as that part is. -/
theorem on (h : Delimits fits bytes alike) (f : β → α) :
    Delimits (fun b => fits (f b)) (fun b => bytes (f b)) fun a b => alike (f a) (f b) :=
  fun a b => h (f a) (f b)

theorem of_iff (h : Delimits fits bytes alike) (hiff : ∀ a b, alike a b ↔ alike' a b) :
    Delimits fits bytes alike' := fun a b ha hb r r' => by rw [h a b ha hb, hiff]

end Delimits

/-! ## Numbers and texts -/

theorem littleEndian_inj (width : Nat) : ∀ {m n : Nat}, m < twoTo (8 * width) → n < twoTo (8 * width) →
    (littleEndian width m = littleEndian width n ↔ m = n) := by
  induction width with
  | zero =>
      intro m n hm hn
      obtain rfl := Nat.lt_one_iff.1 hm
      obtain rfl := Nat.lt_one_iff.1 hn
      simp
  | succ width ih =>
      intro m n hm hn
      have hbyte : twoTo (8 * (width + 1)) = twoTo (8 * width) * 256 := twoTo_add (8 * width) 8
      rw [hbyte] at hm hn
      have hrest := ih (m := m / 256) (n := n / 256) (by omega) (by omega)
      rw [littleEndian, littleEndian, List.cons.injEq, hrest, ← UInt8.toNat_inj, UInt8.toNat_ofNat',
        UInt8.toNat_ofNat']
      omega

theorem delimits_number (width : Nat) : Delimits (· < twoTo (8 * width)) (littleEndian width) Eq :=
  .of_length (length_littleEndian width) fun _ _ => littleEndian_inj width

theorem delimits_text : Delimits TextFits textBytes Eq := by
  intro s t hs ht r r'
  rw [textBytes, textBytes, List.append_assoc, List.append_assoc, delimits_number 8 _ _ hs ht]
  constructor
  · rintro ⟨hsize, hrest⟩
    have hlength : s.toByteArray.data.toList.length = t.toByteArray.data.toList.length := by
      simpa using hsize
    obtain ⟨hdata, hr⟩ := List.append_inj hrest hlength
    exact ⟨String.toByteArray_inj.1 (ByteArray.ext (Array.toList_inj.1 hdata)), hr⟩
  · rintro ⟨rfl, rfl⟩
    exact ⟨rfl, rfl⟩

theorem textFits_asciiUpper {s : String} (h : TextFits s) : TextFits (Text.asciiUpper s) :=
  Nat.lt_of_le_of_lt (Nat.le_of_eq (Text.utf8ByteSize_asciiUpper s)) h

/-! ## Cells -/

theorem delimits_address : Delimits AddressFits addressBytes Eq := by
  refine (((delimits_number 4).on Address.row).append ((delimits_number 2).on Address.column)).of_iff ?_
  rintro ⟨row, column⟩ ⟨row', column'⟩
  simp

theorem delimits_cell : Delimits CellFits cellBytes Eq := by
  refine ((delimits_text.on fun k : CellKey => k.sheet.text).append
    (delimits_address.on CellKey.address)).of_iff ?_
  rintro ⟨⟨sheet⟩, address⟩ ⟨⟨sheet'⟩, address'⟩
  simp

/-! ## Values -/

/-- The scale has the bits from the seventeenth on, and leaves the highest one to the sign. -/
theorem numberFlags_lt (n : Decimal) : numberFlags n < twoTo 32 := by
  have hscale : n.scale ≤ 28 := n.scale_le
  have hsign := Bool.toNat_le n.negative
  change n.scale * 65536 + n.negative.toNat * 2147483648 < 4294967296
  omega

theorem numberFlags_inj {m n : Decimal} :
    numberFlags m = numberFlags n ↔ m.scale = n.scale ∧ m.negative = n.negative := by
  have hscale : m.scale ≤ 28 := m.scale_le
  have hscale' : n.scale ≤ 28 := n.scale_le
  change m.scale * 65536 + m.negative.toNat * 2147483648 = n.scale * 65536 + n.negative.toNat * 2147483648 ↔ _
  cases m.negative <;> cases n.negative <;> simp <;> omega

theorem delimits_decimal :
    Delimits (fun _ : Decimal => True) numberBytes fun m n => m.normalize = n.normalize := by
  have hflags := (delimits_number 4).on fun n : Decimal => numberFlags n.normalize
  have hcoefficient := (delimits_number 12).on fun n : Decimal => n.normalize.coefficient
  intro m n _ _ r r'
  have hfits : ∀ d : Decimal, numberFlags d.normalize < twoTo 32 ∧ d.normalize.coefficient < twoTo 96 :=
    fun d => ⟨numberFlags_lt _, d.normalize.coefficient_lt⟩
  refine ((hflags.append hcoefficient) m n (hfits m) (hfits n) r r').trans (and_congr_left fun _ => ?_)
  show numberFlags m.normalize = numberFlags n.normalize ∧ m.normalize.coefficient = n.normalize.coefficient ↔
    m.normalize = n.normalize
  rw [numberFlags_inj]
  constructor
  · rintro ⟨⟨hs, hn⟩, hc⟩
    exact Decimal.ext_parts hn hc hs
  · intro h
    rw [h]
    exact ⟨⟨rfl, rfl⟩, rfl⟩

theorem delimits_value : Delimits ValueFits valueBytes fun v w => v.agrees w = true := by
  intro v w hv hw r r'
  show valueBytes v ++ r = valueBytes w ++ r' ↔ v.agrees w = true ∧ r = r'
  rw [CellValue.agrees_iff]
  cases v <;> cases w <;> simp [valueBytes, CellValue.normalize]
  case boolean.boolean b b' => cases b <;> cases b' <;> simp
  case number.number m n => exact delimits_decimal m n trivial trivial r r'
  case text.text s t => exact delimits_text s t hv hw r r'
  case error.error e e' =>
    intro _
    cases e <;> cases e' <;> decide

/-! ## Parts -/

theorem delimits_target : Delimits TargetFits targetBytes TargetsAgree := by
  intro t t' ht ht' r r'
  cases t with
  | none => rcases t' with _ | ⟨_⟩ | ⟨_, _⟩ | ⟨_⟩ <;> simp [targetBytes, TargetsAgree]
  | some t =>
      rcases t with ⟨k⟩ | ⟨sheet, area⟩ | ⟨v⟩
      · rcases t' with _ | ⟨k'⟩ | ⟨_, _⟩ | ⟨_⟩ <;> simp [targetBytes, TargetsAgree]
        exact delimits_cell k k' ht ht' r r'
      · rcases t' with _ | ⟨_⟩ | ⟨sheet', area'⟩ | ⟨_⟩ <;> simp [targetBytes, TargetsAgree]
        obtain ⟨hsheet, hstart, hstop⟩ := ht
        obtain ⟨hsheet', hstart', hstop'⟩ := ht'
        obtain ⟨sheet⟩ := sheet
        obtain ⟨sheet'⟩ := sheet'
        obtain ⟨start, stop, _, _⟩ := area
        obtain ⟨start', stop', _, _⟩ := area'
        rw [delimits_text _ _ hsheet hsheet', delimits_address _ _ hstart hstart',
          delimits_address _ _ hstop hstop']
        simp [and_assoc]
      · rcases t' with _ | ⟨_⟩ | ⟨_, _⟩ | ⟨w⟩ <;> simp [targetBytes, TargetsAgree]
        exact delimits_value v w ht ht' r r'

theorem delimits_part : Delimits PartFits partBytes Part.Agree := by
  intro p q hp hq r r'
  cases p with
  | name s target? =>
      cases q with
      | dependency _ _ => simp [partBytes, Part.Agree]
      | name s' target?' =>
          have hs : TextFits (Text.asciiUpper s) := textFits_asciiUpper hp.1
          have hs' : TextFits (Text.asciiUpper s') := textFits_asciiUpper hq.1
          simp only [partBytes, Part.Agree, List.cons_append, List.append_assoc, List.cons.injEq, true_and]
          rw [delimits_text _ _ hs hs', delimits_target _ _ hp.2 hq.2, and_assoc]
  | dependency cell value =>
      cases q with
      | name _ _ => simp [partBytes, Part.Agree]
      | dependency cell' value' =>
          simp only [partBytes, Part.Agree, List.cons_append, List.append_assoc, List.cons.injEq, true_and]
          rw [delimits_cell _ _ hp.1 hq.1, delimits_value _ _ hp.2 hq.2, and_assoc]

theorem partBytes_ne_nil (p : Part) : partBytes p ≠ [] := by
  cases p <;> simp [partBytes]

/-! ## Keys -/

/-- The bytes of parts are equal exactly when the parts agree one by one. -/
theorem flatMap_partBytes_eq_iff (ps : List Part) : ∀ qs : List Part, (∀ p ∈ ps, PartFits p) →
    (∀ q ∈ qs, PartFits q) →
    (ps.flatMap partBytes = qs.flatMap partBytes ↔ List.Forall₂ Part.Agree ps qs) := by
  induction ps with
  | nil =>
      intro qs _ _
      cases qs with
      | nil => simp
      | cons q qs => simp [partBytes_ne_nil]
  | cons p ps ih =>
      intro qs hps hqs
      cases qs with
      | nil => simp [partBytes_ne_nil]
      | cons q qs =>
          rw [List.forall_mem_cons] at hps hqs
          rw [List.flatMap_cons, List.flatMap_cons, delimits_part p q hps.1 hqs.1, List.forall₂_cons,
            ih qs hps.2 hqs.2]

/-- Whatever two keys are made from, they are equal exactly when the formulas are equal and the parts agree
one by one: parts of one kind, names in either case for what agrees, and equal cells with equal values, of
which numbers are compared by value.  If everything has room in its bytes, the bytes of the keys are equal
in the same cases. -/
theorem bytes_eq_iff (formula formula' : String) (ps qs : List Part) :
    (ofParts formula ps = ofParts formula' qs ↔
      formula = formula' ∧ List.Forall₂ Part.Agree ps qs) ∧
    (Fits formula ps → Fits formula' qs →
      (bytes formula ps = bytes formula' qs ↔
        formula = formula' ∧ List.Forall₂ Part.Agree ps qs)) := by
  refine ⟨ofParts_eq_iff formula formula' ps qs, fun hfits hfits' => ?_⟩
  rw [bytes, bytes, List.cons.injEq, delimits_text _ _ hfits.1 hfits'.1,
    flatMap_partBytes_eq_iff ps qs hfits.2 hfits'.2]
  simp

/-- A name in lower case and a zero with a sign and two digits after the point change no byte, but a text
that looks like the number does. -/
theorem bytes_eq_iff_rate :
    bytes "rate*A1" [.name "rate" none, .dependency ⟨⟨"S"⟩, ⟨0, 0⟩⟩ (.number 0)] =
      bytes "rate*A1"
        [.name "RATE" none, .dependency ⟨⟨"S"⟩, ⟨0, 0⟩⟩ (.number ⟨true, 0, 2, by decide, by decide⟩)] ∧
    bytes "rate*A1" [.name "rate" none, .dependency ⟨⟨"S"⟩, ⟨0, 0⟩⟩ (.number 0)] ≠
      bytes "rate*A1" [.name "rate" none, .dependency ⟨⟨"S"⟩, ⟨0, 0⟩⟩ (.text "0")] := by
  constructor
  · refine ((bytes_eq_iff _ _ _ _).2 (by decide +kernel) (by decide +kernel)).2 ⟨rfl, ?_⟩
    exact .cons ⟨by decide +kernel, rfl⟩ (.cons ⟨rfl, by decide +kernel⟩ .nil)
  · intro h
    obtain ⟨-, hagree⟩ := ((bytes_eq_iff _ _ _ _).2 (by decide +kernel) (by decide +kernel)).1 h
    cases hagree with
    | cons _ hrest =>
        cases hrest with
        | cons hvalue _ => exact absurd hvalue.2 (by decide +kernel)

end Engine.CacheKey

end PaintQuote
