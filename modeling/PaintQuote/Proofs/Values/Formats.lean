import PaintQuote.Formula.Functions.Arithmetic
import PaintQuote.Formula.Functions.Text
import PaintQuote.Proofs.Decimal.Reading
import PaintQuote.Proofs.Decimal.Results
import PaintQuote.Proofs.Formula.Characters

/-!
# Reading what is written in a format

A number is written in a format with its sign first, then the text in front, then its digits, with commas
among them if the format asks for them.  Reading takes dollar signs off the front of the text and leaves
the commas out, so that the digits are read as the number that was rounded (`amount?_write_eq_some`).  Zeros with
which a fraction is filled up may find no room in a decimal; they are rounded off again.

After a minus the dollar sign is not at the front, and such a text is not read at all
(`amount?_write_eq_none`).

* `text_reads_back_iff`: which formatted numbers are read back as they were rounded.
-/

namespace PaintQuote.Formula.Functions

open Text Decimal

namespace NumberFormat

variable {f : NumberFormat} {m : Decimal} {whole fraction : List Char}

/-! ## Commas -/

theorem mem_grouped {c : Char} : ∀ {ds : List Char}, c ∈ grouped ds → c ∈ ds ∨ c = ','
  | [], h => by cases h
  | d :: rest, h => by
      rw [grouped] at h
      split at h
      next =>
        rcases List.mem_cons.1 h with rfl | h
        · exact Or.inl List.mem_cons_self
        rcases List.mem_cons.1 h with rfl | h
        · exact Or.inr rfl
        · exact (mem_grouped h).imp_left (List.mem_cons_of_mem _)
      next =>
        rcases List.mem_cons.1 h with rfl | h
        · exact Or.inl List.mem_cons_self
        · exact (mem_grouped h).imp_left (List.mem_cons_of_mem _)

/-- Leaving the commas out leaves the digits. -/
theorem filter_grouped : ∀ {ds : List Char}, (∀ c ∈ ds, c.isDigit = true) →
    (grouped ds).filter (· != ',') = ds
  | [], _ => rfl
  | d :: rest, h => by
      obtain ⟨hd, hrest⟩ := List.forall_mem_cons.1 h
      have hkeep : (d != ',') = true := bne_iff_ne.2 (by rintro rfl; cases hd)
      have hcomma : ¬ ((',' : Char) != ',') = true := by decide
      rw [grouped]
      split
      next =>
        rw [List.filter_cons_of_pos (p := (· != ',')) hkeep,
          List.filter_cons_of_neg (p := (· != ',')) hcomma, filter_grouped hrest]
      next => rw [List.filter_cons_of_pos (p := (· != ',')) hkeep, filter_grouped hrest]

theorem grouped_cons (c : Char) (rest : List Char) : ∃ more, grouped (c :: rest) = c :: more := by
  rw [grouped]
  split
  next => exact ⟨_, rfl⟩
  next => exact ⟨_, rfl⟩

/-! ## Digits -/

/-- The whole part as the format has it. -/
def wholeChars (f : NumberFormat) (whole : List Char) : List Char :=
  if f.grouping then grouped whole else whole

/-- The fraction of a number, filled up with zeros to the places of the format. -/
def fractionChars (f : NumberFormat) (m : Decimal) : List Char :=
  m.digitParts.2 ++ List.replicate (f.places - m.scale) '0'

theorem isDigit_fractionChars : ∀ c ∈ f.fractionChars m, c.isDigit = true := by
  intro c hc
  rcases List.mem_append.1 hc with hc | hc
  · exact (digitParts_spec m).2.2.1 c hc
  · rw [List.eq_of_mem_replicate hc]
    rfl

/-- A number with no more places than the format is written with all its digits. -/
theorem write_eq (hpercent : f.percent = false) (hscale : m.scale ≤ f.places) :
    f.write m = minus m ++ (f.lead ++ pointed (f.wholeChars m.digitParts.1) (f.fractionChars m)) := by
  have hlength : m.digitParts.2.length = m.scale := (digitParts_spec m).2.2.2.2
  have hfixed : m.toFixed f.places = (m.digitParts.1, f.fractionChars m) := by
    rw [toFixed, hlength]
    refine congrArg _ (List.take_of_length_le ?_)
    rw [List.length_append, List.length_replicate, hlength]
    omega
  rw [write, hfixed, hpercent]
  simp only [Bool.false_eq_true, if_false, List.append_nil, List.append_assoc]
  rfl

theorem mem_pointed {c : Char} (h : c ∈ pointed whole fraction) : c ∈ whole ∨ c = '.' ∨ c ∈ fraction := by
  rw [pointed] at h
  split at h
  next => exact Or.inl h
  next => simpa using h

/-- The digits without the commas. -/
theorem filter_pointed (hwhole : ∀ c ∈ whole, c.isDigit = true)
    (hfraction : ∀ c ∈ fraction, c.isDigit = true) :
    (pointed (f.wholeChars whole) fraction).filter (· != ',') = pointed whole fraction := by
  have hkeep : ∀ {ds : List Char}, (∀ c ∈ ds, c.isDigit = true) → ds.filter (· != ',') = ds := fun hds =>
    List.filter_eq_self.2 fun c hc => bne_iff_ne.2 (by rintro rfl; cases hds _ hc)
  have hchars : (f.wholeChars whole).filter (· != ',') = whole := by
    rw [wholeChars]
    split
    next => exact filter_grouped hwhole
    next => exact hkeep hwhole
  rw [pointed, pointed]
  split
  next => exact hchars
  next =>
    rw [List.filter_append, hchars, List.filter_cons_of_pos (p := (· != ',')) (by decide), hkeep hfraction]

/-- The digits that are written start with a digit, and have commas and a point besides. -/
theorem exists_pointed_wholeChars (f : NumberFormat) (hne : whole ≠ [])
    (hwhole : ∀ c ∈ whole, c.isDigit = true) (hfraction : ∀ c ∈ fraction, c.isDigit = true) :
    ∃ c rest, pointed (f.wholeChars whole) fraction = c :: rest ∧ c.isDigit = true ∧
      ∀ e ∈ c :: rest, e.isDigit = true ∨ e = ',' ∨ e = '.' := by
  obtain ⟨c, more, rfl⟩ := List.exists_cons_of_ne_nil hne
  obtain ⟨start, hstart⟩ : ∃ start, f.wholeChars (c :: more) = c :: start := by
    rw [wholeChars]
    split
    next => exact grouped_cons c more
    next => exact ⟨more, rfl⟩
  obtain ⟨rest, hrest⟩ : ∃ rest, pointed (f.wholeChars (c :: more)) fraction = c :: rest := by
    rw [hstart, pointed]
    split
    next => exact ⟨_, rfl⟩
    next => exact ⟨_, rfl⟩
  refine ⟨c, rest, hrest, hwhole c List.mem_cons_self, fun e he => ?_⟩
  rw [← hrest] at he
  have hgrouped : ∀ {e}, e ∈ f.wholeChars (c :: more) → e.isDigit = true ∨ e = ',' := by
    intro e he
    rw [wholeChars] at he
    split at he
    next => exact (mem_grouped he).imp_left (hwhole e)
    next => exact Or.inl (hwhole e he)
  rcases mem_pointed he with he | rfl | he
  · exact (hgrouped he).imp_right Or.inl
  · exact Or.inr (Or.inr rfl)
  · exact Or.inl (hfraction e he)

end NumberFormat

/-! ## Reading -/

section

variable {front rest : List Char} {c : Char}

/-- Dollar signs are taken off what stands in front of the digits, and from nowhere else. -/
theorem dropWhile_front (hc : c.isDigit = true) :
    (front ++ c :: rest).dropWhile (· == '$') = front.dropWhile (· == '$') ++ c :: rest := by
  have hdollar : ¬ (c == '$') = true := by
    rw [beq_iff_eq]
    rintro rfl
    cases hc
  have hstay : (c :: rest).dropWhile (· == '$') = c :: rest := List.dropWhile_cons_of_neg hdollar
  rw [List.dropWhile_append, hstay]
  split
  next hempty => rw [List.isEmpty_iff.1 hempty, List.nil_append]
  next => rfl

/-- Neither a blank nor a percent sign is among signs, dollar signs, digits, commas and points. -/
theorem not_isBlank_of_amount (hfront : ∀ e ∈ front, e = '-' ∨ e = '$')
    (hall : ∀ e ∈ rest, e.isDigit = true ∨ e = ',' ∨ e = '.') :
    ∀ e ∈ front ++ rest, Text.isBlank e = false ∧ e ≠ '%' := by
  have hdigit : ∀ e ∈ digitChars, Text.isBlank e = false ∧ e ≠ '%' :=
    List.all_iff_forall_prop.1 (by decide)
  intro e he
  rcases List.mem_append.1 he with he | he
  · rcases hfront e he with rfl | rfl <;> decide
  · rcases hall e he with he | rfl | rfl
    · exact hdigit e (mem_digitChars he)
    · decide
    · decide

/-- A text in which signs and dollar signs stand in front of digits is read without the dollar signs at
its start and without commas. -/
theorem amount?_ofList (hfront : ∀ e ∈ front, e = '-' ∨ e = '$') (hc : c.isDigit = true)
    (hall : ∀ e ∈ c :: rest, e.isDigit = true ∨ e = ',' ∨ e = '.') :
    amount? (String.ofList (front ++ c :: rest)) =
      read? (front.dropWhile (· == '$') ++ (c :: rest).filter (· != ',')) := by
  have hleft : ∀ e ∈ front.dropWhile (· == '$'), e = '-' ∨ e = '$' := fun e he =>
    hfront e ((List.dropWhile_sublist _).subset he)
  have hkeep : (front.dropWhile (· == '$')).filter (· != ',') = front.dropWhile (· == '$') := by
    refine List.filter_eq_self.2 fun e he => ?_
    rcases hleft e he with rfl | rfl <;> decide
  have htrim : trim (front ++ c :: rest) = front ++ c :: rest :=
    trim_of_forall fun e he => (not_isBlank_of_amount hfront hall e he).1
  have hplain := not_isBlank_of_amount hleft
    fun e (he : e ∈ (c :: rest).filter (· != ',')) => hall e (List.mem_of_mem_filter he)
  have htrim' : trim (front.dropWhile (· == '$') ++ (c :: rest).filter (· != ',')) = _ :=
    trim_of_forall fun e he => (hplain e he).1
  have hne : c ∈ (c :: rest).filter (· != ',') := by
    refine List.mem_filter.2 ⟨List.mem_cons_self, bne_iff_ne.2 ?_⟩
    rintro rfl
    cases hc
  rw [amount?, String.toList_ofList, htrim, dropWhile_front hc, List.filter_append, hkeep,
    readNumeric?_eq_read?, htrim']
  · rw [htrim']
    exact List.ne_nil_of_mem (List.mem_append_right _ hne)
  · rw [htrim']
    exact fun hlast => (hplain _ (List.mem_of_getLast? hlast)).2 rfl

end

section

variable {f : NumberFormat} {m : Decimal}

theorem minus_eq (m : Decimal) : NumberFormat.minus m = if m.value < 0 then ['-'] else [] := by
  rw [NumberFormat.minus]
  cases hzero : m.isZero with
  | true =>
      have hvalue := isZero_eq_true_iff.1 hzero
      simp [hvalue]
  | false =>
      simp only [Bool.not_false, Bool.and_true, negative_iff hzero]

/-- Digits are read as the number, with a minus in front of them if it is below zero. -/
theorem read?_digits (m : Decimal) (zeros : Nat) :
    ∃ n, read? ((if m.value < 0 then ['-'] else []) ++
      pointed m.digitParts.1 (m.digitParts.2 ++ List.replicate zeros '0')) = some n ∧ n.value = m.value := by
  obtain ⟨hne, hwhole, hfraction, hvalue, hlength⟩ := digitParts_spec m
  split
  next hneg =>
    obtain ⟨n, hn, heq⟩ := readPlainFrom?_pointed_zeros hne hwhole hfraction hvalue hlength zeros
    have hminus : m.negative = true :=
      (negative_iff (Bool.eq_false_iff.2 fun hzero => hneg.ne (isZero_eq_true_iff.1 hzero))).2 hneg
    rw [hminus] at hn
    refine ⟨n, ?_, heq⟩
    rw [List.singleton_append]
    show (readPlainFrom? true {} _).or _ = some n
    rw [hn]
    rfl
  next hneg =>
    -- A zero with a minus is written without it.
    obtain ⟨n, hn, heq⟩ :=
      readPlainFrom?_pointed_zeros (d := m.abs) hne hwhole hfraction hvalue hlength zeros
    obtain ⟨c, more, hcons⟩ := List.exists_cons_of_ne_nil hne
    have hc : c.isDigit = true := hwhole c (hcons ▸ List.mem_cons_self)
    obtain ⟨rest, hrest⟩ : ∃ rest, pointed m.digitParts.1
        (m.digitParts.2 ++ List.replicate zeros '0') = c :: rest := by
      rw [hcons, pointed]
      split
      next => exact ⟨_, rfl⟩
      next => exact ⟨_, rfl⟩
    refine ⟨n, ?_, heq.trans ((value_abs m).trans (abs_of_nonneg (not_lt.1 hneg)))⟩
    rw [List.nil_append, hrest, read?, readPlain?_of_isDigit hc, ← hrest]
    show (readPlainFrom? m.abs.negative {} _).or _ = some n
    rw [hn]
    rfl

/-- What is read of a written amount. -/
theorem amount?_write (hpercent : f.percent = false) (hscale : m.scale ≤ f.places)
    (hlead : f.lead = [] ∨ f.lead = ['$']) :
    amount? (String.ofList (f.write m)) =
      read? (((if m.value < 0 then ['-'] else []) ++ f.lead).dropWhile (· == '$') ++
        pointed m.digitParts.1 (f.fractionChars m)) := by
  obtain ⟨hne, hwhole, -⟩ := digitParts_spec m
  have hfraction := f.isDigit_fractionChars (m := m)
  obtain ⟨c, rest, hbody, hc, hall⟩ := f.exists_pointed_wholeChars hne hwhole hfraction
  have hfront : ∀ e ∈ (if m.value < 0 then ['-'] else []) ++ f.lead, e = '-' ∨ e = '$' := by
    rcases hlead with hlead | hlead <;> rw [hlead] <;> split <;> simp
  rw [NumberFormat.write_eq hpercent hscale, minus_eq, ← List.append_assoc, hbody,
    amount?_ofList hfront hc hall, ← hbody, NumberFormat.filter_pointed hwhole hfraction]

/-- A written amount is read as the number, unless a minus stands in front of a dollar sign. -/
theorem amount?_write_eq_some (hpercent : f.percent = false) (hscale : m.scale ≤ f.places)
    (hlead : f.lead = [] ∨ f.lead = ['$'] ∧ 0 ≤ m.value) :
    ∃ n, amount? (String.ofList (f.write m)) = some n ∧ n.value = m.value := by
  rw [amount?_write hpercent hscale (hlead.imp_right And.left)]
  have hfront : ((if m.value < 0 then ['-'] else []) ++ f.lead).dropWhile (· == '$') =
      if m.value < 0 then ['-'] else [] := by
    rcases hlead with hlead | ⟨hlead, hnonneg⟩
    · rw [hlead, List.append_nil]
      split <;> rfl
    · rw [hlead, if_neg (not_lt.2 hnonneg)]
      rfl
  rw [hfront]
  exact read?_digits m _

/-- Neither the plain form nor one with an exponent has a dollar sign after the minus. -/
theorem amount?_write_eq_none (hpercent : f.percent = false) (hscale : m.scale ≤ f.places)
    (hlead : f.lead = ['$']) (hneg : m.value < 0) : amount? (String.ofList (f.write m)) = none := by
  have hexponent : cutExponent? ('-' :: '$' :: pointed m.digitParts.1 (f.fractionChars m)) = none := by
    have hdigit : ∀ e ∈ digitChars, e ≠ 'e' ∧ e ≠ 'E' := List.all_iff_forall_prop.1 (by decide)
    refine cutExponent?_eq_none (List.forall_mem_cons.2 ⟨by decide, List.forall_mem_cons.2 ⟨by decide, ?_⟩⟩)
    intro e he
    rcases NumberFormat.mem_pointed he with he | rfl | he
    · exact hdigit e (mem_digitChars ((digitParts_spec m).2.1 e he))
    · decide
    · exact hdigit e (mem_digitChars (NumberFormat.isDigit_fractionChars e he))
  rw [amount?_write hpercent hscale (Or.inr hlead), hlead, if_pos hneg]
  show read? ('-' :: '$' :: pointed m.digitParts.1 (f.fractionChars m)) = none
  rw [read?, readWithExponent?, hexponent]
  rfl

end

/-! ## Formatting and reading -/

/-- Rounding leaves no more places than it is asked for. -/
theorem scale_round_le (x : Decimal) (places : Nat) (rule : Rounding) :
    (x.round places rule).scale ≤ places := by
  rw [Decimal.round]
  split
  next => exact Nat.min_le_left _ _
  next => exact Nat.min_le_right _ _

theorem roundBy_ofNat (rule : Rounding) (x : Decimal) {places : Nat} (h : places ≤ maxScale) :
    roundBy rule (.number x) (.number (.ofNat places)) = .ok (.number (x.round places rule)) := by
  have hwhole : ∀ k ≤ maxScale, (ofNat k).trunc.toInt64? = some (k : Int) := by decide
  have hplaces : wholeNumber (.number (.ofNat places)) = .ok (places : Int) := by
    show orNumberError _ = _
    rw [hwhole places h]
    rfl
  have hround : roundTo rule x places = some (x.round places rule) := by
    rw [roundTo, if_pos (Int.natCast_nonneg places), Int.toNat_natCast, Nat.min_eq_left h]
  show (wholeNumber (.number (.ofNat places))).bind _ = _
  rw [hplaces]
  show numberOr (roundTo rule x places) = _
  rw [hround]
  rfl

theorem textFromNumber_eq {x : Decimal} {format : String} {f : NumberFormat}
    (hformat : NumberFormat.ofChars? format.toList = some f) (hpercent : f.percent = false) :
    textFromNumber (.number x) (.text format) =
      .ok (.text (String.ofList (f.write (x.round f.places .halfAway)))) := by
  have hwritten : (NumberFormat.ofChars? format.toList).bind (·.format? x) =
      some (String.ofList (f.write (x.round f.places .halfAway))) := by
    rw [hformat, Option.bind_some, NumberFormat.format?, hpercent]
    rfl
  show formatted format x = _
  rw [formatted, hwritten]

theorem numberFromText_eq_ok_iff {s : String} {n : Decimal} :
    numberFromText (.text s) = .ok (.number n) ↔ amount? s = some n := by
  rw [numberFromText]
  cases amount? s with
  | none => exact iff_of_false nofun nofun
  | some k => simp

/-- Commas are only added to the digits. -/
theorem filter_write {f : NumberFormat} {m : Decimal} (hlead : f.lead = [] ∨ f.lead = ['$'])
    (hpercent : f.percent = false) (hscale : m.scale ≤ f.places) :
    (f.write m).filter (· != ',') = { f with grouping := false }.write m := by
  have hplain : { f with grouping := false }.write m = _ := NumberFormat.write_eq hpercent hscale
  have hminus : (NumberFormat.minus m).filter (· != ',') = NumberFormat.minus m := by
    rw [minus_eq]
    split <;> rfl
  have hfront : f.lead.filter (· != ',') = f.lead := by
    rcases hlead with hlead | hlead <;> rw [hlead] <;> rfl
  rw [NumberFormat.write_eq hpercent hscale, hplain, List.filter_append, List.filter_append, hminus, hfront,
    NumberFormat.filter_pointed (digitParts_spec m).2.1 NumberFormat.isDigit_fractionChars]
  rfl

/-- A number in a format without a percent sign that has nothing or a dollar sign in front and up to
twenty places is written as its rounding to these places, with commas only added to its digits.  The text
is read back as this number, unless it has a dollar sign and the number is below zero; then it is not read
at all. -/
theorem text_reads_back_iff {x : Decimal} {format : String} {f : NumberFormat}
    (hformat : NumberFormat.ofChars? format.toList = some f) (hlead : f.lead = [] ∨ f.lead = ['$'])
    (hpercent : f.percent = false) (hplaces : f.places ≤ 20) :
    ∃ t m, textFromNumber (.number x) (.text format) = .ok (.text t) ∧
      roundBy .halfAway (.number x) (.number (.ofNat f.places)) = .ok (.number m) ∧
      t.toList.filter (· != ',') = { f with grouping := false }.write m ∧
      ((∃ n, numberFromText (.text t) = .ok (.number n) ∧ n.same m) ↔ (f.lead = ['$'] → 0 ≤ m.value)) ∧
      (f.lead = ['$'] → m.value < 0 → ∃ e, numberFromText (.text t) = .error e) := by
  have hscale := scale_round_le x f.places .halfAway
  refine ⟨_, _, textFromNumber_eq hformat hpercent, roundBy_ofNat .halfAway x (by simp only [maxScale]; omega),
    ?_, ?_⟩
  · rw [String.toList_ofList]
    exact filter_write hlead hpercent hscale
  generalize x.round f.places .halfAway = m at hscale ⊢
  have hnone := fun hdollar hneg => amount?_write_eq_none (m := m) hpercent hscale hdollar hneg
  simp only [numberFromText_eq_ok_iff, same_iff_value]
  refine ⟨⟨?_, fun hsign => ?_⟩, fun hdollar hneg => ⟨_, by rw [numberFromText, hnone hdollar hneg]⟩⟩
  · rintro ⟨n, hn, -⟩ hdollar
    refine not_lt.1 fun hneg => ?_
    rw [hnone hdollar hneg] at hn
    cases hn
  · exact amount?_write_eq_some hpercent hscale (hlead.imp_right fun hdollar => ⟨hdollar, hsign hdollar⟩)

/-- An amount in dollars with commas and cents. -/
theorem text_reads_back_dollars :
    ∃ t n, textFromNumber (.number (scaled 12345678 3)) (.text "$#,##0.00") = .ok (.text t) ∧
      numberFromText (.text t) = .ok (.number n) ∧ n.same (scaled 1234568 2) := by
  obtain ⟨t, m, ht, hm, -, hread, -⟩ := text_reads_back_iff (x := scaled 12345678 3)
    (f := ⟨['$'], 2, true, false⟩) (show NumberFormat.ofChars? "$#,##0.00".toList = _ by decide +kernel)
    (Or.inr rfl) rfl (by decide)
  rw [roundBy_ofNat .halfAway _ (by decide)] at hm
  have hround : (scaled 12345678 3).round 2 .halfAway = scaled 1234568 2 := by decide
  obtain rfl : scaled 1234568 2 = m := by
    rw [← hround]
    simpa using hm
  have hnonneg : 0 ≤ (scaled 1234568 2).value := by
    rw [value_of_not_negative rfl]
    exact fraction_nonneg _ _
  obtain ⟨n, hn, hsame⟩ := hread.2 fun _ => hnonneg
  exact ⟨t, n, ht, hn, hsame⟩

/-- Two dollars and a half below zero are rounded to three, and what is written for them is no number. -/
theorem text_not_read_back :
    (textFromNumber (.number (-(scaled 25 1))) (.text "$0")).toOption = some (.text "-$3") ∧
      (roundBy .halfAway (.number (-(scaled 25 1))) (.number 0)).toOption = some (.number (-3)) ∧
      ¬ ∃ n, numberFromText (.text "-$3") = .ok (.number n) := by
  refine ⟨by decide +kernel, by decide +kernel, ?_⟩
  rintro ⟨n, hn⟩
  have hnone : amount? "-$3" = none := by decide +kernel
  rw [numberFromText_eq_ok_iff, hnone] at hn
  cases hn

end PaintQuote.Formula.Functions
