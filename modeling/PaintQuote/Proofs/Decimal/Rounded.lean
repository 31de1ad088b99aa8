import PaintQuote.Proofs.Decimal.Nearest
import PaintQuote.Proofs.Decimal.Same

/-!
# The decimal nearest to a fraction

Sums, products and quotients give up digits that have no room.  What is left is the nearest decimal
of the finest scale on which the fraction fits (`IsNearest`), or nothing where even the nearest whole
number does not fit.  Such a decimal is a function of the fraction alone: equal fractions have
nearest decimals of one number, whatever their numerators and the scales on the way
(`Rounds.sameResult`).
-/

namespace PaintQuote.Decimal

/-! ## Nearest whole numbers -/

theorem nearestEven_mul (m : Nat) {d : Nat} (hd : 0 < d) : nearestEven (m * d) d = m := by
  simp only [nearestEven, Nat.mul_div_cancel _ hd, Nat.mul_mod_left]
  rw [if_neg (by omega)]

/-- A quotient and its rounding are no more than a half apart. -/
theorem nearestEven_mul_le (n d : Nat) : 2 * (nearestEven n d * d) ≤ 2 * n + d := by
  have hn := Nat.div_add_mod n d
  rw [Nat.mul_comm] at hn
  simp only [nearestEven]
  split
  next hup =>
    rw [Nat.add_mul, Nat.one_mul]
    omega
  next => omega

theorem nearestEven_mono {n n' d : Nat} (hd : 0 < d) (h : n ≤ n') :
    nearestEven n d ≤ nearestEven n' d := by
  have hle := nearestEven_mul_le n d
  rcases Nat.eq_or_lt_of_le h with rfl | hlt
  · exact Nat.le_refl _
  · exact le_nearestEven hd (by omega)

theorem nearestEven_scale (n d : Nat) {k : Nat} (hk : 0 < k) :
    nearestEven (n * k) (d * k) = nearestEven n d := by
  have hdouble : ∀ x, 2 * (x * k) = 2 * x * k := fun x => (Nat.mul_assoc 2 x k).symm
  simp only [nearestEven, Nat.mul_div_mul_right _ _ hk, Nat.mul_mod_mul_right, hdouble,
    Nat.mul_lt_mul_right hk, Nat.mul_right_cancel_iff hk]

/-- Equal fractions have one nearest whole number. -/
theorem nearestEven_congr {n d n' d' : Nat} (hd : 0 < d) (hd' : 0 < d') (h : n * d' = n' * d) :
    nearestEven n d = nearestEven n' d' := by
  rw [← nearestEven_scale n d hd', h, Nat.mul_comm d d', nearestEven_scale n' d' hd]

/-! ## The nearest decimal -/

/-- `m / 10 ^ k` is the nearest decimal to the fraction `num / den` on the finest scale: on a finer one
nothing would change, or its coefficient would reach the limit. -/
structure IsNearest (num den m k : Nat) : Prop where
  rounded : m = nearestEven (num * tenTo k) den
  lt : m < coefficientLimit
  le : k ≤ maxScale
  finest : den ∣ num * tenTo k ∨ k = maxScale ∨
    coefficientLimit ≤ nearestEven (num * tenTo (k + 1)) den

section Fraction

variable {num den num' den' m k m' k' : Nat}

/-- A fraction that is exact on a scale is so on a finer one. -/
theorem nearestEven_of_dvd (hden : 0 < den) (h : den ∣ num * tenTo k) (j : Nat) :
    nearestEven (num * tenTo (k + j)) den = nearestEven (num * tenTo k) den * tenTo j := by
  obtain ⟨c, hc⟩ := h
  rw [tenTo_add, ← Nat.mul_assoc, hc, Nat.mul_comm den c, nearestEven_mul c hden,
    Nat.mul_right_comm, nearestEven_mul _ hden]

/-- A coefficient at the limit stays there on finer scales. -/
theorem limit_le_finer (hden : 0 < den) (h : coefficientLimit ≤ nearestEven (num * tenTo k) den)
    (j : Nat) : coefficientLimit ≤ nearestEven (num * tenTo (k + j)) den := by
  refine Nat.le_trans h (nearestEven_mono hden ?_)
  rw [tenTo_add, ← Nat.mul_assoc]
  exact Nat.le_mul_of_pos_right _ (tenTo_pos j)

theorem IsNearest.mul_of_le (hden : 0 < den) (h : IsNearest num den m k)
    (h' : IsNearest num den m' k') (hle : k ≤ k') : m * tenTo k' = m' * tenTo k := by
  obtain ⟨j, rfl⟩ := Nat.exists_eq_add_of_le hle
  rcases Nat.eq_zero_or_pos j with rfl | hj
  · rw [h.rounded, h'.rounded]
    rfl
  obtain ⟨j, rfl⟩ : ∃ j', j = 1 + j' := ⟨j - 1, by omega⟩
  rcases h.finest with hexact | hk | hlimit
  · rw [h.rounded, h'.rounded, nearestEven_of_dvd hden hexact, tenTo_add k, Nat.mul_comm (tenTo k),
      Nat.mul_assoc]
  · have := h'.le
    omega
  · have hfiner := limit_le_finer hden hlimit j
    rw [Nat.add_assoc, ← h'.rounded] at hfiner
    exact absurd h'.lt (Nat.not_lt.2 hfiner)

/-- A fraction has only one nearest decimal, apart from zeros at its end. -/
theorem IsNearest.unique (hden : 0 < den) (h : IsNearest num den m k)
    (h' : IsNearest num den m' k') : m * tenTo k' = m' * tenTo k := by
  rcases Nat.le_total k k' with hle | hle
  · exact h.mul_of_le hden h' hle
  · exact (h'.mul_of_le hden h hle).symm

theorem IsNearest.congr (hden : 0 < den) (hden' : 0 < den') (hcross : num * den' = num' * den)
    (h : IsNearest num den m k) : IsNearest num' den' m k := by
  have hround : ∀ k, nearestEven (num * tenTo k) den = nearestEven (num' * tenTo k) den' := by
    intro k
    refine nearestEven_congr hden hden' ?_
    rw [Nat.mul_right_comm, hcross, Nat.mul_right_comm]
  refine ⟨h.rounded.trans (hround k), h.lt, h.le, ?_⟩
  rw [← hround (k + 1)]
  refine h.finest.imp_left ?_
  rintro ⟨c, hc⟩
  refine ⟨c, Nat.eq_of_mul_eq_mul_right hden ?_⟩
  calc num' * tenTo k * den
      = num * tenTo k * den' := by rw [Nat.mul_right_comm, ← hcross, Nat.mul_right_comm]
    _ = den' * c * den := by rw [hc]; ac_rfl

/-- Nothing before the point fits into no decimal. -/
theorem not_isNearest_of_limit_le (hden : 0 < den) (h : coefficientLimit ≤ nearestEven num den) :
    ¬ IsNearest num den m k := by
  intro hnearest
  have hfiner := limit_le_finer (k := 0) hden (by rwa [tenTo_zero, Nat.mul_one]) k
  rw [Nat.zero_add, ← hnearest.rounded] at hfiner
  exact absurd hnearest.lt (Nat.not_lt.2 hfiner)

end Fraction

/-! ## Results -/

theorem fraction_eq_iff {m n s t : Nat} :
    fraction m s = fraction n t ↔ m * tenTo t = n * tenTo s := by
  rw [fraction, fraction, div_eq_div_iff (tenTo_cast_pos _).ne' (tenTo_cast_pos _).ne']
  norm_cast

/-- Two results are one number, or there is neither. -/
abbrev SameResult : Option Decimal → Option Decimal → Prop := Option.Rel fun a b => a.same b = true

theorem SameResult.refl (a : Option Decimal) : SameResult a a := by
  cases a with
  | none => exact .none
  | some d => exact .some (same_self d)

theorem SameResult.symm {a b : Option Decimal} (h : SameResult a b) : SameResult b a := by
  cases h with
  | none => exact .none
  | some h => exact .some (same_symm h)

theorem sameResult_iff_normalize {a b : Option Decimal} :
    SameResult a b ↔ a.map normalize = b.map normalize := by
  cases a <;> cases b <;> simp [SameResult, same_iff_normalize]

theorem rel_bind {α β γ δ : Type} {R : α → β → Prop} {S : γ → δ → Prop} {a : Option α} {b : Option β}
    {f : α → Option γ} {g : β → Option δ} (h : Option.Rel R a b)
    (hfg : ∀ x y, R x y → Option.Rel S (f x) (g y)) : Option.Rel S (a.bind f) (b.bind g) := by
  cases h with
  | none => exact .none
  | some h => exact hfg _ _ h

theorem rel_map {α β γ δ : Type} {R : α → β → Prop} {S : γ → δ → Prop} {a : Option α} {b : Option β}
    {f : α → γ} {g : β → δ} (h : Option.Rel R a b) (hfg : ∀ x y, R x y → S (f x) (g y)) :
    Option.Rel S (a.map f) (b.map g) := by
  cases h with
  | none => exact .none
  | some h => exact .some (hfg _ _ h)

theorem map_eq_of_rel {α β γ : Type} {R : α → β → Prop} {a : Option α} {b : Option β} {f : α → γ}
    {g : β → γ} (h : Option.Rel R a b) (hfg : ∀ x y, R x y → f x = g y) : a.map f = b.map g := by
  cases h with
  | none => rfl
  | some h => exact congrArg some (hfg _ _ h)

theorem bind_eq_of_rel {α β γ : Type} {R : α → β → Prop} {a : Option α} {b : Option β}
    {f : α → Option γ} {g : β → Option γ} (h : Option.Rel R a b)
    (hfg : ∀ x y, R x y → f x = g y) : a.bind f = b.bind g := by
  cases h with
  | none => rfl
  | some h => exact hfg _ _ h

/-- A result is the number of the nearest decimal to a fraction with a sign, or there is none because
the whole part does not fit.  A result that is zero may have either sign. -/
inductive Rounds (negative : Bool) (num den : Nat) : Option Decimal → Prop where
  /-- The nearest decimal, on any scale. -/
  | nearest {d : Decimal} {m k : Nat} : IsNearest num den m k →
      fraction d.coefficient d.scale = fraction m k →
      (d.coefficient = 0 ∨ d.negative = negative) → Rounds negative num den (some d)
  /-- No decimal is near. -/
  | large : coefficientLimit ≤ nearestEven num den → Rounds negative num den none

theorem same_iff_fraction {a b : Decimal} : a.same b = true ↔
    fraction a.coefficient a.scale = fraction b.coefficient b.scale ∧
      (a.coefficient = 0 ∨ a.negative = b.negative) := by
  rw [same_iff, fraction_eq_iff]

/-- The results for equal fractions are one number. -/
theorem Rounds.sameResult {negative negative' : Bool} {num den num' den' : Nat}
    {a b : Option Decimal} (ha : Rounds negative num den a) (hb : Rounds negative' num' den' b)
    (hden : 0 < den) (hden' : 0 < den') (hcross : num * den' = num' * den)
    (hsign : num = 0 ∨ negative = negative') : SameResult a b := by
  have hround := nearestEven_congr hden hden' hcross
  cases ha with
  | large hlimit =>
      cases hb with
      | large => exact .none
      | nearest hb => exact absurd hb (not_isNearest_of_limit_le hden' (hround ▸ hlimit))
  | @nearest d m k ha hd hdsign =>
      cases hb with
      | large hlimit => exact absurd ha (not_isNearest_of_limit_le hden (hround ▸ hlimit))
      | @nearest e m' k' hb he hesign =>
          have hnearest := ha.unique hden (hb.congr hden' hden hcross.symm)
          have hfraction : fraction d.coefficient d.scale = fraction e.coefficient e.scale :=
            hd.trans ((fraction_eq_iff.2 hnearest).trans he.symm)
          have hzero : d.coefficient = 0 ↔ e.coefficient = 0 := by
            rw [← @fraction_eq_zero_iff _ d.scale, hfraction, fraction_eq_zero_iff]
          refine .some (same_iff_fraction.2 ⟨hfraction, ?_⟩)
          rcases hdsign with hdzero | hdsign
          · exact Or.inl hdzero
          rcases hesign with hezero | hesign
          · exact Or.inl (hzero.2 hezero)
          rcases hsign with rfl | rfl
          · refine Or.inl (fraction_eq_zero_iff.1 (hd.trans (fraction_eq_zero_iff.2 ?_)))
            rw [ha.rounded, Nat.zero_mul]
            exact Nat.le_zero.1 (nearestEven_le hden (Nat.zero_le _))
          · exact Or.inr (hdsign.trans hesign.symm)

theorem Rounds.withSign {negative sign : Bool} {num den : Nat} {a : Option Decimal}
    (h : Rounds negative num den a) : Rounds sign num den (a.map (Decimal.withSign sign)) := by
  cases h with
  | large hlimit => exact .large hlimit
  | nearest hnearest hd _ => exact .nearest hnearest hd (Or.inr rfl)

theorem Rounds.congr {negative : Bool} {num den num' den' : Nat} {a : Option Decimal}
    (h : Rounds negative num den a) (hden : 0 < den) (hden' : 0 < den')
    (hcross : num * den' = num' * den) : Rounds negative num' den' a := by
  cases h with
  | large hlimit => exact .large (nearestEven_congr hden hden' hcross ▸ hlimit)
  | nearest hnearest hd hsign => exact .nearest (hnearest.congr hden hden' hcross) hd hsign

/-- A decimal is the nearest to itself. -/
theorem Rounds.self {d : Decimal} {negative : Bool} {num den : Nat} (hden : 0 < den)
    (h : d.coefficient * den = num * tenTo d.scale)
    (hsign : d.coefficient = 0 ∨ d.negative = negative) : Rounds negative num den (some d) := by
  refine .nearest (m := d.coefficient) (k := d.scale) ⟨?_, d.coefficient_lt, d.scale_le, Or.inl ?_⟩ rfl
    hsign
  · rw [← h, nearestEven_mul _ hden]
  · exact ⟨d.coefficient, by rw [← h, Nat.mul_comm]⟩

/-- Nothing is left of a fraction that is small enough. -/
theorem Rounds.zero {negative : Bool} {num den : Nat}
    (h : 2 * (num * tenTo maxScale) < den) : Rounds negative num den (some 0) := by
  refine .nearest (m := 0) (k := maxScale) ⟨?_, by decide, Nat.le_refl _, Or.inr (Or.inl rfl)⟩ ?_
    (Or.inl rfl)
  · have hle := nearestEven_mul_le (num * tenTo maxScale) den
    refine (Nat.eq_zero_of_not_pos fun hpos => ?_).symm
    have := Nat.mul_le_mul_right den hpos
    omega
  · exact fraction_eq_iff.2 rfl

/-! ## Fitting -/

theorem lt_of_overlong (n : Nat) : n < coefficientLimit * tenTo (overlong n) := by
  induction n using overlong.induct with
  | case1 n hlt =>
      rw [overlong_of_lt hlt, tenTo_zero, Nat.mul_one]
      exact hlt
  | case2 n hge ih =>
      rw [overlong, if_neg hge, tenTo_succ, ← Nat.mul_assoc]
      omega

/-- The parts of a nearest decimal make a result. -/
theorem rounds_ofParts? {negative : Bool} {num den m k : Nat} (h : IsNearest num den m k) :
    Rounds negative num den (ofParts? negative m k) := by
  rw [ofParts?, dif_pos ⟨h.lt, h.le⟩]
  refine .nearest h rfl ?_
  rcases Nat.eq_zero_or_pos m with hzero | hpos
  · exact Or.inl hzero
  · refine Or.inr ?_
    show (negative && m != 0) = negative
    rw [bne_iff_ne.2 (by omega : m ≠ 0), Bool.and_true]

/-- The coefficient rounded to the limit is rounded once more, to what the fraction would be rounded
to on that scale. -/
theorem nearestEven_of_limit {n d : Nat} (hd : 0 < d) (hlimit : nearestEven n d = coefficientLimit)
    (hlt : n < coefficientLimit * d) :
    nearestEven n (d * 10) = nearestEven coefficientLimit 10 := by
  have hhalf := nearestEven_mul_le n d
  rw [hlimit] at hhalf
  have hexact : nearestEven coefficientLimit 10 = 7922816251426433759354395034 := by decide
  rw [hexact]
  simp only [coefficientLimit] at hhalf hlt
  refine Nat.le_antisymm (nearestEven_le (by omega) (by omega))
    (le_nearestEven (by omega) (by omega))

/-- Fitting rounds to the nearest decimal. -/
theorem fit?_rounds (negative : Bool) (n scale : Nat) :
    Rounds negative n (tenTo scale) (fit? negative n scale) := by
  unfold fit? fitBy?
  generalize hlost : max (scale - maxScale) (overlong n) = lost
  simp only
  have hoverlong := lt_of_overlong n
  split
  next hlt =>
    -- More digits have to go than there are after the point.
    refine .large ?_
    obtain ⟨l, hl⟩ : ∃ l, overlong n = l + 1 := ⟨overlong n - 1, by omega⟩
    have hpow : tenTo scale ≤ tenTo l := Nat.pow_le_pow_right (by decide) (by omega)
    have hle : coefficientLimit * tenTo scale ≤ n :=
      Nat.le_trans (Nat.mul_le_mul_left _ hpow) (limit_le_of_overlong hl)
    exact Nat.le_trans (Nat.le_of_eq (nearestEven_mul _ (tenTo_pos scale)).symm)
      (nearestEven_mono (tenTo_pos scale) hle)
  next hle =>
    obtain ⟨k, rfl⟩ := Nat.exists_eq_add_of_le (Nat.le_of_not_lt hle)
    rw [Nat.add_sub_cancel_left]
    have hk : k ≤ maxScale := by omega
    have hscale : nearestEven (n * tenTo k) (tenTo (lost + k)) = nearestEven n (tenTo lost) := by
      rw [tenTo_add, nearestEven_scale _ _ (tenTo_pos k)]
    have hlt : n < coefficientLimit * tenTo lost :=
      Nat.lt_of_lt_of_le hoverlong
        (Nat.mul_le_mul_left _ (Nat.pow_le_pow_right (by decide) (by omega)))
    by_cases hfits : nearestEven n (tenTo lost) < coefficientLimit
    · obtain ⟨d, hd⟩ := Option.isSome_iff_exists.1 (ofParts?_isSome negative hfits hk)
      rw [hd]
      show Rounds negative n _ (some d)
      rw [← hd]
      refine rounds_ofParts? ⟨hscale.symm, hfits, hk, ?_⟩
      rcases Nat.eq_zero_or_pos lost with rfl | hpos
      · rw [Nat.zero_add]
        exact Or.inl (Nat.dvd_mul_left _ _)
      rcases Nat.eq_or_lt_of_le hk with heq | hless
      · exact Or.inr (Or.inl heq)
      · obtain ⟨l, rfl⟩ : ∃ l, lost = l + 1 := ⟨lost - 1, by omega⟩
        have hle := limit_le_of_overlong (n := n) (l := l) (by omega)
        refine Or.inr (Or.inr ?_)
        rw [Nat.add_assoc, Nat.add_comm 1 k, tenTo_add l,
          nearestEven_scale _ _ (tenTo_pos (k + 1))]
        exact Nat.le_trans (Nat.le_of_eq (nearestEven_mul _ (tenTo_pos l)).symm)
          (nearestEven_mono (tenTo_pos l) hle)
    · have hlimit : nearestEven n (tenTo lost) = coefficientLimit :=
        Nat.le_antisymm (nearestEven_le (tenTo_pos lost) (Nat.le_of_lt hlt)) (Nat.not_lt.1 hfits)
      have hnone : ofParts? negative (nearestEven n (tenTo lost)) k = none := by
        rw [ofParts?, dif_neg fun h => hfits h.1]
      rw [hnone]
      simp only
      split
      next hzero =>
        obtain rfl : k = 0 := by omega
        exact .large (by rw [Nat.add_zero, hlimit])
      next hne =>
        obtain ⟨k, rfl⟩ : ∃ k', k = k' + 1 := ⟨k - 1, by omega⟩
        have hround : nearestEven (n * tenTo k) (tenTo (lost + (k + 1))) =
            nearestEven (nearestEven n (tenTo lost)) 10 := by
          rw [hlimit, ← nearestEven_of_limit (tenTo_pos lost) hlimit hlt, Nat.add_comm k 1,
            ← Nat.add_assoc, tenTo_add (lost + 1), nearestEven_scale _ _ (tenTo_pos k), tenTo_succ]
        refine rounds_ofParts? ⟨hround.symm, ?_, by omega, Or.inr (Or.inr ?_)⟩
        · rw [hlimit]
          decide
        · rw [Nat.add_sub_cancel, hscale, hlimit]

end PaintQuote.Decimal
