import PaintQuote.Proofs.Decimal.Normalize
import PaintQuote.Proofs.Estimate.Replies

/-!
# Normal forms of estimates

Estimates are like when their normal forms are equal (`RoomEstimate.like_iff`, `ProjectEstimate.like_iff`,
`Reply.like_iff`), so that being like is an equivalence.

Every estimator, whatever it has been asked before, replies like one without a cache.  What holds of all
replies without a cache and does not depend on the form of numbers therefore holds of all replies
(`Estimator.replies_have`), and what so holds of all estimates holds of those in all replies
(`Estimator.replies_estimated`).
-/

namespace PaintQuote

open Sheet Engine Estimate

namespace Estimate

/-! ## Related lists -/

theorem map_eq_map_iff_forall₂ {α β γ : Type} {f : α → γ} {g : β → γ} {as : List α} {bs : List β} :
    as.map f = bs.map g ↔ List.Forall₂ (fun a b => f a = g b) as bs := by
  rw [← List.forall₂_eq_eq_eq, List.forall₂_map_left_iff, List.forall₂_map_right_iff]

theorem forall₂_trans {α β γ : Type} {R : α → β → Prop} {S : γ → β → Prop} {T : α → γ → Prop}
    {as : List α} {bs : List β} (h : List.Forall₂ R as bs) :
    ∀ {cs : List γ}, List.Forall₂ S cs bs → (∀ a b c, R a b → S c b → T a c) → List.Forall₂ T as cs := by
  induction h with
  | nil =>
      intro cs h' _
      cases h'
      exact .nil
  | cons hab _ ih =>
      intro cs h' hT
      cases h' with
      | cons hcb h' => exact .cons (hT _ _ _ hab hcb) (ih h' hT)

/-! ## Normal forms -/

theorem Tiers.rel_iff_normalize {t t' : Tiers Decimal} :
    Tiers.Rel SamePrice t t' ↔ t.map Decimal.normalize = t'.map Decimal.normalize := by
  constructor
  · rintro ⟨hgood, hbetter, hbest⟩
    simp only [map, mk.injEq]
    exact ⟨(Decimal.same_iff_normalize _ _).1 hgood, (Decimal.same_iff_normalize _ _).1 hbetter,
      (Decimal.same_iff_normalize _ _).1 hbest⟩
  · intro h
    simp only [map, mk.injEq] at h
    obtain ⟨hgood, hbetter, hbest⟩ := h
    exact ⟨(Decimal.same_iff_normalize _ _).2 hgood, (Decimal.same_iff_normalize _ _).2 hbetter,
      (Decimal.same_iff_normalize _ _).2 hbest⟩

theorem samePricing_iff_normalize {p? p?' : Option (Tiers Decimal)} :
    Option.Rel (Tiers.Rel Tiers.SamePrice) p? p?' ↔
      p?.map (Tiers.map Decimal.normalize) = p?'.map (Tiers.map Decimal.normalize) := by
  cases p? <;> cases p?' <;> simp [Tiers.rel_iff_normalize]

namespace RoomEstimate

/-- The estimate with its numbers in normal form. -/
def normalize (e : RoomEstimate) : RoomEstimate :=
  { e with
    perimeter := e.perimeter.map Decimal.normalize
    grossWallArea := e.grossWallArea.map Decimal.normalize
    openingArea := e.openingArea.map Decimal.normalize
    wallArea := e.wallArea.map Decimal.normalize
    ceilingArea := e.ceilingArea.map Decimal.normalize
    trimLength := e.trimLength.map Decimal.normalize
    paintableArea := e.paintableArea.map Decimal.normalize
    gallons := e.gallons.map Decimal.normalize
    laborHours := e.laborHours.map Decimal.normalize
    pricing := e.pricing.map (Tiers.map Decimal.normalize) }

theorem like_iff {e e' : RoomEstimate} : e.Like e' ↔ e.normalize = e'.normalize := by
  simp only [normalize, mk.injEq, ← Decimal.sameResult_iff_normalize, ← samePricing_iff_normalize]
  constructor
  · rintro ⟨h₁, h₂, h₃, h₄, h₅, h₆, h₇, h₈, h₉, h₁₀, h₁₁, h₁₂, h₁₃⟩
    exact ⟨h₁, h₂, h₃, h₄, h₅, h₆, h₇, h₈, h₉, h₁₀, h₁₁, h₁₂, h₁₃⟩
  · rintro ⟨h₁, h₂, h₃, h₄, h₅, h₆, h₇, h₈, h₉, h₁₀, h₁₁, h₁₂, h₁₃⟩
    exact ⟨h₁, h₂, h₃, h₄, h₅, h₆, h₇, h₈, h₉, h₁₀, h₁₁, h₁₂, h₁₃⟩

theorem likes_iff {es es' : List RoomEstimate} :
    List.Forall₂ Like es es' ↔ es.map normalize = es'.map normalize := by
  rw [map_eq_map_iff_forall₂]
  exact ⟨fun h => h.imp fun _ _ => like_iff.1, fun h => h.imp fun _ _ => like_iff.2⟩

end RoomEstimate

/-- The sums with their numbers in normal form. -/
def ProjectTotals.normalize (t : ProjectTotals) : ProjectTotals :=
  { t with
    paintableArea := t.paintableArea.map Decimal.normalize
    gallons := t.gallons.map Decimal.normalize
    laborHours := t.laborHours.map Decimal.normalize
    discount := t.discount.map Decimal.normalize }

theorem ProjectTotals.like_iff {t t' : ProjectTotals} : t.Like t' ↔ t.normalize = t'.normalize := by
  simp only [normalize, mk.injEq, ← Decimal.sameResult_iff_normalize]
  constructor
  · rintro ⟨h₁, h₂, h₃, h₄, h₅⟩
    exact ⟨h₁, h₂, h₃, h₄, h₅⟩
  · rintro ⟨h₁, h₂, h₃, h₄, h₅⟩
    exact ⟨h₁, h₂, h₃, h₄, h₅⟩

/-- The estimate with its numbers in normal form. -/
def ProjectEstimate.normalize (e : ProjectEstimate) : ProjectEstimate :=
  { e with
    rooms := e.rooms.map RoomEstimate.normalize
    totals := e.totals.normalize
    pricing := e.pricing.map (Tiers.map Decimal.normalize) }

theorem ProjectEstimate.like_iff {e e' : ProjectEstimate} : e.Like e' ↔ e.normalize = e'.normalize := by
  simp only [normalize, mk.injEq, ← RoomEstimate.likes_iff, ← ProjectTotals.like_iff,
    ← samePricing_iff_normalize]
  constructor
  · rintro ⟨h₁, h₂, h₃, h₄, h₅⟩
    exact ⟨h₁, h₂, h₃, h₄, h₅⟩
  · rintro ⟨h₁, h₂, h₃, h₄, h₅⟩
    exact ⟨h₁, h₂, h₃, h₄, h₅⟩

namespace Reply

/-- The reply with its numbers in normal form. -/
def normalize : Reply → Reply
  | room e => room e.normalize
  | project e => project e.normalize
  | failed error => failed error

theorem like_iff {r r' : Reply} : r.Like r' ↔ r.normalize = r'.normalize := by
  constructor
  · rintro (h | h | error)
    · exact congrArg room (RoomEstimate.like_iff.1 h)
    · exact congrArg project (ProjectEstimate.like_iff.1 h)
    · rfl
  · intro h
    cases r with
    | room e =>
        cases r' with
        | room e' => exact .room (RoomEstimate.like_iff.2 (Reply.room.inj h))
        | project e' => cases h
        | failed error => cases h
    | project e =>
        cases r' with
        | room e' => cases h
        | project e' => exact .project (ProjectEstimate.like_iff.2 (Reply.project.inj h))
        | failed error => cases h
    | failed error =>
        cases r' with
        | room e' => cases h
        | project e' => cases h
        | failed error' =>
            cases h
            exact .failed error

end Reply

/-! ## All estimators -/

theorem Estimator.fault?_of_ofOptions {options : Options} {est : Estimator}
    (h : ofOptions options = .ok est) : options.rates.fault? = none := by
  unfold ofOptions at h
  split at h
  next => cases h
  next hfault =>
    unfold Options.fault? at hfault
    split at hfault
    next => cases hfault
    next => exact hfault

/-- Every valid estimator that keeps no results and whose rates fit on their sheet replies as without a
cache. -/
theorem Estimator.exists_replies {options : Options} (hkeeps : options.keepsResults = false)
    (hfault : options.fault? = none) (hfits : options.rates.Fits) (inquiries : List Inquiry) :
    ∃ est base, ofOptions options = .ok est ∧ ratesEngine options.rates = .ok base ∧
      est.replies inquiries = inquiries.map (·.fresh options.rates base) := by
  obtain ⟨base, hbase, -⟩ := ratesEngine_eq_ok hfits
  have hoptions : ofOptions options = .ok ⟨options, none⟩ := by
    rw [ofOptions, hfault, hkeeps]
    rfl
  exact ⟨_, base, hoptions, hbase, Settles.replies hbase inquiries rfl (.none _)⟩

/-- With or without a cache, an estimator replies as without one but for the form of numbers. -/
theorem Estimator.replies_like {options : Options} {est : Estimator} (h : ofOptions options = .ok est)
    {base : Engine} (hbase : ratesEngine options.rates = .ok base) (inquiries : List Inquiry) :
    List.Forall₂ Reply.Like (est.replies inquiries) (inquiries.map (·.fresh options.rates base)) := by
  obtain ⟨hoptions, hcache⟩ := ofOptions_eq_ok h
  have hrates : est.options.rates = options.rates := by rw [hoptions]
  cases hkeeps : options.keepsResults with
  | true =>
      rw [hkeeps, if_pos rfl] at hcache
      exact Keeps.replies hbase inquiries hrates hcache (.empty base _)
  | false =>
      rw [hkeeps, if_neg Bool.false_ne_true] at hcache
      rw [Settles.replies hbase inquiries hrates (hcache ▸ .none _)]
      exact List.forall₂_same.2 fun _ _ => Reply.like_iff.2 rfl

/-- What holds of all replies without a cache, but for the form of numbers, holds of all replies. -/
theorem Estimator.replies_have {options : Options} {est : Estimator} (h : ofOptions options = .ok est)
    {P : Inquiry → Reply → Prop}
    (hfresh : ∀ base, ratesEngine options.rates = .ok base → ∀ i, P i (i.fresh options.rates base))
    (hlike : ∀ i r r', r.Like r' → P i r' → P i r)
    (hrefused : ¬ options.rates.Fits → ∀ i error, P i (.failed (i.refusal error)))
    (inquiries : List Inquiry) : List.Forall₂ P inquiries (est.replies inquiries) := by
  cases hrates : ratesEngine options.rates with
  | ok base =>
      have hlikes := List.forall₂_map_right_iff.1 (est.replies_like h hrates inquiries)
      exact hlikes.flip.imp fun i r hr => hlike i r _ hr (hfresh base hrates i)
  | error error =>
      have hunfit : ¬ options.rates.Fits := by
        intro hfits
        obtain ⟨base, hbase, -⟩ := ratesEngine_eq_ok hfits
        rw [hrates] at hbase
        cases hbase
      have herror : ratesEngine est.options.rates = .error error := by
        rw [(ofOptions_eq_ok h).1, hrates]
      rw [replies_of_error herror]
      exact List.forall₂_map_right_iff.2 (List.forall₂_same.2 fun i _ => hrefused hunfit i error)

/-- A reply that is no failure has estimates of what was asked for, and these have the given properties: every
room one, and a project another one besides. -/
def Inquiry.Answered (P : Room → RoomEstimate → Prop)
    (Q : List Room → ProjectEstimate → Prop) : Inquiry → Reply → Prop
  | room r, .room e => P r e
  | project rooms, .project e => List.Forall₂ P rooms e.rooms ∧ Q rooms e
  | _, .failed _ => True
  | room _, .project _ => False
  | project _, .room _ => False

theorem Inquiry.Answered.imp {P P' : Room → RoomEstimate → Prop} {Q Q' : List Room → ProjectEstimate → Prop}
    (hroom : ∀ r e, P r e → P' r e) (hproject : ∀ rooms e, Q rooms e → Q' rooms e) {i : Inquiry}
    {reply : Reply} (h : i.Answered P Q reply) : i.Answered P' Q' reply := by
  cases i with
  | room r =>
      cases reply with
      | room e => exact hroom r e h
      | project e => exact h
      | failed error => trivial
  | project rooms =>
      cases reply with
      | room e => exact h
      | project e => exact ⟨h.1.imp hroom, hproject rooms e h.2⟩
      | failed error => trivial

/-- A reply has estimates of what was asked for, and these have the given properties: every room one, and a
project another one besides.  There is no estimate of a project without rooms, or if the rates do not fit on
their sheet. -/
def Inquiry.Estimated (rates : Rates) (P : Room → RoomEstimate → Prop)
    (Q : List Room → ProjectEstimate → Prop) : Inquiry → Reply → Prop
  | room r, .room e => P r e
  | room _, .failed _ => ¬ rates.Fits
  | project rooms, .project e => List.Forall₂ P rooms e.rooms ∧ Q rooms e
  | project rooms, .failed error => rooms = [] ∧ error = .noRooms ∨ ¬ rates.Fits
  | _, _ => False

theorem Inquiry.Estimated.answered {rates : Rates} {P : Room → RoomEstimate → Prop}
    {Q : List Room → ProjectEstimate → Prop} {i : Inquiry} {reply : Reply}
    (h : i.Estimated rates P Q reply) : i.Answered P Q reply := by
  cases i <;> cases reply <;> first | exact h | trivial

/-- What holds of all estimates without a cache, but for the form of numbers, holds of the estimates in all
replies. -/
theorem Estimator.replies_estimated {options : Options} {est : Estimator} (h : ofOptions options = .ok est)
    {P : Room → RoomEstimate → Prop} {Q : List Room → ProjectEstimate → Prop}
    (hroom : ∀ base, ratesEngine options.rates = .ok base →
      ∀ r, P r (freshRoom options.rates base r))
    (hroomLike : ∀ r e e', RoomEstimate.Like e e' → P r e' → P r e)
    (hproject : ∀ base, ratesEngine options.rates = .ok base →
      ∀ rooms, rooms ≠ [] → Q rooms (freshProject options.rates base rooms))
    (hprojectLike : ∀ rooms e e', ProjectEstimate.Like e e' → Q rooms e' → Q rooms e)
    (inquiries : List Inquiry) :
    List.Forall₂ (Inquiry.Estimated options.rates P Q) inquiries (est.replies inquiries) := by
  refine replies_have h ?fresh ?like ?refused inquiries
  case fresh =>
    intro base hbase i
    cases i with
    | room r => exact hroom base hbase r
    | project rooms =>
        cases rooms with
        | nil => exact Or.inl ⟨rfl, rfl⟩
        | cons r rooms =>
            exact ⟨List.forall₂_map_right_iff.2 (List.forall₂_same.2 fun r _ => hroom base hbase r),
              hproject base hbase _ (List.cons_ne_nil r rooms)⟩
  case like =>
    intro i r r' hlike hestimated
    cases hlike with
    | failed error => exact hestimated
    | room hlike =>
        cases i with
        | room r => exact hroomLike r _ _ hlike hestimated
        | project rooms => exact hestimated
    | project hlike =>
        cases i with
        | room r => exact hestimated
        | project rooms =>
            exact ⟨forall₂_trans hestimated.1 hlike.rooms fun r _ _ hroom hlike => hroomLike r _ _ hlike hroom,
              hprojectLike rooms _ _ hlike hestimated.2⟩
  case refused =>
    intro hunfit i error
    cases i with
    | room r => exact hunfit
    | project rooms => exact Or.inr hunfit

/-- What holds of all estimates without a cache, but for the form of numbers, holds of the estimates in all
replies that are no failures. -/
theorem Estimator.replies_answered {options : Options} {est : Estimator} (h : ofOptions options = .ok est)
    {P : Room → RoomEstimate → Prop} {Q : List Room → ProjectEstimate → Prop}
    (hroom : ∀ base, ratesEngine options.rates = .ok base →
      ∀ r, P r (freshRoom options.rates base r))
    (hroomLike : ∀ r e e', RoomEstimate.Like e e' → P r e' → P r e)
    (hproject : ∀ base, ratesEngine options.rates = .ok base →
      ∀ rooms, Q rooms (freshProject options.rates base rooms))
    (hprojectLike : ∀ rooms e e', ProjectEstimate.Like e e' → Q rooms e' → Q rooms e)
    (inquiries : List Inquiry) :
    List.Forall₂ (Inquiry.Answered P Q) inquiries (est.replies inquiries) :=
  (replies_estimated h hroom hroomLike (fun base hbase rooms _ => hproject base hbase rooms) hprojectLike
    inquiries).imp fun _ _ hestimated => hestimated.answered

end Estimate

end PaintQuote
