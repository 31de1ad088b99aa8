import PaintQuote.Estimate.Interchange
import PaintQuote.Json.Printer
import PaintQuote.Proofs.Estimate.Inquiries
import PaintQuote.Proofs.Estimate.Perimeter

/-!
# Replies with and without a cache

Cache keys take `12` and `12.0` for one input, while a result has the form that its operands had, and a
cache hands a result to whoever asks under its key.

* Whatever was asked before, estimates with and without a cache are equal but for the form of their
  numbers, and equal altogether if no two evaluations under one key that read a number in two forms come
  to different outcomes (`replies_like_fresh`).
* Asked for one room only, however often, this is so (`formBlind_of_room`).
* Asked for a room in two forms, an estimator repeats its first reply (`replies_again`), though the
  perimeter in it has another text than the one that is asked for second (`replies_see_form`).
-/

namespace PaintQuote

open Sheet Formula Engine Estimate

namespace Estimate

/-- The text of a reply. -/
def Reply.toText : Reply → String
  | room e => e.toJson.compact
  | project e => e.toJson.compact
  | failed error => error.message

/-! ## Evaluations that are blind to forms -/

/-- Evaluations under one key that read a cell in two forms have one outcome all the same. -/
def FormBlind (xs : List Evaluation) : Prop :=
  ∀ x ∈ xs, ∀ y ∈ xs, x.cacheKey = y.cacheKey →
    (∃ p ∈ x.reads, x.engine.value p ≠ y.engine.value p) → x.outcome = y.outcome

/-- The evaluations that inquiries come to without a cache. -/
def freshEvaluations (rates : Rates) (inquiries : List Inquiry) : List Evaluation :=
  match ratesEngine rates with
  | .ok base => inquiries.flatMap (·.evaluations rates base)
  | .error _ => []

theorem Inquiry.drawn_of_mem_evaluations {rates : Rates} {base : Engine} {inquiry : Inquiry}
    {x : Evaluation} (hx : x ∈ inquiry.evaluations rates base) : Page.Drawn base x := by
  obtain ⟨page, -, hx⟩ := List.mem_flatMap.1 hx
  exact ⟨page, hx⟩

theorem FormBlind.unambiguous {base : Engine} (hbare : Bare base) {xs : List Evaluation}
    (h : FormBlind xs) (hxs : ∀ x ∈ xs, Page.Drawn base x) :
    ResultCache.Unambiguous (xs.map Evaluation.entry) := by
  intro a ha b hb hkey
  obtain ⟨x, hx, rfl⟩ := List.mem_map.1 ha
  obtain ⟨y, hy, rfl⟩ := List.mem_map.1 hb
  show x.outcome = y.outcome
  by_cases hforms : ∃ p ∈ x.reads, x.engine.value p ≠ y.engine.value p
  · exact h x hx y hy hkey hforms
  · have hnear := (hxs x hx).near hbare (hxs y hy) hkey
    have halike : x.Alike y := by
      refine ⟨hnear.sheet, hnear.hasSheet, fun p hp _ => ?_, fun s hs _ => hnear.target s hs⟩
      by_contra hne
      exact hforms ⟨p, hp, hne⟩
    exact halike.outcome_eq ((hxs x hx).sound hbare) ((hxs y hy).sound hbare) hkey

theorem Estimator.ofOptions_eq_ok {options : Options} {est : Estimator}
    (h : ofOptions options = .ok est) : est.options = options ∧
      est.cache = if options.keepsResults then some (.empty options.capacity) else none := by
  unfold ofOptions at h
  split at h
  next => cases h
  next =>
    cases h
    exact ⟨rfl, rfl⟩

theorem Keeps.empty (base : Engine) (capacity : Nat) : Keeps base (.empty capacity) :=
  ⟨[], fun _ h => absurd h List.not_mem_nil, fun _ h => absurd h List.not_mem_nil⟩

theorem Settles.none (xs : List Evaluation) : Settles none xs := nofun

theorem Settles.empty {xs : List Evaluation} (capacity : Nat)
    (h : ResultCache.Unambiguous (xs.map Evaluation.entry)) :
    Settles (some (.empty capacity)) xs := by
  have hheld : ∀ held ∈ (ResultCache.empty capacity).entries, held ∈ ([] : List (CacheKey × Outcome)) :=
    fun _ h => absurd h List.not_mem_nil
  rintro c ⟨⟩
  exact ResultCache.serves_of_unambiguous _ hheld h

/-- An evaluation for a room shares its key with no other one, so that asking for one room only, however
often, is blind to forms. -/
theorem formBlind_of_room (rates : Rates) (r : Room) {inquiries : List Inquiry}
    (h : ∀ i ∈ inquiries, i = .room r) : FormBlind (freshEvaluations rates inquiries) := by
  unfold freshEvaluations
  split
  next base hbase =>
    have hroom : ∀ x ∈ inquiries.flatMap (·.evaluations rates base),
        x ∈ (Page.room r).evaluations base := by
      intro x hx
      obtain ⟨i, hi, hx⟩ := List.mem_flatMap.1 hx
      rwa [h i hi, Inquiry.evaluations, Inquiry.pages, List.flatMap_singleton] at hx
    intro x hx y hy hkey _
    rw [Page.eq_of_cacheKey_eq (bare_of_ratesEngine hbase) (hroom x hx) (hroom y hy) hkey]
  next => exact fun x hx => absurd hx List.not_mem_nil

/-! ## Rooms in other forms -/

/-- Rooms whose contents agree have entries that agree. -/
theorem Layout.roomEntries_writes {r r' : Room}
    (h : List.Forall₂ SameContent (roomContents r) (roomContents r')) :
    List.Forall₂ Workbook.Akin.Writes (roomEntries r) (roomEntries r') :=
  List.rel_append (List.rel_append (List.rel_append (column_writes _ _ h)
    (column_writes _ _ (sameContents_self _))) (column_writes _ _ (sameContents_self _)))
    (column_writes _ _ (sameContents_self _))

theorem unambiguous_room {base : Engine} (hbare : Bare base) (r : Room) :
    ResultCache.Unambiguous (((Page.room r).evaluations base).map Evaluation.entry) := by
  intro a ha b hb hkey
  obtain ⟨x, hx, rfl⟩ := List.mem_map.1 ha
  obtain ⟨y, hy, rfl⟩ := List.mem_map.1 hb
  rw [Page.eq_of_cacheKey_eq hbare hx hy hkey]

section

variable {rates : Rates} {base : Engine} (hbase : ratesEngine rates = .ok base) {a b : Room}
include hbase

/-- An estimator with an empty cache replies to its first inquiry about a room as without a cache, and
its cache has the outcomes of all evaluations for the room from then on. -/
theorem ask_first {est : Estimator} (hrates : est.options.rates = rates) {capacity : Nat}
    (hcache : est.cache = some (.empty capacity))
    (hcapacity : Layout.roomFormulas.length ≤ capacity) (r : Room) :
    ∃ c, est.ask (.room r) = (.room (freshRoom rates base r), { est with cache := some c }) ∧
      ∀ x ∈ (Page.room r).evaluations base, c.find? x.cacheKey = some x.outcome := by
  subst hrates
  have hbare := bare_of_ratesEngine hbase
  have hserves : (ResultCache.empty capacity).Serves
      (((Page.room r).evaluations base).map Evaluation.entry) :=
    Settles.empty capacity (unambiguous_room hbare r) _ rfl
  obtain ⟨e, hact, hsame⟩ :=
    (Same.refl ((Page.room r).engine base)).act (.evaluateAll (Page.room r).outputs) hserves
  have hreadings : roomReadings r.name e = freshReadings base r := by
    funext o
    rw [roomReadings, hsame.shown]
    rfl
  have hread := readRoom_eq hbase hact
  rw [hreadings, ← hcache] at hread
  refine ⟨_, Estimator.ask_room hread, fun x hx => ?_⟩
  have hempty : (ResultCache.empty capacity).Recalls [] :=
    ⟨fun _ h => absurd h List.not_mem_nil, Nat.le_refl 0⟩
  have hroom : ([] : List (CacheKey × Outcome)).length +
      (((Page.room r).evaluations base).map Evaluation.entry).length ≤ capacity := by
    rw [List.length_nil, Nat.zero_add, List.length_map]
    exact Nat.le_trans (Page.length_evaluations_le hbare r) hcapacity
  exact (hempty.serves _ hroom hserves).found _ (List.mem_map_of_mem hx)

/-- Asked for a room once more with its measurements in other forms, an estimator repeats its reply. -/
theorem replies_again {est : Estimator} (hrates : est.options.rates = rates) {capacity : Nat}
    (hcache : est.cache = some (.empty capacity))
    (hcapacity : Layout.roomFormulas.length ≤ capacity) (hname : b.name = a.name)
    (hforms : List.Forall₂ Layout.SameContent (Layout.roomContents b) (Layout.roomContents a)) :
    est.replies [.room a, .room b] = [.room (freshRoom rates base a), .room (freshRoom rates base a)] := by
  have hbare := bare_of_ratesEngine hbase
  obtain ⟨c, hask, hfound⟩ := ask_first hbase hrates hcache hcapacity a
  subst hrates
  have hpages : ((Page.room b).engine base).workbook.Akin ((Page.room a).engine base).workbook :=
    Page.engine_akin base (Layout.roomEntries_writes hforms)
  have hakin := ((Page.room b).engine_unread hbare).akin ((Page.room a).engine_unread hbare) Eq hpages
  have huniform : Uniform ((Page.room a).evaluations base) :=
    Page.uniform_of_drawn hbare fun x hx => ⟨.room a, hx⟩
  obtain ⟨e, cache, hrun, hrecalled⟩ := hakin.run_recalled (Page.room b).outputs
    fun x hx => ⟨huniform.isUniform x hx, hfound x hx⟩
  have hknown : ∀ o : RoomOutput,
      (((Page.room a).engine base).run none (Page.room b).outputs).1.isKnown o.key :=
    (holdsRoom_evaluated hbare a).2
  have hreadings : roomReadings b.name e = freshReadings base a := by
    funext o
    rw [roomReadings, hname, hrecalled.shown_of_isKnown (hknown o)]
    rfl
  have hread := readRoom_eq hbase hrun
  rw [hreadings] at hread
  have hagain : ({ est with cache := some c } : Estimator).ask (.room b) =
      (.room (.ofReadings est.options.rates b.name (freshReadings base a)), { est with cache }) :=
    Estimator.ask_room hread
  rw [Estimator.replies, hask, Estimator.replies, hagain, Estimator.replies, hname]
  rfl

/-- The perimeter in the estimate of a room without a cache. -/
theorem freshRoom_perimeter {r : Room} {n : Decimal}
    (hmeasurable : outcomeOf (Layout.roomContext r) Layout.measurableExpr = .ok (.boolean true))
    (hperimeter : outcomeOf (Layout.roomContext r) Layout.perimeterExpr = .ok (.number n)) :
    (freshRoom rates base r).perimeter = some n := by
  obtain ⟨hholds, hknown⟩ := holdsRoom_evaluated (bare_of_ratesEngine hbase) r
  have hshown := hholds.shown_perimeter hmeasurable (Or.inl (hknown .perimeter))
  show (Reading.ofOutcome ((Page.evaluated base (.room r)).shown RoomOutput.perimeter.key) _ _ _).number? = _
  rw [show RoomOutput.perimeter.key = ⟨Layout.roomSheet, ⟨1, 3⟩⟩ from rfl, hshown, hperimeter]
  rfl

end

/-! ## Texts -/

/-- Texts differ if they start with texts that are no prefixes of each other. -/
theorem append_ne_of_not_prefix {s t : String} (h : ¬ s.toList <+: t.toList)
    (h' : ¬ t.toList <+: s.toList) (x y : String) : s ++ x ≠ t ++ y := by
  intro heq
  have hlists := congrArg String.toList heq
  rw [String.toList_append, String.toList_append] at hlists
  rcases List.append_eq_append_iff.1 hlists with ⟨a, ha, -⟩ | ⟨a, ha, -⟩
  · exact h ⟨a, ha.symm⟩
  · exact h' ⟨a, ha.symm⟩

theorem compact_object (m₁ m₂ m₃ : String × Json) (ms : List (String × Json)) :
    ∃ rest, (Json.object (m₁ :: m₂ :: m₃ :: ms)).compact =
      "\x7b" ++ (Json.quote m₁.1 ++ ":" ++ m₁.2.compact) ++ "," ++
        (Json.quote m₂.1 ++ ":" ++ m₂.2.compact) ++ "," ++ rest := by
  refine ⟨String.intercalate "," (Json.compactMembers (m₃ :: ms)) ++ "\x7d", ?_⟩
  simp only [Json.compact, Json.compactMembers, String.intercalate_cons_cons, String.append_assoc]

/-- How the text of an estimate starts for a room and its perimeter. -/
def opening (room : String) (perimeter : Decimal) : String :=
  "\x7b" ++ (Json.quote "room" ++ ":" ++ (Json.string room).compact) ++ "," ++
    (Json.quote "perimeter" ++ ":" ++ (numberJson perimeter).compact) ++ ","

theorem compact_toJson {e : RoomEstimate} {room : String} {perimeter : Decimal} (hroom : e.room = room)
    (hperimeter : e.perimeter = some perimeter) :
    ∃ rest, e.toJson.compact = opening room perimeter ++ rest := by
  subst hroom
  obtain ⟨rest, hrest⟩ := compact_object ("room", .string e.room) ("perimeter", numberOrNull e.perimeter) _ _
  refine ⟨rest, ?_⟩
  rw [hperimeter] at hrest
  rw [RoomEstimate.toJson, hperimeter]
  exact hrest

/-! ## With and without a cache -/

/-- With and without a cache, an estimator gives estimates that are equal but for the form of numbers,
whatever it has been asked before.  They are equal in this too if evaluations are blind to forms. -/
theorem replies_like_fresh {options : Options} {kept fresh : Estimator}
    (hkept : Estimator.ofOptions { options with keepsResults := true } = .ok kept)
    (hfresh : Estimator.ofOptions { options with keepsResults := false } = .ok fresh)
    (inquiries : List Inquiry) :
    fresh.replies inquiries = inquiries.map (fun i => (fresh.ask i).1) ∧
    List.Forall₂ Reply.Like (kept.replies inquiries) (inquiries.map fun i => (fresh.ask i).1) ∧
    (FormBlind (freshEvaluations options.rates inquiries) →
      kept.replies inquiries = inquiries.map fun i => (fresh.ask i).1) := by
  obtain ⟨hkeptOptions, hkeptCache⟩ := Estimator.ofOptions_eq_ok hkept
  obtain ⟨hfreshOptions, hfreshCache⟩ := Estimator.ofOptions_eq_ok hfresh
  have hkeptRates : kept.options.rates = options.rates := by rw [hkeptOptions]
  have hfreshRates : fresh.options.rates = options.rates := by rw [hfreshOptions]
  cases hrates : ratesEngine options.rates with
  | error error =>
      have herror := hrates
      rw [← hkeptRates] at herror
      rw [← hfreshRates] at hrates
      have hask : (fun i => (fresh.ask i).1) = fun i => .failed (i.refusal error) := by
        funext i
        rw [Estimator.ask_of_error hrates]
      rw [hask, Estimator.replies_of_error herror, Estimator.replies_of_error hrates]
      refine ⟨rfl, ?_, fun _ => rfl⟩
      exact List.forall₂_map_left_iff.2 (List.forall₂_map_right_iff.2
        (List.forall₂_same.2 fun i _ => .failed _))
  | ok base =>
      have hnone : ∀ xs, Settles fresh.cache xs := hfreshCache ▸ Settles.none
      have hask : (fun i => (fresh.ask i).1) = fun i => i.fresh options.rates base := by
        funext i
        obtain ⟨cache, hask, -⟩ := Settles.ask hrates hfreshRates (hnone (i.evaluations _ base ++ []))
        rw [hask]
      rw [hask]
      refine ⟨Settles.replies hrates inquiries hfreshRates (hnone _), ?_, fun h => ?_⟩
      · exact Keeps.replies hrates inquiries hkeptRates hkeptCache (.empty base _)
      · rw [freshEvaluations, hrates] at h
        refine Settles.replies hrates inquiries hkeptRates (hkeptCache ▸ .empty _ ?_)
        refine h.unambiguous (bare_of_ratesEngine hrates) fun x hx => ?_
        obtain ⟨i, -, hx⟩ := List.mem_flatMap.1 hx
        exact Inquiry.drawn_of_mem_evaluations hx

/-- The estimator with the usual options, with or without a cache. -/
def Estimator.usual (keeps : Bool) : Estimator :=
  ⟨{ Options.usual with keepsResults := keeps }, if keeps then some (.empty Options.usual.capacity) else none⟩

theorem Estimator.ofOptions_usual (keeps : Bool) :
    ofOptions { Options.usual with keepsResults := keeps } = .ok (usual keeps) := by
  have hfault : { Options.usual with keepsResults := keeps }.fault? = none := by
    cases keeps <;> decide +kernel
  rw [ofOptions, hfault]
  rfl

/-- A room whose lengths are written without a point. -/
def Room.hall : Room := { name := "hall", length := 12, width := 10, height := 9 }

theorem one_le_maxScale : 1 ≤ Decimal.maxScale := by decide

/-- The same room with its length written as `12.0`. -/
def Room.fineHall : Room := { Room.hall with length := Decimal.scaled 120 1 (by decide) one_le_maxScale }

/-- Asked for a room three times, the usual estimator replies as without a cache. -/
theorem replies_like_fresh_hall :
    Estimator.ofOptions { Options.usual with keepsResults := true } = .ok (.usual true) ∧
    Estimator.ofOptions { Options.usual with keepsResults := false } = .ok (.usual false) ∧
    FormBlind (freshEvaluations .usual [.room .hall, .room .hall, .room .hall]) ∧
    (Estimator.usual true).replies [.room .hall, .room .hall, .room .hall] =
      [.room .hall, .room .hall, .room .hall].map fun i => ((Estimator.usual false).ask i).1 := by
  have hblind : FormBlind (freshEvaluations .usual [.room .hall, .room .hall, .room .hall]) :=
    formBlind_of_room _ .hall (by simp)
  have hreplies := replies_like_fresh (Estimator.ofOptions_usual true) (Estimator.ofOptions_usual false)
    [.room .hall, .room .hall, .room .hall]
  exact ⟨Estimator.ofOptions_usual true, Estimator.ofOptions_usual false, hblind, hreplies.2.2 hblind⟩

/-- Asked for the two halls in turn, the usual estimator repeats the text of its first reply, though
without a cache the second text is another one. -/
theorem replies_see_form :
    Estimator.ofOptions { Options.usual with keepsResults := true } = .ok (.usual true) ∧
    Estimator.ofOptions { Options.usual with keepsResults := false } = .ok (.usual false) ∧
    ((Estimator.usual true).replies [.room .hall, .room .fineHall]).map Reply.toText ≠
      ((Estimator.usual false).replies [.room .hall, .room .fineHall]).map Reply.toText := by
  refine ⟨Estimator.ofOptions_usual true, Estimator.ofOptions_usual false, fun htexts => ?_⟩
  obtain ⟨base, hbase, -⟩ := ratesEngine_eq_ok (r := .usual) (by decide)
  have hkept : (Estimator.usual true).replies [.room .hall, .room .fineHall] =
      [.room (freshRoom .usual base .hall), .room (freshRoom .usual base .hall)] :=
    replies_again hbase rfl rfl (by decide) rfl (by decide +kernel)
  have hfresh : (Estimator.usual false).replies [.room .hall, .room .fineHall] =
      [.room (freshRoom .usual base .hall), .room (freshRoom .usual base .fineHall)] :=
    Settles.replies hbase _ rfl (.none _)
  rw [hkept, hfresh, List.map_cons, List.map_cons, List.map_cons, List.map_cons] at htexts
  have htext := (List.cons.inj (List.cons.inj htexts).2).1
  have hhall := freshRoom_perimeter hbase (r := .hall) (by decide +kernel)
    (show outcomeOf (Layout.roomContext .hall) Layout.perimeterExpr = .ok (.number 44) by decide +kernel)
  have hfineHall := freshRoom_perimeter hbase (r := .fineHall) (by decide +kernel)
    (show outcomeOf (Layout.roomContext .fineHall) Layout.perimeterExpr =
      .ok (.number (Decimal.scaled 440 1)) by decide +kernel)
  obtain ⟨rest, hrest⟩ := @compact_toJson _ "hall" _ rfl hhall
  obtain ⟨rest', hrest'⟩ := @compact_toJson _ "hall" _ rfl hfineHall
  refine append_ne_of_not_prefix ?_ ?_ rest rest' (hrest.symm.trans (htext.trans hrest'))
  · decide +kernel
  · decide +kernel

end Estimate

end PaintQuote
