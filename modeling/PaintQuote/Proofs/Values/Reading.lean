import PaintQuote.Formula.Library
import PaintQuote.Proofs.Values.Arithmetic

/-!
# Reading arguments in order

A function reads its arguments one after the other and ends at the first that it cannot use.  So an error
among the arguments that are still to be read ends it too: with this error, or with another one that is met
before, and that is met as well when single values stand in the places of the errors (`Reads`).  Each step of
a function passes this on: it reads an argument (`Reads.next`), one that may be left out (`Reads.optional`),
or none (`Reads.step`).
-/

namespace PaintQuote.Formula

open Sheet Functions

/-! ## Reading in order -/

/-- A value, or any single value in the place of an error. -/
inductive Replaced : Value → Value → Prop where
  /-- Nothing changes. -/
  | same (v : Value) : Replaced v v
  /-- An error gives way. -/
  | error (e : ErrorValue) (c : CellValue) : Replaced (.error e) (.scalar c)

/-- One of the arguments, and what replaces it. -/
structure Argument (all : List Value) (v w : Value) : Prop where
  mem : v ∈ all
  replaced : Replaced v w

/-- An error among values stands behind those that are none. -/
theorem error_mem_tail {v : Value} {vs : List Value} (he : ∃ e, .error e ∈ v :: vs)
    (hvalue : ∀ e, v ≠ .error e) : ∃ e, .error e ∈ vs := by
  obtain ⟨e, he⟩ := he
  exact ⟨e, (List.mem_cons.1 he).resolve_left (hvalue e).symm⟩

/-- An answer is one of the errors among the arguments, or an error that another answer has too. -/
def Fails (all : List Value) (a b : Answer) : Prop :=
  ∃ e, settled a = .error e ∧ (.error e ∈ all ∨ settled b = .error e)

/-- The answers to arguments and to what replaces them, where some are still to be read: the first fails if
one of these is an error. -/
def Reads (all unread : List Value) (a b : Answer) : Prop :=
  (∃ e, .error e ∈ unread) → Fails all a b

/-- A reading of an argument fails for an error with this error. -/
def Strict {α : Type} (read : Value → Except FormulaError α) : Prop :=
  ∀ e, read (.error e) = .error (.errorValue e)

namespace Reads

variable {α : Type} {all unread unread' : List Value} {v w : Value} {o p : Option Value} {a b : Answer}
  {r : Value → Except FormulaError α} {f g : α → Answer}

theorem nil : Reads all [] a b := fun ⟨_, he⟩ => absurd he List.not_mem_nil

theorem mono (hsub : unread' ⊆ unread) (h : Reads all unread a b) : Reads all unread' a b :=
  fun ⟨e, he⟩ => h ⟨e, hsub he⟩

/-- An error that both answers have. -/
theorem failed (err : FormulaError) : Reads all unread (.error err) (.error err) :=
  fun _ => ⟨err.cellError, rfl, Or.inr rfl⟩

theorem ite {c : Prop} [Decidable c] {a' b' : Answer} (h : c → Reads all unread a b)
    (h' : ¬ c → Reads all unread a' b') :
    Reads all unread (if c then a else a') (if c then b else b') := by
  split
  next hc => exact h hc
  next hc => exact h' hc

/-- A step that reads no argument. -/
theorem step {x : Except FormulaError α} (h : ∀ a, Reads all unread (f a) (g a)) :
    Reads all unread (x >>= f) (x >>= g) := by
  cases x with
  | error err => exact failed err
  | ok a => exact h a

/-- An error that is read ends the reading, and a value that is none is read on both sides. -/
theorem argument (h : Argument all v w) (herror : ∀ e, v = .error e → settled a = .error e)
    (hrest : (∀ e, v ≠ .error e) → w = v → Reads all unread a b) : Reads all (v :: unread) a b := by
  by_cases hnone : ∃ e, v = .error e
  · obtain ⟨e, he⟩ := hnone
    exact fun _ => ⟨e, herror e he, Or.inl (he ▸ h.mem)⟩
  · have hvalue : ∀ e, v ≠ .error e := fun e heq => hnone ⟨e, heq⟩
    intro he
    cases h.replaced with
    | error e c => exact absurd rfl (hvalue e)
    | same => exact hrest hvalue rfl (error_mem_tail he hvalue)

/-- The next argument is read. -/
theorem next (hstrict : Strict r) (h : Argument all v w) (hrest : ∀ a, Reads all unread (f a) (g a)) :
    Reads all (v :: unread) (r v >>= f) (r w >>= g) := by
  refine argument h ?_ ?_
  · rintro e rfl
    rw [hstrict e]
    rfl
  · rintro - rfl
    exact step hrest

/-- The next argument is read, if it is there. -/
theorem optional {r : Option Value → Except FormulaError α} (hstrict : Strict fun v => r (some v))
    (h : Option.Rel (Argument all) o p) (hrest : ∀ a, Reads all unread (f a) (g a)) :
    Reads all (o.toList ++ unread) (r o >>= f) (r p >>= g) := by
  cases h with
  | none => exact step hrest
  | some h => exact next hstrict h hrest

/-- Two arguments are read. -/
theorem both {β : Type} {s : Value → Except FormulaError β} {v' w' : Value} {f g : α → β → Answer}
    (hr : Strict r) (hs : Strict s) (hv : Argument all v v') (hw : Argument all w w') :
    Reads all [v, w] (do let a ← r v; let b ← s w; f a b) (do let a ← r v'; let b ← s w'; g a b) :=
  next hr hv fun _ => next hs hw fun _ => nil

/-- An argument and an optional one are read. -/
theorem bothOptional {β : Type} {s : Option Value → Except FormulaError β} {f g : α → β → Answer}
    (hr : Strict r) (hs : Strict fun v => s (some v)) (hv : Argument all v w)
    (ho : Option.Rel (Argument all) o p) :
    Reads all (v :: (o.toList ++ [])) (do let a ← r v; let b ← s o; f a b)
      (do let a ← r w; let b ← s p; g a b) :=
  next hr hv fun _ => optional hs ho fun _ => nil

end Reads

/-! ## Many arguments -/

/-- A reading of arguments ends with one of the errors among them, or with an error that another reading has
too. -/
def Stops {α : Type} (all : List Value) (x y : Except FormulaError α) : Prop :=
  ∃ err, x = .error err ∧ (.error err.cellError ∈ all ∨ y = .error err)

section

variable {α β : Type} {all vs ws : List Value}

theorem Stops.bind {x y : Except FormulaError α} (h : Stops all x y) (f g : α → Except FormulaError β) :
    Stops all (x >>= f) (y >>= g) := by
  obtain ⟨err, rfl, hor⟩ := h
  exact ⟨err, rfl, hor.imp_right fun hy => by rw [hy]; rfl⟩

theorem Stops.map {x y : Except FormulaError α} (h : Stops all x y) (f g : α → β) :
    Stops all (x.map f) (y.map g) := by
  obtain ⟨err, rfl, hor⟩ := h
  exact ⟨err, rfl, hor.imp_right fun hy => by rw [hy]; rfl⟩

theorem Stops.fails {a b : Answer} (h : Stops all a b) : Fails all a b := by
  obtain ⟨err, rfl, hor⟩ := h
  exact ⟨err.cellError, rfl, hor.imp_right fun hb => by rw [hb]; rfl⟩

/-- Arguments that are read one by one from the left stop at an error. -/
theorem stops_each {read : Value → Except FormulaError β} {readAll : List Value → Except FormulaError α}
    {join : β → α → α} (hstrict : Strict read)
    (hcons : ∀ v vs, readAll (v :: vs) = do let b ← read v; let a ← readAll vs; .ok (join b a))
    (h : List.Forall₂ (Argument all) vs ws) (he : ∃ e, .error e ∈ vs) :
    Stops all (readAll vs) (readAll ws) := by
  induction h with
  | nil =>
      obtain ⟨e, he⟩ := he
      exact absurd he List.not_mem_nil
  | @cons v w vs ws hv _ ih =>
      rw [hcons, hcons]
      cases hv.replaced with
      | error e c => exact ⟨.errorValue e, by rw [hstrict e]; rfl, Or.inl hv.mem⟩
      | same =>
          cases hread : read v with
          | error err => exact ⟨err, rfl, Or.inr rfl⟩
          | ok b =>
              refine Stops.bind (ih (error_mem_tail he ?_)) _ _
              rintro e rfl
              rw [hstrict e] at hread
              cases hread

end

/-! ## Arguments by place -/

/-- A function fails for arguments with an error among them, and if not with this error, then before it
reads one. -/
def Function.Propagates (f : Function) : Prop :=
  ∀ answer, f.implementation = .eager answer → ∀ {all vs ws}, f.takes vs.length = true →
    List.Forall₂ (Argument all) vs ws → Reads all vs (answer vs) (answer ws)

namespace Function.Propagates

variable {name : String} {least most : Nat}

theorem takes_eager {most : Option Nat} {answer : List Value → Answer} {count : Nat} :
    (Function.eager name least most answer).takes count = true ↔
      least ≤ count ∧ ∀ n, most = some n → count ≤ n := by
  show (decide (least ≤ count) && (most.map fun n => decide (count ≤ n)).getD true) = true ↔ _
  cases most <;> simp

theorem deferred {most : Option Nat} {answer : List (Logged Value) → Logged Answer} :
    (Function.deferred name least most answer).Propagates := by
  rintro _ ⟨⟩

/-- Arguments in any number. -/
theorem eager {answer : List Value → Answer}
    (h : ∀ {all vs ws}, List.Forall₂ (Argument all) vs ws → Reads all vs (answer vs) (answer ws)) :
    (Function.eager name least none answer).Propagates := by
  rintro _ ⟨rfl⟩ all vs ws _ hargs
  exact h hargs

/-- Arguments by the least and the greatest number of them. -/
theorem bounded {answer : List Value → Answer}
    (h : ∀ {all vs ws}, least ≤ vs.length → vs.length ≤ most → List.Forall₂ (Argument all) vs ws →
      Reads all vs (answer vs) (answer ws)) :
    (Function.eager name least (some most) answer).Propagates := by
  rintro _ ⟨rfl⟩ all vs ws htakes hargs
  obtain ⟨hleast, hmost⟩ := takes_eager.1 htakes
  exact h hleast (hmost most rfl) hargs

theorem withNone {answer : Answer} : (Function.eager name 0 (some 0) (withNone answer)).Propagates := by
  refine bounded fun {all vs ws} _ hmost _ => ?_
  obtain rfl := List.eq_nil_of_length_eq_zero (Nat.le_zero.1 hmost)
  exact .nil

theorem withOne {answer : Value → Answer}
    (h : ∀ {all v w}, Argument all v w → Reads all [v] (answer v) (answer w)) :
    (Function.eager name 1 (some 1) (withOne answer)).Propagates := by
  refine bounded fun hleast hmost hargs => ?_
  cases hargs with
  | nil => cases hleast
  | cons hv hargs =>
      cases hargs with
      | nil => exact h hv
      | cons => cases Nat.le_of_succ_le_succ hmost

/-- A function of one argument that keeps an error. -/
theorem withOne_of_error {answer : Value → Answer} (h : ∀ e, settled (answer (.error e)) = .error e) :
    (Function.eager name 1 (some 1) (Formula.withOne answer)).Propagates :=
  withOne fun hv => .argument hv (by rintro e rfl; exact h e) fun _ _ => .nil

theorem rel_head? {all vs ws : List Value} (h : List.Forall₂ (Argument all) vs ws) :
    Option.Rel (Argument all) vs.head? ws.head? := by
  cases h with
  | nil => exact .none
  | cons h => exact .some h

/-- The last argument, if it is there. -/
theorem subset_head? {vs : List Value} (h : vs.length ≤ 1) : vs ⊆ vs.head?.toList ++ [] := by
  cases vs with
  | nil => exact List.Subset.refl _
  | cons v vs =>
      obtain rfl := List.eq_nil_of_length_eq_zero (Nat.le_zero.1 (Nat.le_of_succ_le_succ h))
      exact List.Subset.refl _

theorem withOneOrTwo {answer : Value → Option Value → Answer}
    (h : ∀ {all v w o p}, Argument all v w → Option.Rel (Argument all) o p →
      Reads all (v :: (o.toList ++ [])) (answer v o) (answer w p)) :
    (Function.eager name 1 (some 2) (withOneOrTwo answer)).Propagates := by
  refine bounded fun hleast hmost hargs => ?_
  cases hargs with
  | nil => cases hleast
  | cons hv hargs =>
      refine (h hv (rel_head? hargs)).mono (List.cons_subset_cons _ (subset_head? ?_))
      exact Nat.le_of_succ_le_succ hmost

theorem withOneToThree {answer : Value → Option Value → Option Value → Answer}
    (h : ∀ {all v w o p q r}, Argument all v w → Option.Rel (Argument all) o p →
      Option.Rel (Argument all) q r →
      Reads all (v :: (o.toList ++ (q.toList ++ []))) (answer v o q) (answer w p r)) :
    (Function.eager name 1 (some 3) (withOneToThree answer)).Propagates := by
  refine bounded fun hleast hmost hargs => ?_
  cases hargs with
  | nil => cases hleast
  | @cons v w vs ws hv hargs =>
      refine (h hv (forall₂_getElem? hargs 0) (forall₂_getElem? hargs 1)).mono (List.cons_subset_cons _ ?_)
      match vs, Nat.le_of_succ_le_succ hmost with
      | [], _ => exact List.Subset.refl _
      | [u], _ => exact List.Subset.refl _
      | [u, u'], _ => exact List.Subset.refl _

theorem withTwo {answer : Value → Value → Answer}
    (h : ∀ {all v w v' w'}, Argument all v v' → Argument all w w' →
      Reads all [v, w] (answer v w) (answer v' w')) :
    (Function.eager name 2 (some 2) (withTwo answer)).Propagates := by
  refine bounded fun hleast hmost hargs => ?_
  obtain ⟨v, w, rfl⟩ := List.length_eq_two.1 (Nat.le_antisymm hmost hleast)
  cases hargs with
  | cons hv hargs =>
      cases hargs with
      | cons hw hargs =>
          cases hargs
          exact h hv hw

theorem withTwoOrThree {answer : Value → Value → Option Value → Answer}
    (h : ∀ {all v w v' w' o p}, Argument all v v' → Argument all w w' → Option.Rel (Argument all) o p →
      Reads all (v :: w :: (o.toList ++ [])) (answer v w o) (answer v' w' p)) :
    (Function.eager name 2 (some 3) (withTwoOrThree answer)).Propagates := by
  refine bounded fun hleast hmost hargs => ?_
  cases hargs with
  | nil => cases hleast
  | cons hv hargs =>
      cases hargs with
      | nil => cases Nat.le_of_succ_le_succ hleast
      | cons hw hargs =>
          refine (h hv hw (rel_head? hargs)).mono
            (List.cons_subset_cons _ (List.cons_subset_cons _ (subset_head? ?_)))
          exact Nat.le_of_succ_le_succ (Nat.le_of_succ_le_succ hmost)

theorem withThree {answer : Value → Value → Value → Answer}
    (h : ∀ {all u v w u' v' w'}, Argument all u u' → Argument all v v' → Argument all w w' →
      Reads all [u, v, w] (answer u v w) (answer u' v' w')) :
    (Function.eager name 3 (some 3) (withThree answer)).Propagates := by
  refine bounded fun hleast hmost hargs => ?_
  obtain ⟨u, v, w, rfl⟩ := List.length_eq_three.1 (Nat.le_antisymm hmost hleast)
  cases hargs with
  | cons hu hargs =>
      cases hargs with
      | cons hv hargs =>
          cases hargs with
          | cons hw hargs =>
              cases hargs
              exact h hu hv hw

theorem withThreeOrFour {answer : Value → Value → Value → Option Value → Answer}
    (h : ∀ {all u v w u' v' w' o p}, Argument all u u' → Argument all v v' → Argument all w w' →
      Option.Rel (Argument all) o p →
      Reads all (u :: v :: w :: (o.toList ++ [])) (answer u v w o) (answer u' v' w' p)) :
    (Function.eager name 3 (some 4) (withThreeOrFour answer)).Propagates := by
  refine bounded fun hleast hmost hargs => ?_
  cases hargs with
  | nil => cases hleast
  | cons hu hargs =>
      cases hargs with
      | nil => cases Nat.le_of_succ_le_succ hleast
      | cons hv hargs =>
          cases hargs with
          | nil => cases Nat.le_of_succ_le_succ (Nat.le_of_succ_le_succ hleast)
          | cons hw hargs =>
              refine (h hu hv hw (rel_head? hargs)).mono (List.cons_subset_cons _
                (List.cons_subset_cons _ (List.cons_subset_cons _ (subset_head? ?_))))
              exact Nat.le_of_succ_le_succ (Nat.le_of_succ_le_succ (Nat.le_of_succ_le_succ hmost))

end Function.Propagates

end PaintQuote.Formula
