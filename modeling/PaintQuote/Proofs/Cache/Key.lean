import PaintQuote.Proofs.Cache.Codes
import PaintQuote.Proofs.Engine.Valid
import PaintQuote.Proofs.Text.UpperCase

/-!
# What a cache key leaves out

The key of an evaluation spells the text of the formula, what its names stand for and the values of the
cells that it reads (`Evaluation.cacheKey_eq_iff`).  It leaves out the sheet of the formula, which of the
sheets read exist as long as the cells on them hold the same error, and the form of numbers.  Two
evaluations with one key that are alike in these have one outcome (`Evaluation.Alike.outcome_eq`).
-/

namespace PaintQuote

open Sheet Formula Engine

/-! ## Names -/

namespace Sheet.Workbook

/-- A name is defined in any case of its letters. -/
theorem name?_asciiUpper (w : Workbook) (s : String) : w.name? (Text.asciiUpper s) = w.name? s := by
  rw [name?, name?, NameTable.find?, NameTable.find?, DefinedName.lookupKey, DefinedName.lookupKey,
    Text.upper_asciiUpper]

end Sheet.Workbook

namespace Engine

namespace References

mutual

/-- The names that are collected are in upper case. -/
theorem collect_upper (names : NameTable) (sheet : SheetName) (s : String) :
    ∀ (r : References) (e : Expr), s ∈ (collect names sheet r e).names →
      s ∈ r.names ∨ Text.asciiUpper s = s
  | r, .literal _, h => Or.inl h
  | r, .cell _, h => Or.inl h
  | r, .range _, h => Or.inl h
  | r, .name t, h => by
      rcases Std.TreeSet.mem_insert.1 h with heq | h
      · rw [Std.LawfulEqCmp.compare_eq_iff_eq] at heq
        rw [← heq]
        exact Or.inr (Text.asciiUpper_asciiUpper t)
      · exact Or.inl h
  | r, .binary _ left right, h => by
      rcases collect_upper names sheet s _ right h with h | h
      · exact collect_upper names sheet s r left h
      · exact Or.inr h
  | r, .negate operand, h => collect_upper names sheet s r operand h
  | r, .percent operand, h => collect_upper names sheet s r operand h
  | r, .call _ arguments, h => collectAll_upper names sheet s r arguments h
  | r, .array _, h => Or.inl h

theorem collectAll_upper (names : NameTable) (sheet : SheetName) (s : String) :
    ∀ (r : References) (es : List Expr), s ∈ (collectAll names sheet r es).names →
      s ∈ r.names ∨ Text.asciiUpper s = s
  | r, [], h => Or.inl h
  | r, e :: es, h => by
      rcases collectAll_upper names sheet s _ es h with h | h
      · exact collect_upper names sheet s r e h
      · exact Or.inr h

end

theorem ofExpr_upper {names : NameTable} {sheet : SheetName} {e : Expr} {s : String}
    (h : s ∈ (ofExpr names sheet e).names) : Text.asciiUpper s = s := by
  rcases collect_upper names sheet s {} e h with h | h
  · simp at h
  · exact h

end References

/-! ## Evaluations -/

/-- A formula that has been read and is about to be evaluated. -/
structure Evaluation where
  /-- The engine that evaluates it. -/
  engine : Engine
  /-- The cell of the formula. -/
  key : CellKey
  /-- The formula. -/
  compiled : Compiled

namespace Evaluation

/-- The key under which the outcome is kept. -/
def cacheKey (x : Evaluation) : CacheKey := x.engine.cacheKey x.key x.compiled

/-- The outcome without a cache. -/
def outcome (x : Evaluation) : Outcome :=
  outcomeOf ⟨x.engine.source, x.key.sheet⟩ x.compiled.expr

/-- The cells that the formula reads. -/
def reads (x : Evaluation) : List CellKey := x.engine.graph.precedents x.key

/-- What a name stands for. -/
def target? (x : Evaluation) (name : String) : Option Target :=
  (x.engine.workbook.name? name).map (·.target)

/-- An evaluation of a formula that has been read, by an engine in which no cell has a value unless its
sheet exists. -/
structure Sound (x : Evaluation) : Prop where
  consistent : x.engine.Consistent
  read : x.engine.formulas.get? x.key = some (.ok x.compiled)
  absent : ∀ p, x.engine.workbook.hasSheet p.sheet = false → x.engine.value p = .empty

/-- Two evaluations are alike in what a key leaves out: the sheet of the formula, which of the sheets
read exist, and the form of numbers. -/
structure Alike (x y : Evaluation) : Prop where
  sheet : x.key.sheet = y.key.sheet
  hasSheet : ∀ p ∈ x.reads, x.engine.workbook.hasSheet p.sheet = y.engine.workbook.hasSheet p.sheet
  value : ∀ p ∈ x.reads, (x.engine.value p).agrees (y.engine.value p) = true →
    x.engine.value p = y.engine.value p
  target : ∀ s ∈ x.compiled.names, CacheKey.TargetsAgree (x.target? s) (y.target? s) →
    x.target? s = y.target? s

variable {x y : Evaluation}

namespace Sound

/-- The formula is the one that the cell holds, with the names in it. -/
theorem reading (hx : x.Sound) : x.engine.workbook.formula? x.key = some x.compiled.text ∧
    Expr.ofText x.compiled.text = .ok x.compiled.expr ∧
    x.compiled.names =
      (References.ofExpr x.engine.workbook.names x.key.sheet x.compiled.expr).names.toList := by
  obtain ⟨text, hf, hreading⟩ := hx.consistent.formulas x.key _ hx.read
  unfold readingOf at hreading
  cases hexpr : Expr.ofText text with
  | ok expr =>
      rw [hexpr] at hreading
      rw [Except.ok.inj hreading]
      exact ⟨hf, hexpr, rfl⟩
  | error error =>
      rw [hexpr] at hreading
      cases hreading

theorem reads_eq (hx : x.Sound) : x.reads =
    (References.ofExpr x.engine.workbook.names x.key.sheet x.compiled.expr).cells.toList := by
  obtain ⟨hf, hexpr, _⟩ := hx.reading
  have hcontains : x.engine.formulas.contains x.key := by
    rw [Keyed.contains_eq_isSome, hx.read]
    rfl
  rw [reads, hx.consistent.precedents, if_pos hcontains, Workbook.references_ok hf hexpr]

theorem names_upper (hx : x.Sound) (s : String) (hs : s ∈ x.compiled.names) :
    Text.asciiUpper s = s := by
  rw [hx.reading.2.2, Std.TreeSet.mem_toList] at hs
  exact References.ofExpr_upper hs

end Sound

/-! ## Equal keys -/

/-- Names and cells are told apart by their tags. -/
theorem forall₂_parts {α β : Type} (f g : α → CacheKey.Part) (f' g' : β → CacheKey.Part)
    (hne : ∀ a b, ¬ CacheKey.Part.Agree (f a) (g' b)) (hne' : ∀ a b, ¬ CacheKey.Part.Agree (f' b) (g a))
    (cells cells' : List β) : ∀ names names' : List α,
      List.Forall₂ CacheKey.Part.Agree (names.map f ++ cells.map f') (names'.map g ++ cells'.map g') ↔
        List.Forall₂ (fun a b => CacheKey.Part.Agree (f a) (g b)) names names' ∧
          List.Forall₂ (fun a b => CacheKey.Part.Agree (f' a) (g' b)) cells cells' := by
  intro names
  induction names with
  | nil =>
      intro names'
      cases names' with
      | nil => simp
      | cons name' names' =>
          cases cells with
          | nil => simp
          | cons cell cells => simp [hne']
  | cons name names ih =>
      intro names'
      cases names' with
      | nil =>
          cases cells' with
          | nil => simp
          | cons cell cells => simp [hne]
      | cons name' names' => simp [ih, and_assoc]

/-- Lists that agree one by one are equal if the agreement includes equality. -/
theorem forall₂_and_eq {α : Type} {f : α → α} {R : α → α → Prop} (l : List α) :
    ∀ l' : List α, (∀ a ∈ l, f a = a) → (∀ a ∈ l', f a = a) →
      (List.Forall₂ (fun a b => f a = f b ∧ R a b) l l' ↔ l = l' ∧ ∀ a ∈ l, R a a) := by
  induction l with
  | nil =>
      intro l' _ _
      cases l' <;> simp
  | cons a l ih =>
      intro l' hl hl'
      cases l' with
      | nil => simp
      | cons b l' =>
          rw [List.forall_mem_cons] at hl hl'
          rw [List.forall₂_cons, ih l' hl.2 hl'.2, hl.1, hl'.1, List.cons.injEq, List.forall_mem_cons]
          constructor
          · rintro ⟨⟨rfl, hab⟩, hll', hall⟩
            exact ⟨⟨rfl, hll'⟩, hab, hall⟩
          · rintro ⟨⟨rfl, hll'⟩, hab, hall⟩
            exact ⟨⟨rfl, hab⟩, hll', hall⟩

/-- The keys of two evaluations are equal exactly when the texts of their formulas are equal, their names
stand for the same, and they read the same cells with the same values, up to the form of numbers. -/
theorem cacheKey_eq_iff (hx : x.Sound) (hy : y.Sound) : x.cacheKey = y.cacheKey ↔
    x.compiled.text = y.compiled.text ∧
      (x.compiled.names = y.compiled.names ∧
        ∀ s ∈ x.compiled.names, CacheKey.TargetsAgree (x.target? s) (y.target? s)) ∧
      (x.reads = y.reads ∧
        ∀ p ∈ x.reads, (x.engine.keyValue p).agrees (y.engine.keyValue p) = true) := by
  have hnames := forall₂_and_eq x.compiled.names y.compiled.names hx.names_upper hy.names_upper
    (R := fun s t => CacheKey.TargetsAgree (x.target? s) (y.target? t))
  have hreads := forall₂_and_eq x.reads y.reads (f := id) (fun _ _ => rfl) (fun _ _ => rfl)
    (R := fun p q => (x.engine.keyValue p).agrees (y.engine.keyValue q) = true)
  rw [← hnames, ← hreads, cacheKey, cacheKey, Engine.cacheKey, Engine.cacheKey,
    CacheKey.ofParts_eq_iff, forall₂_parts]
  · rfl
  · exact fun _ _ h => h
  · exact fun _ _ h => h

/-! ## Equal outcomes -/

/-- Cells read with agreeing values have one value in evaluations that are alike. -/
theorem Alike.value_eq (h : x.Alike y) (hx : x.Sound) (hy : y.Sound) {p : CellKey} (hp : p ∈ x.reads)
    (hagree : (x.engine.keyValue p).agrees (y.engine.keyValue p) = true) :
    x.engine.value p = y.engine.value p := by
  have hsheet := h.hasSheet p hp
  cases hhas : x.engine.workbook.hasSheet p.sheet with
  | true =>
      rw [keyValue, keyValue, ← hsheet, hhas] at hagree
      exact h.value p hp hagree
  | false =>
      rw [hhas] at hsheet
      rw [hx.absent p hhas, hy.absent p hsheet.symm]

/-- Two evaluations with one key that are alike in what the key leaves out have one outcome. -/
theorem Alike.outcome_eq (h : x.Alike y) (hx : x.Sound) (hy : y.Sound)
    (hkey : x.cacheKey = y.cacheKey) : x.outcome = y.outcome := by
  obtain ⟨htext, ⟨hnames, htargets⟩, hreads, hvalues⟩ := (cacheKey_eq_iff hx hy).1 hkey
  have hexpr : x.compiled.expr = y.compiled.expr := by
    have hok := hx.reading.2.1
    rw [htext, hy.reading.2.1] at hok
    exact (Except.ok.inj hok).symm
  have hread : ∀ p, p ∈ (References.ofExpr x.engine.workbook.names x.key.sheet x.compiled.expr).cells →
      p ∈ x.reads := by
    intro p hp
    rw [hx.reads_eq]
    exact Std.TreeSet.mem_toList.2 hp
  have hname : ∀ s, x.engine.source.name? s = x.engine.workbook.names.find? s := fun _ => rfl
  rw [outcome, outcome, ← hexpr]
  refine outcomeOf_congr hname x.compiled.expr ?_
  refine { sheet := h.sheet, value := ?_, hasSheet := ?_, target := ?_ }
  · intro p hp
    exact h.value_eq hx hy (hread p hp) (hvalues p (hread p hp))
  · intro p hp
    exact h.hasSheet p (hread p hp)
  · intro s hs
    have hs' : Text.asciiUpper s ∈ x.compiled.names := by
      rw [hx.reading.2.2]
      exact Std.TreeSet.mem_toList.2 hs
    have htarget := h.target _ hs' (htargets _ hs')
    rw [target?, target?, Workbook.name?_asciiUpper, Workbook.name?_asciiUpper] at htarget
    exact htarget

end Evaluation

end Engine

end PaintQuote
