import PaintQuote.Proofs.Formula.Acceptance
import PaintQuote.Proofs.Formula.RoundTrip
import PaintQuote.Proofs.Values.Evaluation

/-!
# Calls in a formula

A tree calls no function that is not a word of the text from which it was read
(`Expr.functions_of_ofText`).  So the words of a text show that no call in its tree can tell equal
numbers apart (`Expr.isUniform_of_functions`).
-/

namespace PaintQuote.Formula

open Sheet Text

namespace Expr

mutual

/-- The functions that are called in a tree. -/
def functions : Expr → List String
  | .binary _ left right => left.functions ++ right.functions
  | .negate operand => operand.functions
  | .percent operand => operand.functions
  | .call function arguments => function :: functionsAll arguments
  | .literal _ | .cell _ | .range _ | .name _ | .array _ => []

/-- The functions that are called in trees. -/
def functionsAll : List Expr → List String
  | [] => []
  | e :: es => e.functions ++ functionsAll es

end

theorem functionsAll_eq (es : List Expr) : functionsAll es = es.flatMap functions := by
  induction es with
  | nil => rfl
  | cons e es ih => rw [functionsAll, ih, List.flatMap_cons]

theorem mem_intercalate {separator token : Token} {part : List Token} (htoken : token ∈ part) :
    ∀ {parts : List (List Token)}, part ∈ parts → token ∈ List.intercalate [separator] parts
  | first :: parts, hpart => by
      rw [Reader.intercalate_cons, List.mem_append]
      rcases List.mem_cons.1 hpart with rfl | hpart
      · exact Or.inl htoken
      · exact Or.inr (List.mem_flatMap.2 ⟨part, hpart, List.mem_cons_of_mem _ htoken⟩)

/-- A function that is called is a word among the tokens. -/
theorem functions_of_derives {corner : List Token → Prop} {k : Nat} {tokens : List Token} {e : Expr}
    (h : Derives corner k tokens e) :
    ∀ f ∈ e.functions, ∃ s, .word s ∈ tokens ∧ f = upper s := by
  induction h with
  | next _ ih => exact ih
  | binary _ _ ihleft ihright =>
      intro f hf
      rcases List.mem_append.1 hf with hf | hf
      · obtain ⟨s, hs, rfl⟩ := ihleft f hf
        exact ⟨s, List.mem_append_left _ hs, rfl⟩
      · obtain ⟨s, hs, rfl⟩ := ihright f hf
        exact ⟨s, List.mem_append_right _ (List.mem_cons_of_mem _ hs), rfl⟩
  | minus _ ih =>
      intro f hf
      obtain ⟨s, hs, rfl⟩ := ih f hf
      exact ⟨s, List.mem_cons_of_mem _ hs, rfl⟩
  | plus _ ih =>
      intro f hf
      obtain ⟨s, hs, rfl⟩ := ih f hf
      exact ⟨s, List.mem_cons_of_mem _ hs, rfl⟩
  | percent _ ih =>
      intro f hf
      obtain ⟨s, hs, rfl⟩ := ih f hf
      exact ⟨s, List.mem_append_left _ hs, rfl⟩
  | parentheses _ ih =>
      intro f hf
      obtain ⟨s, hs, rfl⟩ := ih f hf
      exact ⟨s, List.mem_cons_of_mem _ (List.mem_append_left _ hs), rfl⟩
  | @call name arguments _ ih =>
      intro f hf
      rw [functions, List.mem_cons, functionsAll_eq, List.mem_flatMap] at hf
      rcases hf with rfl | ⟨a, ha, hf⟩
      · exact ⟨name, List.mem_cons_self, rfl⟩
      · obtain ⟨part, hpart, rfl⟩ := List.mem_map.1 ha
        obtain ⟨s, hs, rfl⟩ := ih part hpart f hf
        have hmem : .word s ∈ List.intercalate [Token.comma] (arguments.map (·.1)) :=
          mem_intercalate hs (List.mem_map_of_mem hpart)
        exact ⟨s, List.mem_cons_of_mem _ (List.mem_cons_of_mem _ (List.mem_append_left _ hmem)), rfl⟩
  | _ => nofun

/-- A function that is called is a word of the text. -/
theorem functions_of_ofText {text : String} {e : Expr} (h : ofText text = .ok e) :
    ∀ f ∈ e.functions, ∃ s, .word s ∈ textTokens text ∧ f = upper s :=
  functions_of_derives ((ofTokens_eq_ok_iff _ e).1 h)

/-- The tokens of a written formula are those that it is written for. -/
theorem textTokens_toText {e : Expr} (hcloses : Closes e.chars)
    (hcut : CutInto Delimited e.chars e.tokens) : textTokens e.toText = e.tokens := by
  obtain ⟨position, hleads⟩ := hcut 0 [] .nil
  rw [List.append_nil, Tokens.scan] at hleads
  rw [textTokens, body_toText hcloses]
  exact toList_of_leads hleads

/-- Whether a function cannot tell equal numbers apart, whatever its arguments. -/
def isUniformFunction (name : String) : Bool :=
  (function? name).all fun f => !particular.contains f.name

mutual

/-- Functions that cannot tell equal numbers apart make a tree that cannot. -/
theorem isUniform_of_functions : ∀ e : Expr, (∀ f ∈ e.functions, isUniformFunction f = true) →
    e.isUniform = true
  | .literal _, _ | .cell _, _ | .range _, _ | .name _, _ | .array _, _ => rfl
  | .binary _ left right, h => by
      rw [functions, List.forall_mem_append] at h
      rw [isUniform, isUniform_of_functions left h.1, isUniform_of_functions right h.2]
      rfl
  | .negate operand, h => isUniform_of_functions operand h
  | .percent operand, h => isUniform_of_functions operand h
  | .call function arguments, h => by
      rw [functions, List.forall_mem_cons] at h
      obtain ⟨hfunction, harguments⟩ := h
      have hcall : isUniformCall function arguments = true := by
        unfold isUniformFunction at hfunction
        unfold isUniformCall
        cases hf : function? function with
        | none => rfl
        | some f =>
            rw [hf] at hfunction
            exact Bool.or_eq_true_iff.2 (Or.inl hfunction)
      rw [isUniform, hcall, areUniform_of_functions arguments harguments]
      rfl

theorem areUniform_of_functions : ∀ es : List Expr,
    (∀ f ∈ functionsAll es, isUniformFunction f = true) → areUniform es = true
  | [], _ => rfl
  | e :: es, h => by
      rw [functionsAll, List.forall_mem_append] at h
      rw [areUniform, isUniform_of_functions e h.1, areUniform_of_functions es h.2]
      rfl

end

/-- A tree cannot tell equal numbers apart if none of the words of its text can, as a function. -/
theorem isUniform_of_words {text : String} {e : Expr} (h : ofText text = .ok e)
    (hwords : ∀ s, .word s ∈ textTokens text → isUniformFunction (upper s) = true) :
    e.isUniform = true := by
  refine isUniform_of_functions e ?_
  intro f hf
  obtain ⟨s, hs, rfl⟩ := functions_of_ofText h f hf
  exact hwords s hs

end Expr

end PaintQuote.Formula
