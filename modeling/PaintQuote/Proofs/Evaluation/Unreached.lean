import PaintQuote.Proofs.Evaluation.Steps

/-!
# Arguments that are not reached

A choosing function runs only some of its arguments: tests up to the one that decides, and what is chosen.
The values of those that it has run say which they are (`Function.reachedPlaces`).

The main statement is `evaluate_call_of_reached`: two calls whose arguments are the same where they are
reached have the same value and note the same errors, whatever stands in the other places.  For each
choosing function this is a comparison of two runs, which take the same way as long as what decides it is
the same (`ReadsAt`).
-/

namespace PaintQuote.Formula

open Sheet Functions Logged

/-! ## Two runs -/

/-- Two lists have the same entries at places. -/
def SameAt {α : Type} (places : List Nat) (as bs : List α) : Prop := ∀ place ∈ places, bs[place]? = as[place]?

namespace SameAt

variable {α : Type} {a b : α} {as bs : List α} {places : List Nat}

theorem head (h : SameAt (0 :: places) (a :: as) (b :: bs)) : b = a :=
  Option.some.inj (h 0 List.mem_cons_self)

theorem only {place : Nat} (h : SameAt [place] as bs) (ha : as[place]? = some a) (hb : bs[place]? = some b) :
    b = a := Option.some.inj (hb.symm.trans ((h place List.mem_cons_self).trans ha))

theorem later {place : Nat} (h : SameAt (place :: places) as bs) : SameAt places as bs :=
  fun _ hplace => h _ (List.mem_cons_of_mem _ hplace)

theorem tail (h : SameAt (places.map (· + 1)) (a :: as) (b :: bs)) : SameAt places as bs :=
  fun place hplace => h (place + 1) (List.mem_map_of_mem hplace)

theorem tail₂ {a' b' : α} (h : SameAt (places.map (· + 2)) (a :: a' :: as) (b :: b' :: bs)) :
    SameAt places as bs := fun place hplace => h (place + 2) (List.mem_map_of_mem hplace)

theorem eq (hlength : bs.length = as.length) (h : SameAt (List.range as.length) as bs) : bs = as := by
  refine List.ext_getElem? fun place => ?_
  rcases Nat.lt_or_ge place as.length with hplace | hplace
  · exact h place (List.mem_range.2 hplace)
  · rw [List.getElem?_eq_none hplace, List.getElem?_eq_none (hlength ▸ hplace)]

end SameAt

/-- A function of computations does the same with others in their stead, as many of them, that are the same
at places which the values of the first decide. -/
def ReadsAt (answer : List (Logged Value) → Logged Answer) (places : List Value → List Nat) : Prop :=
  ∀ runs runs' : List (Logged Value), (∀ run ∈ runs, Appends run) → runs'.length = runs.length →
    SameAt (places (runs.map value)) runs runs' → answer runs' = answer runs

/-! ## Choosing functions -/

namespace Functions

/-- Two runs begin with the same computation, and what follows is compared at its value. -/
theorem first_reads {run run' : Logged Value} {runs runs' : List (Logged Value)} {places : List Nat}
    {f f' : Value → Logged Answer} (h : Appends run) (hsame : SameAt (0 :: places) (run :: runs) (run' :: runs'))
    (hf : SameAt places (run :: runs) (run' :: runs') → f' (value run) = f (value run)) :
    run' >>= f' = run >>= f := by
  obtain rfl : run' = run := hsame.head
  exact h.bind_congr (hf hsame.later)

theorem choice_readsAt : ReadsAt choice choicePlaces
  | [], [], _, _, _ => rfl
  | [_], [_], _, _, _ => rfl
  | test :: yes :: no, test' :: yes' :: no', h, hlength, hsame => by
      -- The places that come next depend on the test, so what is the same there goes through its cases.
      refine first_reads (h test List.mem_cons_self) hsame ?_
      cases (value test).toBool with
      | error e => exact fun _ => rfl
      | ok b =>
          intro hlater
          cases b with
          | true =>
              obtain rfl : yes' = yes := hlater.only rfl rfl
              rfl
          | false =>
              cases no with
              | nil =>
                  obtain rfl : no' = [] := by simpa using hlength
                  rfl
              | cons other rest =>
                  cases no' with
                  | nil => cases hlength
                  | cons other' rest' =>
                      obtain rfl : other' = other := hlater.only rfl rfl
                      rfl

theorem firstTrue_readsAt : ReadsAt firstTrue firstTruePlaces
  | [], [], _, _, _ => rfl
  | [_], [_], _, _, _ => rfl
  | test :: yes :: rest, test' :: yes' :: rest', h, hlength, hsame => by
      have hrest := firstTrue_readsAt rest rest' (fun run hrun => h run (by simp [hrun])) (by simpa using hlength)
      refine first_reads (h test List.mem_cons_self) hsame ?_
      cases (value test).toBool with
      | error e => exact fun _ => rfl
      | ok b =>
          intro hlater
          cases b with
          | true =>
              obtain rfl : yes' = yes := hlater.only rfl rfl
              rfl
          | false => exact hrest hlater.tail₂

theorem choices_readsAt : ReadsAt choices choicesPlaces := by
  intro runs runs' h hlength hsame
  unfold choices choicesPlaces at *
  rw [hlength]
  rw [List.length_map] at hsame
  split
  next => rfl
  next hpairs =>
    rw [if_neg hpairs] at hsame
    exact firstTrue_readsAt runs runs' h hlength hsame

example : choicesPlaces [.boolean false, .number 1, .boolean true, .number 2, .boolean true, .number 3] =
    [0, 2, 3] := rfl

theorem replacing_readsAt (caught : ErrorValue → Bool) : ReadsAt (replacing caught) (replacingPlaces caught)
  | [], [], _, _, _ => rfl
  | [_], [_], _, _, _ => rfl
  | run :: other :: rest, run' :: other' :: rest', h, hlength, hsame => by
      rw [replacing_cons, replacing_cons]
      simp only [List.map_cons, replacingPlaces] at hsame
      revert hsame
      cases hcaught : isCaught caught (value run) with
      | true =>
          intro hsame
          obtain rfl : run' = run := hsame.head
          obtain rfl : other' = other := hsame.later.only rfl rfl
          rfl
      | false =>
          intro hsame
          obtain rfl : run' = run := hsame.head
          refine (h _ List.mem_cons_self).marked_congr fun mark => ?_
          simp only [hcaught]
          rfl

theorem firstCase_readsAt (v : Value) : ReadsAt (firstCase v) (casePlaces v)
  | [], [], _, _, _ => rfl
  | [_], [_], _, _, hsame => by
      obtain rfl := hsame.head
      rfl
  | test :: yes :: rest, test' :: yes' :: rest', h, hlength, hsame => by
      have hrest := firstCase_readsAt v rest rest' (fun run hrun => h run (by simp [hrun]))
        (by simpa using hlength)
      rw [firstCase_cons, firstCase_cons]
      refine first_reads (h test List.mem_cons_self) hsame ?_
      cases (value test).error? with
      | some e => exact fun _ => rfl
      | none =>
          cases isCaseFor v (value test) with
          | true =>
              intro hlater
              obtain rfl : yes' = yes := hlater.only rfl rfl
              rfl
          | false => exact fun hlater => hrest hlater.tail₂

theorem switch_readsAt : ReadsAt switch switchPlaces
  | [], [], _, _, _ => rfl
  | subject :: cases, subject' :: cases', h, hlength, hsame => by
      have hcases := firstCase_readsAt (value subject) cases cases' (fun run hrun => h run (by simp [hrun]))
        (by simpa using hlength)
      rw [switch_cons, switch_cons]
      refine first_reads (h subject List.mem_cons_self) hsame ?_
      cases (value subject).error? with
      | some e => exact fun _ => rfl
      | none => exact fun hlater => hcases hlater.tail

theorem choose_readsAt : ReadsAt choose choosePlaces
  | [], [], _, _, _ => rfl
  | number :: choices, number' :: choices', h, hlength, hsame => by
      have hcount : choices'.length = choices.length := by simpa using hlength
      refine first_reads (h number List.mem_cons_self) hsame ?_
      cases (value number).toNumber with
      | error e => exact fun _ => rfl
      | ok n =>
          simp only [List.length_map, choiceAt?_eq_bind n.trunc choices, choiceAt?_eq_bind n.trunc choices',
            hcount]
          cases choiceAt? n.trunc (List.range choices.length) with
          | none => exact fun _ => rfl
          | some place =>
              intro hlater
              have heq : choices'[place]? = choices[place]? := hlater (place + 1) List.mem_cons_self
              simp only [Option.bind_some, heq]

end Functions

/-- A function of computations does not see what stands in the places that it does not reach. -/
theorem lazy_readsAt {f : Function} (hf : f ∈ library) {answer : List (Logged Value) → Logged Answer}
    (hanswer : f.implementation = .lazy answer) : ReadsAt answer f.reachedPlaces := by
  obtain ⟨name, least, most?, implementation⟩ := f
  rcases lazy_named _ hf answer hanswer with
    ⟨rfl, rfl⟩ | ⟨rfl, rfl⟩ | ⟨rfl, rfl⟩ | ⟨rfl, rfl⟩ | ⟨rfl, rfl⟩ | ⟨rfl, rfl⟩
  · exact choose_readsAt
  · exact choice_readsAt
  · exact replacing_readsAt _
  · exact replacing_readsAt _
  · exact choices_readsAt
  · exact switch_readsAt

/-! ## Calls -/

theorem callFunction_of_reached (name : String) {runs runs' : List (Logged Value)}
    (h : ∀ run ∈ runs, Appends run) (hlength : runs'.length = runs.length)
    (hsame : SameAt (reachedBy name (runs.map value)) runs runs') :
    callFunction name runs' = callFunction name runs := by
  unfold callFunction
  unfold reachedBy placesBy at hsame
  cases hfunction : function? name with
  | none => rfl
  | some f =>
      have hf := mem_library_of_function? hfunction
      simp only [hfunction, Function.arityError?, List.length_map, hlength] at hsame ⊢
      cases htakes : f.takes runs.length with
      | false => rfl
      | true =>
          simp only [htakes, if_true] at hsame ⊢
          cases hanswer : f.implementation with
          | lazy answer => simp only [lazy_readsAt hf hanswer runs runs' h hlength hsame]
          | eager answer =>
              rw [reachedPlaces_eager hf hanswer, List.length_map] at hsame
              rw [hsame.eq hlength]

/-- Two calls whose arguments are the same where they are reached have the same value and note the same
errors, whatever stands in the other places. -/
theorem evaluate_call_of_reached (c : Context) (name : String) {arguments replaced : List Expr}
    (hlength : replaced.length = arguments.length)
    (hsame : ∀ place ∈ reachedBy name (arguments.map (Expr.valueIn c)), replaced[place]? = arguments[place]?)
    (log : Log) :
    (evaluate c (.call name replaced)).run log = (evaluate c (.call name arguments)).run log := by
  have hruns : SameAt (reachedBy name ((evaluateEach c arguments).map value)) (evaluateEach c arguments)
      (evaluateEach c replaced) := by
    intro place hplace
    rw [map_value_evaluateEach] at hplace
    rw [evaluateEach_eq_map, evaluateEach_eq_map, List.getElem?_map, List.getElem?_map, hsame place hplace]
  have hcount : (evaluateEach c replaced).length = (evaluateEach c arguments).length := by
    rw [evaluateEach_eq_map, evaluateEach_eq_map, List.length_map, List.length_map, hlength]
  rw [evaluate, evaluate, callFunction_of_reached name (appends_evaluateEach c arguments) hcount hruns]

/-- A pair after the first true condition, and the value of the false one before it. -/
theorem evaluate_call_of_reached_ifs :
    (evaluate .bare (.call "IFS" [.literal (.boolean false), .call "NOSUCH" [],
        .literal (.boolean true), .literal (.number 2),
        .binary .divide (.literal (.number 1)) (.literal (.number 0)), .name "none"])).run [] =
      (evaluate .bare (.call "IFS" [.literal (.boolean false), .literal (.number 1),
        .literal (.boolean true), .literal (.number 2),
        .literal (.boolean true), .literal (.number 3)])).run [] :=
  evaluate_call_of_reached .bare "IFS" rfl (by decide +kernel) []

end PaintQuote.Formula
