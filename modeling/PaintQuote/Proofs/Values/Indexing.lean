import PaintQuote.Proofs.Formula.Grammar
import PaintQuote.Proofs.Values.Direct
import PaintQuote.Proofs.Values.Functions
import PaintQuote.Proofs.Values.OtherKinds

/-!
# Indices are in range

A function that reads by index reads what is there, and answers as the library says (`library_direct`).
Arguments are there because their number was checked.  The cells of a table are there because a position
that was found is one of its rows or columns, and all of its rows are as long as the first.
-/

namespace PaintQuote.Formula

open Sheet Functions

/-- A function that reads by index answers as it should, if it is given at least some number of arguments.
What works on values is given rectangles. -/
inductive Direct.Matches (least : Nat) : Direct → Implementation → Prop where
  | eager {direct : List Value → Option Answer} {answer : List Value → Answer} :
      (∀ vs : List Value, least ≤ vs.length → (∀ v ∈ vs, v.IsRectangular) → direct vs = some (answer vs)) →
      Matches least (.eager direct) (.eager answer)
  | lazy {direct : List (Logged Value) → Logged (Option Answer)}
      {answer : List (Logged Value) → Logged Answer} :
      (∀ runs : List (Logged Value), least ≤ runs.length → direct runs = some <$> answer runs) →
      Matches least (.lazy direct) (.lazy answer)

namespace Direct.Matches

theorem all (answer : List Value → Answer) {least : Nat} :
    Matches least (.eager (atAll answer)) (.eager answer) := .eager fun _ _ _ => rfl

theorem one (answer : Value → Answer) : Matches 1 (.eager (atOne answer)) (.eager (withOne answer)) := by
  refine .eager fun vs hcount _ => ?_
  match vs with
  | _ :: _ => rfl

theorem oneOrTwo (answer : Value → Option Value → Answer) :
    Matches 1 (.eager (atOneOrTwo answer)) (.eager (withOneOrTwo answer)) := by
  refine .eager fun vs hcount _ => ?_
  match vs with
  | [_] => rfl
  | _ :: _ :: _ => rfl

theorem oneToThree (answer : Value → Option Value → Option Value → Answer) :
    Matches 1 (.eager (atOneToThree answer)) (.eager (withOneToThree answer)) := by
  refine .eager fun vs hcount _ => ?_
  match vs with
  | _ :: _ => rfl

theorem two (answer : Value → Value → Answer) : Matches 2 (.eager (atTwo answer)) (.eager (withTwo answer)) := by
  refine .eager fun vs hcount _ => ?_
  match vs with
  | _ :: _ :: _ => rfl

theorem twoOrThree (answer : Value → Value → Option Value → Answer) :
    Matches 2 (.eager (atTwoOrThree answer)) (.eager (withTwoOrThree answer)) := by
  refine .eager fun vs hcount _ => ?_
  match vs with
  | [_, _] => rfl
  | _ :: _ :: _ :: _ => rfl

theorem three (answer : Value → Value → Value → Answer) :
    Matches 3 (.eager (atThree answer)) (.eager (withThree answer)) := by
  refine .eager fun vs hcount _ => ?_
  match vs with
  | _ :: _ :: _ :: _ => rfl

/-- A table is the second of the arguments of a lookup. -/
theorem lookup {direct : Value → Value → Value → Option Value → Option Answer}
    {answer : Value → Value → Value → Option Value → Answer}
    (h : ∀ value table place approximate, table.IsRectangular →
      direct value table place approximate = some (answer value table place approximate)) :
    Matches 3 (.eager fun vs => (atThreeOrFour direct vs).join) (.eager (withThreeOrFour answer)) := by
  refine .eager fun vs hcount hvs => ?_
  match vs with
  | [value, table, place] => exact h value table place none (hvs table (by simp))
  | value :: table :: place :: approximate :: _ => exact h value table place (some approximate) (hvs table (by simp))

end Direct.Matches

namespace Functions

/-! ### Tables -/

theorem mapM_eq_some {α β : Type} {f : α → Option β} {g : α → β} :
    ∀ {as : List α}, (∀ a ∈ as, f a = some (g a)) → as.mapM f = some (as.map g)
  | [], _ => rfl
  | a :: as, h => by
      rw [List.mapM_cons, h a List.mem_cons_self, mapM_eq_some fun b hb => h b (List.mem_cons_of_mem a hb)]
      rfl

variable {grids : List (List (List CellValue))} {rows columns : Nat}

theorem directProductAt_eq {row column : Nat}
    (h : ∀ grid ∈ grids, ∃ r, grid[row]? = some r ∧ ∃ v, r[column]? = some v) :
    directProductAt grids row column = some (productAt grids row column) := by
  have hcells : (grids.mapM fun grid => grid[row]?.bind fun r => r[column]?) =
      some (grids.map fun grid => valueAt grid row column) := by
    refine mapM_eq_some fun grid hgrid => ?_
    obtain ⟨r, hr, v, hv⟩ := h grid hgrid
    simp only [valueAt, hr, hv, Option.bind_some, Option.getD_some]
  rw [directProductAt, hcells, productAt]
  exact congrArg some List.foldlM_map

theorem directSumOfProducts_eq
    (h : ∀ grid ∈ grids, IsGrid grid ∧ grid.length = rows ∧ (grid.headD []).length = columns) :
    directSumOfProducts grids rows columns = some (sumOfProducts grids rows columns) := by
  have hproducts : (((List.range rows).flatMap fun row => (List.range columns).map fun column =>
      (row, column)).mapM fun place => directProductAt grids place.1 place.2) =
      some (((List.range rows).flatMap fun row => (List.range columns).map fun column =>
        (row, column)).map fun place => productAt grids place.1 place.2) := by
    refine mapM_eq_some fun place hplace => directProductAt_eq fun grid hgrid => ?_
    obtain ⟨row, hrow, hmem⟩ := List.mem_flatMap.1 hplace
    obtain ⟨column, hcolumn, rfl⟩ := List.mem_map.1 hmem
    obtain ⟨hshape, rfl, rfl⟩ := h grid hgrid
    exact hshape.exists_cell (List.mem_range.1 hrow) (List.mem_range.1 hcolumn)
  rw [directSumOfProducts]
  simp only [hproducts]
  exact congrArg some List.foldlM_map

theorem sumProduct_matches : Direct.Matches 1 (.eager directSumProduct) (.eager sumProduct) := by
  refine .eager fun vs hcount hvs => ?_
  match vs with
  | v :: vs =>
      show (if ((v :: vs).map Value.grid).any fun g => Value.dimensions g != Value.dimensions v.grid then _
        else _) = _
      unfold sumProduct
      simp only [List.map_cons, List.headD_cons]
      split
      next => rfl
      next hsame =>
        -- The check of the shapes is what puts every place of the first array into all the others.
        have hgrids : ∀ grid ∈ v.grid :: vs.map Value.grid, IsGrid grid ∧
            grid.length = (Value.dimensions v.grid).1 ∧ (grid.headD []).length = (Value.dimensions v.grid).2 := by
          intro grid hgrid
          obtain ⟨w, hw, rfl⟩ := List.mem_map.1 (List.map_cons ▸ hgrid)
          have hdimensions : Value.dimensions w.grid = Value.dimensions v.grid := by
            by_contra hne
            exact hsame (List.any_eq_true.2 ⟨w.grid, hgrid, bne_iff_ne.2 hne⟩)
          exact ⟨hvs w hw, congrArg Prod.fst hdimensions, congrArg Prod.snd hdimensions⟩
        rw [directSumOfProducts_eq hgrids]
        cases sumOfProducts (v.grid :: vs.map Value.grid) (Value.dimensions v.grid).1
          (Value.dimensions v.grid).2 <;> rfl

theorem lineIndex_lt {line way : String} {number : Int} {count i : Nat}
    (h : lineIndex line way number count = .ok i) : i < count := by
  unfold lineIndex at h
  split at h
  next => cases h
  next =>
    split at h
    next => cases h
    next hlt =>
      cases h
      exact Nat.lt_of_not_le hlt

theorem findPosition?_lt {mode : MatchMode} {v : CellValue} {keys : List CellValue} {i : Nat}
    (h : findPosition? mode v keys = some i) : i < keys.length := by
  obtain ⟨key, hkey, -⟩ := of_findPosition? h
  exact (List.getElem?_eq_some_iff.1 hkey).1

theorem orNotFound_eq_ok {α : Type} {a : Option α} {b : α} (h : orNotFound a = .ok b) : a = some b := by
  cases a with
  | none => cases h
  | some a => exact congrArg some (Except.ok.inj h)

/-- What a vertical lookup finds lies in the table. -/
theorem verticalPlace_lt {v : CellValue} {rows : List (List CellValue)} {column : Value}
    {approximate : Option Value} {place : Nat × Nat} (h : verticalPlace v rows column approximate = .ok place) :
    place.1 < rows.length ∧ place.2 < (rows.headD []).length := by
  obtain ⟨number, -, h⟩ := Reader.bind_eq_ok.1 h
  obtain ⟨i, hindex, h⟩ := Reader.bind_eq_ok.1 h
  obtain ⟨mode, -, h⟩ := Reader.bind_eq_ok.1 h
  obtain ⟨row, hrow, h⟩ := Reader.bind_eq_ok.1 h
  cases h
  have hkey := findPosition?_lt (orNotFound_eq_ok hrow)
  exact ⟨Nat.lt_of_lt_of_le hkey (List.length_filterMap_le _ _), lineIndex_lt hindex⟩

theorem verticalLookup_eq_place (value table column : Value) (approximate : Option Value) :
    verticalLookup value table column approximate = (lookupValue value >>= fun v =>
      match table.error? with
      | some e => .ok (.error e)
      | none => do
          let place ← verticalPlace v table.grid column approximate
          let found ← orNotFound ((table.grid[place.1]?).bind fun r => r[place.2]?)
          .ok (.scalar found)) := by
  simp only [verticalLookup_eq, verticalPlace, bind_assoc]
  rfl

theorem verticalLookup_matches :
    Direct.Matches 3 (.eager fun vs => (atThreeOrFour directVerticalLookup vs).join)
      (.eager (withThreeOrFour verticalLookup)) := by
  refine .lookup fun value table column approximate htable => ?_
  rw [verticalLookup_eq_place, directVerticalLookup]
  cases lookupValue value with
  | error e => rfl
  | ok v =>
      cases table.error? with
      | some e => rfl
      | none =>
          cases hplace : verticalPlace v table.grid column approximate with
          | error e => simp only [hplace, bind, Except.bind]
          | ok place =>
              obtain ⟨hrow, hcolumn⟩ := verticalPlace_lt hplace
              obtain ⟨row, hr, found, hf⟩ := htable.exists_cell hrow hcolumn
              simp only [hplace, hr, hf, orNotFound, bind, Except.bind, Option.bind_some]

/-- What a horizontal lookup finds stands in a row of the table. -/
theorem horizontalPlace_lt {v : CellValue} {rows : List (List CellValue)} {row : Value}
    {approximate : Option Value} {place : Nat × Nat} (h : horizontalPlace v rows row approximate = .ok place) :
    place.1 < rows.length := by
  obtain ⟨number, -, h⟩ := Reader.bind_eq_ok.1 h
  obtain ⟨i, hindex, h⟩ := Reader.bind_eq_ok.1 h
  obtain ⟨mode, -, h⟩ := Reader.bind_eq_ok.1 h
  obtain ⟨column, -, h⟩ := Reader.bind_eq_ok.1 h
  cases h
  exact lineIndex_lt hindex

theorem horizontalLookup_eq_place (value table row : Value) (approximate : Option Value) :
    horizontalLookup value table row approximate = (lookupValue value >>= fun v =>
      match table.error? with
      | some e => .ok (.error e)
      | none => do
          let place ← horizontalPlace v table.grid row approximate
          let found ← orNotFound ((table.grid[place.1]?).bind fun r => r[place.2]?)
          .ok (.scalar found)) := by
  simp only [horizontalLookup_eq, horizontalPlace, bind_assoc]
  rfl

theorem horizontalLookup_matches :
    Direct.Matches 3 (.eager fun vs => (atThreeOrFour directHorizontalLookup vs).join)
      (.eager (withThreeOrFour horizontalLookup)) := by
  refine .lookup fun value table row approximate _ => ?_
  rw [horizontalLookup_eq_place, directHorizontalLookup]
  cases lookupValue value with
  | error e => rfl
  | ok v =>
      cases table.error? with
      | some e => rfl
      | none =>
          cases hplace : horizontalPlace v table.grid row approximate with
          | error e => simp only [hplace, bind, Except.bind]
          | ok place =>
              obtain ⟨row, hr⟩ : ∃ row, table.grid[place.1]? = some row :=
                ⟨_, List.getElem?_eq_getElem (horizontalPlace_lt hplace)⟩
              simp only [hplace, hr, bind, Except.bind, Option.bind_some]
              cases row[place.2]? <;> rfl

/-! ### Choosing functions -/

theorem choice_matches : Direct.Matches 2 (.lazy directChoice) (.lazy choice) := by
  refine .lazy fun runs hcount => ?_
  match runs with
  | test :: yes :: no =>
      show _ = some <$> (test >>= _)
      rw [map_bind]
      refine congrArg (test >>= ·) (funext fun v => ?_)
      cases v.toBool with
      | error e => rfl
      | ok b =>
          cases b with
          | true => rfl
          | false => cases no <;> rfl

theorem directFirstTrue_eq : ∀ runs : List (Logged Value), runs.length % 2 = 0 →
    directFirstTrue (inPairs runs) = some <$> firstTrue runs
  | [], _ => rfl
  | test :: yes :: rest, heven => by
      have hrest := directFirstTrue_eq rest (by rw [List.length_cons, List.length_cons] at heven; omega)
      rw [firstTrue, map_bind]
      refine congrArg (test >>= ·) (funext fun v => ?_)
      cases v.toBool with
      | error e => rfl
      | ok b =>
          cases b with
          | true => rfl
          | false => exact hrest

theorem choices_matches : Direct.Matches 2 (.lazy directChoices) (.lazy choices) := by
  refine .lazy fun runs _ => ?_
  unfold directChoices choices
  split
  next => rfl
  next hpairs => exact directFirstTrue_eq runs (Nat.mod_two_ne_one.1 hpairs)

theorem replacing_matches (caught : ErrorValue → Bool) :
    Direct.Matches 2 (.lazy (directReplacing caught)) (.lazy (replacing caught)) := by
  refine .lazy fun runs hcount => ?_
  match runs with
  | run :: other :: rest =>
      rw [replacing, map_bind]
      refine congrArg (Logged.marked run >>= ·) (funext fun found => ?_)
      rcases found with ⟨⟨v⟩ | rows, mark⟩
      · cases v with
        | error e =>
            simp only []
            split
            next => rfl
            next => rfl
        | _ => rfl
      · rfl

theorem directFirstCase_eq (v : Value) : ∀ runs : List (Logged Value),
    directFirstCase v (inPairs runs) = some <$> firstCase v runs
  | [] => rfl
  | [_] => rfl
  | test :: yes :: rest => by
      have hrest := directFirstCase_eq v rest
      have hcase : ∀ w, (if isCaseFor v w then some <$> answerOf yes else directFirstCase v (inPairs rest)) =
          some <$> (if isCaseFor v w then answerOf yes else firstCase v rest) := by
        intro w
        split
        next => rfl
        next => exact hrest
      rw [firstCase, map_bind]
      refine congrArg (test >>= ·) (funext fun w => ?_)
      rcases w with ⟨c⟩ | rows
      · cases c with
        | error e => rfl
        | _ => exact hcase _
      · exact hcase _

theorem fromPlace_one {α : Type} (a : α) (as : List α) (next : List α → Logged (Option Answer)) :
    fromPlace (a :: as) 1 next = next as := if_pos (Nat.succ_le_succ (Nat.zero_le _))

theorem switch_matches : Direct.Matches 3 (.lazy directSwitch) (.lazy switch) := by
  refine .lazy fun runs hcount => ?_
  match runs with
  | subject :: cases =>
      rw [switch, map_bind]
      refine congrArg (subject >>= ·) (funext fun v => ?_)
      have hcases : (fromPlace (subject :: cases) 1 fun cases => directFirstCase v (inPairs cases)) =
          some <$> firstCase v cases := by rw [fromPlace_one, directFirstCase_eq]
      rcases v with ⟨c⟩ | rows
      · cases c with
        | error e => rfl
        | _ => exact hcases
      · exact hcases

theorem choose_matches : Direct.Matches 2 (.lazy directChoose) (.lazy choose) := by
  refine .lazy fun runs hcount => ?_
  match runs with
  | number :: choices =>
      rw [choose, map_bind]
      refine congrArg (number >>= ·) (funext fun v => ?_)
      cases v.toNumber with
      | error e => rfl
      | ok n =>
          simp only [fromPlace_one]
          cases choiceAt? n.trunc choices <;> rfl

end Functions

/-- No index is out of range in a function that is given as many arguments as it needs, and rectangles. -/
theorem library_direct : ∀ f ∈ library, ∃ d, direct? f.name = some d ∧ d.Matches f.least f.implementation := by
  unfold library
  simp only [List.forall_mem_cons]
  exact ⟨⟨_, rfl, .one _⟩,
    ⟨_, rfl, .all _⟩,
    ⟨_, rfl, .all _⟩,
    ⟨_, rfl, .twoOrThree _⟩,
    ⟨_, rfl, .two _⟩,
    ⟨_, rfl, .oneToThree _⟩,
    ⟨_, rfl, choose_matches⟩,
    ⟨_, rfl, .all _⟩,
    ⟨_, rfl, .all _⟩,
    ⟨_, rfl, .all _⟩,
    ⟨_, rfl, .all _⟩,
    ⟨_, rfl, .two _⟩,
    ⟨_, rfl, .two _⟩,
    ⟨_, rfl, .all _⟩,
    ⟨_, rfl, .two _⟩,
    ⟨_, rfl, .oneToThree _⟩,
    ⟨_, rfl, horizontalLookup_matches⟩,
    ⟨_, rfl, choice_matches⟩,
    ⟨_, rfl, replacing_matches _⟩,
    ⟨_, rfl, replacing_matches _⟩,
    ⟨_, rfl, choices_matches⟩,
    ⟨_, rfl, .twoOrThree _⟩,
    ⟨_, rfl, .one _⟩,
    ⟨_, rfl, .one _⟩,
    ⟨_, rfl, .one _⟩,
    ⟨_, rfl, .one _⟩,
    ⟨_, rfl, .one _⟩,
    ⟨_, rfl, .one _⟩,
    ⟨_, rfl, .one _⟩,
    ⟨_, rfl, .oneOrTwo _⟩,
    ⟨_, rfl, .one _⟩,
    ⟨_, rfl, .one _⟩,
    ⟨_, rfl, .twoOrThree _⟩,
    ⟨_, rfl, .all _⟩,
    ⟨_, rfl, .three _⟩,
    ⟨_, rfl, .all _⟩,
    ⟨_, rfl, .two _⟩,
    ⟨_, rfl, .two _⟩,
    ⟨_, rfl, .one _⟩,
    ⟨_, rfl, .all _⟩,
    ⟨_, rfl, .one _⟩,
    ⟨_, rfl, .all _⟩,
    ⟨_, rfl, .two _⟩,
    ⟨_, rfl, .all _⟩,
    ⟨_, rfl, .oneOrTwo _⟩,
    ⟨_, rfl, .two _⟩,
    ⟨_, rfl, .two _⟩,
    ⟨_, rfl, .two _⟩,
    ⟨_, rfl, .one _⟩,
    ⟨_, rfl, .one _⟩,
    ⟨_, rfl, .all _⟩,
    ⟨_, rfl, .twoOrThree _⟩,
    ⟨_, rfl, sumProduct_matches⟩,
    ⟨_, rfl, switch_matches⟩,
    ⟨_, rfl, .two _⟩,
    ⟨_, rfl, .one _⟩,
    ⟨_, rfl, .all _⟩,
    ⟨_, rfl, .oneOrTwo _⟩,
    ⟨_, rfl, .one _⟩,
    ⟨_, rfl, .one _⟩,
    ⟨_, rfl, verticalLookup_matches⟩,
    ⟨_, rfl, .all _⟩,
    List.forall_mem_nil _⟩

end PaintQuote.Formula
