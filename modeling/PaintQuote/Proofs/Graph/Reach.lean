import Mathlib.Logic.Relation
import PaintQuote.Engine.Edges

/-!
# What a search along edges reaches

`reach` expands each cell once.  While it runs, what a reached cell leads to is reached or on the
frontier, so in the end the reached cells are closed, and each of them was led to from the frontier.

A search with a queue sees each cell for the first time once.  While it runs, all that a cell leads to
has been seen if the cell has been seen, or was there at the start, and is no longer in the queue
(`Graph.search_closed`).

* `Graph.mem_downstream_iff`: the cells downstream of changed ones are those that read one of them,
  directly or through others.
* `Graph.affected_reached`: the search with a queue from changed cells finds what depends on them, and
  these are the cells downstream of them.
-/

namespace PaintQuote.Engine

open Sheet

/-! ## Relations that agree -/

/-- Relations that are the same wherever one of them leads reach the same. -/
theorem reflTransGen_iff {α : Type} {r r' : α → α → Prop} {P : α → Prop}
    (hsame : ∀ a b, P a → (r a b ↔ r' a b)) (hP : ∀ a b, P a → r a b → P b) {a b : α} (ha : P a) :
    Relation.ReflTransGen r a b ↔ Relation.ReflTransGen r' a b := by
  have hforth : Relation.ReflTransGen r a b → P b ∧ Relation.ReflTransGen r' a b := by
    intro h
    induction h with
    | refl => exact ⟨ha, .refl⟩
    | tail _ hbc ih => exact ⟨hP _ _ ih.1 hbc, ih.2.tail ((hsame _ _ ih.1).1 hbc)⟩
  have hback : Relation.ReflTransGen r' a b → P b ∧ Relation.ReflTransGen r a b := by
    clear hforth
    intro h
    induction h with
    | refl => exact ⟨ha, .refl⟩
    | tail _ hbc ih =>
        have hbc' := (hsame _ _ ih.1).2 hbc
        exact ⟨hP _ _ ih.1 hbc', ih.2.tail hbc'⟩
  exact ⟨fun h => (hforth h).2, fun h => (hback h).2⟩

theorem transGen_iff {α : Type} {r r' : α → α → Prop} {P : α → Prop}
    (hsame : ∀ a b, P a → (r a b ↔ r' a b)) (hP : ∀ a b, P a → r a b → P b) {a b : α} (ha : P a) :
    Relation.TransGen r a b ↔ Relation.TransGen r' a b := by
  rw [Relation.TransGen.head'_iff, Relation.TransGen.head'_iff]
  refine exists_congr fun c => ?_
  rw [← hsame a c ha]
  refine and_congr_right ?_
  intro hac
  exact reflTransGen_iff hsame hP (hP a c ha hac)

namespace Graph

/-! ## Edges of a graph -/

/-- A cell reads another. -/
def Reads (g : Graph) (a b : CellKey) : Prop := b ∈ g.precedents a

/-- A cell is another, or reads it directly or through others. -/
abbrev Reaches (g : Graph) : CellKey → CellKey → Prop := Relation.ReflTransGen g.Reads

/-- A cell leads to another in a map of sets. -/
def Leads (sets : Std.TreeMap CellKey CellSet) (a b : CellKey) : Prop := b ∈ members sets a

variable {sets : Std.TreeMap CellKey CellSet}

/-- What a search reaches holds the frontier and is closed, as far as the search started so. -/
theorem reach_closed {frontier : List CellKey} {reached : CellSet}
    (h : ∀ a ∈ reached, ∀ b, Leads sets a b → b ∈ reached ∨ b ∈ frontier) :
    (∀ c, c ∈ reached ∨ c ∈ frontier → c ∈ reach sets frontier reached) ∧
      ∀ a ∈ reach sets frontier reached, ∀ b, Leads sets a b → b ∈ reach sets frontier reached := by
  fun_induction reach sets frontier reached with
  | case1 reached =>
      refine ⟨?_, ?_⟩
      · rintro c (hc | hc)
        · exact hc
        · cases hc
      · intro a ha b hab
        rcases h a ha b hab with hb | hb
        · exact hb
        · cases hb
  | case2 cell frontier reached hold ih =>
      rw [Std.TreeSet.contains_iff_mem] at hold
      obtain ⟨hsub, hclosed⟩ := ih fun a ha b hab => by
        rcases h a ha b hab with hb | hb
        · exact Or.inl hb
        · rcases List.mem_cons.1 hb with rfl | hb
          · exact Or.inl hold
          · exact Or.inr hb
      refine ⟨?_, hclosed⟩
      rintro c (hc | hc)
      · exact hsub c (Or.inl hc)
      · rcases List.mem_cons.1 hc with rfl | hc
        · exact hsub c (Or.inl hold)
        · exact hsub c (Or.inr hc)
  | case3 cell frontier reached hnew ih =>
      obtain ⟨hsub, hclosed⟩ := ih fun a ha b hab => by
        rw [Keyed.mem_insert, List.mem_append]
        rcases (Keyed.mem_insert reached cell a).1 ha with rfl | ha
        · exact Or.inr (Or.inl hab)
        · rcases h a ha b hab with hb | hb
          · exact Or.inl (Or.inr hb)
          · rcases List.mem_cons.1 hb with rfl | hb
            · exact Or.inl (Or.inl rfl)
            · exact Or.inr (Or.inr hb)
      refine ⟨?_, hclosed⟩
      rintro c (hc | hc)
      · exact hsub c (Or.inl ((Keyed.mem_insert reached cell c).2 (Or.inr hc)))
      · rcases List.mem_cons.1 hc with rfl | hc
        · exact hsub c (Or.inl ((Keyed.mem_insert reached c c).2 (Or.inl rfl)))
        · exact hsub c (Or.inr (List.mem_append_right _ hc))

/-- What a search reaches was reached before or is led to from the frontier. -/
theorem leads_of_mem_reach {frontier : List CellKey} {reached : CellSet} {c : CellKey}
    (h : c ∈ reach sets frontier reached) :
    c ∈ reached ∨ ∃ a ∈ frontier, Relation.ReflTransGen (Leads sets) a c := by
  fun_induction reach sets frontier reached with
  | case1 reached => exact Or.inl h
  | case2 cell frontier reached hold ih =>
      rcases ih h with hc | ⟨a, ha, hac⟩
      · exact Or.inl hc
      · exact Or.inr ⟨a, List.mem_cons_of_mem _ ha, hac⟩
  | case3 cell frontier reached hnew ih =>
      rcases ih h with hc | ⟨a, ha, hac⟩
      · rcases (Keyed.mem_insert reached cell c).1 hc with rfl | hc
        · exact Or.inr ⟨c, List.mem_cons_self, .refl⟩
        · exact Or.inl hc
      · rcases List.mem_append.1 ha with ha | ha
        · exact Or.inr ⟨cell, List.mem_cons_self, hac.head ha⟩
        · exact Or.inr ⟨a, List.mem_cons_of_mem _ ha, hac⟩

/-- The cells downstream of changed ones are those at the ends of paths with at least one edge. -/
theorem mem_downstream {g : Graph} {changed : List CellKey} {c : CellKey} :
    c ∈ g.downstream changed ↔ ∃ k ∈ changed, Relation.TransGen (Leads g.readers) k c := by
  have hstart : ∀ a ∈ ({} : CellSet), ∀ b, Leads g.readers a b →
      b ∈ ({} : CellSet) ∨ b ∈ changed.flatMap g.dependents := by
    intro a ha
    simp at ha
  obtain ⟨hsub, hclosed⟩ := reach_closed hstart
  constructor
  · intro hc
    rcases leads_of_mem_reach hc with hc | ⟨a, ha, hac⟩
    · simp at hc
    · obtain ⟨k, hk, hka⟩ := List.mem_flatMap.1 ha
      exact ⟨k, hk, Relation.TransGen.head' hka hac⟩
  · rintro ⟨k, hk, hkc⟩
    induction hkc with
    | single hlead => exact hsub _ (Or.inr (List.mem_flatMap.2 ⟨k, hk, hlead⟩))
    | tail _ hlead ih => exact hclosed _ ih _ hlead

/-- The cells downstream of changed ones are those that read one of them, directly or through
others. -/
theorem mem_downstream_iff {g : Graph} (h : g.Mirrored) (changed : List CellKey) (c : CellKey) :
    c ∈ g.downstream changed ↔ ∃ k ∈ changed, Relation.TransGen g.Reads c k := by
  have hleads : Leads g.readers = Function.swap g.Reads := by
    funext a b
    exact propext (h a b).symm
  simp only [mem_downstream, hleads, Relation.transGen_swap]

/-! ## Searching with a queue -/

section

variable {sets : Std.TreeMap CellKey CellSet}

theorem mem_enqueue_snd {c : CellKey} (cells : List CellKey) :
    ∀ {queue : List CellKey} {seen : CellSet},
      c ∈ (enqueue cells queue seen).2 ↔ c ∈ cells ∨ c ∈ seen := by
  induction cells with
  | nil => simp [enqueue]
  | cons cell cells ih =>
      intro queue seen
      rw [enqueue, List.mem_cons]
      split
      next hold =>
        rw [ih]
        constructor
        · exact Or.imp_left Or.inr
        · rintro ((rfl | hc) | hc)
          · exact Or.inr (Std.TreeSet.contains_iff_mem.1 hold)
          · exact Or.inl hc
          · exact Or.inr hc
      next => rw [ih, Keyed.mem_insert, or_left_comm, or_assoc]

/-- The cells in the queue are those that were there and those seen for the first time. -/
theorem mem_enqueue_fst {c : CellKey} (cells : List CellKey) :
    ∀ {queue : List CellKey} {seen : CellSet},
      c ∈ (enqueue cells queue seen).1 ↔ c ∈ queue ∨ (c ∈ cells ∧ c ∉ seen) := by
  induction cells with
  | nil => simp [enqueue]
  | cons cell cells ih =>
      intro queue seen
      rw [enqueue, List.mem_cons]
      split
      next hold =>
        rw [Std.TreeSet.contains_iff_mem] at hold
        rw [ih]
        refine or_congr_right (and_congr_left ?_)
        intro hnew
        refine (or_iff_right ?_).symm
        rintro rfl
        exact hnew hold
      next hnew =>
        rw [Std.TreeSet.contains_iff_mem] at hnew
        rw [ih, List.mem_append, List.mem_singleton, Keyed.mem_insert]
        by_cases hc : c = cell
        · simp [hc, hnew]
        · simp [hc]

/-- What leads on is in the queue until all that it leads to has been seen. -/
theorem search_closed {start : CellKey → Prop} {queue : List CellKey} {seen : CellSet}
    (h : ∀ a, start a ∨ a ∈ seen → a ∈ queue ∨ ∀ b, Leads sets a b → b ∈ seen) :
    ∀ a, start a ∨ a ∈ search sets queue seen →
      ∀ b, Leads sets a b → b ∈ search sets queue seen := by
  fun_induction search sets queue seen with
  | case1 seen =>
      intro a ha
      exact (h a ha).resolve_left List.not_mem_nil
  | case2 cell queue seen ih =>
      refine ih ?_
      have hseen : ∀ a, start a ∨ a ∈ seen →
          a ∈ (enqueue (members sets cell) queue seen).1 ∨
            ∀ b, Leads sets a b → b ∈ (enqueue (members sets cell) queue seen).2 := by
        intro a ha
        rcases h a ha with hqueue | hall
        · rcases List.mem_cons.1 hqueue with rfl | hqueue
          · exact Or.inr fun b hab => (mem_enqueue_snd _).2 (Or.inl hab)
          · exact Or.inl ((mem_enqueue_fst _).2 (Or.inl hqueue))
        · exact Or.inr fun b hab => (mem_enqueue_snd _).2 (Or.inr (hall b hab))
      rintro a (ha | ha)
      · exact hseen a (Or.inl ha)
      · rcases Classical.em (a ∈ seen) with hold | hnew
        · exact hseen a (Or.inr hold)
        · have hmember := ((mem_enqueue_snd _).1 ha).resolve_right hnew
          exact Or.inl ((mem_enqueue_fst _).2 (Or.inr ⟨hmember, hnew⟩))

/-- A cell that is seen was seen before or is led to from the queue. -/
theorem leads_of_mem_search {queue : List CellKey} {seen : CellSet} {c : CellKey}
    (h : c ∈ search sets queue seen) :
    c ∈ seen ∨ ∃ a ∈ queue, Relation.TransGen (Leads sets) a c := by
  fun_induction search sets queue seen with
  | case1 seen => exact Or.inl h
  | case2 cell queue seen ih =>
      rcases ih h with hc | ⟨a, ha, hac⟩
      · rcases (mem_enqueue_snd _).1 hc with hc | hc
        · exact Or.inr ⟨cell, List.mem_cons_self, .single hc⟩
        · exact Or.inl hc
      · rcases (mem_enqueue_fst _).1 ha with ha | ⟨ha, -⟩
        · exact Or.inr ⟨a, List.mem_cons_of_mem _ ha, hac⟩
        · exact Or.inr ⟨cell, List.mem_cons_self, hac.head ha⟩

/-- A search that starts with nothing seen finds the ends of all paths with at least one edge. -/
theorem mem_search_iff {queue : List CellKey} {c : CellKey} :
    c ∈ search sets queue {} ↔ ∃ k ∈ queue, Relation.TransGen (Leads sets) k c := by
  have hclosed : ∀ a, a ∈ queue ∨ a ∈ search sets queue {} →
      ∀ b, Leads sets a b → b ∈ search sets queue {} :=
    search_closed fun a ha => Or.inl (ha.resolve_right Std.TreeSet.not_mem_emptyc)
  constructor
  · intro h
    exact (leads_of_mem_search h).resolve_left Std.TreeSet.not_mem_emptyc
  · rintro ⟨k, hk, hkc⟩
    induction hkc with
    | single hlead => exact hclosed k (Or.inl hk) _ hlead
    | tail _ hlead ih => exact hclosed _ (Or.inr ih) _ hlead

/-- The search from changed cells ends with exactly the cells to which a path of one or more edges
leads from one of them, and these are the cells downstream of the changed ones. -/
theorem affected_reached (g : Graph) (changed : List CellKey) :
    (∀ c, c ∈ g.affected changed ↔
      ∃ k ∈ changed, Relation.TransGen (fun a b => b ∈ g.dependents a) k c) ∧
      (g.downstream changed).toList = (g.affected changed).toList := by
  have hmem : ∀ c, c ∈ g.affected changed ↔ ∃ k ∈ changed, Relation.TransGen (Leads g.readers) k c :=
    fun c => mem_search_iff
  refine ⟨hmem, ?_⟩
  refine eq_of_mem_iff Std.TreeSet.ordered_toList Std.TreeSet.ordered_toList ?_
  intro c
  rw [Std.TreeSet.mem_toList, Std.TreeSet.mem_toList, mem_downstream, hmem]

end

end Graph

end PaintQuote.Engine
