import Mathlib.Data.List.Infix
import PaintQuote.Proofs.Cache.Akin
import PaintQuote.Proofs.Estimate.Tables
import PaintQuote.Sheet.Worksheets

/-!
# Loading a workbook

After cells are loaded, each of them holds the last content that was written to it, up to the form of a
number, and everything else is as before (`Workbook.written`).  A write changes something exactly if what
the cell holds at that point does not agree with it, so the keys of the entries that the writes before
them have not made superfluous are those that `load` lists.  An empty cell is never stored
(`Workbook.Made.sparse`), and with this a workbook that is kept sheet by sheet stores the same cells and
lists the same changes (`Book.Represents`).

* `Workbook.load_lastWriteWins`: what loading does to a workbook, and what it lists.
-/

namespace PaintQuote.Sheet

/-! ## Contents that agree -/

namespace Content

theorem agrees_congr {b c : Content} (h : b.agrees c = true) (d : Content) : b.agrees d = c.agrees d :=
  Bool.eq_iff_iff.2 ⟨agrees_trans (agrees_symm h), agrees_trans h⟩

/-- Only nothing agrees with nothing. -/
theorem empty_agrees (c : Content) : (literal .empty).agrees c = c.isEmpty := by
  cases c with
  | formula text => rfl
  | literal v => cases v <;> rfl

theorem isEmpty_congr {b c : Content} (h : b.agrees c = true) : b.isEmpty = c.isEmpty := by
  rw [← empty_agrees, ← empty_agrees]
  exact Bool.eq_iff_iff.2 ⟨fun hb => agrees_trans hb h, fun hc => agrees_trans hc (agrees_symm h)⟩

end Content

namespace Workbook

variable {w w' : Workbook}

/-! ## One write -/

theorem set_snd (w : Workbook) (key : CellKey) (c : Content) :
    (w.set key c).2 = !(w.content key).agrees c := by
  simp only [set, content_withSheet]
  cases (w.content key).agrees c with
  | true => rfl
  | false => cases hempty : c.isEmpty <;> rfl

theorem set_sheets (w : Workbook) (key : CellKey) (c : Content) :
    (w.set key c).1.sheets = if w.hasSheet key.sheet then w.sheets else w.sheets ++ [key.sheet] := by
  have hsheets : (w.withSheet key.sheet).sheets =
      if w.hasSheet key.sheet then w.sheets else w.sheets ++ [key.sheet] := by
    rw [withSheet]
    split <;> rfl
  rw [← hsheets, set]
  split
  next => rfl
  next => split <;> rfl

/-! ## Many writes -/

/-- What was written last to a cell, or what it held before. -/
def written (w : Workbook) (entries : List (CellKey × Content)) (key : CellKey) : Content :=
  (entries.reverse.lookup key).getD (w.content key)

/-- The first write matters to a cell if none of the others is to it. -/
theorem written_cons (w : Workbook) (entry : CellKey × Content) (entries : List (CellKey × Content))
    (key : CellKey) : w.written (entry :: entries) key =
      (entries.reverse.lookup key).getD (if key = entry.1 then entry.2 else w.content key) := by
  have hlast : List.lookup key [entry] = if key = entry.1 then some entry.2 else none := by
    rw [List.lookup_cons, List.lookup_nil]
    by_cases h : key = entry.1
    · simp [h]
    · rw [beq_false_of_ne h, if_neg h]
  rw [written, List.reverse_cons, List.lookup_append, hlast]
  cases entries.reverse.lookup key with
  | some c => rfl
  | none => split <;> rfl

theorem written_set (w : Workbook) (entry : CellKey × Content) (entries : List (CellKey × Content))
    (key : CellKey) : ((w.set entry.1 entry.2).1.written entries key).agrees
      (w.written (entry :: entries) key) = true := by
  rw [written_cons, written]
  cases entries.reverse.lookup key with
  | some c => exact Content.agrees_self c
  | none =>
      rw [Option.getD_none, Option.getD_none, content_set]
      split
      next =>
        split
        next hagrees => exact hagrees
        next => exact Content.agrees_self _
      next => exact Content.agrees_self _

/-- A cell holds the last content that was written to it, up to the form of a number. -/
theorem load_content (entries : List (CellKey × Content)) (key : CellKey) :
    ∀ w : Workbook, ((w.load entries).1.content key).agrees (w.written entries key) = true := by
  induction entries with
  | nil => exact fun w => Content.agrees_self _
  | cons entry entries ih => exact fun w => Content.agrees_trans (ih _) (w.written_set entry entries key)

/-- What is stored for a cell stays as it is, unless it is written to. -/
theorem load_get?_of_notMem {entries : List (CellKey × Content)} {key : CellKey}
    (h : key ∉ entries.map Prod.fst) :
    ∀ w : Workbook, (w.load entries).1.cells.get? key = w.cells.get? key := by
  induction entries with
  | nil => exact fun _ => rfl
  | cons entry entries ih =>
      intro w
      obtain ⟨hne, hrest⟩ := not_or.1 (List.mem_cons.not.1 h)
      rw [load_cons, ih hrest, get?_set, if_neg fun h => hne h.1]

/-- The sheets that are not there yet are added in the order in which they are mentioned first. -/
theorem load_sheets (entries : List (CellKey × Content)) : ∀ w : Workbook,
    (w.load entries).1.sheets = w.sheets ++
      ((entries.map (·.1.sheet)).filter fun sheet => !w.hasSheet sheet).eraseDups := by
  induction entries with
  | nil => exact fun w => (List.append_nil _).symm
  | cons entry entries ih =>
      intro w
      obtain ⟨key, c⟩ := entry
      rw [load_cons, ih, set_sheets, List.map_cons]
      simp only [hasSheet_set]
      cases hsheet : w.hasSheet key.sheet with
      | true =>
          have hadds : ∀ sheet, (w.hasSheet sheet || sheet == key.sheet) = w.hasSheet sheet := by
            intro sheet
            by_cases heq : sheet = key.sheet
            · rw [heq, hsheet]
              rfl
            · simp [heq]
          simp only [hadds, List.filter_cons, hsheet]
          rfl
      | false =>
          simp only [Bool.not_or, Bool.and_comm, List.filter_cons, hsheet]
          simp [List.eraseDups_cons, List.filter_filter]

theorem load_cons_snd (w : Workbook) (entry : CellKey × Content) (entries : List (CellKey × Content)) :
    (w.load (entry :: entries)).2 = if (w.set entry.1 entry.2).2
      then entry.1 :: ((w.set entry.1 entry.2).1.load entries).2
      else ((w.set entry.1 entry.2).1.load entries).2 := rfl

/-- A write is listed if what was written to its cell before it does not agree with it. -/
theorem load_snd (entries : List (CellKey × Content)) : ∀ w : Workbook,
    (w.load entries).2 = (entries.zip entries.inits).filterMap fun (entry, before) =>
      if (w.written before entry.1).agrees entry.2 then none else some entry.1 := by
  induction entries with
  | nil => exact fun _ => rfl
  | cons entry entries ih =>
      intro w
      -- The writes after the first one are judged alike with it among the writes before or done already.
      have hprior : ∀ before key c, ((w.set entry.1 entry.2).1.written before key).agrees c =
          (w.written (entry :: before) key).agrees c :=
        fun before key c => Content.agrees_congr (w.written_set entry before key) c
      have hrest : ((w.set entry.1 entry.2).1.load entries).2 =
          (entries.zip (entries.inits.map (entry :: ·))).filterMap fun (e, before) =>
            if (w.written before e.1).agrees e.2 then none else some e.1 := by
        rw [ih, List.zip_map_right, List.filterMap_map]
        simp only [hprior]
        rfl
      rw [load_cons_snd, hrest, set_snd, List.inits_cons, List.zip_cons_cons, List.filterMap_cons]
      cases hagrees : (w.content entry.1).agrees entry.2 with
      | true => simp [written, hagrees]
      | false => simp [written, hagrees]

/-! ## Workbooks store nothing empty -/

/-- A workbook as writes and definitions make it. -/
inductive Made : Workbook → Prop where
  | empty : Made empty
  | set {w : Workbook} (h : Made w) (key : CellKey) (c : Content) : Made (w.set key c).1
  | defineName {w w' : Workbook} (h : Made w) {n : DefinedName} (hdefine : w.defineName n = .ok w') : Made w'

theorem Made.load (h : w.Made) (entries : List (CellKey × Content)) : (w.load entries).1.Made :=
  load_keeps (fun _ key c hw => hw.set key c) entries h

theorem cells_of_defineName {n : DefinedName} (hdefine : w.defineName n = .ok w') : w'.cells = w.cells := by
  rw [defineName] at hdefine
  cases hnames : w.names.define n with
  | error e =>
      rw [hnames] at hdefine
      cases hdefine
  | ok names =>
      rw [hnames] at hdefine
      cases hdefine
      rfl

/-- No cell with nothing in it is stored. -/
theorem Made.sparse (h : w.Made) : ∀ key, w.cells.get? key ≠ some (.literal .empty) := by
  induction h with
  | empty => exact fun key h => by cases h
  | set h key c ih =>
      intro k hstored
      rw [get?_set] at hstored
      split at hstored
      next =>
        split at hstored
        next => cases hstored
        next hempty =>
          rw [Option.some.inj hstored] at hempty
          exact hempty rfl
      next => exact ih k hstored
  | defineName h hdefine ih =>
      rw [cells_of_defineName hdefine]
      exact ih

/-- The cells that are not stored are those with nothing in them. -/
theorem Made.get?_eq_none_iff (h : w.Made) {key : CellKey} :
    w.cells.get? key = none ↔ (w.content key).isEmpty = true := by
  rw [content]
  cases hstored : w.cells.get? key with
  | none => exact iff_of_true rfl rfl
  | some c =>
      refine iff_of_false (Option.some_ne_none c) fun hempty => h.sparse key ?_
      rw [hstored, ← beq_iff_eq.1 hempty, Option.getD_some]

end Workbook

/-! ## Sheet by sheet -/

namespace Worksheet

/-- What is stored for a cell after a write to it. -/
def kept (held? : Option Content) (c : Content) : Option Content :=
  if c.isEmpty then none else if held?.any (·.agrees c) then held? else some c

/-- Whether a write to a cell is said to change it. -/
def changes (held? : Option Content) (c : Content) : Bool :=
  if c.isEmpty then held?.isSome else !held?.any (·.agrees c)

theorem set_cells (s : Worksheet) (address a : Address) (c : Content) :
    (s.set address c).1.cells[a]? = if address = a then kept s.cells[address]? c else s.cells[a]? := by
  rw [set, kept]
  by_cases hempty : c.isEmpty = true
  · rw [if_pos hempty, if_pos hempty, Std.HashMap.getElem?_erase]
    simp only [beq_iff_eq]
  · rw [if_neg hempty, if_neg hempty]
    by_cases hagrees : s.cells[address]?.any (·.agrees c) = true
    · rw [if_pos hagrees, if_pos hagrees]
      split
      next h => rw [← h]
      next => rfl
    · rw [if_neg hagrees, if_neg hagrees, Std.HashMap.getElem?_insert]
      simp only [beq_iff_eq]

theorem set_snd (s : Worksheet) (address : Address) (c : Content) :
    (s.set address c).2 = changes s.cells[address]? c := by
  rw [set, changes]
  split
  next => exact Std.HashMap.contains_eq_isSome_getElem?
  next => split <;> simp_all

theorem set_name (s : Worksheet) (address : Address) (c : Content) : (s.set address c).1.name = s.name := by
  rw [set]
  split
  next => rfl
  next => split <;> rfl

theorem empty_cells (sheet : SheetName) (a : Address) : ({ name := sheet } : Worksheet).cells[a]? = none :=
  Std.HashMap.getElem?_empty

theorem storedIn?_nil (key : CellKey) : storedIn? key [] = none := rfl

theorem storedIn?_cons (key : CellKey) (s : Worksheet) (rest : List Worksheet) :
    storedIn? key (s :: rest) = if s.name = key.sheet then s.cells[key.address]? else storedIn? key rest := by
  by_cases h : s.name = key.sheet <;> simp [storedIn?, h]

/-- On the worksheet of a cell, a write to the cell concerns no other cell. -/
theorem stored_set (s : Worksheet) (key k : CellKey) (c : Content) (other? : Option Content) :
    (if key.sheet = k.sheet then (s.set key.address c).1.cells[k.address]? else other?) =
      if k = key then kept s.cells[key.address]? c
      else if key.sheet = k.sheet then s.cells[k.address]? else other? := by
  by_cases hk : k = key
  · simp [hk, set_cells]
  · by_cases hsheet : key.sheet = k.sheet
    · have haddress : key.address ≠ k.address := fun haddress =>
        hk (CellKey.mk.injEq .. ▸ ⟨hsheet.symm, haddress.symm⟩)
      simp [hk, hsheet, set_cells, haddress]
    · simp [hk, hsheet]

/-- A write changes what is stored for its own cell and for no other. -/
theorem storedIn?_setIn (key k : CellKey) (c : Content) (worksheets : List Worksheet) :
    storedIn? k (setIn key c worksheets).1 =
      if k = key then kept (storedIn? key worksheets) c else storedIn? k worksheets := by
  induction worksheets with
  | nil =>
      rw [setIn, storedIn?_cons, set_name, stored_set, empty_cells, empty_cells, storedIn?_nil, storedIn?_nil,
        ite_self]
  | cons s rest ih =>
      rw [setIn, storedIn?_cons, storedIn?_cons]
      by_cases hname : s.name = key.sheet
      · rw [if_pos hname, if_pos hname, storedIn?_cons, set_name, hname, stored_set]
      · rw [if_neg hname, if_neg hname, storedIn?_cons, ih]
        by_cases hk : k = key
        · simp [hk, hname]
        · simp [hk]

theorem setIn_snd (key : CellKey) (c : Content) (worksheets : List Worksheet) :
    (setIn key c worksheets).2 = changes (storedIn? key worksheets) c := by
  induction worksheets with
  | nil =>
      rw [storedIn?_nil, ← empty_cells key.sheet key.address]
      exact set_snd _ _ _
  | cons s rest ih =>
      rw [setIn, storedIn?_cons]
      split
      next => exact set_snd _ _ _
      next => exact ih

/-- A write brings its worksheet into existence. -/
theorem map_name_setIn (key : CellKey) (c : Content) (worksheets : List Worksheet) :
    (setIn key c worksheets).1.map (·.name) =
      if (worksheets.map (·.name)).contains key.sheet then worksheets.map (·.name)
      else worksheets.map (·.name) ++ [key.sheet] := by
  induction worksheets with
  | nil => simp [setIn, set_name]
  | cons s rest ih =>
      rw [setIn]
      by_cases h : s.name = key.sheet
      · simp [h, set_name]
      · simp only [if_neg h, List.map_cons, ih, List.contains_cons, beq_false_of_ne (Ne.symm h)]
        rw [Bool.false_or]
        split <;> rfl

end Worksheet

namespace Workbook

variable {w : Workbook}

/-- Where nothing empty is stored, a write stores and reports what it does on a worksheet. -/
theorem Made.set_eq (h : w.Made) (key : CellKey) (c : Content) :
    (∀ k, (w.set key c).1.cells.get? k =
      if k = key then Worksheet.kept (w.cells.get? key) c else w.cells.get? k) ∧
    (w.set key c).2 = Worksheet.changes (w.cells.get? key) c := by
  -- A worksheet asks first whether nothing is written, a workbook whether anything changes.
  have hagrees : (w.content key).agrees c =
      if c.isEmpty then (w.cells.get? key).isNone else (w.cells.get? key).any (·.agrees c) := by
    cases hempty : c.isEmpty with
    | true =>
        rw [if_pos rfl, Bool.eq_iff_iff, Option.isNone_iff_eq_none, h.get?_eq_none_iff,
          beq_iff_eq.1 hempty, ← Content.empty_agrees]
        exact ⟨Content.agrees_symm, Content.agrees_symm⟩
    | false =>
        rw [content]
        cases w.cells.get? key with
        | none => exact (Content.empty_agrees c).trans hempty
        | some d => rfl
  constructor
  · intro k
    rw [get?_set, hagrees, Worksheet.kept]
    by_cases hk : k = key
    · subst hk
      cases c.isEmpty with
      | true => cases w.cells.get? k <;> simp
      | false => cases hany : (w.cells.get? k).any (·.agrees c) <;> simp
    · simp [hk]
  · rw [set_snd, hagrees, Worksheet.changes]
    cases c.isEmpty with
    | true => cases w.cells.get? key <;> rfl
    | false => rfl

end Workbook

namespace Book

/-- A workbook sheet by sheet has the sheets, cells and names of a workbook. -/
structure Represents (b : Book) (w : Workbook) : Prop where
  sheets : b.worksheets.map (·.name) = w.sheets
  stored : ∀ key, Worksheet.storedIn? key b.worksheets = w.cells.get? key
  names : b.names = w.names

variable {b : Book} {w : Workbook}

theorem Represents.empty : ({} : Book).Represents {} := ⟨rfl, fun _ => rfl, rfl⟩

theorem Represents.set (h : b.Represents w) (hw : w.Made) (key : CellKey) (c : Content) :
    (b.set key c).1.Represents (w.set key c).1 ∧ (b.set key c).2 = (w.set key c).2 := by
  obtain ⟨hcells, hchanged⟩ := hw.set_eq key c
  refine ⟨⟨?_, fun k => ?_, ?_⟩, ?_⟩
  · rw [Book.set, Worksheet.map_name_setIn, h.sheets, Workbook.set_sheets]
    rfl
  · rw [Book.set, Worksheet.storedIn?_setIn, h.stored, h.stored, hcells]
  · rw [(w.set_changedIn key c).names]
    exact h.names
  · rw [Book.set, Worksheet.setIn_snd, h.stored, hchanged]

theorem load_cons_snd (b : Book) (entry : CellKey × Content) (entries : List (CellKey × Content)) :
    (b.load (entry :: entries)).2 = if (b.set entry.1 entry.2).2
      then entry.1 :: ((b.set entry.1 entry.2).1.load entries).2
      else ((b.set entry.1 entry.2).1.load entries).2 := rfl

theorem Represents.load (entries : List (CellKey × Content)) : ∀ {b : Book} {w : Workbook},
    b.Represents w → w.Made →
      (b.load entries).1.Represents (w.load entries).1 ∧ (b.load entries).2 = (w.load entries).2 := by
  induction entries with
  | nil => exact fun h _ => ⟨h, rfl⟩
  | cons entry entries ih =>
      intro b w h hw
      obtain ⟨hset, hchanged⟩ := h.set hw entry.1 entry.2
      obtain ⟨hload, hkeys⟩ := ih hset (hw.set entry.1 entry.2)
      refine ⟨hload, ?_⟩
      rw [load_cons_snd, Workbook.load_cons_snd, hchanged, hkeys]

theorem Represents.defineName (h : b.Represents w) {w' : Workbook} {n : DefinedName}
    (hdefine : w.defineName n = .ok w') : ∃ b', b.defineName n = .ok b' ∧ b'.Represents w' := by
  rw [Workbook.defineName] at hdefine
  rw [Book.defineName, h.names]
  cases hnames : w.names.define n with
  | error e =>
      rw [hnames] at hdefine
      cases hdefine
  | ok names =>
      rw [hnames] at hdefine
      cases hdefine
      exact ⟨_, rfl, h.sheets, h.stored, rfl⟩

/-- Every workbook can be kept sheet by sheet. -/
theorem exists_represents (h : w.Made) : ∃ b : Book, b.Represents w := by
  induction h with
  | empty => exact ⟨_, .empty⟩
  | set h key c ih =>
      obtain ⟨b, hb⟩ := ih
      exact ⟨_, (hb.set h key c).1⟩
  | defineName h hdefine ih =>
      obtain ⟨b, hb⟩ := ih
      obtain ⟨b', -, hb'⟩ := hb.defineName hdefine
      exact ⟨b', hb'⟩

end Book

/-! ## The effect of loading -/

namespace Workbook

variable {w : Workbook}

/-- Every cell that is listed holds its last entry, up to the form of a number, and is not stored if that
is nothing; the other cells and the names are as before, and the sheets that are mentioned are added.  The
keys that are listed are, in order and with repetitions, those of the entries that differ from what was
written last before them.  A workbook that is kept sheet by sheet goes through the same. -/
theorem load_lastWriteWins (h : w.Made) (entries : List (CellKey × Content)) :
    (∀ key, ((w.load entries).1.content key).agrees (w.written entries key) = true ∧
      ((w.load entries).1.cells.get? key = none ↔ (w.written entries key).isEmpty = true) ∧
      (w.load entries).1.cells.get? key ≠ some (.literal .empty)) ∧
    (∀ key, key ∉ entries.map Prod.fst → (w.load entries).1.cells.get? key = w.cells.get? key) ∧
    (w.load entries).1.names = w.names ∧
    (w.load entries).1.sheets = w.sheets ++
      ((entries.map (·.1.sheet)).filter fun sheet => !w.hasSheet sheet).eraseDups ∧
    ((w.load entries).2 = (entries.zip entries.inits).filterMap fun (entry, before) =>
      if (w.written before entry.1).agrees entry.2 then none else some entry.1) ∧
    (∃ b : Book, b.Represents w) ∧ ∀ b : Book, b.Represents w →
      (b.load entries).1.Represents (w.load entries).1 ∧ (b.load entries).2 = (w.load entries).2 := by
  refine ⟨fun key => ?_, fun key hkey => load_get?_of_notMem hkey w, (load_changedIn entries w).names,
    load_sheets entries w, load_snd entries w, Book.exists_represents h, fun b hb => hb.load entries h⟩
  have hagrees := load_content entries key w
  refine ⟨hagrees, ?_, (h.load entries).sparse key⟩
  rw [(h.load entries).get?_eq_none_iff, Content.isEmpty_congr hagrees]

/-- A cell is written twice, and then emptied; another one is left empty. -/
def repeatedWrites (cell other : CellKey) (v v' : CellValue) : List (CellKey × Content) :=
  [(cell, .literal v), (other, .literal .empty), (cell, .literal v'), (cell, .literal .empty)]

/-- One number is written in two forms. -/
theorem load_lastWriteWins_repeatedWrites :
    Made empty ∧
      (empty.load (repeatedWrites ⟨⟨"ROOM"⟩, ⟨1, 1⟩⟩ ⟨⟨"RATES"⟩, ⟨3, 1⟩⟩ (.number (.scaled 15 1))
        (.number (.scaled 150 2)))).2 = [⟨⟨"ROOM"⟩, ⟨1, 1⟩⟩, ⟨⟨"ROOM"⟩, ⟨1, 1⟩⟩] := by
  obtain ⟨-, -, -, -, hchanged, -⟩ := load_lastWriteWins .empty (repeatedWrites ⟨⟨"ROOM"⟩, ⟨1, 1⟩⟩
    ⟨⟨"RATES"⟩, ⟨3, 1⟩⟩ (.number (.scaled 15 1)) (.number (.scaled 150 2)))
  exact ⟨.empty, hchanged.trans (by decide +kernel)⟩

end Workbook

end PaintQuote.Sheet
