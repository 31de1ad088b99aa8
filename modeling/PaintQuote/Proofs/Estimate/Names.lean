import PaintQuote.Proofs.Estimate.NormalForms
import PaintQuote.Proofs.Estimate.ProjectSheet

/-!
# Names of rooms

A room is *anonymous* when its name is erased, and so is what an estimate says.  Without a cache, the
estimate of anonymous rooms is the anonymous estimate of the rooms (`Inquiry.anonymous_fresh`):

* no formula of a room reads the name (`Page.outcome_anonymous`);
* on the sheet of a project only one formula reads names, and it counts them (`Page.value_count_anonymous`).

So inquiries that differ in nothing but names have replies that differ in nothing but names
(`replies_nameless`).
-/

namespace PaintQuote

open Sheet Formula Engine Estimate

namespace Estimate

/-! ## Erasing names -/

/-- A failure with the name of its room erased. -/
def CellFailure.anonymous (f : CellFailure) : CellFailure := { f with room? := f.room?.map fun _ => "" }

/-- A room with its name erased. -/
def Room.anonymous (r : Room) : Room := { r with name := "" }

/-- A row of a project with its name erased. -/
def ProjectRow.anonymous (row : ProjectRow) : ProjectRow := { row with name := "" }

/-- An estimate of a room with its names erased. -/
def RoomEstimate.anonymous (e : RoomEstimate) : RoomEstimate :=
  { e with room := "", failures := e.failures.map CellFailure.anonymous }

/-- An estimate of a project with its names erased. -/
def ProjectEstimate.anonymous (e : ProjectEstimate) : ProjectEstimate :=
  { e with rooms := e.rooms.map RoomEstimate.anonymous, failures := e.failures.map CellFailure.anonymous }

/-- An inquiry with the names of its rooms erased. -/
def Inquiry.anonymous : Inquiry → Inquiry
  | room r => room r.anonymous
  | project rooms => project (rooms.map Room.anonymous)

/-- A reply with its names erased. -/
def Reply.anonymous : Reply → Reply
  | room e => room e.anonymous
  | project e => project e.anonymous
  | failed error => failed error

/-- Replies that are like are like without their names. -/
theorem Reply.Like.anonymous {r r' : Reply} (h : r.Like r') : r.anonymous.Like r'.anonymous := by
  have hroom : ∀ e : RoomEstimate, e.anonymous.normalize = e.normalize.anonymous := fun _ => rfl
  have hproject : ∀ e : ProjectEstimate, e.anonymous.normalize = e.normalize.anonymous := by
    intro e
    simp only [ProjectEstimate.normalize, ProjectEstimate.anonymous, List.map_map, Function.comp_def, hroom]
  have hnormalize : ∀ r : Reply, r.anonymous.normalize = r.normalize.anonymous := by
    intro r
    cases r with
    | room e => exact congrArg Reply.room (hroom e)
    | project e => exact congrArg Reply.project (hproject e)
    | failed error => rfl
  rw [like_iff, hnormalize, hnormalize, like_iff.1 h]

/-! ## Readings -/

namespace Reading

/-- A reading with the name of its room erased. -/
def anonymous (r : Reading) : Reading := r.mapError CellFailure.anonymous

@[simp] theorem number?_anonymous (r : Reading) : r.anonymous.number? = r.number? := by cases r <;> rfl

@[simp] theorem value_anonymous (r : Reading) : r.anonymous.value = r.value := by cases r <;> rfl

@[simp] theorem failure?_anonymous (r : Reading) :
    r.anonymous.failure? = r.failure?.map CellFailure.anonymous := by cases r <;> rfl

/-- What is read off a cell depends on the name of the room in the name of a failure only. -/
theorem anonymous_ofOutcome (o : Outcome) (room? : Option String) (output : String) (cell : CellKey) :
    (ofOutcome o room? output cell).anonymous = ofOutcome o (room?.map fun _ => "") output cell := by
  unfold ofOutcome
  cases o.value <;> rfl

end Reading

theorem quoted_anonymous (rates : Rates) (prices : Tiers Reading) :
    quoted rates (prices.map Reading.anonymous) = quoted rates prices := by
  simp only [quoted, Tiers.map, Reading.number?_anonymous]

/-- The anonymous estimate of a room is that of the anonymous readings. -/
theorem RoomEstimate.anonymous_ofReadings (rates : Rates) (name : String) (read : RoomOutput → Reading) :
    (ofReadings rates name read).anonymous = ofReadings rates "" fun o => (read o).anonymous := by
  have hquoted : quoted rates (prices fun o => (read o).anonymous) = quoted rates (prices read) :=
    quoted_anonymous rates (prices read)
  simp only [anonymous, ofReadings, hquoted, Reading.number?_anonymous, Reading.failure?_anonymous,
    List.map_filterMap]

/-- The anonymous row of a room is that of the anonymous readings. -/
theorem RoomEstimate.anonymous_rowOfReadings (rates : Rates) (name : String) (read : RoomOutput → Reading) :
    (rowOfReadings rates name read).anonymous = rowOfReadings rates "" fun o => (read o).anonymous := by
  have hquoted : quoted rates (prices fun o => (read o).anonymous) = quoted rates (prices read) :=
    quoted_anonymous rates (prices read)
  have hprices : rowPrices rates (fun o => (read o).anonymous) = rowPrices rates read := by
    simp only [rowPrices, hquoted]
    simp only [prices, Tiers.map, Reading.value_anonymous]
  simp only [ProjectRow.anonymous, rowOfReadings, hprices, Reading.value_anonymous]

/-- The anonymous estimate of a project is that of the anonymous estimates of its rooms and the anonymous
readings. -/
theorem ProjectEstimate.anonymous_ofReadings (rates : Rates) (rooms : List RoomEstimate)
    (read : ProjectOutput → Reading) :
    (ofReadings rates rooms read).anonymous =
      ofReadings rates (rooms.map RoomEstimate.anonymous) fun o => (read o).anonymous := by
  have hquoted : quoted rates (prices fun o => (read o).anonymous) = quoted rates (prices read) :=
    quoted_anonymous rates (prices read)
  have hfailures : (rooms.flatMap (·.failures)).map CellFailure.anonymous =
      (rooms.map RoomEstimate.anonymous).flatMap (·.failures) := by
    rw [List.map_flatMap, List.flatMap_map]
    rfl
  simp only [anonymous, ofReadings, totalsOfReadings, hquoted, Reading.number?_anonymous,
    Reading.failure?_anonymous, List.map_append, List.map_filterMap, hfailures, List.length_map]

/-! ## Sheets -/

namespace Layout

/-- A row of a project has the same contents without its name, but for the first. -/
theorem getElem?_rows_anonymous (rows : List ProjectRow) (i j : Nat) (header : List Content) :
    ((header :: (rows.map ProjectRow.anonymous).map rowContents)[i]?.bind fun items => items[j + 1]?) =
      ((header :: rows.map rowContents)[i]?.bind fun items => items[j + 1]?) := by
  cases i with
  | zero => rfl
  | succ i =>
      rw [List.getElem?_cons_succ, List.getElem?_cons_succ, List.getElem?_map, List.getElem?_map,
        List.getElem?_map]
      cases rows[i]? <;> rfl

end Layout

namespace Page

/-- A page with the names of rooms erased. -/
def anonymous : Page → Page
  | room r => room r.anonymous
  | project rows => project (rows.map ProjectRow.anonymous)

/-- Whether a cell of a page holds a name, or counts names. -/
def Names (page : Page) (k : CellKey) : Prop :=
  k.sheet = page.sheet ∧
    match page with
    | room _ => k.address = ⟨0, 1⟩
    | project _ => k.address.column = 0 ∨ k.address = ⟨4, 9⟩

theorem mem_roomEntries_anonymous (r : Room) {k : CellKey} (hk : ¬ (room r).Names k) (c : Content) :
    (k, c) ∈ Layout.roomEntries r ↔ (k, c) ∈ Layout.roomEntries r.anonymous := by
  have hentries : ∀ r : Room, Layout.roomEntries r =
      (⟨Layout.roomSheet, ⟨0, 1⟩⟩, Layout.text r.name) :: (Layout.roomEntries r.anonymous).tail := fun _ => rfl
  have hother : ∀ name, (k, c) ≠ (⟨Layout.roomSheet, ⟨0, 1⟩⟩, Layout.text name) := by
    rintro name ⟨⟩
    exact hk ⟨rfl, rfl⟩
  rw [hentries r, hentries r.anonymous, List.mem_cons, List.mem_cons, or_iff_right (hother _),
    or_iff_right (hother _)]
  rfl

theorem mem_projectEntries_anonymous (rows : List ProjectRow) {k : CellKey} (hk : ¬ (project rows).Names k)
    (c : Content) : (k, c) ∈ Layout.projectEntries rows ↔
      (k, c) ∈ Layout.projectEntries (rows.map ProjectRow.anonymous) := by
  rw [Layout.projectEntries, Layout.projectEntries, List.mem_append, List.mem_append, List.length_map]
  refine or_congr_left ?_
  rw [Layout.mem_table, Layout.mem_table]
  refine exists_congr fun i => exists_congr fun j => and_congr_right ?_
  rintro rfl
  cases j with
  | zero => exact absurd ⟨rfl, Or.inl rfl⟩ hk
  | succ j =>
      have hrow := Layout.getElem?_rows_anonymous rows i j
        (["room", "area", "gallons", "hours", "good", "better", "best"].map Layout.text)
      rw [← Option.bind_eq_some_iff, ← Option.bind_eq_some_iff, hrow]

/-- Without names, a page has the same contents but for the cells that hold names. -/
theorem mem_entries_anonymous (page : Page) {k : CellKey} (hk : ¬ page.Names k) (c : Content) :
    (k, c) ∈ page.entries ↔ (k, c) ∈ page.anonymous.entries := by
  cases page with
  | room r => exact mem_roomEntries_anonymous r hk c
  | project rows => exact mem_projectEntries_anonymous rows hk c

theorem sheet_anonymous (page : Page) : page.sheet = page.anonymous.sheet := by cases page <;> rfl

section

variable {rates : Rates} {base : Engine} (hbase : ratesEngine rates = .ok base)
include hbase

/-- The number of rooms does not depend on their names, and neither does it when there are so many rooms that
they cannot be counted. -/
theorem value_count_anonymous {rows : List ProjectRow} (hrows : rows ≠ []) :
    (project rows).value base ⟨Layout.projectSheet, ⟨4, 9⟩⟩ =
      (project (rows.map ProjectRow.anonymous)).value base ⟨Layout.projectSheet, ⟨4, 9⟩⟩ := by
  have hentry : ∀ {t : String} (rows : List ProjectRow), (Layout.totals rows.length)[3]? = some t →
      ((⟨Layout.projectSheet, ⟨4, 9⟩⟩, .formula t) : Entry) ∈ (project rows).entries := by
    intro t rows ht
    refine List.mem_append_right _ (Layout.mem_column.2 ⟨3, rfl, ?_⟩)
    rw [List.getElem?_map, ht]
    rfl
  obtain ⟨t, ht⟩ : ∃ t, (Layout.totals rows.length)[3]? = some t := ⟨_, rfl⟩
  have hlength : (rows.map ProjectRow.anonymous).length = rows.length := List.length_map _
  have hmem := hentry rows ht
  have hmem' := hentry (rows.map ProjectRow.anonymous) (hlength ▸ ht)
  cases hx : Expr.ofText t with
  | error error =>
      have hbare := bare_of_ratesEngine hbase
      rw [value, value, outcome_of_malformed hbare hmem hx, outcome_of_malformed hbare hmem' hx]
  | ok e =>
      obtain ⟨e', he', htree⟩ := exists_getElem?_of_forall₂ (Layout.eq_of_ofText_totals rows.length) ht
      cases he'
      cases htree e hx
      have hrows' : rows.map ProjectRow.anonymous ≠ [] := fun h => hrows (List.map_eq_nil_iff.1 h)
      have hnames := gives_names hbase hrows'
      rw [hlength] at hnames
      have hfilled := CellValue.checked_ne_empty (some (.ofNat rows.length))
      have hcount := value_of_gives hbase hmem hx hfilled (gives_names hbase hrows)
      exact hcount.trans (value_of_gives hbase hmem' hx hfilled hnames).symm

/-- No formula but the one that counts names reads them. -/
theorem reads_not_names {page : Page} {k p : CellKey} (hk : ¬ page.Names k)
    (h : (page.engine base).workbook.Reads k p) :
    ¬ page.Names p ∨ (∃ rows, page = project rows) ∧ p = ⟨Layout.projectSheet, ⟨4, 9⟩⟩ := by
  obtain ⟨hsheet, hp | ⟨hp, hallows⟩⟩ := reads_cases hbase h
  · refine Or.inl fun hnames => ?_
    exact page.sheet_ne_rates (hnames.1.symm.trans hp)
  · cases page with
    | room r =>
        obtain ⟨-, hother⟩ := Bool.and_eq_true_iff.1 hallows
        exact Or.inl fun hnames => bne_iff_ne.1 hother hnames.2
    | project rows =>
        obtain ⟨-, hother⟩ := Bool.and_eq_true_iff.1 hallows
        by_cases hcount : p.address = ⟨4, 9⟩
        · exact Or.inr ⟨⟨rows, rfl⟩, by cases p; cases hp; cases hcount; rfl⟩
        · refine Or.inl fun hnames => ?_
          rcases hnames.2 with hcolumn | hcell
          · rw [hcolumn, bne_self_eq_false, Bool.false_or] at hother
            exact hk ⟨hsheet, Or.inr (beq_iff_eq.1 hother)⟩
          · exact hcount hcell

/-- Without names, all cells come to the same but those that hold names and the one that counts them. -/
theorem outcome_anonymous {page : Page} (hrows : page ≠ project []) {k : CellKey} (hk : ¬ page.Names k) :
    page.outcome base k = page.anonymous.outcome base k := by
  refine outcome_congr hbase page.sheet_anonymous (P := fun k => ¬ page.Names k)
    (fun k hk c => page.mem_entries_anonymous hk c) (fun k p hk hread => ?_) k hk
  rcases reads_not_names hbase hk hread with hp | ⟨⟨rows, rfl⟩, rfl⟩
  · exact Or.inl hp
  · exact Or.inr (value_count_anonymous hbase fun h => hrows (h ▸ rfl))

end

end Page

/-! ## Estimates -/

section

variable {rates : Rates} {base : Engine} (hbase : ratesEngine rates = .ok base)
include hbase

theorem freshReadings_anonymous (r : Room) (o : RoomOutput) :
    freshReadings base r.anonymous o = (freshReadings base r o).anonymous := by
  have hbare := bare_of_ratesEngine hbase
  have hkey : ¬ (Page.room r).Names o.key := by
    rintro ⟨-, haddress⟩
    cases o <;> cases haddress
  have hroom : Page.room r ≠ .project [] := nofun
  rw [freshReadings_eq hbare, freshReadings_eq hbare, Reading.anonymous_ofOutcome,
    Page.outcome_anonymous hbase hroom hkey]
  rfl

theorem freshRoom_anonymous (r : Room) :
    freshRoom rates base r.anonymous = (freshRoom rates base r).anonymous := by
  rw [freshRoom, freshRoom, RoomEstimate.anonymous_ofReadings, funext (freshReadings_anonymous hbase r)]
  rfl

theorem freshPage_anonymous (rooms : List Room) :
    freshPage rates base (rooms.map Room.anonymous) = (freshPage rates base rooms).anonymous := by
  rw [freshPage, freshPage, Page.anonymous, List.map_map, List.map_map]
  refine congrArg Page.project (List.map_congr_left fun r _ => ?_)
  rw [Function.comp_apply, Function.comp_apply, RoomEstimate.anonymous_rowOfReadings,
    funext (freshReadings_anonymous hbase r)]
  rfl

theorem freshProject_anonymous {rooms : List Room} (hrooms : rooms ≠ []) :
    freshProject rates base (rooms.map Room.anonymous) = (freshProject rates base rooms).anonymous := by
  have hestimates : (rooms.map Room.anonymous).map (freshRoom rates base) =
      (rooms.map (freshRoom rates base)).map RoomEstimate.anonymous := by
    rw [List.map_map, List.map_map]
    exact List.map_congr_left fun r _ => freshRoom_anonymous hbase r
  have hbare := bare_of_ratesEngine hbase
  have hreadings : projectReadings ((freshPage rates base (rooms.map Room.anonymous)).evaluated base) =
      fun o => (projectReadings ((freshPage rates base rooms).evaluated base) o).anonymous := by
    funext o
    have hkey : ¬ (freshPage rates base rooms).Names o.key := by
      rintro ⟨-, haddress⟩
      cases o <;> rcases haddress with haddress | haddress <;> cases haddress
    have hrows : freshPage rates base rooms ≠ .project [] := fun h =>
      hrooms (List.map_eq_nil_iff.1 (Page.project.inj h))
    have houtcome := Page.outcome_anonymous hbase hrows hkey
    rw [freshPage_anonymous hbase, freshPage, Page.anonymous, projectReadings_eq hbare, projectReadings_eq hbare,
      Reading.anonymous_ofOutcome]
    exact congrArg (Reading.ofOutcome · none o.label o.key) houtcome.symm
  rw [freshProject, freshProject, ProjectEstimate.anonymous_ofReadings, hestimates, hreadings]

/-- The anonymous reply to an inquiry is the reply to the anonymous inquiry. -/
theorem Inquiry.anonymous_fresh (i : Inquiry) :
    i.anonymous.fresh rates base = (i.fresh rates base).anonymous := by
  cases i with
  | room r => exact congrArg Reply.room (freshRoom_anonymous hbase r)
  | project rooms =>
      cases rooms with
      | nil => rfl
      | cons r rooms => exact congrArg Reply.project (freshProject_anonymous hbase (List.cons_ne_nil r rooms))

end

/-! ## All estimators -/

theorem Inquiry.refusal_anonymous (i : Inquiry) (error : ReferenceError) :
    i.anonymous.refusal error = i.refusal error := by
  cases i with
  | room r => rfl
  | project rooms => cases rooms <;> rfl

/-- But for names and the form of numbers, what an estimator replies is determined by the anonymous
inquiry, whatever it has been asked before. -/
theorem Estimator.exists_reply {options : Options} {est : Estimator} (h : ofOptions options = .ok est) :
    ∃ reply : Inquiry → Reply, ∀ inquiries,
      List.Forall₂ (fun r r' => r.anonymous.Like r') (est.replies inquiries)
        ((inquiries.map Inquiry.anonymous).map reply) ∧
      (options.keepsResults = false →
        (est.replies inquiries).map Reply.anonymous = (inquiries.map Inquiry.anonymous).map reply) := by
  obtain ⟨hoptions, hcache⟩ := ofOptions_eq_ok h
  have hrates : est.options.rates = options.rates := by rw [hoptions]
  cases hbase : ratesEngine options.rates with
  | error error =>
      refine ⟨fun i => .failed (i.refusal error), fun inquiries => ?_⟩
      have herror := hbase
      rw [← hrates] at herror
      have hreplies : est.replies inquiries =
          (inquiries.map Inquiry.anonymous).map fun i => .failed (i.refusal error) := by
        simp only [replies_of_error herror, List.map_map, Function.comp_def, Inquiry.refusal_anonymous]
      rw [hreplies]
      refine ⟨List.forall₂_map_left_iff.2 (List.forall₂_map_right_iff.2 ?_), fun _ => List.map_map ..⟩
      exact List.forall₂_same.2 fun i _ => .failed _
  | ok base =>
      refine ⟨(·.fresh options.rates base), fun inquiries => ⟨?_, fun hkeeps => ?_⟩⟩
      · have hlikes := List.forall₂_map_right_iff.1 (est.replies_like h hbase inquiries)
        refine List.forall₂_map_right_iff.2 (List.forall₂_map_right_iff.2 (hlikes.imp fun r i hlike => ?_))
        rw [Inquiry.anonymous_fresh hbase]
        exact hlike.anonymous
      · rw [hkeeps, if_neg Bool.false_ne_true] at hcache
        rw [Settles.replies hbase inquiries hrates (hcache ▸ .none _), List.map_map, List.map_map]
        exact List.map_congr_left fun i _ => (Inquiry.anonymous_fresh hbase i).symm

/-- Whatever an estimator is asked, the names of rooms have no influence on its replies: those to inquiries
that differ in nothing but names are like without their names, and equal if the estimator keeps no
results. -/
theorem replies_nameless {options : Options} {est : Estimator} (h : Estimator.ofOptions options = .ok est)
    {inquiries inquiries' : List Inquiry}
    (hnames : inquiries.map Inquiry.anonymous = inquiries'.map Inquiry.anonymous) :
    List.Forall₂ (fun r r' : Reply => r.anonymous.Like r'.anonymous) (est.replies inquiries)
      (est.replies inquiries') ∧
    (options.keepsResults = false →
      (est.replies inquiries).map Reply.anonymous = (est.replies inquiries').map Reply.anonymous) := by
  obtain ⟨reply, hreply⟩ := Estimator.exists_reply h
  obtain ⟨hlike, heq⟩ := hreply inquiries
  obtain ⟨hlike', heq'⟩ := hreply inquiries'
  rw [hnames] at hlike heq
  refine ⟨forall₂_trans hlike hlike' fun r s r' hr hr' => ?_, fun hkeeps => ?_⟩
  · exact Reply.like_iff.2 ((Reply.like_iff.1 hr).trans (Reply.like_iff.1 hr').symm)
  · exact (heq hkeeps).trans (heq' hkeeps).symm

/-- The hall with the text of a formula as its name. -/
def Room.formulaHall : Room := { Room.hall with name := "=1/0" }

/-- Estimates of a project with the hall twice, and of one with another hall whose name looks like a
formula, are the same but for names. -/
theorem replies_nameless_hall :
    Estimator.ofOptions { Options.usual with keepsResults := false } = .ok (.usual false) ∧
    [Inquiry.project [.hall, .hall]].map Inquiry.anonymous =
      [Inquiry.project [.hall, .formulaHall]].map Inquiry.anonymous ∧
    ((Estimator.usual false).replies [.project [.hall, .hall]]).map Reply.anonymous =
      ((Estimator.usual false).replies [.project [.hall, .formulaHall]]).map Reply.anonymous := by
  have hnames : [Inquiry.project [.hall, .hall]].map Inquiry.anonymous =
      [Inquiry.project [.hall, .formulaHall]].map Inquiry.anonymous := rfl
  exact ⟨Estimator.ofOptions_usual false, hnames, (replies_nameless (Estimator.ofOptions_usual false) hnames).2 rfl⟩

end Estimate

end PaintQuote
