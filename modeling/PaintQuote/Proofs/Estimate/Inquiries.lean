import PaintQuote.Proofs.Cache.Lockstep
import PaintQuote.Proofs.Estimate.Likeness
import PaintQuote.Proofs.Estimate.Pages

/-!
# Inquiries

An estimator is asked for estimates in turn.  Every inquiry comes to a few pages, and each page to
evaluations, so that what an estimator without a cache replies does not depend on what it was asked
before (`Inquiry.fresh`).

* With a cache that gives every evaluation its outcome, an estimator replies the same (`Settles.ask`).
* With a cache that has been filled by inquiries about the same rates, it replies the same up to the form
  of numbers (`Keeps.ask`).  The rows of a project may then have numbers in other forms too.
-/

namespace PaintQuote

open Sheet Formula Engine Estimate

namespace Estimate

/-! ## Inquiries -/

/-- What an estimator can be asked for. -/
inductive Inquiry where
  /-- The estimate of a room. -/
  | room (room : Room)
  /-- The estimate of a project. -/
  | project (rooms : List Room)

/-- What an estimator replies. -/
inductive Reply where
  /-- The estimate of a room. -/
  | room (estimate : RoomEstimate)
  /-- The estimate of a project. -/
  | project (estimate : ProjectEstimate)
  /-- Why there is no estimate. -/
  | failed (error : EstimateError)

namespace Estimator

/-- The reply to an inquiry, and the estimator afterwards. -/
def ask (e : Estimator) : Inquiry → Reply × Estimator
  | .room r =>
      match e.room r with
      | .ok (estimate, e) => (.room estimate, e)
      | .error error => (.failed error, e)
  | .project rooms =>
      match e.project rooms with
      | .ok (estimate, e) => (.project estimate, e)
      | .error error => (.failed error, e)

/-- The replies to inquiries in turn. -/
def replies (e : Estimator) : List Inquiry → List Reply
  | [] => []
  | inquiry :: inquiries => (e.ask inquiry).1 :: (e.ask inquiry).2.replies inquiries

end Estimator

/-! ## What pages give -/

/-- What is read off the sheet of a room in an engine. -/
def roomReadings (name : String) (e : Engine) (o : RoomOutput) : Reading :=
  .ofOutcome (e.shown o.key) (some name) o.label o.key

/-- What is read off the sheet of a project in an engine. -/
def projectReadings (e : Engine) (o : ProjectOutput) : Reading :=
  .ofOutcome (e.shown o.key) none o.label o.key

section

variable (rates : Rates) (base : Engine)

/-- What is read off the sheet of a room without a cache. -/
def freshReadings (r : Room) : RoomOutput → Reading :=
  roomReadings r.name (Page.evaluated base (.room r))

/-- The estimate of a room without a cache. -/
def freshRoom (r : Room) : RoomEstimate := .ofReadings rates r.name (freshReadings base r)

/-- The page of a project whose rooms are evaluated without a cache. -/
def freshPage (rooms : List Room) : Page :=
  .project (rooms.map fun r => RoomEstimate.rowOfReadings rates r.name (freshReadings base r))

/-- The estimate of a project without a cache. -/
def freshProject (rooms : List Room) : ProjectEstimate :=
  .ofReadings rates (rooms.map (freshRoom rates base))
    (projectReadings ((freshPage rates base rooms).evaluated base))

namespace Inquiry

/-- The reply to an inquiry without a cache. -/
def fresh : Inquiry → Reply
  | room r => .room (freshRoom rates base r)
  | project rooms =>
      if rooms.isEmpty then .failed .noRooms else .project (freshProject rates base rooms)

/-- The pages that an inquiry comes to without a cache. -/
def pages : Inquiry → List Page
  | room r => [.room r]
  | project rooms =>
      if rooms.isEmpty then [] else rooms.map .room ++ [freshPage rates base rooms]

/-- The evaluations that an inquiry comes to without a cache. -/
def evaluations (inquiry : Inquiry) : List Evaluation :=
  (inquiry.pages rates base).flatMap (·.evaluations base)

end Inquiry

end

section

variable {rates : Rates} {base e : Engine} {cache cache' : Option ResultCache}

theorem readRoom_eq (hbase : ratesEngine rates = .ok base) {r : Room}
    (hrun : ((Page.room r).engine base).run cache (Page.room r).outputs = (e, cache')) :
    readRoom rates cache r = .ok (roomReadings r.name e, cache') := by
  have hengine : roomEngine rates r = .ok ((Page.room r).engine base) := by
    rw [roomEngine, hbase]
    rfl
  rw [readRoom, hengine]
  simp only [Except.map, evaluateAll]
  rw [show ((Page.room r).engine base).run cache (RoomOutput.all.map (·.key)) = _ from hrun]
  have hread : ∀ o : RoomOutput,
      Reading.ofReport ((RoomOutput.all.map (·.key)).foldl e.addToReport {}) (some r.name) o.label o.key =
        roomReadings r.name e o :=
    fun o => Reading.ofReport_eq e (List.mem_map_of_mem o.mem_all) _ _
  simp only [hread]

theorem readProject_eq (hbase : ratesEngine rates = .ok base) {rows : List ProjectRow}
    (hrun : ((Page.project rows).engine base).run cache (Page.project rows).outputs = (e, cache')) :
    readProject rates cache rows = .ok (projectReadings e, cache') := by
  have hengine : projectEngine rates rows = .ok ((Page.project rows).engine base) := by
    rw [projectEngine, hbase]
    rfl
  rw [readProject, hengine]
  simp only [Except.map, evaluateAll]
  rw [show ((Page.project rows).engine base).run cache (ProjectOutput.all.map (·.key)) = _ from hrun]
  have hread : ∀ o : ProjectOutput,
      Reading.ofReport ((ProjectOutput.all.map (·.key)).foldl e.addToReport {}) none o.label o.key =
        projectReadings e o :=
    fun o => Reading.ofReport_eq e (List.mem_map_of_mem o.mem_all) _ _
  simp only [hread]

theorem Estimator.ask_room {est : Estimator} {r : Room} {read : RoomOutput → Reading}
    (hread : readRoom est.options.rates est.cache r = .ok (read, cache)) :
    est.ask (.room r) = (.room (.ofReadings est.options.rates r.name read), { est with cache }) := by
  rw [ask, Estimator.room, hread]
  rfl

theorem Estimator.ask_project {est : Estimator} {r : Room} {rooms : List Room}
    {reads : List (String × (RoomOutput → Reading))} {read : ProjectOutput → Reading}
    (hreads : readRooms est.options.rates est.cache (r :: rooms) = .ok (reads, cache))
    (hread : readProject est.options.rates cache
      (reads.map fun r => RoomEstimate.rowOfReadings est.options.rates r.1 r.2) = .ok (read, cache')) :
    est.ask (.project (r :: rooms)) =
      (.project (.ofReadings est.options.rates
        (reads.map fun r => RoomEstimate.ofReadings est.options.rates r.1 r.2) read),
        { est with cache := cache' }) := by
  rw [ask, Estimator.project, if_neg (by simp)]
  simp only [Except.mapError, bind, Except.bind, hreads, hread]

/-! ## Caches that give evaluations their outcomes -/

/-- There is no cache, or one that gives evaluations their outcomes. -/
def Settles (cache : Option ResultCache) (xs : List Evaluation) : Prop :=
  ∀ c ∈ cache, c.Serves (xs.map Evaluation.entry)

theorem Settles.run {page : Page} {rest : List Evaluation}
    (h : Settles cache (page.evaluations base ++ rest)) :
    ∃ e cache', (page.engine base).run cache page.outputs = (e, cache') ∧
      e.Same (page.evaluated base) ∧ Settles cache' rest := by
  cases cache with
  | none =>
      have hrun : (page.engine base).run none page.outputs = (page.evaluated base, none) :=
        Prod.ext rfl (act_without _ (.evaluateAll page.outputs))
      exact ⟨_, none, hrun, .refl _, nofun⟩
  | some c =>
      have hserves := h c rfl
      rw [List.map_append, ResultCache.serves_append] at hserves
      obtain ⟨e, hact, hsame⟩ := (Same.refl (page.engine base)).act (.evaluateAll page.outputs) hserves.1
      refine ⟨e, _, hact, hsame, ?_⟩
      rintro c' ⟨⟩
      exact hserves.2

section

variable (hbase : ratesEngine rates = .ok base)
include hbase

theorem Settles.readRoom {r : Room} {rest : List Evaluation}
    (h : Settles cache ((Page.room r).evaluations base ++ rest)) :
    ∃ cache', readRoom rates cache r = .ok (freshReadings base r, cache') ∧ Settles cache' rest := by
  obtain ⟨e, cache', hrun, hsame, hrest⟩ := h.run
  have hreadings : roomReadings r.name e = freshReadings base r := by
    funext o
    rw [roomReadings, hsame.shown]
    rfl
  exact ⟨cache', hreadings ▸ readRoom_eq hbase hrun, hrest⟩

theorem Settles.readRooms (rooms : List Room) :
    ∀ {cache : Option ResultCache} {rest : List Evaluation},
      Settles cache ((rooms.map Page.room).flatMap (·.evaluations base) ++ rest) →
        ∃ cache', readRooms rates cache rooms =
          .ok (rooms.map fun r => (r.name, freshReadings base r), cache') ∧ Settles cache' rest := by
  induction rooms with
  | nil => exact fun h => ⟨_, rfl, h⟩
  | cons r rooms ih =>
      intro cache rest h
      rw [List.map_cons, List.flatMap_cons, List.append_assoc] at h
      obtain ⟨cache₁, hroom, hrest⟩ := h.readRoom hbase
      obtain ⟨cache₂, hrooms, hrest⟩ := ih hrest
      refine ⟨cache₂, ?_, hrest⟩
      rw [Estimate.readRooms, hroom]
      simp only [bind, Except.bind, hrooms]
      rfl

theorem Settles.readProject {rows : List ProjectRow} {rest : List Evaluation}
    (h : Settles cache ((Page.project rows).evaluations base ++ rest)) :
    ∃ cache', readProject rates cache rows =
      .ok (projectReadings ((Page.project rows).evaluated base), cache') ∧ Settles cache' rest := by
  obtain ⟨e, cache', hrun, hsame, hrest⟩ := h.run
  have hreadings : projectReadings e = projectReadings ((Page.project rows).evaluated base) := by
    funext o
    rw [projectReadings, projectReadings, hsame.shown]
  exact ⟨cache', hreadings ▸ readProject_eq hbase hrun, hrest⟩

/-- An estimator replies as without a cache if its cache gives the evaluations their outcomes. -/
theorem Settles.ask {est : Estimator} (hrates : est.options.rates = rates) {inquiry : Inquiry}
    {rest : List Evaluation} (h : Settles est.cache (inquiry.evaluations rates base ++ rest)) :
    ∃ cache', est.ask inquiry = (inquiry.fresh rates base, { est with cache := cache' }) ∧
      Settles cache' rest := by
  subst hrates
  cases inquiry with
  | room r =>
      rw [Inquiry.evaluations, Inquiry.pages, List.flatMap_singleton] at h
      obtain ⟨cache', hread, hrest⟩ := h.readRoom hbase
      exact ⟨cache', Estimator.ask_room hread, hrest⟩
  | project rooms =>
      cases rooms with
      | nil => exact ⟨est.cache, rfl, h⟩
      | cons r rooms =>
          have hpages : Inquiry.pages est.options.rates base (.project (r :: rooms)) =
              (r :: rooms).map .room ++ [freshPage est.options.rates base (r :: rooms)] := rfl
          rw [Inquiry.evaluations, hpages, List.flatMap_append, List.flatMap_singleton,
            List.append_assoc] at h
          obtain ⟨cache₁, hreads, hrest⟩ := Settles.readRooms hbase (r :: rooms) h
          obtain ⟨cache₂, hread, hrest⟩ := hrest.readProject hbase
          have hask := Estimator.ask_project hreads (by rw [List.map_map]; exact hread)
          rw [List.map_map] at hask
          exact ⟨cache₂, hask, hrest⟩

end

/-! ## Pages of like rows -/

namespace Layout

/-- Two contents agree. -/
abbrev SameContent (c c' : Content) : Prop := c.agrees c' = true

theorem table_writes (sheet : SheetName) (start : Address) {rows rows' : List (List Content)}
    (h : List.Forall₂ (List.Forall₂ SameContent) rows rows') :
    List.Forall₂ Workbook.Akin.Writes (table sheet start rows) (table sheet start rows') := by
  refine List.rel_flatMap (Functions.zipIdx_forall₂ h 0) ?_
  rintro ⟨items, i⟩ ⟨items', i'⟩ ⟨hitems, rfl⟩
  refine List.forall₂_map_left_iff.2 (List.forall₂_map_right_iff.2 ?_)
  refine (Functions.zipIdx_forall₂ hitems 0).imp ?_
  rintro ⟨c, j⟩ ⟨c', j'⟩ ⟨hc, rfl⟩
  exact ⟨rfl, hc⟩

theorem sameContents_self (contents : List Content) : List.Forall₂ SameContent contents contents :=
  List.forall₂_same.2 fun c _ => c.agrees_self

theorem column_writes (sheet : SheetName) (start : Address) {contents contents' : List Content}
    (h : List.Forall₂ SameContent contents contents') :
    List.Forall₂ Workbook.Akin.Writes (column sheet start contents) (column sheet start contents') := by
  refine table_writes sheet start (List.forall₂_map_left_iff.2 (List.forall₂_map_right_iff.2 ?_))
  exact h.imp fun _ _ hc => .cons hc .nil

theorem rowContents_same {r r' : ProjectRow} (h : r.Like r') :
    List.Forall₂ SameContent (rowContents r) (rowContents r') := by
  have hliteral : ∀ v v' : CellValue, v.Like v' → SameContent (.literal v) (.literal v') :=
    fun _ _ => CellValue.like_iff.1
  refine .cons ?_ (.cons (hliteral _ _ h.area) (.cons (hliteral _ _ h.gallons)
    (.cons (hliteral _ _ h.hours) ?_)))
  · rw [h.name]
    exact Content.agrees_self _
  · exact List.forall₂_map_left_iff.2 (List.forall₂_map_right_iff.2 (h.price.toList.imp hliteral))

theorem projectEntries_writes {rows rows' : List ProjectRow} (h : List.Forall₂ ProjectRow.Like rows rows') :
    List.Forall₂ Workbook.Akin.Writes (projectEntries rows) (projectEntries rows') := by
  rw [projectEntries, projectEntries, h.length_eq]
  refine List.rel_append (table_writes _ _ (.cons (sameContents_self _) ?_))
    (column_writes _ _ (sameContents_self _))
  exact List.forall₂_map_left_iff.2 (List.forall₂_map_right_iff.2 (h.imp fun _ _ => rowContents_same))

end Layout

/-- Pages with entries that agree make workbooks that agree. -/
theorem Page.engine_akin (base : Engine) {page page' : Page}
    (h : List.Forall₂ Workbook.Akin.Writes page.entries page'.entries) :
    (page.engine base).workbook.Akin (page'.engine base).workbook := by
  rw [engine, engine, load_workbook, load_workbook]
  exact .load h (.refl _)

/-! ## Caches that remember evaluations of pages -/

/-- The outcomes that a cache holds are those of evaluations of pages, up to the form of a number. -/
def Keeps (base : Engine) (c : ResultCache) : Prop :=
  ∃ done, c.Remembers done ∧ ∀ x ∈ done, Page.Drawn base x

section

variable {c : ResultCache} (hbare : Bare base)
include hbare

/-- Pages whose contents agree come to like outcomes, one with the cache and one without. -/
theorem Keeps.run (page page' : Page)
    (hpages : (page.engine base).workbook.Akin (page'.engine base).workbook)
    (houtputs : page.outputs = page'.outputs) (h : Keeps base c) :
    ∃ e c', (page.engine base).run (some c) page.outputs = (e, some c') ∧
      (∀ k, (e.shown k).Like ((page'.evaluated base).shown k)) ∧ Keeps base c' := by
  obtain ⟨done, hremembers, hdrawn⟩ := h
  have hdrawn' : ∀ x ∈ done ++ page'.evaluations base, Page.Drawn base x := by
    intro x hx
    rcases List.mem_append.1 hx with hx | hx
    · exact hdrawn x hx
    · exact ⟨page', hx⟩
  have hakin := (page.engine_unread hbare).akin (page'.engine_unread hbare) Outcome.Like hpages
  obtain ⟨e, c', hrun, hakin, hremembers⟩ :=
    hakin.run page'.outputs hremembers (Page.uniform_of_drawn hbare hdrawn')
  exact ⟨e, c', houtputs ▸ hrun, hakin.shown, _, hremembers, hdrawn'⟩

end

section

variable {c : ResultCache} (hbase : ratesEngine rates = .ok base)
include hbase

theorem Keeps.readRoom (r : Room) (h : Keeps base c) :
    ∃ read c', readRoom rates (some c) r = .ok (read, some c') ∧
      (∀ o, (read o).Like (freshReadings base r o)) ∧ Keeps base c' := by
  obtain ⟨e, c', hrun, hshown, hc'⟩ := h.run (bare_of_ratesEngine hbase) (.room r) (.room r) (.refl _) rfl
  exact ⟨_, c', readRoom_eq hbase hrun, fun o => .ofOutcome (hshown o.key) _ _ _, hc'⟩

/-- What was read off the sheet of a room is like what is read without a cache. -/
def ReadsLike (base : Engine) (read : String × (RoomOutput → Reading)) (r : Room) : Prop :=
  read.1 = r.name ∧ ∀ o, (read.2 o).Like (freshReadings base r o)

theorem Keeps.readRooms (rooms : List Room) : ∀ {c : ResultCache}, Keeps base c →
    ∃ reads c', readRooms rates (some c) rooms = .ok (reads, some c') ∧
      List.Forall₂ (ReadsLike base) reads rooms ∧ Keeps base c' := by
  induction rooms with
  | nil => exact fun h => ⟨[], _, rfl, .nil, h⟩
  | cons r rooms ih =>
      intro c h
      obtain ⟨read, c₁, hroom, hread, h⟩ := h.readRoom hbase r
      obtain ⟨reads, c₂, hrooms, hreads, h⟩ := ih h
      refine ⟨(r.name, read) :: reads, c₂, ?_, .cons ⟨rfl, hread⟩ hreads, h⟩
      rw [Estimate.readRooms, hroom]
      simp only [bind, Except.bind, hrooms]

theorem Keeps.readProject {rows rows' : List ProjectRow} (hrows : List.Forall₂ ProjectRow.Like rows rows')
    (h : Keeps base c) : ∃ read c', readProject rates (some c) rows = .ok (read, some c') ∧
      (∀ o, (read o).Like (projectReadings ((Page.project rows').evaluated base) o)) ∧
      Keeps base c' := by
  obtain ⟨e, c', hrun, hshown, hc'⟩ := h.run (bare_of_ratesEngine hbase) (.project rows) (.project rows')
    (Page.engine_akin base (Layout.projectEntries_writes hrows)) rfl
  exact ⟨_, c', readProject_eq hbase hrun, fun o => .ofOutcome (hshown o.key) _ _ _, hc'⟩

end

end

/-! ## Replies -/

/-- Two replies are equal but for the form of their numbers. -/
inductive Reply.Like : Reply → Reply → Prop where
  /-- Estimates of a room. -/
  | room {e e' : RoomEstimate} : e.Like e' → Like (.room e) (.room e')
  /-- Estimates of a project. -/
  | project {e e' : ProjectEstimate} : e.Like e' → Like (.project e) (.project e')
  /-- One error. -/
  | failed (error : EstimateError) : Like (.failed error) (.failed error)

section

variable {rates : Rates} {base : Engine} (hbase : ratesEngine rates = .ok base)
include hbase

theorem Keeps.ask {est : Estimator} {c : ResultCache} (hrates : est.options.rates = rates)
    (hcache : est.cache = some c) (h : Keeps base c) (inquiry : Inquiry) :
    ∃ reply c', est.ask inquiry = (reply, { est with cache := some c' }) ∧
      reply.Like (inquiry.fresh rates base) ∧ Keeps base c' := by
  subst hrates
  cases inquiry with
  | room r =>
      obtain ⟨read, c', hread, hlike, h⟩ := h.readRoom hbase r
      rw [← hcache] at hread
      exact ⟨_, c', Estimator.ask_room hread, .room (.ofReadings _ hlike _), h⟩
  | project rooms =>
      cases rooms with
      | nil => exact ⟨_, c, by rw [← hcache]; rfl, .failed .noRooms, h⟩
      | cons r rooms =>
          obtain ⟨reads, c₁, hreads, hlikes, h⟩ := Keeps.readRooms hbase (r :: rooms) h
          have hrows : List.Forall₂ ProjectRow.Like
              (reads.map fun r => RoomEstimate.rowOfReadings est.options.rates r.1 r.2)
              ((r :: rooms).map fun r =>
                RoomEstimate.rowOfReadings est.options.rates r.name (freshReadings base r)) := by
            refine List.forall₂_map_left_iff.2 (List.forall₂_map_right_iff.2 (hlikes.imp ?_))
            rintro ⟨name, read⟩ r ⟨rfl, hread⟩
            exact .ofReadings _ hread _
          have hestimates : List.Forall₂ RoomEstimate.Like
              (reads.map fun r => RoomEstimate.ofReadings est.options.rates r.1 r.2)
              ((r :: rooms).map (freshRoom est.options.rates base)) := by
            refine List.forall₂_map_left_iff.2 (List.forall₂_map_right_iff.2 (hlikes.imp ?_))
            rintro ⟨name, read⟩ r ⟨rfl, hread⟩
            exact .ofReadings _ hread _
          obtain ⟨read, c₂, hread, hlike, h⟩ := h.readProject hbase hrows
          rw [← hcache] at hreads
          exact ⟨_, c₂, Estimator.ask_project hreads hread, .project (.ofReadings _ hestimates hlike), h⟩

theorem Keeps.replies (inquiries : List Inquiry) : ∀ {est : Estimator} {c : ResultCache},
    est.options.rates = rates → est.cache = some c → Keeps base c →
      List.Forall₂ Reply.Like (est.replies inquiries) (inquiries.map (·.fresh rates base)) := by
  induction inquiries with
  | nil => exact fun _ _ _ => .nil
  | cons inquiry inquiries ih =>
      intro est c hrates hcache h
      obtain ⟨reply, c', hask, hlike, h⟩ := h.ask hbase hrates hcache inquiry
      rw [Estimator.replies, hask, List.map_cons]
      exact .cons hlike (ih hrates rfl h)

theorem Settles.replies (inquiries : List Inquiry) : ∀ {est : Estimator}, est.options.rates = rates →
    Settles est.cache (inquiries.flatMap (·.evaluations rates base)) →
      est.replies inquiries = inquiries.map (·.fresh rates base) := by
  induction inquiries with
  | nil => exact fun _ _ => rfl
  | cons inquiry inquiries ih =>
      intro est hrates h
      rw [List.flatMap_cons] at h
      obtain ⟨cache, hask, hrest⟩ := h.ask hbase hrates
      rw [Estimator.replies, hask, List.map_cons, @ih { est with cache } hrates hrest]

end

/-- Why an inquiry fails if the rates do not fit on their sheet. -/
def Inquiry.refusal (error : ReferenceError) : Inquiry → EstimateError
  | room _ => .reference error
  | project rooms => if rooms.isEmpty then .noRooms else .reference error

section

variable {est : Estimator} {error : ReferenceError}
  (herror : ratesEngine est.options.rates = .error error)
include herror

theorem Estimator.ask_of_error (inquiry : Inquiry) :
    est.ask inquiry = (.failed (inquiry.refusal error), est) := by
  have hroom : ∀ r, readRoom est.options.rates est.cache r = .error error := by
    intro r
    rw [readRoom, roomEngine, herror]
    rfl
  cases inquiry with
  | room r =>
      rw [ask, Estimator.room, hroom]
      rfl
  | project rooms =>
      cases rooms with
      | nil => rfl
      | cons r rooms =>
          rw [ask, Estimator.project, if_neg (by simp)]
          simp only [Estimate.readRooms, hroom, Except.mapError, bind, Except.bind]
          rfl

theorem Estimator.replies_of_error (inquiries : List Inquiry) :
    est.replies inquiries = inquiries.map fun i => .failed (i.refusal error) := by
  induction inquiries with
  | nil => rfl
  | cons inquiry inquiries ih => rw [replies, ask_of_error herror, ih, List.map_cons]

end

end Estimate

end PaintQuote
