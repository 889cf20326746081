/-
# TeiidSyndesis.Server.ConcurrentSaves — transactions on views that run side by side.

Any number of clients save, import and remove views.  A transaction reads the committed tables one
query at a time and works on the entities it has loaded; its changes reach the tables when it is
committed, all at once.  Between any two of its steps other clients may commit.

A commit writes the entities that have changed, each with the condition that its row still has the
version that was loaded, and raises an exception where one has not.  An entity that is as it was
loaded is not written, and its version is not looked at.

Main results:
* `stepped_of_next` — the inversion of a step;
* `flushed_flush`, `Flushed.follows` — what one commit makes of the rows, and that their versions follow;
* `flushed_of_next`, `follows_of_run` — so of every step, and of every run;
* `view_of_version` — in a run a version of a view is the view;
* `upsert_serial`, `remove_serial` — transactions with nothing in between are the operations.
-/
import Mathlib.Logic.Function.Basic
import TeiidSyndesis.Library.Transition
import TeiidSyndesis.Library.Versions
import TeiidSyndesis.Server.DataVirtualizationService

namespace TeiidSyndesis.Server

open TeiidSyndesis.Library TeiidSyndesis.Model TeiidSyndesis.Repository

namespace Clients

/-! ## The entities of a transaction -/

/-- The persistence context of a transaction, with what is to be written at its end. -/
structure Work where
  /-- views that were loaded: each as it was loaded, and as it is now -/
  loaded : List (ViewDefinition × ViewDefinition) := []
  /-- views that were made: each as it was persisted, and as it is now -/
  made : List (ViewDefinition × ViewDefinition) := []
  /-- views that were loaded and are to be deleted -/
  removed : List ViewDefinition := []
  /-- the virtualization that is touched, as it was loaded -/
  touched : Option DataVirtualization := none
  deriving DecidableEq, Repr

namespace Work

/-- A row that a query returns; an entity that was loaded before is returned as it is now. -/
def managed (work : Work) (row : ViewDefinition) : ViewDefinition × ViewDefinition :=
  (work.loaded.find? (·.1.id = row.id)).getD (row, row)

/-- A change of a managed entity. -/
def change (work : Work) (loaded viewDefn : ViewDefinition) : Work :=
  { work with loaded := work.loaded.filter (·.1.id ≠ loaded.id) ++ [(loaded, viewDefn)] }

/-- The row of a loaded view still has the version that was loaded. -/
def viewIsCurrent (store : Store) (loaded : ViewDefinition) : Bool :=
  store.views.any fun row => row.id = loaded.id ∧ row.version = loaded.version

/-- The row still has the version that was loaded. -/
def virtualizationIsCurrent (store : Store) (loaded : DataVirtualization) : Bool :=
  store.virtualizations.any fun row => row.id = loaded.id ∧ row.version = loaded.version

/-- All that is to be written is still as it was loaded. -/
def isCurrent (work : Work) (store : Store) : Bool :=
  (work.loaded.all fun pair => pair.2 = pair.1 || viewIsCurrent store pair.1) &&
    work.removed.all (viewIsCurrent store) && work.touched.all (virtualizationIsCurrent store)

/-- The row of a loaded view, written if the view has changed. -/
def flushView (store : Store) (pair : ViewDefinition × ViewDefinition) : Store :=
  if pair.2 = pair.1 then store
  else
    store.writeViewDefinition
      { pair.2 with id := pair.1.id, version := pair.1.version.map (· + 1) }

/-- The row of a new view, which gets its identifier, and is written again if the view has changed. -/
def insertView (store : Store) (pair : ViewDefinition × ViewDefinition) : Store :=
  let row := store.persisted pair.1
  (store.persist pair.1).writeViewDefinition
    (Store.flushed row { pair.2 with id := row.id, version := row.version })

/-- A view that is removed takes its row. -/
def deleteView (store : Store) (vd : ViewDefinition) : Store :=
  { store with views := store.views.filter (·.id ≠ vd.id) }

/-- Touching a virtualization moves its version on. -/
def touchVirtualization (store : Store) : Option DataVirtualization → Store
  | none => store
  | some dv => store.writeDataVirtualization { dv with version := dv.version + 1 }

/-- The tables after the flush. -/
def flush (work : Work) (store : Store) : Store :=
  touchVirtualization
    (work.removed.foldl deleteView (work.loaded.foldl flushView (work.made.foldl insertView store)))
    work.touched

end Work

/-! ## Reading -/

/-- What a client asks for. -/
inductive Request
  | upsertViewEditorState (finder : SchemaFinder) (restViewDefn : ViewDefinition)
  | importViews (finder : SchemaFinder) (virtualization teiidSourceName : String)
      (tables : List String)
  | removeViewDefinition (id : Nat)

/-- The queries a transaction has still to run. -/
inductive Reads
  | none
  /-- `findDataVirtualization`, to touch what it finds -/
  | virtualization (name : String)
  /-- the loop of `importViews` over the names of tables -/
  | tables (s : Schema) (names : List String)
  deriving DecidableEq, Repr

/-- What raises an exception before anything is written, or at the commit. -/
inductive Raised
  | failure (failure : Failure)
  | optimisticLockingFailure
  deriving DecidableEq, Repr

/-- `upsertViewEditorState` up to where it reads the virtualization.  The one query it has run is that
for the view. -/
def beginUpsert (teiid : Teiid) (finder : SchemaFinder) (store : Store)
    (restViewDefn : ViewDefinition) : Except Failure (Work × Reads) := do
  let found ← findPersistent teiid store restViewDefn
  let (_, viewDefn) ← viewToUpdate store restViewDefn found
  let (updated, updateDv) ← updateView teiid finder viewDefn restViewDefn found.isNone
  let reads := if updateDv then .virtualization updated.dataVirtualizationName else .none
  match found with
  | none => pure ({ made := [(viewDefn, updated)] }, reads)
  | some _ => pure ({ loaded := [(viewDefn, updated)] }, reads)

/-- `importViews` up to its loop.  The virtualization is loaded first and touched last. -/
def beginImport (finder : SchemaFinder) (store : Store) (virtualization teiidSourceName : String)
    (tables : List String) : Except Failure (Work × Reads) := do
  match store.findDataVirtualization virtualization with
  | none => .error (.notFound virtualization)
  | some dataservice =>
      match ← finder.findSchema teiidSourceName with
      | none => .error (.notFound teiidSourceName)
      | some s => pure ({ touched := some dataservice }, .tables s tables)

/-- A removal looks for its view. -/
def beginRemove (store : Store) (id : Nat) : Except Failure (Work × Reads) :=
  match store.findViewDefinition id with
  | none => .error (.notFound (toString id))
  | some vd =>
      let reads :=
        if vd.complete && vd.parsable then Reads.virtualization vd.dataVirtualizationName else .none
      .ok ({ removed := [vd] }, reads)

/-- A transaction begins with its first query. -/
def begin (teiid : Teiid) (store : Store) : Request → Except Failure (Work × Reads)
  | .upsertViewEditorState finder restViewDefn => beginUpsert teiid finder store restViewDefn
  | .importViews finder virtualization teiidSourceName tables =>
      beginImport finder store virtualization teiidSourceName tables
  | .removeViewDefinition id => beginRemove store id

/-- One round of the loop of `importViews`. -/
def readTable (teiid : Teiid) (finder : SchemaFinder) (virtualization teiidSourceName : String)
    (s : Schema) (name : String) (store : Store) (work : Work) : Except Failure Work :=
  match s.getTable teiid name with
  | none => .ok work
  | some t =>
      match store.findViewDefinitionByNameIgnoreCase teiid virtualization name with
      | some row =>
          let viewDefn := (work.managed row).2
          if !teiid.equalsIgnoreCase name viewDefn.name then
            .error (.assertionError "imported view name conflicts with an existing view name")
          else do
            let updated ← importedView teiid finder teiidSourceName t
              { viewDefn with
                sourcePaths := []
                userDefined := false
                ddl := none
                description := none }
            pure (work.change (work.managed row).1 updated)
      | none => do
          let created ← importedView teiid finder teiidSourceName t
            { name := name, dataVirtualizationName := virtualization }
          pure { work with made := work.made ++ [(created, created)] }

/-- The next query of a transaction and what follows from its answer. -/
def readNext (teiid : Teiid) (store : Store) (request : Request) (work : Work) :
    Reads → Except Failure (Work × Reads)
  | .none => .ok (work, .none)
  | .virtualization name =>
      match store.findDataVirtualization name with
      | none => .error (.nullPointer "dv")
      | some dv => .ok ({ work with touched := some dv }, .none)
  | .tables _ [] => .ok (work, .none)
  | .tables s (name :: names) =>
      match request with
      | .importViews finder virtualization teiidSourceName _ => do
          let work ← readTable teiid finder virtualization teiidSourceName s name store work
          pure (work, .tables s names)
      | _ => .ok (work, .none)

/-! ## Clients -/

/-- A client: it waits, or its transaction is open, or its request has come to an end. -/
inductive Session
  | idle
  | running (request : Request) (work : Work) (reads : Reads)
  | returned (request : Request)
  | raised (request : Request) (exception : Raised)

end Clients

/-- The committed tables and the clients. -/
structure Clients (κ : Type) (teiid : Teiid) where
  db : Database teiid
  sessions : κ → Clients.Session

namespace Clients

variable {κ : Type} [DecidableEq κ] {teiid : Teiid}

/-- The client gets on. -/
def put (s : Clients κ teiid) (client : κ) (session : Session) : Clients κ teiid :=
  { s with sessions := Function.update s.sessions client session }

/-- Whose step is next, and which. -/
inductive Label (κ : Type)
  | begin (client : κ) (request : Request)
  | read (client : κ)
  | commit (client : κ)

/-- The session of a request after a query, which may have raised an exception. -/
def opened (request : Request) : Except Failure (Work × Reads) → Session
  | .ok (work, reads) => .running request work reads
  | .error failure => .raised request (.failure failure)

/-- The end of a transaction. -/
def commitWork (work : Work) (db : Database teiid) : Except Raised (Database teiid) :=
  if work.isCurrent db.store then
    match commit teiid (work.flush db.store) with
    | .ok db => .ok db
    | .error failure => .error (.failure failure)
  else .error .optimisticLockingFailure

/-- A step of a client; the other clients and, but for a commit, the tables stay as they are. -/
def next (s : Clients κ teiid) : Label κ → Option (Clients κ teiid)
  | .begin client request =>
      match s.sessions client with
      | .running _ _ _ => none
      | _ => some (s.put client (opened request (begin teiid s.db.store request)))
  | .read client =>
      match s.sessions client with
      | .running _ _ .none => none
      | .running request work reads =>
          some (s.put client (opened request (readNext teiid s.db.store request work reads)))
      | _ => none
  | .commit client =>
      match s.sessions client with
      | .running request work .none =>
          match commitWork work s.db with
          | .ok db => some ({ s with db := db }.put client (.returned request))
          | .error exception => some (s.put client (.raised request exception))
      | _ => none

/-- No transaction is open, and every row of a view has a version. -/
def Initial (s : Clients κ teiid) : Prop :=
  (∀ client, s.sessions client = .idle) ∧ ∀ view ∈ s.db.store.views, view.version.isSome

/-- Runs of the clients. -/
def system (κ : Type) [DecidableEq κ] (teiid : Teiid) : System (Clients κ teiid) (Label κ) :=
  .ofNext Initial next

/-! ## What a step does -/

/-- The ways a step ends. -/
inductive Stepped (s : Clients κ teiid) : Label κ → Clients κ teiid → Prop
  | begun (client : κ) (request : Request) :
      Stepped s (.begin client request) (s.put client (opened request (begin teiid s.db.store request)))
  | read {client : κ} {request : Request} {work : Work} {reads : Reads} :
      s.sessions client = .running request work reads →
      Stepped s (.read client)
        (s.put client (opened request (readNext teiid s.db.store request work reads)))
  | committed {client : κ} {request : Request} {work : Work} {db : Database teiid} :
      s.sessions client = .running request work .none → commitWork work s.db = .ok db →
      Stepped s (.commit client) ({ s with db := db }.put client (.returned request))
  | refused {client : κ} {request : Request} {work : Work} {exception : Raised} :
      s.sessions client = .running request work .none → commitWork work s.db = .error exception →
      Stepped s (.commit client) (s.put client (.raised request exception))

/-- Every step is one of these. -/
theorem stepped_of_next {s t : Clients κ teiid} {label : Label κ} (h : next s label = some t) :
    Stepped s label t := by
  unfold next at h
  cases label with
  | begin client request =>
      dsimp only at h
      split at h
      · cases h
      · obtain rfl := Option.some.inj h
        exact .begun client request
  | read client =>
      dsimp only at h
      split at h
      · cases h
      · rename_i hsession
        obtain rfl := Option.some.inj h
        exact .read hsession
      · cases h
  | commit client =>
      dsimp only at h
      split at h
      · rename_i hsession
        split at h
        · rename_i hcommit
          obtain rfl := Option.some.inj h
          exact .committed hsession hcommit
        · rename_i hcommit
          obtain rfl := Option.some.inj h
          exact .refused hsession hcommit
      · cases h

/-- A client's session is the one that was put. -/
@[simp]
theorem sessions_put_self (s : Clients κ teiid) (client : κ) (session : Session) :
    (s.put client session).sessions client = session := by
  show Function.update s.sessions client session client = session
  rw [Function.update_self]

/-- The others keep theirs. -/
theorem sessions_put_of_ne (s : Clients κ teiid) {client other : κ} (session : Session)
    (h : other ≠ client) : (s.put client session).sessions other = s.sessions other := by
  show Function.update s.sessions client session other = s.sessions other
  rw [Function.update_of_ne h]

@[simp]
theorem db_put (s : Clients κ teiid) (client : κ) (session : Session) :
    (s.put client session).db = s.db := rfl

/-! ## The versions of views -/

/-- The rows of the views, with the identifiers drawn so far. -/
def viewRows (store : Store) : KeyedRows ViewDefinition (Option Nat) where
  rows := store.views
  drawn id := ∀ n ∈ id, n < store.nextId

/-- The version of a row; one that has none counts as the lowest. -/
def rowVersion (view : ViewDefinition) : Nat := view.version.getD 0

/-- Views are keyed by id. -/
theorem wellKeyed_viewRows (db : Database teiid) :
    (viewRows db.store).WellKeyed ViewDefinition.id :=
  ⟨db.consistent.ids, db.consistent.drawn⟩

/-- Every row of a view has a version. -/
def Versioned (store : Store) : Prop := ∀ view ∈ store.views, view.version.isSome

/-- What a flush has made of the views of `store` so far. -/
structure Flushed (store store' : Store) : Prop where
  rows : ∀ row ∈ store'.views, (viewRows store).Succeeds ViewDefinition.id rowVersion row
  versioned : Versioned store'
  nextId : store.nextId ≤ store'.nextId

/-- The next id was not drawn. -/
theorem not_drawn_nextId {store store' : Store} (h : store.nextId ≤ store'.nextId) :
    ¬(viewRows store).drawn (some store'.nextId) := by
  intro hdrawn
  have hlt := hdrawn store'.nextId rfl
  omega

section

variable {store store' : Store}

/-- Nothing written is a flush. -/
theorem Flushed.refl (h : Versioned store) : Flushed store store :=
  ⟨fun _ hrow => .inl hrow, h, le_refl _⟩

/-- Writing a view moves its version on by one. -/
theorem Flushed.write (h : Flushed store store') {view : ViewDefinition}
    (hview : (viewRows store).Succeeds ViewDefinition.id rowVersion view)
    (hversion : view.version.isSome) : Flushed store (store'.writeViewDefinition view) := by
  refine ⟨KeyedRows.succeeds_writeRow h.rows hview, ?_, h.nextId⟩
  intro row hrow
  rcases mem_writeRow hrow with rfl | ⟨hrow, _⟩
  · exact hversion
  · exact h.versioned row hrow

/-- A new view has an identifier of its own. -/
theorem Flushed.insertView (h : Flushed store store') (pair : ViewDefinition × ViewDefinition) :
    Flushed store (Work.insertView store' pair) := by
  have hnew := not_drawn_nextId h.nextId
  have hpersisted : Flushed store (store'.persist pair.1) := by
    refine ⟨KeyedRows.succeeds_concat h.rows (.inr (.inr hnew)), ?_, Nat.le_succ_of_le h.nextId⟩
    intro row hrow
    rcases List.mem_append.mp hrow with hrow | hrow
    · exact h.versioned row hrow
    · obtain rfl := List.mem_singleton.mp hrow
      rfl
  unfold Work.insertView
  dsimp only
  rcases Store.flushed_eq_or (store'.persisted pair.1)
    { pair.2 with id := (store'.persisted pair.1).id, version := (store'.persisted pair.1).version }
    with heq | heq
  · rw [heq]
    exact hpersisted.write (.inr (.inr hnew)) rfl
  · rw [heq]
    exact hpersisted.write (.inr (.inr hnew)) rfl

/-- A loaded view is written only over the version that was loaded, and raises it. -/
theorem Flushed.flushView (h : Flushed store store') (hversions : Versioned store)
    {pair : ViewDefinition × ViewDefinition}
    (hcurrent : pair.2 = pair.1 ∨ Work.viewIsCurrent store pair.1 = true) :
    Flushed store (Work.flushView store' pair) := by
  unfold Work.flushView
  split
  · exact h
  · rename_i hne
    rcases hcurrent with heq | hcurrent
    · exact absurd heq hne
    · unfold Work.viewIsCurrent at hcurrent
      rw [List.any_eq_true] at hcurrent
      obtain ⟨row, hrow, hsame⟩ := hcurrent
      obtain ⟨hid, hversion⟩ := of_decide_eq_true hsame
      obtain ⟨n, hn⟩ := Option.isSome_iff_exists.mp (hversions row hrow)
      rw [hn] at hversion
      refine h.write (.inr (.inl ⟨row, hrow, hid, ?_⟩)) ?_
      · show row.version.getD 0 < (pair.1.version.map (· + 1)).getD 0
        rw [← hversion, hn]
        show n < n + 1
        omega
      · show (pair.1.version.map (· + 1)).isSome
        rw [← hversion]
        rfl

/-- Deleting a row leaves the versions of the others. -/
theorem Flushed.deleteView (h : Flushed store store') (vd : ViewDefinition) :
    Flushed store (Work.deleteView store' vd) :=
  ⟨fun row hrow => h.rows row (List.mem_of_mem_filter hrow),
    fun row hrow => h.versioned row (List.mem_of_mem_filter hrow), h.nextId⟩

/-- Touching a virtualization writes no view. -/
theorem Flushed.touchVirtualization (h : Flushed store store') (dv : Option DataVirtualization) :
    Flushed store (Work.touchVirtualization store' dv) := by
  cases dv with
  | none => exact h
  | some dv => exact ⟨h.rows, h.versioned, h.nextId⟩

/-- What holds before a loop over entities and is kept by each of its rounds holds after it. -/
theorem Flushed.foldl {α : Type} {f : Store → α → Store} {entities : List α}
    (hf : ∀ mid, ∀ entity ∈ entities, Flushed store mid → Flushed store (f mid entity))
    (h : Flushed store store') : Flushed store (entities.foldl f store') := by
  induction entities generalizing store' with
  | nil => exact h
  | cons entity entities ih =>
      refine ih ?_ (hf store' entity List.mem_cons_self h)
      exact fun mid other hother => hf mid other (List.mem_cons_of_mem _ hother)

/-- A commit whose entities are current only moves versions on. -/
theorem flushed_flush {work : Work} (hversions : Versioned store)
    (hcurrent : work.isCurrent store = true) : Flushed store (work.flush store) := by
  unfold Work.isCurrent at hcurrent
  simp only [Bool.and_eq_true, List.all_eq_true, Bool.or_eq_true, decide_eq_true_eq] at hcurrent
  obtain ⟨⟨hloaded, _⟩, _⟩ := hcurrent
  refine Flushed.touchVirtualization ?_ work.touched
  refine Flushed.foldl (fun mid vd _ hmid => hmid.deleteView vd) ?_
  refine Flushed.foldl (fun mid pair hpair hmid => hmid.flushView hversions (hloaded pair hpair)) ?_
  exact Flushed.foldl (fun mid pair _ hmid => hmid.insertView pair) (Flushed.refl hversions)

/-- Rows that are flushed follow those before: a version of a view is never written twice. -/
theorem Flushed.follows (h : Flushed store store') :
    (viewRows store).Follows ViewDefinition.id rowVersion (viewRows store') := by
  refine ⟨h.rows, ?_⟩
  intro id hdrawn n hn
  have hlt := hdrawn n hn
  have hle := h.nextId
  show n < store'.nextId
  omega

end

/-- A commit that goes through is that of the flushed entities, which were all current. -/
theorem commitWork_eq_ok {work : Work} {db db' : Database teiid} :
    commitWork work db = .ok db' ↔
      work.isCurrent db.store = true ∧ db'.store = work.flush db.store := by
  unfold commitWork
  constructor
  · intro h
    split at h
    · rename_i hcurrent
      split at h
      · rename_i hcommit
        cases h
        exact ⟨hcurrent, commit_eq_ok.mp hcommit⟩
      · cases h
    · cases h
  · rintro ⟨hcurrent, hstore⟩
    rw [if_pos hcurrent, commit_eq_ok.mpr hstore]

/-- One step, of any client. -/
theorem flushed_of_next {s t : Clients κ teiid} {label : Label κ} (hversions : Versioned s.db.store)
    (h : next s label = some t) : Flushed s.db.store t.db.store := by
  cases stepped_of_next h with
  | begun client request => exact Flushed.refl hversions
  | read hsession => exact Flushed.refl hversions
  | committed hsession hcommit =>
      obtain ⟨hcurrent, hstore⟩ := commitWork_eq_ok.mp hcommit
      rw [db_put]
      show Flushed s.db.store (Database.store _)
      rw [hstore]
      exact flushed_flush hversions hcurrent
  | refused hsession hcommit => exact Flushed.refl hversions

/-- Any run: the views succeed those it began with. -/
theorem follows_of_run {s t : Clients κ teiid} {tr : List (Clients κ teiid × Label κ)}
    (hversions : Versioned s.db.store) (hrun : (system κ teiid).Run s tr t) :
    Versioned t.db.store ∧
      (viewRows s.db.store).Follows ViewDefinition.id rowVersion (viewRows t.db.store) := by
  induction hrun with
  | nil s => exact ⟨hversions, KeyedRows.Follows.refl _ _ _⟩
  | cons hstep _ ih =>
      have hflushed := flushed_of_next hversions hstep
      obtain ⟨hversions', hfollows⟩ := ih hflushed.versioned
      exact ⟨hversions', hflushed.follows.trans hfollows⟩

/-- The committed view with an identifier. -/
def view (s : Clients κ teiid) (id : Nat) : Option ViewDefinition := s.db.store.findViewDefinition id

omit [DecidableEq κ] in
/-- The view with an id is its row. -/
theorem view_eq_some {s : Clients κ teiid} {id : Nat} {row : ViewDefinition} :
    s.view id = some row ↔ row ∈ s.db.store.views ∧ row.id = some id := by
  unfold view Store.findViewDefinition
  constructor
  · intro h
    exact ⟨List.mem_of_find?_eq_some h, key_of_find? h⟩
  · rintro ⟨hrow, hid⟩
    rw [← hid]
    exact find?_of_mem s.db.consistent.ids hrow

/-- A view that has the version it had before is the view it was before. -/
theorem view_of_version {s t : Clients κ teiid} {tr : List (Clients κ teiid × Label κ)}
    (hversions : Versioned s.db.store) (hrun : (system κ teiid).Run s tr t) {id : Nat}
    {earlier row : ViewDefinition} (hearlier : s.view id = some earlier) (hrow : t.view id = some row)
    (hversion : row.version = earlier.version) : row = earlier := by
  obtain ⟨hmem, hid⟩ := view_eq_some.mp hearlier
  obtain ⟨hmem', hid'⟩ := view_eq_some.mp hrow
  refine (follows_of_run hversions hrun).2.eq_of_version (wellKeyed_viewRows s.db) hmem hmem' ?_ ?_
  · rw [hid, hid']
  · unfold rowVersion
    rw [hversion]

/-! ## Transactions with nothing in between

Where no other client commits between the steps of a transaction, it is the operation on the tables that
the operations run one after another are made of. -/

/-- A row is current. -/
theorem viewIsCurrent_of_mem {store : Store} {view : ViewDefinition} (h : view ∈ store.views) :
    Work.viewIsCurrent store view = true := by
  unfold Work.viewIsCurrent
  rw [List.any_eq_true]
  exact ⟨view, h, by simp⟩

/-- A virtualization that was just found is current. -/
theorem virtualizationIsCurrent_of_find {store : Store} {name : String} {dv : DataVirtualization}
    (h : store.findDataVirtualization name = some dv) :
    Work.virtualizationIsCurrent store dv = true := by
  unfold Work.virtualizationIsCurrent
  rw [List.any_eq_true]
  exact ⟨dv, List.mem_of_find?_eq_some h, by simp⟩

/-- Reading a virtualization finds it. -/
theorem readNext_virtualization_eq_ok {store : Store} {request : Request} {work work' : Work}
    {name : String} {reads : Reads} :
    readNext teiid store request work (.virtualization name) = .ok (work', reads) ↔
      ∃ dv, store.findDataVirtualization name = some dv ∧ work' = { work with touched := some dv } ∧
        reads = .none := by
  unfold readNext
  dsimp only
  constructor
  · intro h
    split at h
    · cases h
    · rename_i dv hfind
      cases h
      exact ⟨dv, hfind, rfl, rfl⟩
  · rintro ⟨dv, hfind, rfl, rfl⟩
    rw [hfind]

/-- The virtualization is read where it is to be touched, and then it is current. -/
theorem touched_of_readNext {store base : Store} {request : Request} {work work' : Work} {name : String}
    {updateDv : Bool} (hbase : base.virtualizations = store.virtualizations) (hwork : work.touched = none)
    (h : readNext teiid store request work (if updateDv then .virtualization name else .none) =
      .ok (work', .none)) :
    ∃ dv, work' = { work with touched := dv } ∧
      dv.all (Work.virtualizationIsCurrent store) = true ∧
      (if updateDv then base.touch name else .ok base) = .ok (Work.touchVirtualization base dv) := by
  cases updateDv with
  | false =>
      cases h
      refine ⟨none, ?_, rfl, rfl⟩
      rw [← hwork]
  | true =>
      obtain ⟨dv, hfind, hwork', _⟩ := readNext_virtualization_eq_ok.mp h
      have hfind' : base.findDataVirtualization name = some dv := by
        unfold Store.findDataVirtualization
        rw [hbase]
        exact hfind
      exact ⟨some dv, hwork', virtualizationIsCurrent_of_find hfind,
        Store.touch_eq_ok.mpr ⟨dv, hfind', rfl⟩⟩

/-- An upsert writes the fields of the request, not those that identify the row. -/
theorem version_of_updateView {finder : SchemaFinder} {viewDefn restViewDefn updated : ViewDefinition}
    {created updateDv : Bool}
    (h : updateView teiid finder viewDefn restViewDefn created = .ok (updated, updateDv)) :
    updated.id = viewDefn.id ∧ updated.version = viewDefn.version := by
  have hupdated := updateView_cases h
  refine ⟨hupdated.frame.1, ?_⟩
  cases hupdated <;> rfl

/-- Writing a view and touching a virtualization can be exchanged. -/
theorem writeViewDefinition_touchVirtualization (store : Store) (dv : Option DataVirtualization)
    (view : ViewDefinition) :
    (Work.touchVirtualization store dv).writeViewDefinition view =
      Work.touchVirtualization (store.writeViewDefinition view) dv := by
  cases dv <;> rfl

/-- A persistent view that was loaded from the tables is flushed into them as it is by one operation. -/
theorem flushView_eq {db : Database teiid} {viewDefn updated : ViewDefinition}
    (hmem : viewDefn ∈ db.store.views) (hid : updated.id = viewDefn.id) :
    Work.flushView db.store (viewDefn, updated) =
      db.store.writeViewDefinition (Store.flushed viewDefn updated) := by
  unfold Work.flushView Store.flushed
  by_cases hchanged : updated = viewDefn
  · rw [if_pos hchanged, if_pos hchanged]
    unfold Store.writeViewDefinition
    rw [writeRow_self db.consistent.ids hmem]
  · rw [if_neg hchanged, if_neg hchanged]
    dsimp only
    rw [← hid]

/-- A new view has the row it gets by one operation. -/
theorem insertView_eq {store : Store} {new updated : ViewDefinition}
    (hid : updated.id = (store.persisted new).id)
    (hversion : updated.version = (store.persisted new).version) :
    Work.insertView store (store.persisted new, updated) =
      (store.persist new).writeViewDefinition (Store.flushed (store.persisted new) updated) := by
  have hupdated : { updated with
      id := (store.persisted new).id, version := (store.persisted new).version } = updated := by
    rw [← hid, ← hversion]
  show (store.persist new).writeViewDefinition (Store.flushed (store.persisted new)
    { updated with id := (store.persisted new).id, version := (store.persisted new).version }) = _
  rw [hupdated]

/-- A save with nothing in between is `upsertViewEditorState`. -/
theorem upsert_serial {db : Database teiid} {finder : SchemaFinder} {restViewDefn : ViewDefinition}
    {work work' : Work} {reads : Reads}
    (hbegin : beginUpsert teiid finder db.store restViewDefn = .ok (work, reads))
    (hread : readNext teiid db.store (.upsertViewEditorState finder restViewDefn) work reads =
      .ok (work', .none)) :
    work'.isCurrent db.store = true ∧
      ∃ view, upsertViewEditorState teiid finder db.store restViewDefn =
        .ok (work'.flush db.store, view) := by
  unfold beginUpsert at hbegin
  obtain ⟨found, hfound, hafter⟩ := bind_eq_ok.mp hbegin
  obtain ⟨⟨base, viewDefn⟩, hload, hloaded⟩ := bind_eq_ok.mp hafter
  obtain ⟨⟨updated, updateDv⟩, hupdate, hwork⟩ := bind_eq_ok.mp hloaded
  obtain ⟨hid, hversion⟩ := version_of_updateView hupdate
  clear hbegin hafter hloaded
  -- a new view is inserted by both; a stored one is flushed by both
  cases found with
  | none =>
      cases hload
      cases pure_eq_ok.mp hwork
      have hbase : (db.store.createViewDefiniton restViewDefn.dataVirtualizationName
        restViewDefn.name).1.virtualizations = db.store.virtualizations := rfl
      obtain ⟨dv, rfl, hcurrent, hmid⟩ := touched_of_readNext hbase rfl hread
      refine ⟨by simp [Work.isCurrent, hcurrent], updated, ?_⟩
      refine upsertViewEditorState_eq_ok.mpr ⟨none, _, _, updateDv, _, hfound, rfl, hupdate, hmid, ?_⟩
      rw [writeViewDefinition_touchVirtualization]
      show Work.touchVirtualization (Work.insertView db.store (_, updated)) dv = _
      exact congrArg (Work.touchVirtualization · dv) (insertView_eq hid hversion)
  | some persistent =>
      have hmem := mem_of_findPersistent hfound
      obtain ⟨rfl, rfl, _⟩ := viewToUpdate_some hload
      cases pure_eq_ok.mp hwork
      obtain ⟨dv, rfl, hcurrent, hmid⟩ := touched_of_readNext rfl rfl hread
      refine ⟨by simp [Work.isCurrent, hcurrent, viewIsCurrent_of_mem hmem], updated, ?_⟩
      refine upsertViewEditorState_eq_ok.mpr ⟨_, _, _, updateDv, _, hfound, hload, hupdate, hmid, ?_⟩
      rw [writeViewDefinition_touchVirtualization]
      show Work.touchVirtualization (Work.flushView db.store (_, updated)) dv = _
      rw [flushView_eq hmem hid]

/-- A removal with nothing in between is `removeViewDefinition`. -/
theorem remove_serial {db : Database teiid} {id : Nat} {work work' : Work} {reads : Reads}
    (hbegin : beginRemove db.store id = .ok (work, reads))
    (hread : readNext teiid db.store (.removeViewDefinition id) work reads = .ok (work', .none)) :
    work'.isCurrent db.store = true ∧ removeViewDefinition db.store id = .ok (work'.flush db.store) := by
  unfold beginRemove at hbegin
  split at hbegin
  · cases hbegin
  · rename_i vd hfind
    cases hbegin
    obtain ⟨dv, rfl, hcurrent, hmid⟩ := touched_of_readNext rfl rfl hread
    have hmem : vd ∈ db.store.views := List.mem_of_find?_eq_some hfind
    refine ⟨by simp [Work.isCurrent, hcurrent, viewIsCurrent_of_mem hmem], ?_⟩
    have hid : vd.id = some id := key_of_find? hfind
    have hflush : ({ removed := [vd], touched := dv } : Work).flush db.store =
        (Work.touchVirtualization db.store dv).deleteViewDefinition id := by
      unfold Store.deleteViewDefinition
      rw [← hid]
      cases dv <;> rfl
    unfold removeViewDefinition
    rw [hfind, hflush]
    dsimp only
    clear hread
    generalize (vd.complete && vd.parsable) = updateDv at hmid ⊢
    cases updateDv <;> exact bind_eq_ok.mpr ⟨_, hmid, rfl⟩

end Clients

end TeiidSyndesis.Server
