/-
# TeiidSyndesis.Server.SerialRuns — clients side by side carry out the operations one after another.

The operations one after another are those of `DvServer`.  A commit that changes the tables is observed as
the operation of its request; all other steps of the clients are silent.  So whatever holds of the tables
in every run of the operations one after another holds of them with any number of clients.

The condition on a commit is about views the transaction has loaded and leaves as they were: these are
not written, and nothing else looks at their versions.

Main results:
* `transaction_of_commit` — a commit that meets the guard is the operation of its request;
* `next_serially`, `simulates_operations` — so the clients simulate the operations, commit by commit;
* `serial_of_run` — and every run of them is a run of the operations.
-/
import TeiidSyndesis.Server.SerialImports

namespace TeiidSyndesis.Server.Clients

open TeiidSyndesis.Library TeiidSyndesis.Model TeiidSyndesis.Repository

variable {κ : Type} [DecidableEq κ] {teiid : Teiid}

/-- The operation of a request. -/
def operation : Request → DvServer.Label
  | .upsertViewEditorState finder restViewDefn => .upsertViewEditorState finder restViewDefn
  | .importViews finder virtualization teiidSourceName tables =>
      .importViews finder virtualization teiidSourceName tables
  | .removeViewDefinition id => .removeViewDefinition id

/-- The operation that a step commits, if it changes the tables. -/
def committed (s : Clients κ teiid) : Label κ → Option DvServer.Label
  | .commit client =>
      match s.sessions client with
      | .running request work .none =>
          match commitWork work s.db with
          | .ok db => if db.store = s.db.store then none else some (operation request)
          | .error _ => none
      | _ => none
  | _ => none

/-- A commit that changes the tables finds each view that its transaction leaves as it was loaded still
as it was loaded. -/
def findsUnwritten (s : Clients κ teiid) : Label κ → Bool
  | .commit client =>
      match s.sessions client with
      | .running _ work .none =>
          match commitWork work s.db with
          | .ok db =>
              db.store = s.db.store ||
                work.loaded.all fun pair => pair.2 ≠ pair.1 || Work.viewIsCurrent s.db.store pair.1
          | .error _ => true
      | _ => true
  | _ => true

/-- Where the views that are not written are rows too, a commit leaves the tables that the operation leaves which is run
alone. -/
theorem transaction_of_commit (hequiv : Equivalence fun a b => teiid.equalsIgnoreCase a b = true)
    {db db' : Database teiid} {request : Request} {work : Work}
    (hprepared : Prepared teiid db.store request work .none) (hcommit : commitWork work db = .ok db')
    (hunwritten : ∀ pair ∈ work.loaded, pair.2 ≠ pair.1 ∨ Work.viewIsCurrent db.store pair.1 = true) :
    DvServer.transaction teiid db.store (operation request) = .ok db'.store := by
  obtain ⟨hcurrent, hstore⟩ := commitWork_eq_ok.mp hcommit
  -- the others are written, and the commit has looked at their versions
  have hloaded : ∀ pair ∈ work.loaded, Work.viewIsCurrent db.store pair.1 = true := by
    intro pair hpair
    rcases hunwritten pair hpair with hwritten | hsame
    · have hchecked := hcurrent
      unfold Work.isCurrent at hchecked
      simp only [Bool.and_eq_true, List.all_eq_true, Bool.or_eq_true, decide_eq_true_eq] at hchecked
      exact (hchecked.1.1 pair hpair).resolve_left hwritten
    · exact hsame
  have htouched : work.touched.all (Work.virtualizationIsCurrent db.store) = true := by
    unfold Work.isCurrent at hcurrent
    rw [Bool.and_eq_true] at hcurrent
    exact hcurrent.2
  cases hprepared with
  | made hid hupdate htouching =>
      obtain ⟨view, hupsert⟩ := upsert_of_made hid hupdate htouching htouched hstore
      exact map_eq_ok.mpr ⟨_, hupsert, rfl⟩
  | @loaded finder restViewDefn viewDefn updated updateDv touched _ hview hrequests hname hdv hupdate
      htouching =>
      have hmem := hview.mem (hloaded (viewDefn, updated) List.mem_cons_self)
      have hupsert := upsert_of_loaded hmem hrequests hname hdv hupdate htouching htouched
      refine map_eq_ok.mpr ⟨_, hupsert, ?_⟩
      rw [hstore]
      rfl
  | @removed id vd touched _ hview hid htouching =>
      unfold Work.isCurrent at hcurrent
      simp only [List.all_cons, List.all_nil, Bool.and_true, Bool.true_and, Bool.and_eq_true]
        at hcurrent
      have hremove := remove_of_loaded (hview.mem hcurrent.1) hid htouching htouched
      rw [hstore]
      exact hremove
  | @imported finder virtualization teiidSourceName names left s dv _ _ hdv hname hschema hnames hreads =>
      have hleft : left = [] := by
        rcases hreads with hreads | ⟨_, hleft⟩
        · cases hreads
        · exact hleft
      have hrows : LoadedRows work db.store :=
        fun pair hpair => (hnames.readViews pair hpair).mem (hloaded pair hpair)
      rw [hnames.touches.1] at htouched
      rw [hleft, List.append_nil]
      exact import_of_loaded hequiv hdv hname hschema hnames hrows htouched hstore

/-- One step after the other, with the tables of the clients. -/
def serially (previews : List VDBMetaData) (s : Clients κ teiid) : DvServer teiid :=
  { db := s.db, previews := previews }

omit [DecidableEq κ] in
/-- A commit that changes the tables is observed. -/
theorem committed_of_commit {s : Clients κ teiid} {client : κ} {request : Request} {work : Work}
    {db : Database teiid} (hsession : s.sessions client = .running request work .none)
    (hcommit : commitWork work s.db = .ok db) :
    committed s (.commit client) =
        (if db.store = s.db.store then none else some (operation request)) ∧
      (findsUnwritten s (.commit client) = true ↔
        db.store = s.db.store ∨
          ∀ pair ∈ work.loaded, pair.2 ≠ pair.1 ∨ Work.viewIsCurrent s.db.store pair.1 = true) := by
  unfold committed findsUnwritten
  dsimp only
  rw [hsession]
  dsimp only
  rw [hcommit]
  refine ⟨rfl, ?_⟩
  simp only [Bool.or_eq_true, decide_eq_true_eq, List.all_eq_true]

omit [DecidableEq κ] in
/-- One that is refused is not. -/
theorem committed_of_refused {s : Clients κ teiid} {client : κ} {request : Request} {work : Work}
    {exception : Raised} (hsession : s.sessions client = .running request work .none)
    (hcommit : commitWork work s.db = .error exception) : committed s (.commit client) = none := by
  unfold committed
  dsimp only
  rw [hsession]
  dsimp only
  rw [hcommit]

/-- An operation of a client, run alone. -/
theorem next_serially {previews : List VDBMetaData} {s : Clients κ teiid} {db : Database teiid}
    {client : κ} {session : Session} {request : Request}
    (h : DvServer.transaction teiid s.db.store (operation request) = .ok db.store) :
    (DvServer.system teiid).step (serially previews s) (operation request)
      (serially previews (({ s with db := db } : Clients κ teiid).put client session)) := by
  show DvServer.next (serially previews s) (operation request) = _
  have hcommit : DvServer.transaction teiid s.db.store (operation request) >>= commit teiid = .ok db :=
    bind_eq_ok.mpr ⟨db.store, h, commit_eq_ok.mpr rfl⟩
  unfold DvServer.next serially
  dsimp only
  rw [hcommit]
  cases request <;> rfl

/-- The clients carry out the operations. -/
theorem simulates_operations (κ : Type) [DecidableEq κ]
    (hequiv : Equivalence fun a b => teiid.equalsIgnoreCase a b = true) (previews : List VDBMetaData) :
    System.Simulates (system κ teiid) (DvServer.system teiid) (fun s label => findsUnwritten s label = true)
      (fun s a => Ready s ∧ a = serially previews s) committed where
  -- a commit that changes nothing leaves the abstract database as it was
  silent := by
    rintro s t label a ⟨hready, rfl⟩ _ hstep hsilent
    refine ⟨ready_of_next hready hstep, ?_⟩
    cases stepped_of_next hstep with
    | begun client request => rfl
    | read hsession => rfl
    | refused hsession hcommit => rfl
    | @committed client request work db hsession hcommit =>
        obtain ⟨hobserved, _⟩ := committed_of_commit hsession hcommit
        rw [hobserved] at hsilent
        have hstore : db.store = s.db.store := by
          by_contra hchanged
          rw [if_neg hchanged] at hsilent
          cases hsilent
        have hdb : db = s.db := by
          obtain ⟨store, hconsistent⟩ := db
          obtain rfl : store = s.db.store := hstore
          rfl
        unfold serially
        rw [db_put, hdb]
  -- a commit that changes the tables is the whole request run alone, at the moment of the commit
  matched := by
    rintro s t label a d ⟨hready, rfl⟩ hguard hstep hcommitted
    have hready' := ready_of_next hready hstep
    cases stepped_of_next hstep with
    | begun client request => cases hcommitted
    | read hsession => cases hcommitted
    | refused hsession hcommit =>
        rw [committed_of_refused hsession hcommit] at hcommitted
        cases hcommitted
    | @committed client request work db hsession hcommit =>
        obtain ⟨hobserved, hloaded⟩ := committed_of_commit hsession hcommit
        rw [hobserved] at hcommitted
        have hchanged : db.store ≠ s.db.store := by
          intro hsame
          rw [if_pos hsame] at hcommitted
          cases hcommitted
        rw [if_neg hchanged] at hcommitted
        obtain rfl := Option.some.inj hcommitted
        have hrows := (hloaded.mp hguard).resolve_left hchanged
        have hserial := transaction_of_commit hequiv (hready.prepared client _ _ _ hsession) hcommit hrows
        exact ⟨_, next_serially hserial, hready', rfl⟩

/-- For any number of clients, in any order of their steps: if each commit that changes the tables finds
the views its transaction does not write as they were loaded, the tables at the end are those that the
requests of these commits leave when they run one after another, in their order.  A commit that changes
nothing is not among them: run alone, at its place, its request might have written something. -/
theorem serial_of_run (hequiv : Equivalence fun a b => teiid.equalsIgnoreCase a b = true)
    {s t : Clients κ teiid} {tr : List (Clients κ teiid × Label κ)} (hs : Initial s)
    (hids : DistinctIds s.db.store) (hrun : (system κ teiid).Run s tr t)
    (hguard : System.Guarded (fun s label => findsUnwritten s label = true) tr)
    (previews : List VDBMetaData) :
    ∃ serial, (DvServer.system teiid).Run (serially previews s) serial (serially previews t) ∧
      serial.map Prod.snd = System.observed committed tr := by
  have hready := ready_of_initial hs hids
  obtain ⟨_, serial, hserial, hlabels, _, rfl⟩ :=
    (simulates_operations κ hequiv previews).run hrun hguard ⟨hready, rfl⟩
  exact ⟨serial, hserial, hlabels⟩

/-- What one client commits the other is refused over: one operation. -/
theorem serial_of_run_overtaken :
    ∃ serial, (DvServer.system DvServer.unparsing).Run (serially [] twoClients) serial
        (serially [] (System.after next twoClients (overtaking (some "second") ++ [.commit false]))) ∧
      serial.map Prod.snd = System.observed committed
        (System.stepsOf next twoClients (overtaking (some "second") ++ [.commit false])) :=
  serial_of_run DvServer.equivalence_unparsing initial_twoClients (by decide)
    (System.run_after Initial next twoClients _) (by decide) []

end TeiidSyndesis.Server.Clients
