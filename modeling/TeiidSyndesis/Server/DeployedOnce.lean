/-
# TeiidSyndesis.Server.DeployedOnce — threads that deploy one source with its stored ddl deploy it once.

Each looks for an active VDB before it takes the lock of the VDB's name and again under it.  The lock is
one of a striped table, which makes it when it is asked for and may lose it when no thread refers to it.
Deployments are taken to succeed and no one else to change the VDB, and each of the steps of
`doDeploySourceVdb` may be followed by one of any other thread.

Main results:
* `threadOk` — what one step leaves of a thread: the lock it holds, and whether the VDB is active;
* `moved`, `Moved.inv`, `Inv.next` — the invariant of all threads, kept by every step;
* `deploys_le_one`, `not_active_of_deploys` — a run deploys at most once, and only where nothing is active;
* `active_of_returned`, `exists_deploys`, `exists_queuesRefresh` — what a thread that returned has left;
* `deployed_once` — all of it, for every run from threads that have just entered.
-/
import TeiidSyndesis.Library.StripedLocks
import TeiidSyndesis.Library.Tables
import TeiidSyndesis.Server.SourceDeployment

namespace TeiidSyndesis.Server

open TeiidSyndesis.Library TeiidSyndesis.Model

/-- The threads that are in `doDeploySourceVdb` for one source, with the locks of `previewVdbLocks` by
their stripes; the first of those that use the locks are these threads. -/
structure DeployingServer where
  server : SourceServer
  threads : List (SourceDeploymentMode × DeployPc)
  locks : StripedLocks Nat

/-- Whose step is next. -/
inductive DeployLabel
  /-- a thread takes its next step -/
  | thread (index : Nat)
  /-- another thread uses the locks, or the collector drops one -/
  | locks (label : LockLabel Nat)
  /-- another thread leaves this server -/
  | others (server : SourceServer)

namespace DeployingServer

/-- The connection VDB is there and active. -/
def isActive (server : SourceServer) (source : TeiidDataSource) : Bool :=
  (server.getVdb (getWorkspaceSourceVdbName source.name)).any (·.status == .active)

/-- A thread gets the lock and then acquires it, and releases it as it leaves the section.  Every
deployment leaves a VDB that is active. -/
def threadStep (source : TeiidDataSource) (stripe : String → Nat) (s : DeployingServer) (index : Nat) :
    Option DeployingServer :=
  match s.threads[index]? with
  | none => none
  | some (mode, pc) =>
      match pc with
      | .lock ddl =>
          if s.locks.refs[index]? = some .idle then
            (s.locks.next (.get index (stripe (vdbNameFor source ddl)))).map fun locks =>
              { s with locks := locks }
          else
            (s.locks.next (.acquire index)).map fun locks =>
              { s with threads := s.threads.set index (mode, .recheck ddl), locks := locks }
      | .unlock ddl deployed =>
          (s.locks.next (.release index)).bind fun locks =>
            (s.server.doDeploySourceVdb stripe source mode (.unlock ddl deployed) true true).map
              fun (server, pc) =>
                { server := server, threads := s.threads.set index (mode, pc), locks := locks }
      | pc =>
          (s.server.doDeploySourceVdb stripe source mode pc true true).map fun (server, pc) =>
            { s with server := server, threads := s.threads.set index (mode, pc) }

/-- Others use the locks too, and change the server but for the row and the VDB of the source. -/
def next (source : TeiidDataSource) (stripe : String → Nat) (s : DeployingServer) :
    DeployLabel → Option DeployingServer
  | .thread index => s.threadStep source stripe index
  | .locks label =>
      if label.actor.all (s.threads.length ≤ ·) then
        (s.locks.next label).map fun locks => { s with locks := locks }
      else none
  | .others server =>
      if server.findSchemaBySourceId source.syndesisId =
            s.server.findSchemaBySourceId source.syndesisId ∧
          server.getVdb (getWorkspaceSourceVdbName source.name) =
            s.server.getVdb (getWorkspaceSourceVdbName source.name) then
        some { s with server := server }
      else none

/-- The threads enter the operation to reuse a ddl or to make the source live, and no lock is in use; the ddl
is stored and none of a failure. -/
structure Entered (source : TeiidDataSource) (s : DeployingServer) : Prop where
  /-- the text that is reused -/
  stored : ∃ schema ddl, s.server.findSchemaBySourceId source.syndesisId = some schema ∧
    schema.ddl = some ddl ∧ isFailed ddl = false
  /-- each thread is about to look the row up -/
  threads : ∀ thread ∈ s.threads,
    (thread.1 = .reuseDdl ∨ thread.1 = .makeLive) ∧ thread.2 = .findSchemaBySourceId
  refs : ∀ ref ∈ s.locks.refs, ref = .idle
  length_le : s.threads.length ≤ s.locks.refs.length

/-- Runs start when the threads have entered. -/
def system (source : TeiidDataSource) (stripe : String → Nat) : System DeployingServer DeployLabel :=
  .ofNext (Entered source) (next source stripe)

/-! ## Deployments, counted -/

/-- The step calls `deploy`. -/
def deploys (x : DeployingServer × DeployLabel) : Bool :=
  match x.2 with
  | .thread index =>
      match x.1.threads[index]? with
      | some (_, .deploy ddl) => !ddl.any isFailed
      | _ => false
  | _ => false

/-- The step of a thread queues a refresh of the preview VDBs. -/
def QueuesRefresh (source : TeiidDataSource) (stripe : String → Nat) (s : DeployingServer)
    (label : DeployLabel) : Prop :=
  ∃ index t, label = .thread index ∧ s.next source stripe label = some t ∧
    t.server.queue = s.server.queue ++ [.refreshPreviewVdb]

/-- All threads have returned. -/
def Returned (s : DeployingServer) : Prop := ∀ thread ∈ s.threads, thread.2 = .done

/-! ## The server -/

section Server

variable {source : TeiidDataSource} {server : SourceServer} {mode : SourceDeploymentMode} {ddl : String}

/-- The two checks of a thread look for an active VDB. -/
theorem isKept_eq (hmode : mode = .reuseDdl ∨ mode = .makeLive) (text : String) :
    SourceServer.isKept (server.getVdb (vdbNameFor source (some text))) (some text) mode =
      isActive server source := by
  have hreplace : (mode != .replaceDdl) = true := by
    rcases hmode with rfl | rfl <;> rfl
  show SourceServer.isKept (server.getVdb (getWorkspaceSourceVdbName source.name)) _ _ = _
  unfold isActive
  cases server.getVdb (getWorkspaceSourceVdbName source.name) with
  | none => rfl
  | some vdb => simp [SourceServer.isKept, hreplace]

/-- What is deployed is found under its name. -/
theorem getVdb_deploy (vdb : SourceVdb) :
    (server.deploy vdb true).getVdb vdb.name = some vdb := by
  have hgone := find?_filter_key SourceVdb.name server.deployed vdb.name vdb.name
  rw [if_pos rfl] at hgone
  unfold SourceServer.deploy SourceServer.getVdb
  rw [List.find?_append, hgone]
  simp

/-- A VDB with the stored ddl is active at once. -/
theorem isActive_deploy :
    isActive (server.deploy (server.generateSourceVdb source (some ddl) true) true) source = true := by
  let vdb := server.generateSourceVdb source (some ddl) true
  have hname : vdb.name = getWorkspaceSourceVdbName source.name := rfl
  unfold isActive
  rw [← hname, getVdb_deploy]
  rfl

/-! ## The steps of the operation -/

/-- The thread reads the ddl. -/
theorem step_findSchemaBySourceId {stripe : String → Nat} (hmode : mode = .reuseDdl ∨ mode = .makeLive)
    (hstored : server.loadMetadata source.syndesisId = some ddl) :
    server.doDeploySourceVdb stripe source mode .findSchemaBySourceId true true =
      some (server, .getVdb (some ddl)) := by
  obtain ⟨schema, hschema, hddl⟩ := Option.bind_eq_some_iff.mp hstored
  have hrefresh : mode ≠ .refresh := by
    rcases hmode with rfl | rfl <;> nofun
  unfold SourceServer.doDeploySourceVdb
  simp [hschema, hddl, hrefresh]

/-- It returns if the VDB is active already. -/
theorem step_getVdb {stripe : String → Nat} (hmode : mode = .reuseDdl ∨ mode = .makeLive) :
    server.doDeploySourceVdb stripe source mode (.getVdb (some ddl)) true true =
      some (server, if isActive server source then .done else .lock (some ddl)) := by
  simp only [SourceServer.doDeploySourceVdb, isKept_eq hmode]
  cases isActive server source <;> rfl

/-- Under the lock it looks once more. -/
theorem step_recheck {stripe : String → Nat} (hmode : mode = .reuseDdl ∨ mode = .makeLive) :
    server.doDeploySourceVdb stripe source mode (.recheck (some ddl)) true true =
      some (server, if isActive server source then .unlock (some ddl) false else .deploy (some ddl)) := by
  simp only [SourceServer.doDeploySourceVdb, isKept_eq hmode]
  cases isActive server source <;> rfl

/-- The deployment with the stored ddl, still under the lock. -/
theorem step_deploy {stripe : String → Nat} (husable : isFailed ddl = false) :
    server.doDeploySourceVdb stripe source mode (.deploy (some ddl)) true true =
      some (server.deploy (server.generateSourceVdb source (some ddl) true) true,
        .unlock (some ddl) true) := by
  unfold SourceServer.doDeploySourceVdb
  simp [husable]

end Server

/-! ## One thread -/

/-- Where a thread is, what it refers to, and what it then knows of the VDB. -/
inductive ThreadOk (key : Nat) (ddl : String) (active : Bool) : DeployPc → LockRef Nat → Prop
  | findSchemaBySourceId : ThreadOk key ddl active .findSchemaBySourceId .idle
  | getVdb : ThreadOk key ddl active (.getVdb (some ddl)) .idle
  | get : ThreadOk key ddl active (.lock (some ddl)) .idle
  | acquire (lock : Nat) : ThreadOk key ddl active (.lock (some ddl)) (.waiting key lock)
  | recheck (lock : Nat) : ThreadOk key ddl active (.recheck (some ddl)) (.holding key lock)
  | deploy (lock : Nat) (h : active = false) :
      ThreadOk key ddl active (.deploy (some ddl)) (.holding key lock)
  | unlock (lock : Nat) (deployed : Bool) (h : active = true) :
      ThreadOk key ddl active (.unlock (some ddl) deployed) (.holding key lock)
  | refresh (h : active = true) : ThreadOk key ddl active .refresh .idle
  | done (h : active = true) : ThreadOk key ddl active .done .idle

/-- What a step of a thread does. -/
inductive Move (source : TeiidDataSource) (key : Nat) (ddl : String) (server : SourceServer) :
    DeployPc → LockRef Nat → SourceServer → DeployPc → LockRef Nat → Prop
  | read : Move source key ddl server .findSchemaBySourceId .idle server (.getVdb (some ddl)) .idle
  | found (h : isActive server source = true) :
      Move source key ddl server (.getVdb (some ddl)) .idle server .done .idle
  | missed : Move source key ddl server (.getVdb (some ddl)) .idle server (.lock (some ddl)) .idle
  | get (lock : Nat) :
      Move source key ddl server (.lock (some ddl)) .idle server (.lock (some ddl)) (.waiting key lock)
  | acquire (lock : Nat) :
      Move source key ddl server (.lock (some ddl)) (.waiting key lock) server (.recheck (some ddl))
        (.holding key lock)
  | kept (lock : Nat) (h : isActive server source = true) :
      Move source key ddl server (.recheck (some ddl)) (.holding key lock) server
        (.unlock (some ddl) false) (.holding key lock)
  | proceed (lock : Nat) (h : isActive server source = false) :
      Move source key ddl server (.recheck (some ddl)) (.holding key lock) server (.deploy (some ddl))
        (.holding key lock)
  | deploy (lock : Nat) :
      Move source key ddl server (.deploy (some ddl)) (.holding key lock)
        (server.deploy (server.generateSourceVdb source (some ddl) true) true) (.unlock (some ddl) true)
        (.holding key lock)
  | unlock (lock : Nat) (deployed : Bool) :
      Move source key ddl server (.unlock (some ddl) deployed) (.holding key lock) server
        (if deployed then .refresh else .done) .idle
  | refresh : Move source key ddl server .refresh .idle (server.execute .refreshPreviewVdb) .done .idle

namespace Move

variable {source : TeiidDataSource} {key : Nat} {ddl : String} {server server' : SourceServer}
  {pc pc' : DeployPc} {ref ref' : LockRef Nat}

/-- A step keeps what is said of its own thread. -/
theorem threadOk (h : Move source key ddl server pc ref server' pc' ref')
    (hs : ThreadOk key ddl (isActive server source) pc ref) :
    ThreadOk key ddl (isActive server' source) pc' ref' := by
  cases h with
  | read => exact .getVdb
  | found hactive => exact .done hactive
  | missed => exact .get
  | get lock => exact .acquire lock
  | acquire lock => exact .recheck lock
  | kept lock hactive => exact .unlock lock false hactive
  | proceed lock hactive => exact .deploy lock hactive
  | deploy lock => exact .unlock lock true isActive_deploy
  | unlock lock deployed =>
      cases hs with
      | unlock _ _ hactive =>
          cases deployed with
          | true => exact .refresh hactive
          | false => exact .done hactive
  | refresh =>
      cases hs with
      | refresh hactive => exact .done hactive

/-- No thread writes a row. -/
theorem schemas_eq (h : Move source key ddl server pc ref server' pc' ref') :
    server'.schemas = server.schemas := by
  cases h <;> rfl

/-- The VDB stays as it is unless the step deploys it. -/
theorem active (h : Move source key ddl server pc ref server' pc' ref') :
    isActive server' source = isActive server source ∨
      ∃ lock, pc = .deploy (some ddl) ∧ ref = .holding key lock ∧ isActive server' source = true := by
  cases h with
  | deploy lock => exact .inr ⟨lock, rfl, rfl, isActive_deploy⟩
  | _ => exact .inl rfl

end Move

/-! ## All threads -/

variable {source : TeiidDataSource} {stripe : String → Nat} {ddl : String}

/-- The rows, the threads and the locks, as far as deploying once depends on them. -/
structure Inv (source : TeiidDataSource) (stripe : String → Nat) (ddl : String) (s : DeployingServer) :
    Prop where
  usable : isFailed ddl = false
  stored : s.server.loadMetadata source.syndesisId = some ddl
  locks : s.locks.Consistent
  threads : ∀ {i : Nat} {mode : SourceDeploymentMode} {pc : DeployPc},
    s.threads[i]? = some (mode, pc) → (mode = .reuseDdl ∨ mode = .makeLive) ∧
      ∃ ref, s.locks.refs[i]? = some ref ∧
        ThreadOk (stripe (getWorkspaceSourceVdbName source.name)) ddl (isActive s.server source) pc ref

/-- A step of a thread moves it, and leaves the others where they are. -/
structure Moved (source : TeiidDataSource) (stripe : String → Nat) (ddl : String) (i : Nat)
    (mode : SourceDeploymentMode) (s t : DeployingServer) (pc pc' : DeployPc) (ref ref' : LockRef Nat) :
    Prop where
  thread_eq : s.threads[i]? = some (mode, pc)
  ref_eq : s.locks.refs[i]? = some ref
  move : Move source (stripe (getWorkspaceSourceVdbName source.name)) ddl s.server pc ref t.server pc' ref'
  threads_eq : t.threads = s.threads.set i (mode, pc')
  refs_eq : t.locks.refs = s.locks.refs.set i ref'
  locks : t.locks.Consistent

/-- The thread that moved is at its next program point. -/
theorem Moved.after {s t : DeployingServer} {i : Nat} {mode : SourceDeploymentMode} {pc pc' : DeployPc}
    {ref ref' : LockRef Nat} (h : Moved source stripe ddl i mode s t pc pc' ref ref') :
    t.threads[i]? = some (mode, pc') := by
  rw [h.threads_eq, List.getElem?_set_self (List.getElem?_eq_some_iff.mp h.thread_eq).1]

/-- Each step of a thread is one of the moves. -/
theorem moved {s t : DeployingServer} {i : Nat} (hs : Inv source stripe ddl s)
    (h : s.threadStep source stripe i = some t) :
    ∃ mode pc pc' ref ref', Moved source stripe ddl i mode s t pc pc' ref ref' := by
  unfold threadStep at h
  split at h
  · cases h
  · rename_i mode pc hthread
    obtain ⟨hmode, ref, href, hok⟩ := hs.threads hthread
    -- all steps but those at the lock leave the locks alone
    have plain {server : SourceServer} {pc' : DeployPc}
        (hmove : Move source (stripe (getWorkspaceSourceVdbName source.name)) ddl s.server pc ref server
          pc' ref)
        (ht : t = { s with server := server, threads := s.threads.set i (mode, pc') }) :
        ∃ mode pc pc' ref ref', Moved source stripe ddl i mode s t pc pc' ref ref' := by
      subst ht
      exact ⟨mode, pc, pc', ref, ref, hthread, href, hmove, rfl, (set_of_getElem? href).symm, hs.locks⟩
    -- the point of the thread tells which move it is
    cases hok with
    | findSchemaBySourceId =>
        simp only [step_findSchemaBySourceId hmode hs.stored, Option.map_some] at h
        exact plain .read (Option.some.inj h).symm
    | getVdb =>
        simp only [step_getVdb hmode, Option.map_some] at h
        refine plain ?_ (Option.some.inj h).symm
        cases hactive : isActive s.server source with
        | true => exact .found hactive
        | false => exact .missed
    | get =>
        simp only [href, if_true] at h
        obtain ⟨locks, hlocks, rfl⟩ := Option.map_eq_some_iff.mp h
        obtain ⟨-, hnext⟩ := StripedLocks.next_spec hlocks
        exact ⟨mode, _, _, _, _, hthread, href, .get _, (set_of_getElem? hthread).symm,
          congrArg StripedLocks.refs hnext, hs.locks.step hlocks⟩
    | acquire lock =>
        have hbusy : s.locks.refs[i]? ≠ some .idle := by
          rw [href]
          nofun
        simp only [if_neg hbusy] at h
        obtain ⟨locks, hlocks, rfl⟩ := Option.map_eq_some_iff.mp h
        obtain ⟨key, lock, hwaiting, -, hnext⟩ := StripedLocks.next_spec hlocks
        cases href.symm.trans hwaiting
        exact ⟨mode, _, _, _, _, hthread, href, .acquire lock, rfl,
          congrArg StripedLocks.refs hnext, hs.locks.step hlocks⟩
    | recheck lock =>
        simp only [step_recheck hmode, Option.map_some] at h
        refine plain ?_ (Option.some.inj h).symm
        cases hactive : isActive s.server source with
        | true => exact .kept lock hactive
        | false => exact .proceed lock hactive
    | deploy lock =>
        simp only [step_deploy hs.usable, Option.map_some] at h
        exact plain (.deploy lock) (Option.some.inj h).symm
    | unlock lock deployed =>
        obtain ⟨locks, hlocks, h⟩ := Option.bind_eq_some_iff.mp h
        obtain ⟨key, lock, -, hnext⟩ := StripedLocks.next_spec hlocks
        cases h
        refine ⟨mode, _, _, _, _, hthread, href, ?_, rfl, congrArg StripedLocks.refs hnext,
          hs.locks.step hlocks⟩
        rw [Option.isSome_some, Bool.and_true]
        exact .unlock _ deployed
    | refresh =>
        exact plain .refresh (Option.some.inj h).symm
    | done => cases h

/-- A thread that is not about to deploy is content with an active VDB. -/
theorem ThreadOk.activated {key : Nat} {active : Bool} {pc : DeployPc} {ref : LockRef Nat}
    (h : ThreadOk key ddl active pc ref) (hpc : pc ≠ .deploy (some ddl)) :
    ThreadOk key ddl true pc ref := by
  cases h with
  | findSchemaBySourceId => exact .findSchemaBySourceId
  | getVdb => exact .getVdb
  | get => exact .get
  | acquire lock => exact .acquire lock
  | recheck lock => exact .recheck lock
  | deploy lock => exact absurd rfl hpc
  | unlock lock deployed => exact .unlock lock deployed rfl
  | refresh => exact .refresh rfl
  | done => exact .done rfl

/-- A thread that deploys the VDB holds its lock, so no other is about to deploy it. -/
theorem Moved.others {s t : DeployingServer} {i j : Nat} {mode mode' : SourceDeploymentMode}
    {pc pc' other : DeployPc} {ref ref' ref'' : LockRef Nat} (hs : Inv source stripe ddl s)
    (h : Moved source stripe ddl i mode s t pc pc' ref ref') (hij : j ≠ i)
    (hother : s.threads[j]? = some (mode', other)) (href : s.locks.refs[j]? = some ref'')
    (hok : ThreadOk (stripe (getWorkspaceSourceVdbName source.name)) ddl (isActive s.server source) other
      ref'') :
    ThreadOk (stripe (getWorkspaceSourceVdbName source.name)) ddl (isActive t.server source) other
      ref'' := by
  rcases h.move.active with hactive | ⟨lock, -, rfl, hactive⟩
  · rw [hactive]
    exact hok
  · rw [hactive]
    refine hok.activated ?_
    rintro rfl
    cases hok with
    | deploy lock' => exact hij (hs.locks.eq_of_holding href h.ref_eq)

/-- A move keeps the invariant: the lock keeps the others from deploying meanwhile. -/
theorem Moved.inv {s t : DeployingServer} {i : Nat} {mode : SourceDeploymentMode} {pc pc' : DeployPc}
    {ref ref' : LockRef Nat} (hs : Inv source stripe ddl s)
    (h : Moved source stripe ddl i mode s t pc pc' ref ref') : Inv source stripe ddl t where
  usable := hs.usable
  stored := by
    show (t.server.schemas.find? _).bind _ = some ddl
    rw [h.move.schemas_eq]
    exact hs.stored
  locks := h.locks
  threads := by
    intro j mode' other hj
    rw [h.threads_eq] at hj
    rcases getElem?_set_cases hj with ⟨rfl, hnew⟩ | ⟨hij, hold⟩
    · cases hnew
      obtain ⟨hmode, ref'', href, hok⟩ := hs.threads h.thread_eq
      obtain rfl : ref'' = ref := Option.some.inj (href.symm.trans h.ref_eq)
      refine ⟨hmode, ref', ?_, h.move.threadOk hok⟩
      rw [h.refs_eq, List.getElem?_set_self (List.getElem?_eq_some_iff.mp href).1]
    · obtain ⟨hmode, ref'', href, hok⟩ := hs.threads hold
      refine ⟨hmode, ref'', ?_, h.others hs hij hold href hok⟩
      rw [h.refs_eq, List.getElem?_set_ne hij.symm]
      exact href

/-- A step is one of a thread, or leaves all threads and the VDB as they are. -/
theorem next_cases {s t : DeployingServer} {label : DeployLabel} (hs : Inv source stripe ddl s)
    (h : s.next source stripe label = some t) :
    (∃ i mode pc pc' ref ref', label = .thread i ∧
        Moved source stripe ddl i mode s t pc pc' ref ref') ∨
      ((∀ i, label ≠ .thread i) ∧ Inv source stripe ddl t ∧ t.threads = s.threads ∧
        isActive t.server source = isActive s.server source) := by
  -- only a step of one of the threads deploys; the others keep the lock table's refs and the VDB
  cases label with
  | thread i =>
      obtain ⟨mode, pc, pc', ref, ref', hmoved⟩ := moved hs h
      exact .inl ⟨i, mode, pc, pc', ref, ref', rfl, hmoved⟩
  | locks label =>
      simp only [next] at h
      split at h
      · rename_i hactor
        obtain ⟨locks, hlocks, rfl⟩ := Option.map_eq_some_iff.mp h
        refine .inr ⟨nofun, ⟨hs.usable, hs.stored, hs.locks.step hlocks, ?_⟩, rfl, rfl⟩
        intro i mode pc hi
        obtain ⟨hmode, ref, href, hok⟩ := hs.threads hi
        refine ⟨hmode, ref, ?_, hok⟩
        have hne : label.actor ≠ some i := by
          intro heq
          rw [heq] at hactor
          have hle : s.threads.length ≤ i := of_decide_eq_true hactor
          have hlt : i < s.threads.length := (List.getElem?_eq_some_iff.mp hi).1
          omega
        exact (StripedLocks.next_refs_of_ne hlocks hne).trans href
      · cases h
  | others server =>
      simp only [next] at h
      split at h
      · rename_i hsame
        cases h
        obtain ⟨hschema, hvdb⟩ := hsame
        have hactive : isActive server source = isActive s.server source := by
          unfold isActive
          rw [hvdb]
        refine .inr ⟨nofun, ⟨hs.usable, ?_, hs.locks, ?_⟩, rfl, hactive⟩
        · unfold SourceServer.loadMetadata
          rw [hschema]
          exact hs.stored
        · intro i mode pc hi
          rw [hactive]
          exact hs.threads hi
      · cases h

/-- Every step keeps the invariant: a move of one thread, or a step of others at the locks and the server.
-/
theorem Inv.next {s t : DeployingServer} {label : DeployLabel} (hs : Inv source stripe ddl s)
    (h : s.next source stripe label = some t) : Inv source stripe ddl t := by
  rcases next_cases hs h with ⟨i, mode, pc, pc', ref, ref', -, hmoved⟩ | ⟨-, ht, -⟩
  · exact hmoved.inv hs
  · exact ht

/-- Threads that have just entered hold nothing. -/
theorem inv_of_entered {s : DeployingServer} (h : Entered source s) :
    ∃ ddl, Inv source stripe ddl s := by
  obtain ⟨schema, ddl, hschema, hddl, husable⟩ := h.stored
  refine ⟨ddl, husable, ?_, .of_idle h.refs, ?_⟩
  · unfold SourceServer.loadMetadata
    rw [hschema]
    exact hddl
  · intro i mode pc hi
    obtain ⟨hmode, hpc⟩ := h.threads _ (List.mem_of_getElem? hi)
    obtain rfl : pc = .findSchemaBySourceId := hpc
    have hlt : i < s.locks.refs.length :=
      Nat.lt_of_lt_of_le (List.getElem?_eq_some_iff.mp hi).1 h.length_le
    have hidle : s.locks.refs[i] = .idle := h.refs _ (List.getElem_mem hlt)
    refine ⟨hmode, .idle, ?_, .findSchemaBySourceId⟩
    rw [List.getElem?_eq_getElem hlt, hidle]

/-! ## Deployments -/

/-- The thread that calls `deploy` finds no active VDB, leaves one, and is to queue a refresh. -/
theorem deploys_spec {s t : DeployingServer} {label : DeployLabel} (hs : Inv source stripe ddl s)
    (h : s.next source stripe label = some t) (hdeploys : deploys (s, label) = true) :
    isActive s.server source = false ∧ isActive t.server source = true ∧
      ∃ i mode, label = .thread i ∧ t.threads[i]? = some (mode, .unlock (some ddl) true) := by
  rcases next_cases hs h with ⟨i, mode, pc, pc', ref, ref', rfl, hmoved⟩ | ⟨hlabel, -⟩
  · have hpc : ∃ text, pc = .deploy text := by
      unfold deploys at hdeploys
      simp only [hmoved.thread_eq] at hdeploys
      split at hdeploys
      · rename_i text hthread
        exact ⟨text, congrArg Prod.snd (Option.some.inj hthread)⟩
      · cases hdeploys
    obtain ⟨text, rfl⟩ := hpc
    obtain ⟨-, ref'', -, hok⟩ := hs.threads hmoved.thread_eq
    have hafter := hmoved.after
    cases hok with
    | deploy lock hactive =>
        have hmove := hmoved.move
        generalize t.server = server at hmove ⊢
        cases hmove with
        | deploy => exact ⟨hactive, isActive_deploy, i, mode, rfl, hafter⟩
  · cases label with
    | thread i => exact absurd rfl (hlabel i)
    | locks label => cases hdeploys
    | others server => cases hdeploys

/-- Otherwise the VDB is active as before. -/
theorem isActive_of_not_deploys {s t : DeployingServer} {label : DeployLabel}
    (hs : Inv source stripe ddl s) (h : s.next source stripe label = some t)
    (hdeploys : deploys (s, label) ≠ true) : isActive t.server source = isActive s.server source := by
  rcases next_cases hs h with ⟨i, mode, pc, pc', ref, ref', rfl, hmoved⟩ | ⟨-, -, -, hactive⟩
  · rcases hmoved.move.active with hactive | ⟨lock, rfl, -⟩
    · exact hactive
    · refine absurd ?_ hdeploys
      simp [deploys, hmoved.thread_eq, hs.usable]
  · exact hactive

/-- An active VDB stays active. -/
theorem isActive_next {s t : DeployingServer} {label : DeployLabel} (hs : Inv source stripe ddl s)
    (hactive : isActive s.server source = true) (h : s.next source stripe label = some t) :
    isActive t.server source = true := by
  by_cases hdeploys : deploys (s, label) = true
  · exact (deploys_spec hs h hdeploys).2.1
  · exact (isActive_of_not_deploys hs h hdeploys).trans hactive

/-! ## Refreshes -/

/-- The thread has deployed the VDB and is to queue a refresh. -/
def Refreshes (s : DeployingServer) (i : Nat) : Prop :=
  ∃ mode, s.threads[i]? = some (mode, .refresh) ∨
    ∃ text, s.threads[i]? = some (mode, .unlock text true)

/-- A thread that has yet to queue the refresh of the preview stays that thread, until it does. -/
theorem refreshes_next {s t : DeployingServer} {label : DeployLabel} {i : Nat}
    (hs : Inv source stripe ddl s) (hi : s.Refreshes i)
    (hqueues : ¬QueuesRefresh source stripe s label) (h : s.next source stripe label = some t) :
    t.Refreshes i := by
  rcases next_cases hs h with ⟨j, mode, pc, pc', ref, ref', rfl, hmoved⟩ | ⟨-, -, hthreads, -⟩
  · by_cases hij : j = i
    · subst hij
      have hafter := hmoved.after
      obtain ⟨mode', hrefresh | ⟨text, hunlock⟩⟩ := hi
      · cases hmoved.thread_eq.symm.trans hrefresh
        refine absurd ⟨j, t, rfl, h, ?_⟩ hqueues
        have hmove := hmoved.move
        generalize t.server = server at hmove ⊢
        cases hmove with
        | refresh => rfl
      · cases hmoved.thread_eq.symm.trans hunlock
        have hmove := hmoved.move
        generalize t.server = server at hmove
        cases hmove with
        | unlock => exact ⟨mode, .inl hafter⟩
    · unfold Refreshes
      rw [hmoved.threads_eq, List.getElem?_set_ne hij]
      exact hi
  · unfold Refreshes
    rw [hthreads]
    exact hi

/-! ## Runs -/

/-- No thread comes or goes. -/
theorem length_next {s t : DeployingServer} {label : DeployLabel} (hs : Inv source stripe ddl s)
    (h : s.next source stripe label = some t) : t.threads.length = s.threads.length := by
  rcases next_cases hs h with ⟨i, mode, pc, pc', ref, ref', -, hmoved⟩ | ⟨-, -, hthreads, -⟩
  · rw [hmoved.threads_eq, List.length_set]
  · rw [hthreads]

section Runs

variable {s t : DeployingServer} {tr : List (DeployingServer × DeployLabel)}

/-- The invariant holds of every state that is reached. -/
theorem Inv.run (hs : Inv source stripe ddl s) (hrun : (system source stripe).Run s tr t) :
    Inv source stripe ddl t :=
  hrun.preserves_of_all (fun _ _ _ ha h => ha.next h) hs

/-- The threads are the same throughout. -/
theorem length_run (hs : Inv source stripe ddl s) (hrun : (system source stripe).Run s tr t) :
    t.threads.length = s.threads.length := by
  have hkeep : ∀ a label b, (Inv source stripe ddl a ∧ a.threads.length = s.threads.length) →
      (system source stripe).step a label b →
        Inv source stripe ddl b ∧ b.threads.length = s.threads.length := by
    rintro a label b ⟨ha, hlength⟩ h
    exact ⟨ha.next h, (length_next ha h).trans hlength⟩
  exact (hrun.preserves_of_all hkeep ⟨hs, rfl⟩).2

/-- After the first deployment the VDB is active, and no thread deploys over it. -/
theorem deploys_le_one (hs : Inv source stripe ddl s) (hrun : (system source stripe).Run s tr t) :
    tr.countP deploys ≤ 1 := by
  have hinv : ∀ a label b, Inv source stripe ddl a → (system source stripe).step a label b →
      Inv source stripe ddl b := fun _ _ _ ha h => ha.next h
  have hkeep : ∀ a label b, Inv source stripe ddl a → isActive a.server source = true →
      (system source stripe).step a label b → isActive b.server source = true :=
    fun _ _ _ ha hactive h => isActive_next ha hactive h
  refine (hrun.countP_le_one hinv hkeep ?_ hs).1
  intro a label b ha h hdeploys
  obtain ⟨hbefore, hafter, -⟩ := deploys_spec ha h hdeploys
  exact ⟨ne_true_of_eq_false hbefore, hafter⟩

/-- A thread deploys only where nothing was active. -/
theorem not_active_of_deploys (hs : Inv source stripe ddl s)
    (hrun : (system source stripe).Run s tr t) {x : DeployingServer × DeployLabel} (hx : x ∈ tr)
    (hdeploys : deploys x = true) : isActive x.1.server source = false := by
  obtain ⟨tr₁, tr₂, m, -, hbefore, hstep, -⟩ := hrun.split hx
  exact (deploys_spec (hs.run hbefore) hstep hdeploys).1

/-- Threads that have returned leave an active VDB. -/
theorem active_of_returned (hs : Inv source stripe ddl s) (hreturned : s.Returned)
    (hthreads : 0 < s.threads.length) : isActive s.server source = true := by
  obtain ⟨⟨mode, pc⟩, hthread⟩ : ∃ thread, s.threads[0]? = some thread :=
    ⟨_, List.getElem?_eq_getElem hthreads⟩
  obtain ⟨-, ref, -, hok⟩ := hs.threads hthread
  obtain rfl : pc = .done := hreturned _ (List.mem_of_getElem? hthread)
  cases hok with
  | done hactive => exact hactive

/-- A VDB that becomes active was deployed. -/
theorem exists_deploys (hs : Inv source stripe ddl s) (hrun : (system source stripe).Run s tr t)
    (hbefore : isActive s.server source = false) (hafter : isActive t.server source = true) :
    ∃ x ∈ tr, deploys x = true := by
  have hkeep : ∀ a label b, (Inv source stripe ddl a ∧ isActive a.server source = false) →
      ¬deploys (a, label) = true → (system source stripe).step a label b →
        Inv source stripe ddl b ∧ isActive b.server source = false := by
    rintro a label b ⟨ha, hactive⟩ hdeploys h
    exact ⟨ha.next h, (isActive_of_not_deploys ha h hdeploys).trans hactive⟩
  refine hrun.exists_marked hkeep ⟨hs, hbefore⟩ ?_
  rintro ⟨-, hactive⟩
  rw [hafter] at hactive
  cases hactive

/-- A thread that has deployed the VDB and returned has queued a refresh. -/
theorem exists_queuesRefresh (hs : Inv source stripe ddl s)
    (hrun : (system source stripe).Run s tr t) {i : Nat} (hi : s.Refreshes i)
    (hreturned : t.Returned) : ∃ x ∈ tr, QueuesRefresh source stripe x.1 x.2 := by
  have hkeep : ∀ a label b, (Inv source stripe ddl a ∧ a.Refreshes i) →
      ¬QueuesRefresh source stripe a label → (system source stripe).step a label b →
        Inv source stripe ddl b ∧ b.Refreshes i := by
    rintro a label b ⟨ha, hrefreshes⟩ hqueues h
    exact ⟨ha.next h, refreshes_next ha hrefreshes hqueues h⟩
  refine hrun.exists_marked hkeep ⟨hs, hi⟩ ?_
  rintro ⟨-, mode, hrefresh | ⟨text, hunlock⟩⟩
  · have hpc : DeployPc.refresh = .done := hreturned _ (List.mem_of_getElem? hrefresh)
    cases hpc
  · have hpc : DeployPc.unlock text true = .done := hreturned _ (List.mem_of_getElem? hunlock)
    cases hpc

/-- In every run `deploy` is called at most once, and only while no VDB is active.  When all threads have
returned there is an active VDB, which was there before, or was deployed and is followed by a refresh. -/
theorem deployed_once (hs : (system source stripe).init s) (hrun : (system source stripe).Run s tr t) :
    tr.countP deploys ≤ 1 ∧
      (∀ x ∈ tr, deploys x = true → isActive x.1.server source = false) ∧
      (t.Returned → s.threads ≠ [] →
        isActive t.server source = true ∧
          (isActive s.server source = true ∨
            ∃ tr₁ x tr₂, tr = tr₁ ++ x :: tr₂ ∧ deploys x = true ∧
              ∃ y ∈ tr₂, QueuesRefresh source stripe y.1 y.2)) := by
  obtain ⟨ddl, hinv⟩ : ∃ ddl, Inv source stripe ddl s := inv_of_entered hs
  refine ⟨deploys_le_one hinv hrun, fun x hx => not_active_of_deploys hinv hrun hx, ?_⟩
  intro hreturned hthreads
  have hlength : 0 < t.threads.length := by
    rw [length_run hinv hrun]
    exact List.length_pos_iff.mpr hthreads
  have hactive := active_of_returned (hinv.run hrun) hreturned hlength
  refine ⟨hactive, ?_⟩
  -- a VDB that has become active was deployed by a step, whose thread then queues the refresh
  cases hbefore : isActive s.server source with
  | true => exact .inl rfl
  | false =>
      obtain ⟨x, hx, hdeploys⟩ := exists_deploys hinv hrun hbefore hactive
      obtain ⟨tr₁, tr₂, m, htr, hfirst, hstep, hrest⟩ := hrun.split hx
      have hx' := hinv.run hfirst
      obtain ⟨-, -, i, mode, -, hunlock⟩ := deploys_spec hx' hstep hdeploys
      exact .inr ⟨tr₁, x, tr₂, htr, hdeploys,
        exists_queuesRefresh (hx'.next hstep) hrest ⟨mode, .inr ⟨_, hunlock⟩⟩ hreturned⟩

end Runs

/-- A source with a stored ddl. -/
def pg : TeiidDataSource := { name := "pg", translatorName := "postgresql", syndesisId := "c1" }

/-- A request for its schema and the task of its connection enter the operation together. -/
def contending : DeployingServer where
  server :=
    { schemas :=
        [{ id := 0, name := "pg", sourceId := "c1", ddl := some "CREATE FOREIGN TABLE t (a string)" }] }
  threads := [(.reuseDdl, .findSchemaBySourceId), (.makeLive, .findSchemaBySourceId)]
  locks := { table := .empty, refs := [.idle, .idle] }

/-- Both find no VDB and get the lock, and the second acquires it after the first has deployed. -/
def contended : List DeployLabel :=
  List.replicate 3 (.thread 0) ++ List.replicate 3 (.thread 1) ++ List.replicate 4 (.thread 0) ++
    List.replicate 3 (.thread 1) ++ [.thread 0]

theorem deployed_once_contended :
    (System.stepsOf (next pg fun _ => 0) contending contended).countP deploys ≤ 1 ∧
      isActive (System.after (next pg fun _ => 0) contending contended).server pg = true ∧
      ∃ tr₁ x tr₂, System.stepsOf (next pg fun _ => 0) contending contended = tr₁ ++ x :: tr₂ ∧
        deploys x = true ∧ ∃ y ∈ tr₂, QueuesRefresh pg (fun _ => 0) y.1 y.2 := by
  have hentered : (system pg fun _ => 0).init contending :=
    ⟨⟨_, _, rfl, rfl, by decide⟩, by decide, by decide, by decide⟩
  obtain ⟨hle, -, hfinal⟩ := deployed_once hentered
    (System.run_after (Entered pg) (next pg fun _ => 0) contending contended)
  obtain ⟨hactive, hbefore | hdeployed⟩ := hfinal (by unfold Returned; decide) (by decide)
  · exact absurd hbefore (by decide)
  · exact ⟨hle, hactive, hdeployed⟩

end DeployingServer

end TeiidSyndesis.Server
