/-
# TeiidSyndesis.Server.SourceRest — the deployment of sources comes to rest.

A load ends in a task that replaces the VDB, and a replacement reads the row; were it to load once more,
the server would never be done.  The work that is left is counted here: each step the server takes by
itself lowers it, and a request raises it by a bounded amount.  Threads wait for striped locks only, and
one that holds a lock always goes on, so a server that cannot go on has nothing left to do.

Main results:
* `doDeploySourceVdb_spends`, `finishedDeployment_spends`, `deleteSchema_spends` — one lemma for each
  operation: a step of it spends more work than it brings;
* `next_descends` — every step the server takes by itself lowers the work that is left;
* `next_raises` — a request raises it by at most a fixed amount;
* `stopped_iff` — where nothing loads, the server has stopped exactly if it is at rest;
* `comes_to_rest` — both together: runs without requests are bounded, and end at rest.
-/
import TeiidSyndesis.Library.Descent
import TeiidSyndesis.Server.SourceAgreement

namespace TeiidSyndesis.Server

open TeiidSyndesis.Library TeiidSyndesis.Model

/-! ## The work that is left -/

/-- What a deployment without a ddl leads to: the load, its completion and a replacement. -/
def loadWork (ddl : Option String) : Nat := if ddl.isSome then 0 else 16

/-- The same before the row has been read: what reuses a ddl never loads one. -/
def SourceDeploymentMode.work (mode : SourceDeploymentMode) : Nat :=
  if SourceServer.reuses mode then 0 else 16

/-- What a deployment has left to do, the load that may follow it included. -/
def DeployPc.work (mode : SourceDeploymentMode) : DeployPc → Nat
  | .findSchemaModel => 9 + mode.work
  | .findSchemaBySourceId => 8 + mode.work
  | .getVdb ddl => 7 + loadWork ddl
  | .lock ddl => 6 + loadWork ddl
  | .recheck ddl => 5 + loadWork ddl
  | .deploy ddl => 4 + loadWork ddl
  | .unlock _ _ => 3
  | .refresh => 2
  | .done => 0

/-- What the completion of a load has left to do, with the task it executes. -/
def FinishedPc.work : FinishedPc → Nat
  | .lock => 15
  | .undeploy => 14
  | .unlock _ => 13
  | .save _ => 12
  | .execute => 11
  | .done => 0

/-- What the deletion of a schema has left to do. -/
def DeleteSchemaPc.work : DeleteSchemaPc → Nat
  | .commit => 3
  | .execute => 2
  | .done => 0

/-- What a thread has left to do. -/
def SourceThread.work : SourceThread → Nat
  | .doDeploySourceVdb _ mode pc => pc.work mode
  | .finishedDeployment _ _ pc => pc.work
  | .deleteSchema _ pc => pc.work

/-- What a task costs once it is taken. -/
def SourceTask.work : SourceTask → Nat
  | .deploySourceVdb _ mode => 10 + mode.work
  | .removeVdb _ => 1
  | .refreshPreviewVdb => 1

/-- A VDB that loads will be completed by a thread of its own. -/
def SourceVdb.work (vdb : SourceVdb) : Nat := if vdb.status = .loading then 16 else 0

namespace SourceServer

variable {registry : SourceRegistry} {stripe : String → Nat}

/-- The server takes the step by itself. -/
def isInternal : SourceLabel → Bool
  | .loaded _ _ | .thread _ _ _ | .executor _ _ => true
  | .findSchemaModel _ | .refreshSchema _ | .deleteSchema _ | .createSchema _ | .deploySourceVdb _ _ =>
      false

/-- What the Teiid server is to load, and the executor to take up. -/
def background (s : SourceServer) : Nat :=
  (s.deployed.map SourceVdb.work).sum + (s.queue.map SourceTask.work).sum

/-- What the task of the executor has left to do. -/
def executorWork (s : SourceServer) : Nat :=
  match s.executor with
  | none => 0
  | some (_, mode, pc) => 1 + pc.work mode

/-- All the work that is left. -/
def work (s : SourceServer) : Nat :=
  s.background + (s.threads.map SourceThread.work).sum + s.executorWork

/-- No two VDBs are deployed under one name. -/
def DistinctNames (s : SourceServer) : Prop := (s.deployed.map (·.name)).Nodup

/-! ## What a step of a thread spends -/

/-- A thread goes from a point with so much work left to one with less, and adds no more than the
difference to what is to be loaded and taken up. -/
structure Spends (s t : SourceServer) (before after : Nat) : Prop where
  /-- the work left, with the points of the thread, gets less -/
  background : t.background + after < s.background + before
  executor : t.executor = s.executor
  threads : t.threads = s.threads
  names : DistinctNames s → DistinctNames t

/-- A step that changes nothing but its own program point. -/
theorem Spends.of_lt {s : SourceServer} {before after : Nat} (h : after < before) :
    Spends s s before after where
  background := by omega
  executor := rfl
  threads := rfl
  names hs := hs

/-- Undeploying a VDB only takes work away. -/
theorem Spends.undeploy {s : SourceServer} {name : String} {before after : Nat} (h : after < before) :
    Spends s (s.undeploy name) before after where
  background := by
    have hle := sum_map_filter_le SourceVdb.work (fun vdb => decide (vdb.name ≠ name)) s.deployed
    unfold SourceServer.background SourceServer.undeploy
    dsimp only
    omega
  executor := rfl
  threads := rfl
  names hs := hs.sublist (List.filter_sublist.map _)

/-- A task that is queued is paid for by the thread that queues it. -/
theorem Spends.execute {s : SourceServer} {task : SourceTask} {before after : Nat}
    (h : task.work + after < before) : Spends s (s.execute task) before after where
  background := by
    unfold SourceServer.background SourceServer.execute
    simp only [List.map_append, List.sum_append, List.map_cons, List.map_nil, List.sum_cons, List.sum_nil]
    omega
  executor := rfl
  threads := rfl
  names hs := hs

/-- A VDB that starts to load is paid for by its deployment. -/
theorem Spends.deploy {s : SourceServer} {vdb : SourceVdb} {succeeds : Bool} {before after : Nat}
    (h : vdb.work + after < before) : Spends s (s.deploy vdb succeeds) before after where
  background := by
    have hle := sum_map_filter_le SourceVdb.work (fun old => decide (old.name ≠ vdb.name)) s.deployed
    have hnew : ((if succeeds then [vdb] else []).map SourceVdb.work).sum ≤ vdb.work := by
      cases succeeds with
      | false => simp
      | true => simp
    unfold SourceServer.background SourceServer.deploy
    simp only [List.map_append, List.sum_append]
    omega
  executor := rfl
  threads := rfl
  -- the VDB of the same name is replaced, so the names stay distinct
  names hs := by
    have hkept : ((s.deployed.filter (·.name ≠ vdb.name)).map (·.name)).Nodup :=
      hs.sublist (List.filter_sublist.map _)
    unfold DistinctNames SourceServer.deploy
    cases succeeds with
    | false => simpa using hkept
    | true =>
        rw [if_pos rfl, List.map_append]
        refine List.Nodup.append hkept (List.nodup_singleton _) ?_
        rintro name hold hnew
        obtain rfl := List.mem_singleton.mp hnew
        obtain ⟨old, hmem, hname⟩ := List.mem_map.mp hold
        exact absurd hname (of_decide_eq_true (List.mem_filter.mp hmem).2)

/-- A VDB that is generated from a ddl does not load. -/
theorem work_generateSourceVdb (s : SourceServer) (source : TeiidDataSource) (ddl : Option String)
    (valid : Bool) : (s.generateSourceVdb source ddl valid).work ≤ loadWork ddl := by
  cases ddl with
  | none => exact Nat.le_refl _
  | some ddl => cases valid <;> exact Nat.le_refl _

/-- A deployment spends more than it brings, in each of its steps. -/
theorem doDeploySourceVdb_spends {s t : SourceServer} {source : TeiidDataSource}
    {mode : SourceDeploymentMode} {pc next : DeployPc} {succeeds valid : Bool}
    (h : doDeploySourceVdb stripe s source mode pc succeeds valid = some (t, next)) :
    Spends s t (pc.work mode) (next.work mode) := by
  cases pc with
  | findSchemaModel =>
      simp only [doDeploySourceVdb] at h
      split at h <;> cases h <;> exact .of_lt (by simp only [DeployPc.work]; omega)
  | findSchemaBySourceId =>
      simp only [doDeploySourceVdb] at h
      split at h
      · cases h
        exact .of_lt (by simp only [DeployPc.work]; omega)
      · rename_i schema _
        split at h
        · cases h
          exact .of_lt (by simp only [DeployPc.work]; omega)
        · rename_i hreuses
          cases h
          refine .of_lt ?_
          -- without a ddl the row is read to load one, which a mode that reuses never does
          have hload : loadWork (if mode = .refresh then none else schema.ddl) ≤ mode.work := by
            unfold loadWork SourceDeploymentMode.work
            cases hddl : schema.ddl with
            | none =>
                rw [hddl] at hreuses
                cases mode <;> simp_all [reuses]
            | some ddl => cases mode <;> simp [reuses]
          simp only [DeployPc.work]
          omega
  | getVdb ddl =>
      simp only [doDeploySourceVdb] at h
      split at h <;> cases h <;> exact .of_lt (by simp only [DeployPc.work]; omega)
  | lock ddl =>
      simp only [doDeploySourceVdb] at h
      split at h <;> cases h
      exact .of_lt (by simp only [DeployPc.work]; omega)
  | recheck ddl =>
      simp only [doDeploySourceVdb] at h
      split at h <;> cases h <;> exact .of_lt (by simp only [DeployPc.work]; omega)
  | deploy ddl =>
      simp only [doDeploySourceVdb] at h
      split at h
      · cases h
        exact .undeploy (by simp only [DeployPc.work]; omega)
      · cases h
        have hload := work_generateSourceVdb s source ddl valid
        exact .deploy (by simp only [DeployPc.work]; omega)
  | unlock ddl deployed =>
      cases h
      refine .of_lt ?_
      split
      · show 2 < 3
        omega
      · show 0 < 3
        omega
  | refresh =>
      cases h
      exact .execute (by show 1 + 0 < 2; omega)
  | done => cases h

/-- The completion of a load spends more than it brings: the task it executes replaces with the stored
ddl, and loads no more. -/
theorem finishedDeployment_spends {s t : SourceServer} {vdb : SourceVdb} {modelDdl : String}
    {pc next : FinishedPc} {succeeds : Bool}
    (h : finishedDeployment stripe s vdb modelDdl pc succeeds = some (t, next)) :
    Spends s t pc.work next.work := by
  -- one case for each point; only `undeploy` and `save` change more than the point
  cases pc with
  | lock =>
      simp only [finishedDeployment] at h
      split at h <;> cases h
      exact .of_lt (by show 14 < 15; omega)
  | undeploy =>
      simp only [finishedDeployment] at h
      split at h <;> cases h
      · exact .undeploy (by show 13 < 14; omega)
      · exact .of_lt (by show 13 < 14; omega)
  | unlock modelDdl =>
      cases modelDdl <;> cases h
      · exact .of_lt (by show 0 < 13; omega)
      · exact .of_lt (by show 12 < 13; omega)
  | save ddl =>
      simp only [finishedDeployment] at h
      split at h
      · split at h
        · cases h
          exact .of_lt (by show 0 < 12; omega)
        · split at h
          · cases h
            exact .of_lt (by show 0 < 12; omega)
          · cases h
            exact ⟨by show _ + 11 < _ + 12; exact Nat.lt_succ_self _, rfl, rfl, fun hs => hs⟩
      · cases h
        exact .of_lt (by show 11 < 12; omega)
  | execute =>
      cases h
      exact .execute (by show 10 + 0 + 0 < 11; omega)
  | done => cases h

/-- The deletion of a schema spends more than the task costs that removes its VDB. -/
theorem deleteSchema_spends {s t : SourceServer} {source : TeiidDataSource} {pc next : DeleteSchemaPc}
    (h : deleteSchema s source pc = some (t, next)) : Spends s t pc.work next.work := by
  cases pc with
  | commit =>
      simp only [deleteSchema] at h
      split at h <;> cases h
      · exact .of_lt (by show 0 < 3; omega)
      · exact ⟨by show _ + 2 < _ + 3; exact Nat.lt_succ_self _, rfl, rfl, fun hs => hs⟩
  | execute =>
      cases h
      exact .execute (by show 1 + 0 < 2; omega)
  | done => cases h

/-! ## Steps of the server -/

/-- A step lowers the work that is left, and VDBs keep names of their own. -/
structure Descends (s t : SourceServer) : Prop where
  work : t.work < s.work
  names : DistinctNames s → DistinctNames t

/-- What one thread spends is spent by the server. -/
theorem descends_of_spends {s t : SourceServer} {index : Nat} {old new : SourceThread}
    (hold : s.threads[index]? = some old) (h : Spends s t old.work new.work) :
    Descends s { t with threads := s.threads.set index new } where
  work := by
    have hsum := sum_map_set SourceThread.work hold new
    have hbackground := h.background
    have hexecutor : t.executorWork = s.executorWork := by
      unfold executorWork
      rw [h.executor]
    show t.background + ((s.threads.set index new).map SourceThread.work).sum + t.executorWork < s.work
    unfold SourceServer.work
    omega
  names := h.names

/-- Each step of a thread lowers the work that is left. -/
theorem threadStep_descends {s t : SourceServer} {index : Nat} {succeeds valid : Bool}
    (h : threadStep stripe s index succeeds valid = some t) : Descends s t := by
  unfold threadStep at h
  split at h
  · cases h
  · rename_i source mode pc hold
    obtain ⟨⟨u, next⟩, hstep, rfl⟩ := Option.map_eq_some_iff.mp h
    exact descends_of_spends hold (doDeploySourceVdb_spends hstep)
  · rename_i vdb modelDdl pc hold
    obtain ⟨⟨u, next⟩, hstep, rfl⟩ := Option.map_eq_some_iff.mp h
    exact descends_of_spends hold (finishedDeployment_spends hstep)
  · rename_i source pc hold
    obtain ⟨⟨u, next⟩, hstep, rfl⟩ := Option.map_eq_some_iff.mp h
    exact descends_of_spends hold (deleteSchema_spends hstep)

/-- A task that is taken off the queue costs what its deployment starts with, and more. -/
theorem descends_of_task {s t : SourceServer} {task : SourceTask} {queue : List SourceTask}
    (hqueue : s.queue = task :: queue) (hthreads : t.threads = s.threads)
    (hwork : t.background + t.executorWork < { s with queue := queue }.background + task.work)
    (hnames : DistinctNames s → DistinctNames t) : Descends s t where
  work := by
    have hbefore : s.background = { s with queue := queue }.background + task.work := by
      unfold background
      dsimp only
      rw [hqueue, List.map_cons, List.sum_cons]
      omega
    unfold SourceServer.work
    rw [hthreads]
    omega
  names := hnames

/-- A task that is taken up leaves less than was queued. -/
theorem takeTask_descends {s t : SourceServer} (hidle : s.executor = none)
    (h : takeTask registry s = some t) : Descends s t := by
  unfold takeTask at h
  split at h
  · cases h
  · rename_i teiidName queue hqueue
    cases h
    have hspends : Spends { s with queue := queue }
        ({ s with queue := queue }.undeploy (getWorkspaceSourceVdbName teiidName)) 1 0 :=
      .undeploy (by omega)
    -- the weight of the task pays for what it starts
    refine descends_of_task hqueue rfl ?_ hspends.names
    have hexecutor : SourceServer.executorWork
        ({ s with queue := queue }.undeploy (getWorkspaceSourceVdbName teiidName)) = 0 := by
      show SourceServer.executorWork s = 0
      unfold executorWork
      rw [hidle]
    rw [hexecutor]
    exact hspends.background
  · rename_i queue hqueue
    cases h
    refine descends_of_task hqueue rfl ?_ fun hs => hs
    have hexecutor : ({ s with queue := queue } : SourceServer).executorWork = 0 := by
      show SourceServer.executorWork s = 0
      unfold executorWork
      rw [hidle]
    rw [hexecutor]
    exact Nat.lt_succ_self _
  · rename_i teiidSourceName mode queue hqueue
    cases h
    refine descends_of_task hqueue rfl ?_ fun hs => hs
    show _ + _ < _ + (10 + mode.work)
    -- a source no longer registered starts nothing, another the points of one deployment
    refine Nat.add_lt_add_left ?_ _
    unfold executorWork
    cases registry.getDataSource teiidSourceName with
    | none =>
        show 0 < 10 + mode.work
        omega
    | some source =>
        show 1 + (8 + mode.work) < 10 + mode.work
        omega

/-- Each step of the executor lowers the work that is left. -/
theorem executorStep_descends {s t : SourceServer} {succeeds valid : Bool}
    (h : executorStep registry stripe s succeeds valid = some t) : Descends s t := by
  unfold executorStep at h
  split at h
  · rename_i hidle
    exact takeTask_descends hidle h
  · rename_i source mode hexecutor
    cases h
    refine ⟨?_, fun hs => hs⟩
    have hbefore : s.executorWork = 1 := by
      unfold executorWork
      rw [hexecutor]
      rfl
    show s.background + (s.threads.map SourceThread.work).sum + 0 < s.work
    unfold SourceServer.work
    omega
  -- within a deployment the points count down
  · rename_i source mode pc _ hexecutor
    obtain ⟨⟨u, next⟩, hstep, rfl⟩ := Option.map_eq_some_iff.mp h
    have hspends := doDeploySourceVdb_spends hstep
    refine ⟨?_, hspends.names⟩
    have hbackground := hspends.background
    have hbefore : s.executorWork = 1 + pc.work mode := by
      unfold executorWork
      rw [hexecutor]
    show u.background + (u.threads.map SourceThread.work).sum + (1 + next.work mode) < s.work
    rw [hspends.threads]
    unfold SourceServer.work
    omega

/-- The status that is set at the end of a load. -/
def setStatus (vdbName : String) (status : VdbStatus) (vdb : SourceVdb) : SourceVdb :=
  if vdb.name = vdbName then { vdb with status := status } else vdb

/-- A VDB that is done loading has less to do. -/
theorem work_setStatus_le {vdbName : String} {status : VdbStatus} (h : status ≠ .loading)
    (vdb : SourceVdb) : (setStatus vdbName status vdb).work ≤ vdb.work := by
  unfold setStatus
  split
  · unfold SourceVdb.work
    rw [if_neg h]
    exact Nat.zero_le _
  · exact Nat.le_refl _

/-- When one VDB is done loading, all of them together have no more to do. -/
theorem sum_work_setStatus_le (vdbName : String) {status : VdbStatus} (h : status ≠ .loading)
    (l : List SourceVdb) :
    ((l.map (setStatus vdbName status)).map SourceVdb.work).sum ≤ (l.map SourceVdb.work).sum := by
  induction l with
  | nil => exact Nat.le_refl _
  | cons vdb l ih =>
      simp only [List.map_cons, List.sum_cons]
      exact Nat.add_le_add (work_setStatus_le h vdb) ih

/-- A VDB that is no longer loading was worth the thread that completes it. -/
theorem sum_work_setStatus {l : List SourceVdb} {vdb : SourceVdb} {status : VdbStatus} (hvdb : vdb ∈ l)
    (hloading : vdb.status = .loading) (h : status ≠ .loading) :
    ((l.map (setStatus vdb.name status)).map SourceVdb.work).sum + 16 ≤ (l.map SourceVdb.work).sum := by
  obtain ⟨before, after, rfl⟩ := List.append_of_mem hvdb
  have hbefore := sum_work_setStatus_le vdb.name h before
  have hafter := sum_work_setStatus_le vdb.name h after
  have hset : (setStatus vdb.name status vdb).work = 0 := by
    unfold setStatus SourceVdb.work
    rw [if_pos rfl, if_neg h]
  have hwork : vdb.work = 16 := if_pos hloading
  simp only [List.map_append, List.sum_append, List.map_cons, List.sum_cons, hset, hwork]
  omega

/-- A load that ends sets the status and starts its completion. -/
theorem loaded_cases {s t : SourceServer} {vdbName : String} {outcome : Except String String}
    (h : loaded s vdbName outcome = some t) :
    ∃ vdb status modelDdl, s.getVdb vdbName = some vdb ∧ vdb.status = .loading ∧ status ≠ .loading ∧
      t = { s with
            deployed := s.deployed.map (setStatus vdbName status)
            threads :=
              s.threads ++ [.finishedDeployment { vdb with status := status } modelDdl .lock] } := by
  unfold loaded at h
  split at h
  · cases h
  · rename_i vdb hvdb
    split at h
    · rename_i hloading
      cases outcome with
      | ok schema =>
          cases h
          exact ⟨vdb, .active, schema, hvdb, hloading, nofun, rfl⟩
      | error message =>
          cases h
          exact ⟨vdb, .failed, failedDdl ++ message, hvdb, hloading, nofun, rfl⟩
    · cases h

/-- The status of a VDB does not change its name. -/
theorem name_setStatus (vdbName : String) (status : VdbStatus) (vdb : SourceVdb) :
    (setStatus vdbName status vdb).name = vdb.name := by
  unfold setStatus
  split <;> rfl

/-- A VDB that has loaded, or failed to, lowers the work that is left. -/
theorem loaded_descends {s t : SourceServer} {vdbName : String} {outcome : Except String String}
    (h : loaded s vdbName outcome = some t) : Descends s t := by
  obtain ⟨vdb, status, modelDdl, hvdb, hloading, hstatus, rfl⟩ := loaded_cases h
  obtain rfl : vdb.name = vdbName := key_of_find? hvdb
  have hsum := sum_work_setStatus (List.mem_of_find?_eq_some hvdb) hloading hstatus
  refine ⟨?_, fun hs => ?_⟩
  · unfold SourceServer.work background executorWork
    simp only [List.map_append, List.sum_append, List.map_cons, List.sum_cons, List.map_nil,
      List.sum_nil, SourceThread.work, FinishedPc.work]
    omega
  · unfold DistinctNames
    rw [List.map_map]
    exact (List.map_congr_left fun other _ => name_setStatus vdb.name status other) ▸ hs

/-! ## Requests -/

/-- A step the server takes by itself lowers the work that is left. -/
theorem next_descends {s t : SourceServer} {label : SourceLabel} (hinternal : isInternal label = true)
    (h : next registry stripe s label = some t) : Descends s t := by
  cases label with
  | loaded vdbName outcome => exact loaded_descends h
  | thread index succeeds valid => exact threadStep_descends h
  | executor succeeds valid => exact executorStep_descends h
  | findSchemaModel _ | refreshSchema _ | deleteSchema _ | createSchema _ | deploySourceVdb _ _ =>
      cases hinternal

/-- A request brings the work of one thread. -/
theorem work_enter {s t : SourceServer} {teiidSourceName : String}
    {entered : TeiidDataSource → SourceThread} (hentered : ∀ source, (entered source).work ≤ 26)
    (h : enter registry s teiidSourceName entered = some t) :
    t.work ≤ s.work + 26 ∧ t.deployed = s.deployed := by
  obtain ⟨source, _, rfl⟩ := Option.map_eq_some_iff.mp h
  have hle := hentered source
  refine ⟨?_, rfl⟩
  unfold SourceServer.work background executorWork
  simp only [List.map_append, List.sum_append, List.map_cons, List.sum_cons, List.map_nil, List.sum_nil]
  omega

/-- A request raises the work that is left by what it asks for, and deploys nothing itself. -/
theorem next_raises {s t : SourceServer} {label : SourceLabel} (hrequest : isInternal label = false)
    (h : next registry stripe s label = some t) :
    t.work ≤ s.work + 26 ∧ t.deployed = s.deployed := by
  -- each request adds at most one thread and the tasks this can queue
  cases label with
  | findSchemaModel teiidSourceName =>
      exact work_enter (fun source => by show 9 + 0 ≤ 26; omega) h
  | refreshSchema teiidSourceName =>
      exact work_enter (fun source => by show 8 + 16 ≤ 26; omega) h
  | deleteSchema teiidSourceName =>
      exact work_enter (fun source => by show 3 ≤ 26; omega) h
  | createSchema teiidSourceName =>
      unfold next at h
      dsimp only at h
      split at h
      · cases h
      · unfold createSchema at h
        split at h
        · cases h
        · cases h
          exact ⟨Nat.le_add_right _ _, rfl⟩
  | deploySourceVdb teiidSourceName mode =>
      cases h
      refine ⟨?_, rfl⟩
      have hmode : mode.work ≤ 16 := by
        unfold SourceDeploymentMode.work
        split <;> omega
      unfold SourceServer.work background executorWork execute
      simp only [List.map_append, List.sum_append, List.map_cons, List.sum_cons, List.map_nil,
        List.sum_nil, SourceTask.work]
      omega
  | loaded _ _ | thread _ _ _ | executor _ _ => cases hrequest

/-- A deployment replaces the VDB of its name, so names stay distinct. -/
theorem distinctNames_of_next {s t : SourceServer} {label : SourceLabel} (hs : DistinctNames s)
    (h : next registry stripe s label = some t) : DistinctNames t := by
  cases hinternal : isInternal label with
  | true => exact (next_descends hinternal h).names hs
  | false =>
      unfold DistinctNames
      rw [(next_raises hinternal h).2]
      exact hs

/-! ## Where it stops -/

/-- The threads and the executor hold no lock. -/
def Unlocked (s : SourceServer) : Prop :=
  (∀ thread ∈ s.threads, thread.locks = none) ∧
    ∀ source mode pc, s.executor = some (source, mode, pc) → pc.locks source = none

/-- Where no thread holds a lock, every lock is free. -/
theorem lockFree_of_unlocked {s : SourceServer} (h : Unlocked s) (vdbName : String) :
    lockFree stripe s vdbName = true := by
  unfold lockFree
  simp only [Bool.and_eq_true, List.all_eq_true, Option.all_eq_true]
  refine ⟨fun thread hthread other hother => ?_, ?_⟩
  · rw [h.1 thread hthread] at hother
    cases hother
  · rintro ⟨source, mode, pc⟩ hexecutor other hother
    rw [h.2 source mode pc hexecutor] at hother
    cases hother

/-- A deployment goes on unless it has returned or waits for its lock. -/
theorem doDeploySourceVdb_isSome {s : SourceServer} {source : TeiidDataSource}
    (mode : SourceDeploymentMode) {pc : DeployPc} (hdone : pc ≠ .done)
    (hfree : pc.locks source = none → ∀ vdbName, lockFree stripe s vdbName = true) :
    ∃ t next, doDeploySourceVdb stripe s source mode pc true true = some (t, next) := by
  -- only the point that takes the lock may have to wait
  cases pc with
  | findSchemaModel =>
      simp only [doDeploySourceVdb]
      split <;> exact ⟨_, _, rfl⟩
  | findSchemaBySourceId =>
      simp only [doDeploySourceVdb]
      split
      · exact ⟨_, _, rfl⟩
      · split <;> exact ⟨_, _, rfl⟩
  | getVdb ddl | recheck ddl | deploy ddl =>
      simp only [doDeploySourceVdb]
      split <;> exact ⟨_, _, rfl⟩
  | lock ddl =>
      simp only [doDeploySourceVdb]
      rw [if_pos (hfree rfl _)]
      exact ⟨_, _, rfl⟩
  | unlock ddl deployed => exact ⟨_, _, rfl⟩
  | refresh => exact ⟨_, _, rfl⟩
  | done => exact absurd rfl hdone

/-- A completion goes on, unless it waits for a lock. -/
theorem finishedDeployment_isSome {s : SourceServer} {vdb : SourceVdb} (modelDdl : String)
    {pc : FinishedPc} (hdone : pc ≠ .done)
    (hfree : pc.locks vdb = none → ∀ vdbName, lockFree stripe s vdbName = true) :
    ∃ t next, finishedDeployment stripe s vdb modelDdl pc true = some (t, next) := by
  cases pc with
  | lock =>
      simp only [finishedDeployment]
      rw [if_pos (hfree rfl _)]
      exact ⟨_, _, rfl⟩
  | undeploy => exact ⟨_, _, rfl⟩
  | unlock modelDdl => cases modelDdl <;> exact ⟨_, _, rfl⟩
  | save ddl =>
      simp only [finishedDeployment]
      split
      · split
        · exact ⟨_, _, rfl⟩
        · split <;> exact ⟨_, _, rfl⟩
      · exact ⟨_, _, rfl⟩
  | execute => exact ⟨_, _, rfl⟩
  | done => exact absurd rfl hdone

/-- The deletion of a schema waits for nothing. -/
theorem deleteSchema_isSome (s : SourceServer) (source : TeiidDataSource) {pc : DeleteSchemaPc}
    (hdone : pc ≠ .done) : ∃ t next, deleteSchema s source pc = some (t, next) := by
  cases pc with
  | commit =>
      simp only [deleteSchema]
      split <;> exact ⟨_, _, rfl⟩
  | execute => exact ⟨_, _, rfl⟩
  | done => exact absurd rfl hdone

/-- A thread goes on unless it has returned or waits for its lock. -/
theorem threadStep_isSome {s : SourceServer} {index : Nat} {thread : SourceThread}
    (hthread : s.threads[index]? = some thread) (hdone : thread.isDone = false)
    (hfree : thread.locks = none → ∀ vdbName, lockFree stripe s vdbName = true) :
    ∃ t, threadStep stripe s index true true = some t := by
  unfold threadStep
  rw [hthread]
  cases thread with
  | doDeploySourceVdb source mode pc =>
      have hpc : pc ≠ .done := by
        rintro rfl
        cases hdone
      obtain ⟨t, next, hstep⟩ := doDeploySourceVdb_isSome mode hpc hfree
      exact ⟨_, Option.map_eq_some_iff.mpr ⟨_, hstep, rfl⟩⟩
  | finishedDeployment vdb modelDdl pc =>
      have hpc : pc ≠ .done := by
        rintro rfl
        cases hdone
      obtain ⟨t, next, hstep⟩ := finishedDeployment_isSome modelDdl hpc hfree
      exact ⟨_, Option.map_eq_some_iff.mpr ⟨_, hstep, rfl⟩⟩
  | deleteSchema source pc =>
      have hpc : pc ≠ .done := by
        rintro rfl
        cases hdone
      obtain ⟨t, next, hstep⟩ := deleteSchema_isSome s source hpc
      exact ⟨_, Option.map_eq_some_iff.mpr ⟨_, hstep, rfl⟩⟩

/-- The executor goes on with its task, unless it waits for a lock. -/
theorem executorStep_isSome {s : SourceServer} {source : TeiidDataSource} {mode : SourceDeploymentMode}
    {pc : DeployPc} (hexecutor : s.executor = some (source, mode, pc))
    (hfree : pc.locks source = none → ∀ vdbName, lockFree stripe s vdbName = true) :
    ∃ t, executorStep registry stripe s true true = some t := by
  unfold executorStep
  rw [hexecutor]
  by_cases hdone : pc = .done
  · subst hdone
    exact ⟨_, rfl⟩
  · obtain ⟨t, next, hstep⟩ := doDeploySourceVdb_isSome mode hdone hfree
    split
    · rename_i h
      cases h
    · rename_i h
      cases h
      exact absurd rfl hdone
    · rename_i h
      cases h
      exact ⟨_, Option.map_eq_some_iff.mpr ⟨_, hstep, rfl⟩⟩

/-- The server has nothing to do by itself. -/
def Stopped (registry : SourceRegistry) (stripe : String → Nat) (s : SourceServer) : Prop :=
  ∀ label, isInternal label = true → next registry stripe s label = none

/-- In a server that has stopped, a thread has returned or waits for its lock. -/
theorem done_of_stopped {s : SourceServer} (h : Stopped registry stripe s) {thread : SourceThread}
    (hthread : thread ∈ s.threads)
    (hfree : thread.locks = none → ∀ vdbName, lockFree stripe s vdbName = true) :
    thread.isDone = true := by
  by_contra hdone
  obtain ⟨index, hindex⟩ := List.mem_iff_getElem?.mp hthread
  obtain ⟨t, hstep⟩ := threadStep_isSome hindex (Bool.eq_false_iff.mpr hdone) hfree
  have hnone : threadStep stripe s index true true = none := h (.thread index true true) rfl
  rw [hstep] at hnone
  cases hnone

/-- A server that has stopped in a task waits for a lock there. -/
theorem waits_of_stopped {s : SourceServer} (h : Stopped registry stripe s) {source : TeiidDataSource}
    {mode : SourceDeploymentMode} {pc : DeployPc} (hexecutor : s.executor = some (source, mode, pc)) :
    ¬(pc.locks source = none → ∀ vdbName, lockFree stripe s vdbName = true) := by
  intro hfree
  have hgoes : ∃ t, executorStep registry stripe s true true = some t :=
    executorStep_isSome hexecutor hfree
  obtain ⟨t, hstep⟩ := hgoes
  have hnone : executorStep registry stripe s true true = none := h (.executor true true) rfl
  rw [hstep] at hnone
  cases hnone

/-- A thread that holds a lock has something left to do. -/
theorem isDone_of_locks {thread : SourceThread} (h : thread.locks ≠ none) : thread.isDone = false := by
  cases thread with
  | doDeploySourceVdb source mode pc => cases pc <;> first | rfl | exact absurd rfl h
  | finishedDeployment vdb modelDdl pc => cases pc <;> first | rfl | exact absurd rfl h
  | deleteSchema source pc => exact absurd rfl h

/-- The holder of a lock goes on. -/
theorem unlocked_of_stopped {s : SourceServer} (h : Stopped registry stripe s) : Unlocked s := by
  refine ⟨fun thread hthread => ?_, fun source mode pc hexecutor => ?_⟩
  · by_contra hlocks
    have hdone := done_of_stopped h hthread fun hnone => absurd hnone hlocks
    rw [isDone_of_locks hlocks] at hdone
    cases hdone
  · by_contra hlocks
    exact waits_of_stopped h hexecutor fun hnone => absurd hnone hlocks

/-- A server has stopped when it is at rest and loads no VDB, and only then. -/
theorem stopped_iff {s : SourceServer} (hnames : DistinctNames s) :
    Stopped registry stripe s ↔ AtRest s ∧ ∀ vdb ∈ s.deployed, vdb.status ≠ .loading := by
  constructor
  · intro h
    -- nothing holds a lock, so nothing waits
    have hfree : ∀ vdbName, lockFree stripe s vdbName = true :=
      lockFree_of_unlocked (unlocked_of_stopped h)
    have hexecutor : s.executor = none := by
      cases hrunning : s.executor with
      | none => rfl
      | some running => exact absurd (fun _ => hfree) (waits_of_stopped h hrunning)
    refine ⟨⟨fun thread hthread => done_of_stopped h hthread fun _ => hfree, ?_, hexecutor⟩, ?_⟩
    -- a task in the queue would be taken
    · have htask : executorStep registry stripe s true true = none := h (.executor true true) rfl
      unfold executorStep at htask
      rw [hexecutor] at htask
      change takeTask registry s = none at htask
      unfold takeTask at htask
      split at htask
      · assumption
      · cases htask
      · cases htask
      · cases htask
    · intro vdb hvdb hloading
      -- a VDB that loads could load now
      have hload : loaded s vdb.name (.ok "") = none := h (.loaded vdb.name (.ok "")) rfl
      unfold loaded getVdb at hload
      rw [find?_of_mem hnames hvdb] at hload
      dsimp only at hload
      rw [if_pos hloading] at hload
      cases hload
  · rintro ⟨⟨hthreads, hqueue, hexecutor⟩, hloading⟩ label hinternal
    cases label with
    | loaded vdbName outcome =>
        show loaded s vdbName outcome = none
        unfold loaded
        split
        · rfl
        · rename_i vdb hvdb
          exact if_neg (hloading vdb (List.mem_of_find?_eq_some hvdb))
    | thread index succeeds valid =>
        show threadStep stripe s index succeeds valid = none
        unfold threadStep
        split
        · rfl
        · rename_i source mode pc hold
          obtain rfl := eq_of_beq (hthreads _ (List.mem_of_getElem? hold))
          rfl
        · rename_i vdb modelDdl pc hold
          obtain rfl := eq_of_beq (hthreads _ (List.mem_of_getElem? hold))
          rfl
        · rename_i source pc hold
          obtain rfl := eq_of_beq (hthreads _ (List.mem_of_getElem? hold))
          rfl
    | executor succeeds valid =>
        show executorStep registry stripe s succeeds valid = none
        unfold executorStep takeTask
        rw [hexecutor, hqueue]
    | findSchemaModel _ | refreshSchema _ | deleteSchema _ | createSchema _ | deploySourceVdb _ _ =>
        cases hinternal

/-- However the threads interleave, a request costs the server at most 26 steps of its own, and the
server stops exactly when it is at rest and loads no VDB. -/
theorem comes_to_rest {s₀ s : SourceServer} {tr : List (SourceServer × SourceLabel)}
    (hstarted : started s₀) (hrun : (system registry stripe).Run s₀ tr s) :
    tr.countP (fun x => isInternal x.2) ≤ 26 * tr.countP (fun x => !isInternal x.2) ∧
      (Stopped registry stripe s ↔ AtRest s ∧ ∀ vdb ∈ s.deployed, vdb.status ≠ .loading) := by
  obtain ⟨hdeployed, hthreads, hqueue, hexecutor⟩ := hstarted
  have hnone : DistinctNames s₀ := by
    unfold DistinctNames
    rw [hdeployed]
    exact List.nodup_nil
  have hkept : ∀ u label v, DistinctNames u → (system registry stripe).step u label v →
      DistinctNames v := fun _ _ _ hu hstep => distinctNames_of_next hu hstep
  have hnames : DistinctNames s := hrun.preserves_of_all hkept hnone
  have hidle : s₀.work = 0 := by
    unfold SourceServer.work background executorWork
    rw [hdeployed, hthreads, hqueue, hexecutor]
    rfl
  -- the weight of the state goes down with each internal step, and up by 26 at most with a request
  have hinternal : ∀ u label v, True → (system registry stripe).step u label v →
      isInternal label = true → v.work < u.work :=
    fun _ _ _ _ hstep hlabel => (next_descends hlabel hstep).work
  have hrequest : ∀ u label v, True → (system registry stripe).step u label v →
      isInternal label = false → v.work ≤ u.work + 26 :=
    fun _ _ _ _ hstep hlabel => (next_raises hlabel hstep).1
  have hpaid := hrun.countP_le (fun _ _ _ _ _ => trivial) hinternal hrequest trivial
  rw [hidle] at hpaid
  exact ⟨by omega, stopped_iff hnames⟩

/-- A request that finds a ddl, and what follows it. -/
theorem comes_to_rest_requested :
    (System.stepsOf (next oneSource fun _ => 0) withDdl requested).countP (fun x => isInternal x.2) ≤
        26 * (System.stepsOf (next oneSource fun _ => 0) withDdl requested).countP
          (fun x => !isInternal x.2) ∧
      (Stopped oneSource (fun _ => 0) (System.after (next oneSource fun _ => 0) withDdl requested) ↔
        AtRest (System.after (next oneSource fun _ => 0) withDdl requested) ∧
          ∀ vdb ∈ (System.after (next oneSource fun _ => 0) withDdl requested).deployed,
            vdb.status ≠ .loading) :=
  comes_to_rest ⟨rfl, rfl, rfl, rfl⟩
    (System.run_after started (next oneSource fun _ => 0) withDdl requested)

end SourceServer

end TeiidSyndesis.Server
