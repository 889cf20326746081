/-
# TeiidSyndesis.Server.SourceStatuses — a schema that is asked for arrives.

The statuses of the sources are read off their rows: a row without a ddl is missing its schema.  A
request to load the ddl of a source goes through many hands (the queue of the executor, a deployment, the
VDB that loads, the thread that completes it) and each of them may drop it.  What is shown here is that,
where no call fails, none does: as long as the row has no ddl the request is in one of those hands.

Main results:
* `tracked_of_next` — where no call fails, every step keeps what ties a VDB that loads to its source;
* `inHands_of_next` — such a step loses no request: the row has its ddl, or the request is in some hands;
* `not_inHands_of_rest` — when the server has come to rest, no hand is left to hold one;
* `requested_schema_reported` — so after the run the status of the source does not say `missing`, and it
  is not loading.
-/
import TeiidSyndesis.Server.SourceRest

namespace TeiidSyndesis.Server

open TeiidSyndesis.Library TeiidSyndesis.Model

/-! ## The statuses -/

/-- The states `RestSyndesisSourceStatus` knows, of the source and of its schema. -/
inductive EntityState
  | active
  | failed
  | missing
  deriving DecidableEq, Repr

/-- What is reported of one source. -/
structure RestSyndesisSourceStatus where
  sourceName : String
  errors : List String := []
  schemaState : EntityState := .missing
  id : Option String := none
  loading : Bool := false
  deriving DecidableEq, Repr

/-! ## Who may have a request to load a ddl -/

/-- The deployment is to load a ddl, or reads whether it is to. -/
def DeployPc.loads : DeployPc → Bool
  | .findSchemaBySourceId => true
  | .getVdb ddl | .lock ddl | .recheck ddl | .deploy ddl => ddl.isNone
  | _ => false

/-- The completion is to save the ddl it has got. -/
def FinishedPc.saves : FinishedPc → Bool
  | .lock | .undeploy | .save _ => true
  | .unlock modelDdl => modelDdl.isSome
  | .execute | .done => false

/-- The completion has yet to undeploy its VDB. -/
def FinishedPc.undeploys : FinishedPc → Bool
  | .lock | .undeploy => true
  | _ => false

namespace SourceServer

variable {registry : SourceRegistry} {stripe : String → Nat}

/-- `setSchemaStatus`: the state of the schema is read off the row, and a VDB that loads is noted. -/
def setSchemaStatus (s : SourceServer) (schemaId : String) (status : RestSyndesisSourceStatus) :
    RestSyndesisSourceStatus :=
  let status := { status with id := some schemaId }
  match s.loadMetadata schemaId with
  | some ddl =>
      if isFailed ddl then
        { status with
          schemaState := .failed
          errors := [String.ofList (ddl.toList.drop failedDdl.length)] }
      else { status with schemaState := .active }
  | none => { status with schemaState := .missing }

/-- The status of the source of a row. -/
def sourceStatus (registry : SourceRegistry) (s : SourceServer) (teiidName : String) :
    RestSyndesisSourceStatus :=
  let status : RestSyndesisSourceStatus := { sourceName := teiidName }
  let status :=
    match registry.getDataSource teiidName with
    | some teiidSource => s.setSchemaStatus teiidSource.syndesisId status
    | none => status
  match s.getVdb (getWorkspaceSourceVdbName teiidName ++ loadSuffix) with
  | some teiidVdb => { status with loading := teiidVdb.status == .loading }
  | none => status

/-- `getSyndesisSourceStatuses`: one status for each registered source. -/
def getSyndesisSourceStatuses (registry : SourceRegistry) (s : SourceServer) :
    List RestSyndesisSourceStatus :=
  s.schemas.map fun row => sourceStatus registry s row.name

/-! ## A request in other hands -/

/-- The row of the source is there without a ddl. -/
def MissingDdl (s : SourceServer) (source : TeiidDataSource) : Prop :=
  ∃ row, s.findSchemaBySourceId source.syndesisId = some row ∧ row.ddl = none

/-- The name of the VDB that loads the ddl of a source. -/
def loadName (source : TeiidDataSource) : String := vdbNameFor source none

/-- A thread completes a load of the VDB, and has not saved what it has loaded. -/
def Completes (threads : List SourceThread) (vdbName : String) (p : FinishedPc → Bool) : Prop :=
  ∃ vdb modelDdl pc, SourceThread.finishedDeployment vdb modelDdl pc ∈ threads ∧ vdb.name = vdbName ∧
    p pc = true

/-- The request to load the ddl of the source is in one of these hands. -/
inductive InHands (s : SourceServer) (source : TeiidDataSource) : Prop
  | queued {mode : SourceDeploymentMode} : reuses mode = false →
      .deploySourceVdb source.name mode ∈ s.queue → InHands s source
  | executor {mode : SourceDeploymentMode} {pc : DeployPc} : reuses mode = false → pc.loads = true →
      s.executor = some (source, mode, pc) → InHands s source
  | thread {mode : SourceDeploymentMode} {pc : DeployPc} : reuses mode = false → pc.loads = true →
      .doDeploySourceVdb source mode pc ∈ s.threads → InHands s source
  | deployed {vdb : SourceVdb} : vdb ∈ s.deployed → vdb.name = loadName source → InHands s source
  | completed : Completes s.threads (loadName source) FinishedPc.saves → InHands s source

/-- What is deployed under the name of a load is loading, or a thread is about to undeploy it. -/
structure Tracked (registry : SourceRegistry) (s : SourceServer) : Prop where
  threads : ∀ thread ∈ s.threads, thread.source ∈ registry.sources
  running : ∀ source mode pc, s.executor = some (source, mode, pc) → source ∈ registry.sources
  /-- only load VDBs are completed -/
  finished : ∀ vdb modelDdl pc, .finishedDeployment vdb modelDdl pc ∈ s.threads →
    vdb.name = loadName vdb.source
  /-- a load VDB is loading or being completed; a connection VDB does not load in the background -/
  vdbs : ∀ vdb ∈ s.deployed, vdb.source ∈ registry.sources ∧
    (vdb.name = loadName vdb.source ∧
        (vdb.status = .loading ∨ Completes s.threads vdb.name FinishedPc.undeploys) ∨
      vdb.name = getWorkspaceSourceVdbName vdb.source.name ∧ vdb.status ≠ .loading)

/-- A VDB as a deployment leaves it. -/
def Fresh (registry : SourceRegistry) (vdb : SourceVdb) : Prop :=
  vdb.source ∈ registry.sources ∧
    (vdb.name = loadName vdb.source ∧ vdb.status = .loading ∨
      vdb.name = getWorkspaceSourceVdbName vdb.source.name ∧ vdb.status ≠ .loading)

/-- Two registered sources never load under one name. -/
theorem loadName_inj {source other : TeiidDataSource} (hsource : source ∈ registry.sources)
    (hother : other ∈ registry.sources) (h : loadName source = loadName other) : source = other := by
  have hl := congrArg String.toList h
  unfold loadName vdbNameFor at hl
  rw [String.toList_append, String.toList_append] at hl
  have hname := getWorkspaceSourceVdbName_injective (String.toList_inj.mp (List.append_cancel_right hl))
  exact source_unique hsource hother (.inl hname)

/-- A thread that moves on keeps what is completed, if its own program point does. -/
theorem completes_set {threads : List SourceThread} {index : Nat} {old new : SourceThread}
    {vdbName : String} {p : FinishedPc → Bool} (hold : threads[index]? = some old)
    (hgoes : ∀ vdb modelDdl pc, old = .finishedDeployment vdb modelDdl pc → vdb.name = vdbName →
      p pc = true → ∃ next, new = .finishedDeployment vdb modelDdl next ∧ p next = true)
    (h : Completes threads vdbName p) : Completes (threads.set index new) vdbName p := by
  obtain ⟨vdb, modelDdl, pc, hmem, hname, hpc⟩ := h
  rcases mem_set_or hold hmem new with hself | hstays
  · obtain ⟨next, rfl, hnext⟩ := hgoes vdb modelDdl pc hself.symm hname hpc
    exact ⟨vdb, modelDdl, next, List.mem_set (List.getElem?_eq_some_iff.mp hold).1 _, hname, hnext⟩
  · exact ⟨vdb, modelDdl, pc, hstays, hname, hpc⟩

/-! ## Rows without a ddl -/

/-- Whether a ddl is missing depends on the rows alone. -/
theorem missingDdl_congr {s t : SourceServer} (h : t.schemas = s.schemas) {source : TeiidDataSource}
    (ht : MissingDdl t source) : MissingDdl s source := by
  unfold MissingDdl findSchemaBySourceId at *
  rw [← h]
  exact ht

/-- A ddl that is set is missing no more, so what still misses one is another source. -/
theorem missingDdl_setDdl {s : SourceServer} {source : TeiidDataSource} {id ddl : String}
    (h : MissingDdl (s.setDdl id ddl) source) : MissingDdl s source ∧ source.syndesisId ≠ id := by
  obtain ⟨row, hrow, hddl⟩ := h
  unfold findSchemaBySourceId setDdl at hrow
  have hkeys : ∀ row : SourceSchema,
      (if row.sourceId = id then { row with ddl := some ddl } else row).sourceId = row.sourceId := by
    intro row
    split <;> rfl
  rw [find?_map_key SourceSchema.sourceId hkeys] at hrow
  obtain ⟨old, hold, rfl⟩ := Option.map_eq_some_iff.mp hrow
  by_cases hid : old.sourceId = id
  · rw [if_pos hid] at hddl
    cases hddl
  · rw [if_neg hid] at hddl
    exact ⟨⟨old, hold, hddl⟩, key_of_find? hold ▸ hid⟩

/-- Deleting other rows supplies no ddl. -/
theorem missingDdl_filter {s : SourceServer} {source : TeiidDataSource} {id : String}
    (h : MissingDdl { s with schemas := s.schemas.filter (·.sourceId ≠ id) } source) :
    MissingDdl s source := by
  obtain ⟨row, hrow, hddl⟩ := h
  unfold findSchemaBySourceId at hrow
  rw [find?_filter_key SourceSchema.sourceId] at hrow
  split at hrow
  · cases hrow
  · exact ⟨row, hrow, hddl⟩

/-- A row created for another source leaves this one as it was. -/
theorem missingDdl_createSchema {s t : SourceServer} {source other : TeiidDataSource}
    (hne : other.syndesisId ≠ source.syndesisId) (hcreate : s.createSchema other = some t)
    (h : MissingDdl t source) : MissingDdl s source := by
  unfold createSchema at hcreate
  split at hcreate
  · cases hcreate
  · cases hcreate
    obtain ⟨row, hrow, hddl⟩ := h
    refine ⟨row, ?_, hddl⟩
    unfold findSchemaBySourceId at hrow ⊢
    rw [List.find?_append] at hrow
    rcases Option.or_eq_some_iff.mp hrow with hfound | ⟨_, hnew⟩
    · exact hfound
    · rw [List.find?_singleton] at hnew
      split at hnew
      · rename_i hid
        exact absurd (of_decide_eq_true hid) hne
      · cases hnew

/-! ## Steps of deployments -/

/-- A deployment adds at most a VDB that has just been deployed for its source. -/
theorem deployed_of_deployStep {s t : SourceServer} {source : TeiidDataSource}
    {mode : SourceDeploymentMode} {pc next : DeployPc} {succeeds valid : Bool}
    (hsource : source ∈ registry.sources) (h : DeployStep s source mode succeeds valid pc t next) :
    ∀ vdb ∈ t.deployed, vdb ∈ s.deployed ∨ Fresh registry vdb := by
  cases h with
  | follows _ => exact fun vdb hvdb => .inl hvdb
  | undeploys _ => exact fun vdb hvdb => .inl (mem_undeploy.mp hvdb).1
  | refreshes => exact fun vdb hvdb => .inl hvdb
  | @deploys ddl _ =>
      intro vdb hvdb
      rcases mem_deploy hvdb with ⟨hmem, _⟩ | ⟨_, rfl⟩
      · exact .inl hmem
      · refine .inr ?_
        cases ddl with
        | none => exact ⟨hsource, .inl ⟨rfl, rfl⟩⟩
        | some ddl => exact ⟨hsource, .inr ⟨rfl, by cases valid <;> exact nofun⟩⟩

/-- A VDB of a load stays, or another of its name takes its place. -/
theorem name_of_deployStep {s t : SourceServer} {source other : TeiidDataSource}
    {mode : SourceDeploymentMode} {pc next : DeployPc} {valid : Bool} {vdb : SourceVdb}
    (h : DeployStep s source mode true valid pc t next) (hvdb : vdb ∈ s.deployed)
    (hname : vdb.name = loadName other) : ∃ kept ∈ t.deployed, kept.name = loadName other := by
  cases h with
  | follows _ => exact ⟨vdb, hvdb, hname⟩
  | refreshes => exact ⟨vdb, hvdb, hname⟩
  | @undeploys ddl _ =>
      have hne : vdb.name ≠ vdbNameFor source (some ddl) := by
        rw [hname]
        exact loadName_ne other.name source.name
      exact ⟨vdb, mem_undeploy.mpr ⟨hvdb, hne⟩, hname⟩
  | @deploys ddl _ =>
      by_cases hsame : vdb.name = (s.generateSourceVdb source ddl valid).name
      · exact ⟨_, List.mem_append_right _ (List.mem_singleton_self _), hsame ▸ hname⟩
      · exact ⟨vdb, List.mem_append_left _ (List.mem_filter.mpr ⟨hvdb, decide_eq_true hsame⟩), hname⟩

/-- A deployment writes no row and takes nothing off the queue. -/
theorem frame_of_deployStep {s t : SourceServer} {source : TeiidDataSource}
    {mode : SourceDeploymentMode} {pc next : DeployPc} {succeeds valid : Bool}
    (h : DeployStep s source mode succeeds valid pc t next) :
    t.schemas = s.schemas ∧ ∀ task ∈ s.queue, task ∈ t.queue := by
  cases h with
  | follows _ => exact ⟨rfl, fun _ htask => htask⟩
  | undeploys _ => exact ⟨rfl, fun _ htask => htask⟩
  | deploys _ => exact ⟨rfl, fun _ htask => htask⟩
  | refreshes => exact ⟨rfl, fun _ htask => List.mem_append_left _ htask⟩

/-- A deployment that is to load a ddl goes on to load it, or a VDB that does is there. -/
theorem loads_step {s t : SourceServer} {source : TeiidDataSource} {mode : SourceDeploymentMode}
    {pc next : DeployPc} {valid : Bool} (hmode : reuses mode = false) (hloads : pc.loads = true)
    (hmissing : MissingDdl s source)
    (h : doDeploySourceVdb stripe s source mode pc true valid = some (t, next)) :
    next.loads = true ∨ ∃ vdb ∈ t.deployed, vdb.name = loadName source := by
  -- what is kept is a VDB of the name
  have hkept : ∀ ddl : Option String, ddl.isNone = true →
      isKept (s.getVdb (vdbNameFor source ddl)) ddl mode = true →
      ∃ vdb ∈ s.deployed, vdb.name = loadName source := by
    intro ddl hnone hkept
    obtain rfl := Option.isNone_iff_eq_none.mp hnone
    cases hvdb : s.getVdb (vdbNameFor source none) with
    | none =>
        rw [hvdb] at hkept
        cases hkept
    | some vdb => exact ⟨vdb, List.mem_of_find?_eq_some hvdb, key_of_find? hvdb⟩
  cases pc with
  | findSchemaBySourceId =>
      obtain ⟨row, hrow, hddl⟩ := hmissing
      simp only [doDeploySourceVdb, hrow, hmode, hddl] at h
      cases h
      refine .inl ?_
      show (if mode = .refresh then none else none : Option String).isNone = true
      rw [ite_self]
      rfl
  | getVdb ddl =>
      simp only [doDeploySourceVdb] at h
      split at h
      · rename_i hexisting
        cases h
        exact .inr (hkept ddl hloads hexisting)
      · cases h
        exact .inl hloads
  | lock ddl =>
      simp only [doDeploySourceVdb] at h
      split at h <;> cases h
      exact .inl hloads
  | recheck ddl =>
      simp only [doDeploySourceVdb] at h
      split at h
      · rename_i hexisting
        cases h
        exact .inr (hkept ddl hloads hexisting)
      · cases h
        exact .inl hloads
  | deploy ddl =>
      obtain rfl := Option.isNone_iff_eq_none.mp hloads
      cases h
      exact .inr ⟨_, List.mem_append_right _ (List.mem_singleton_self _), rfl⟩
  | findSchemaModel | unlock ddl deployed | refresh | done => cases hloads

/-! ## What is tracked -/

/-- A step of a thread, where the completion of a load that is deployed goes on. -/
theorem tracked_set {s u : SourceServer} {index : Nat} {old new : SourceThread}
    (hs : Tracked registry s) (hold : s.threads[index]? = some old) (hsource : new.source = old.source)
    (hfinished : ∀ vdb modelDdl pc, new = .finishedDeployment vdb modelDdl pc →
      vdb.name = loadName vdb.source)
    (hexecutor : u.executor = s.executor)
    (hvdbs : ∀ vdb ∈ u.deployed, Fresh registry vdb ∨
      vdb ∈ s.deployed ∧ ∀ modelDdl done pc, old = .finishedDeployment done modelDdl pc →
        done.name = vdb.name → pc.undeploys = true →
        ∃ next, new = .finishedDeployment done modelDdl next ∧ next.undeploys = true) :
    Tracked registry { u with threads := s.threads.set index new } where
  threads := sources_of_set hs.threads hold hsource
  running source mode pc hrunning := hs.running source mode pc (hexecutor.symm.trans hrunning)
  finished vdb modelDdl pc hmem := by
    rcases List.mem_or_eq_of_mem_set hmem with hstays | hself
    · exact hs.finished vdb modelDdl pc hstays
    · exact hfinished vdb modelDdl pc hself.symm
  -- a load VDB that stays is still completed by the thread that has moved
  vdbs vdb hvdb := by
    rcases hvdbs vdb hvdb with ⟨hregistered, hfresh⟩ | ⟨hmem, hgoes⟩
    · exact ⟨hregistered, hfresh.imp_left fun hload => ⟨hload.1, .inl hload.2⟩⟩
    · obtain ⟨hregistered, hkind⟩ := hs.vdbs vdb hmem
      refine ⟨hregistered, hkind.imp_left fun hload => ⟨hload.1, hload.2.imp_right fun hcompletes => ?_⟩⟩
      refine completes_set hold (fun done modelDdl pc hdone hname hpc => ?_) hcompletes
      exact hgoes modelDdl done pc hdone hname hpc

/-- A step of the executor. -/
theorem tracked_of_executor {s t : SourceServer} (hs : Tracked registry s)
    (hthreads : t.threads = s.threads)
    (hrunning : ∀ source mode pc, t.executor = some (source, mode, pc) → source ∈ registry.sources)
    (hvdbs : ∀ vdb ∈ t.deployed, vdb ∈ s.deployed ∨ Fresh registry vdb) : Tracked registry t where
  threads := hthreads ▸ hs.threads
  running := hrunning
  finished := hthreads ▸ hs.finished
  vdbs vdb hvdb := by
    rw [hthreads]
    rcases hvdbs vdb hvdb with hmem | ⟨hregistered, hfresh⟩
    · exact hs.vdbs vdb hmem
    · exact ⟨hregistered, hfresh.imp_left fun hload => ⟨hload.1, .inl hload.2⟩⟩

/-- A thread that enters for a registered source is tracked from its first step. -/
theorem tracked_enter {s t : SourceServer} {teiidSourceName : String}
    {entered : TeiidDataSource → SourceThread} (hs : Tracked registry s)
    (hsource : ∀ source, (entered source).source = source)
    (hother : ∀ source vdb modelDdl pc, entered source ≠ .finishedDeployment vdb modelDdl pc)
    (h : enter registry s teiidSourceName entered = some t) : Tracked registry t := by
  obtain ⟨source, hregistered, rfl⟩ := Option.map_eq_some_iff.mp h
  refine ⟨?_, hs.running, ?_, ?_⟩
  · intro thread hthread
    rcases List.mem_append.mp hthread with hstays | hnew
    · exact hs.threads thread hstays
    · rw [List.mem_singleton.mp hnew, hsource]
      exact (mem_of_getDataSource hregistered).1
  · intro vdb modelDdl pc hthread
    rcases List.mem_append.mp hthread with hstays | hnew
    · exact hs.finished vdb modelDdl pc hstays
    · exact absurd (List.mem_singleton.mp hnew).symm (hother source vdb modelDdl pc)
  · intro vdb hvdb
    obtain ⟨hof, hkind⟩ := hs.vdbs vdb hvdb
    refine ⟨hof, hkind.imp_left fun hload => ⟨hload.1, hload.2.imp_right ?_⟩⟩
    rintro ⟨done, modelDdl, pc, hmem, hname, hpc⟩
    exact ⟨done, modelDdl, pc, List.mem_append_left _ hmem, hname, hpc⟩

/-- Threads keep what is tracked: one case for each operation a thread can be in. -/
theorem tracked_threadStep {s t : SourceServer} {index : Nat} {valid : Bool}
    (hs : Tracked registry s) (h : threadStep stripe s index true valid = some t) :
    Tracked registry t := by
  unfold threadStep at h
  split at h
  · cases h
  · rename_i source mode pc hold
    obtain ⟨⟨u, next⟩, hstep, rfl⟩ := Option.map_eq_some_iff.mp h
    have hsource : source ∈ registry.sources := hs.threads _ (List.mem_of_getElem? hold)
    refine tracked_set hs hold rfl ?_ (doDeploySourceVdb_spends hstep).executor ?_
    · intro _ _ _ hnew
      cases hnew
    · intro vdb hvdb
      -- what the deployment has added is a VDB of its own source
      rcases deployed_of_deployStep hsource (deployStep_of_eq hstep) vdb hvdb with hmem | hfresh
      · refine .inr ⟨hmem, ?_⟩
        intro _ _ _ hnew
        cases hnew
      · exact .inl hfresh
  · rename_i done modelDdl pc hold
    obtain ⟨⟨u, next⟩, hstep, rfl⟩ := Option.map_eq_some_iff.mp h
    have hname := hs.finished done modelDdl pc (List.mem_of_getElem? hold)
    refine tracked_set hs hold rfl ?_ (finishedDeployment_spends hstep).executor ?_
    · rintro _ _ _ ⟨⟩
      exact hname
    · intro vdb hvdb
      -- a completion deploys nothing; it has to keep what is completed until its VDB is gone
      refine .inr ?_
      cases pc with
      | lock =>
          simp only [finishedDeployment] at hstep
          split at hstep <;> cases hstep
          refine ⟨hvdb, ?_⟩
          rintro _ _ _ ⟨⟩ _ _
          exact ⟨.undeploy, rfl, rfl⟩
      | undeploy =>
          cases hstep
          -- the VDB that was completed is undeployed here
          obtain ⟨hmem, hne⟩ := mem_undeploy.mp hvdb
          refine ⟨hmem, ?_⟩
          rintro _ _ _ ⟨⟩ hsame _
          exact absurd hsame.symm hne
      | unlock saved =>
          refine ⟨?_, ?_⟩
          · cases saved <;> cases hstep <;> exact hvdb
          · rintro _ _ _ ⟨⟩ _ hpc
            cases hpc
      | save ddl =>
          refine ⟨?_, ?_⟩
          · simp only [finishedDeployment, if_true] at hstep
            split at hstep
            · cases hstep
              exact hvdb
            · split at hstep <;> cases hstep <;> exact hvdb
          · rintro _ _ _ ⟨⟩ _ hpc
            cases hpc
      | execute =>
          cases hstep
          refine ⟨hvdb, ?_⟩
          rintro _ _ _ ⟨⟩ _ hpc
          cases hpc
      | done => cases hstep
  · rename_i source pc hold
    obtain ⟨⟨u, next⟩, hstep, rfl⟩ := Option.map_eq_some_iff.mp h
    refine tracked_set hs hold rfl ?_ (deleteSchema_spends hstep).executor ?_
    · intro _ _ _ hnew
      cases hnew
    · intro vdb hvdb
      refine .inr ⟨?_, ?_⟩
      · cases pc with
        | commit =>
            simp only [deleteSchema] at hstep
            split at hstep <;> cases hstep <;> exact hvdb
        | execute =>
            cases hstep
            exact hvdb
        | done => cases hstep
      · intro _ _ _ hnew
        cases hnew

/-- The executor keeps what is tracked: its tasks deploy for registered sources. -/
theorem tracked_executorStep {s t : SourceServer} {succeeds valid : Bool} (hs : Tracked registry s)
    (h : executorStep registry stripe s succeeds valid = some t) : Tracked registry t := by
  -- the executor takes a task, ends one, or makes a step of a deployment
  unfold executorStep at h
  split at h
  · rename_i hidle
    unfold takeTask at h
    split at h
    · cases h
    · cases h
      exact tracked_of_executor hs rfl hs.running fun vdb hvdb => .inl (mem_undeploy.mp hvdb).1
    · cases h
      exact tracked_of_executor hs rfl hs.running fun vdb hvdb => .inl hvdb
    · cases h
      refine tracked_of_executor hs rfl ?_ fun vdb hvdb => .inl hvdb
      intro source mode pc hrunning
      obtain ⟨registered, hregistered, heq⟩ := Option.map_eq_some_iff.mp hrunning
      cases heq
      exact (mem_of_getDataSource hregistered).1
  · cases h
    exact tracked_of_executor hs rfl nofun fun vdb hvdb => .inl hvdb
  · rename_i source mode pc _ hexecutor
    obtain ⟨⟨u, next⟩, hstep, rfl⟩ := Option.map_eq_some_iff.mp h
    have hsource := hs.running source mode pc hexecutor
    have hvdbs := deployed_of_deployStep hsource (deployStep_of_eq hstep)
    refine tracked_of_executor hs (doDeploySourceVdb_spends hstep).threads ?_ hvdbs
    rintro _ _ _ ⟨⟩
    exact hsource

/-- A VDB that has loaded hands its source on to the thread that completes it. -/
theorem tracked_loaded {s t : SourceServer} {vdbName : String} {outcome : Except String String}
    (hs : Tracked registry s) (h : loaded s vdbName outcome = some t) : Tracked registry t := by
  obtain ⟨vdb, status, modelDdl, hvdb, hloading, hstatus, rfl⟩ := loaded_cases h
  obtain rfl : vdb.name = vdbName := key_of_find? hvdb
  -- a VDB that was loading is one of the load VDBs, which a completion undeploys
  obtain ⟨hregistered, hkind⟩ := hs.vdbs vdb (List.mem_of_find?_eq_some hvdb)
  have hload : vdb.name = loadName vdb.source := by
    rcases hkind with ⟨hname, _⟩ | ⟨_, hne⟩
    · exact hname
    · exact absurd hloading hne
  refine ⟨?_, hs.running, ?_, ?_⟩
  · intro thread hthread
    rcases List.mem_append.mp hthread with hstays | hnew
    · exact hs.threads thread hstays
    · rw [List.mem_singleton.mp hnew]
      exact hregistered
  · intro done ddl pc hthread
    rcases List.mem_append.mp hthread with hstays | hnew
    · exact hs.finished done ddl pc hstays
    · cases List.mem_singleton.mp hnew
      exact hload
  · intro other hother
    obtain ⟨old, hold, rfl⟩ := List.mem_map.mp hother
    obtain ⟨hof, hkind⟩ := hs.vdbs old hold
    by_cases hsame : old.name = vdb.name
    · -- the completion that starts is the one of this VDB
      have hstarts : Completes
          (s.threads ++ [.finishedDeployment { vdb with status := status } modelDdl .lock])
          vdb.name FinishedPc.undeploys :=
        ⟨_, modelDdl, .lock, List.mem_append_right _ (List.mem_singleton_self _), rfl, rfl⟩
      unfold setStatus
      rw [if_pos hsame]
      refine ⟨hof, hkind.imp (fun hname => ⟨hname.1, .inr (hsame ▸ hstarts)⟩) fun hconn => ?_⟩
      exact ⟨hconn.1, hstatus⟩
    · unfold setStatus
      rw [if_neg hsame]
      refine ⟨hof, hkind.imp_left fun hname => ⟨hname.1, hname.2.imp_right ?_⟩⟩
      rintro ⟨done, ddl, pc, hmem, hdone, hpc⟩
      exact ⟨done, ddl, pc, List.mem_append_left _ hmem, hdone, hpc⟩

/-- The call of a step does not fail. -/
def succeeds : SourceLabel → Bool
  | .thread _ succeeds _ | .executor succeeds _ => succeeds
  | .findSchemaModel _ | .refreshSchema _ | .deleteSchema _ | .createSchema _ | .deploySourceVdb _ _
  | .loaded _ _ => true

/-- Every step in which no call fails keeps what is tracked. -/
theorem tracked_of_next {s t : SourceServer} {label : SourceLabel} (hs : Tracked registry s)
    (hsucceeds : succeeds label = true) (h : next registry stripe s label = some t) :
    Tracked registry t := by
  -- requests only add threads and tasks; the others are the steps proved above
  cases label with
  | findSchemaModel teiidSourceName => exact tracked_enter hs (fun _ => rfl) (by rintro _ _ _ _ ⟨⟩) h
  | refreshSchema teiidSourceName => exact tracked_enter hs (fun _ => rfl) (by rintro _ _ _ _ ⟨⟩) h
  | deleteSchema teiidSourceName => exact tracked_enter hs (fun _ => rfl) (by rintro _ _ _ _ ⟨⟩) h
  | createSchema teiidSourceName =>
      unfold next at h
      dsimp only at h
      split at h
      · cases h
      · unfold createSchema at h
        split at h
        · cases h
        · cases h
          exact ⟨hs.threads, hs.running, hs.finished, hs.vdbs⟩
  | deploySourceVdb teiidSourceName mode =>
      cases h
      exact ⟨hs.threads, hs.running, hs.finished, hs.vdbs⟩
  | loaded vdbName outcome => exact tracked_loaded hs h
  | thread index succeeded valid =>
      obtain rfl : succeeded = true := hsucceeds
      exact tracked_threadStep hs h
  | executor succeeded valid => exact tracked_executorStep hs h

/-- A started server has no VDB and no thread, so there is nothing to track. -/
theorem tracked_of_started {s : SourceServer} (h : started s) : Tracked registry s := by
  obtain ⟨hdeployed, hthreads, _, hexecutor⟩ := h
  refine ⟨?_, ?_, ?_, ?_⟩
  · rw [hthreads]
    exact nofun
  · rw [hexecutor]
    exact nofun
  · rw [hthreads]
    exact fun _ _ _ hmem => absurd hmem List.not_mem_nil
  · rw [hdeployed]
    exact nofun

/-! ## A step keeps the request in some hands -/

/-- A request stays where it is under a step that touches none of the hands. -/
theorem inHands_of_frame {s t : SourceServer} {source : TeiidDataSource} (h : InHands s source)
    (hqueue : ∀ task ∈ s.queue, task ∈ t.queue) (hexecutor : t.executor = s.executor)
    (hthreads : ∀ thread ∈ s.threads, thread ∈ t.threads)
    (hdeployed : ∀ vdb ∈ s.deployed, vdb.name = loadName source →
      ∃ kept ∈ t.deployed, kept.name = loadName source) : InHands t source := by
  cases h with
  | queued hmode hmem => exact .queued hmode (hqueue _ hmem)
  | executor hmode hloads hat => exact .executor hmode hloads (hexecutor.trans hat)
  | thread hmode hloads hmem => exact .thread hmode hloads (hthreads _ hmem)
  | deployed hmem hname =>
      obtain ⟨kept, hkept, hsame⟩ := hdeployed _ hmem hname
      exact .deployed hkept hsame
  | completed hcompletes =>
      obtain ⟨vdb, modelDdl, pc, hmem, hname, hpc⟩ := hcompletes
      exact .completed ⟨vdb, modelDdl, pc, hthreads _ hmem, hname, hpc⟩

/-- A step of a thread that is not the one that has the request. -/
theorem inHands_set {s u : SourceServer} {source : TeiidDataSource} {index : Nat}
    {old new : SourceThread} (hold : s.threads[index]? = some old) (h : InHands s source)
    (hqueue : ∀ task ∈ s.queue, task ∈ u.queue) (hexecutor : u.executor = s.executor)
    (hdeployed : ∀ vdb ∈ s.deployed, vdb.name = loadName source →
      InHands { u with threads := s.threads.set index new } source)
    (hown : old ∈ s.threads → (∀ mode pc, old = .doDeploySourceVdb source mode pc →
        reuses mode = false → pc.loads = true →
        InHands { u with threads := s.threads.set index new } source) ∧
      ∀ vdb modelDdl pc, old = .finishedDeployment vdb modelDdl pc → vdb.name = loadName source →
        pc.saves = true → InHands { u with threads := s.threads.set index new } source) :
    InHands { u with threads := s.threads.set index new } source := by
  obtain ⟨hloads, hsaves⟩ := hown (List.mem_of_getElem? hold)
  -- whoever has the source in hand keeps it, unless it is the thread that makes the step
  cases h with
  | queued hmode hmem => exact .queued hmode (hqueue _ hmem)
  | executor hmode hpc hat => exact .executor hmode hpc (hexecutor.trans hat)
  | thread hmode hpc hmem =>
      rcases mem_set_or hold hmem new with hself | hstays
      · exact hloads _ _ hself.symm hmode hpc
      · exact .thread hmode hpc hstays
  | deployed hmem hname => exact hdeployed _ hmem hname
  | completed hcompletes =>
      obtain ⟨vdb, modelDdl, pc, hmem, hname, hpc⟩ := hcompletes
      rcases mem_set_or hold hmem new with hself | hstays
      · exact hsaves vdb modelDdl pc hself.symm hname hpc
      · exact .completed ⟨vdb, modelDdl, pc, hstays, hname, hpc⟩

/-- The completion of a load goes on until it has saved the ddl. -/
theorem saves_step {s t : SourceServer} {source : TeiidDataSource} {vdb : SourceVdb}
    {modelDdl : String} {pc next : FinishedPc} (hsaves : pc.saves = true)
    (hid : vdb.source = source) (hmissing : MissingDdl t source)
    (h : finishedDeployment stripe s vdb modelDdl pc true = some (t, next)) : next.saves = true := by
  subst hid
  cases pc with
  | lock =>
      simp only [finishedDeployment] at h
      split at h <;> cases h
      rfl
  | undeploy =>
      cases h
      rfl
  | unlock saved =>
      cases saved with
      | none => cases hsaves
      | some ddl =>
          cases h
          rfl
  | save ddl =>
      simp only [finishedDeployment, if_true] at h
      -- the row still has no text afterwards, so the point that stores one was not passed
      obtain ⟨row, hrow, hddl⟩ := hmissing
      split at h
      · rename_i hnone
        cases h
        rw [hnone] at hrow
        cases hrow
      · rename_i schema hschema
        split at h
        · rename_i hsame
          cases h
          rw [hschema] at hrow
          cases hrow
          rw [hsame] at hddl
          cases hddl
        · cases h
          exact absurd rfl (missingDdl_setDdl ⟨row, hrow, hddl⟩).2
  | execute => cases hsaves
  | done => cases hsaves

/-- A completion undeploys its own VDB only, and before it has saved the ddl. -/
theorem frame_of_finishedDeployment {s t : SourceServer} {vdb : SourceVdb} {modelDdl : String}
    {pc next : FinishedPc} {succeeds : Bool}
    (h : finishedDeployment stripe s vdb modelDdl pc succeeds = some (t, next)) :
    (∀ task ∈ s.queue, task ∈ t.queue) ∧
      ∀ other ∈ s.deployed, other ∈ t.deployed ∨ pc.saves = true ∧ other.name = vdb.name := by
  -- only two points change anything: one undeploys the load VDB, one queues a task
  have hsame : t = s → (∀ task ∈ s.queue, task ∈ t.queue) ∧
      ∀ other ∈ s.deployed, other ∈ t.deployed ∨ pc.saves = true ∧ other.name = vdb.name := by
    rintro rfl
    exact ⟨fun _ htask => htask, fun _ hother => .inl hother⟩
  cases pc with
  | lock =>
      simp only [finishedDeployment] at h
      split at h <;> cases h
      exact hsame rfl
  | undeploy =>
      simp only [finishedDeployment] at h
      split at h <;> cases h
      · refine ⟨fun _ htask => htask, fun other hother => ?_⟩
        by_cases hname : other.name = vdb.name
        · exact .inr ⟨rfl, hname⟩
        · exact .inl (mem_undeploy.mpr ⟨hother, hname⟩)
      · exact hsame rfl
  | unlock saved => cases saved <;> cases h <;> exact hsame rfl
  | save ddl =>
      simp only [finishedDeployment] at h
      split at h
      · split at h
        · cases h
          exact hsame rfl
        · split at h <;> cases h
          · exact hsame rfl
          · exact ⟨fun _ htask => htask, fun _ hother => .inl hother⟩
      · cases h
        exact hsame rfl
  | execute =>
      cases h
      exact ⟨fun _ htask => List.mem_append_left _ htask, fun _ hother => .inl hother⟩
  | done => cases h

/-- Deleting a schema changes rows only. -/
theorem frame_of_deleteSchema {s t : SourceServer} {source : TeiidDataSource}
    {pc next : DeleteSchemaPc} (h : deleteSchema s source pc = some (t, next)) :
    (∀ task ∈ s.queue, task ∈ t.queue) ∧ t.deployed = s.deployed := by
  cases pc with
  | commit =>
      simp only [deleteSchema] at h
      split at h <;> cases h <;> exact ⟨fun _ htask => htask, rfl⟩
  | execute =>
      cases h
      exact ⟨fun _ htask => List.mem_append_left _ htask, rfl⟩
  | done => cases h

/-- A thread either keeps the request, hands it on, or writes the ddl that the row was missing. -/
theorem inHands_threadStep {s t : SourceServer} {index : Nat} {valid : Bool}
    {source : TeiidDataSource} (hs : Tracked registry s) (hsource : source ∈ registry.sources)
    (hmissing : MissingDdl t source) (h : InHands s source)
    (hstep : threadStep stripe s index true valid = some t) : InHands t source := by
  unfold threadStep at hstep
  split at hstep
  · cases hstep
  · rename_i other mode pc hold
    obtain ⟨⟨u, next⟩, hdeploy, rfl⟩ := Option.map_eq_some_iff.mp hstep
    have hdeployStep := deployStep_of_eq hdeploy
    obtain ⟨hschemas, hqueue⟩ := frame_of_deployStep hdeployStep
    refine inHands_set hold h hqueue (doDeploySourceVdb_spends hdeploy).executor ?_ fun _ => ⟨?_, nofun⟩
    · intro vdb hvdb hname
      obtain ⟨kept, hkept, hsame⟩ := name_of_deployStep hdeployStep hvdb hname
      exact .deployed hkept hsame
    · rintro mode' pc' ⟨⟩ hmode hloads
      rcases loads_step hmode hloads (missingDdl_congr hschemas hmissing) hdeploy with
        hnext | ⟨vdb, hvdb, hname⟩
      · exact .thread hmode hnext (mem_set_self hold _)
      · exact .deployed hvdb hname
  · rename_i vdb modelDdl pc hold
    obtain ⟨⟨u, next⟩, hfinished, rfl⟩ := Option.map_eq_some_iff.mp hstep
    have hloadName := hs.finished vdb modelDdl pc (List.mem_of_getElem? hold)
    have hregistered : vdb.source ∈ registry.sources := hs.threads _ (List.mem_of_getElem? hold)
    have hmissing' : MissingDdl u source := hmissing
    obtain ⟨hqueue, hdeployed⟩ := frame_of_finishedDeployment hfinished
    have hsaved : vdb.name = loadName source → pc.saves = true →
        InHands { u with threads := s.threads.set index (.finishedDeployment vdb modelDdl next) }
          source := by
      intro hname hsaves
      have hid := loadName_inj hregistered hsource (hloadName.symm.trans hname)
      have hnext := saves_step hsaves hid hmissing' hfinished
      exact .completed ⟨vdb, modelDdl, next, mem_set_self hold _, hname, hnext⟩
    refine inHands_set hold h hqueue (finishedDeployment_spends hfinished).executor ?_
      fun _ => ⟨nofun, ?_⟩
    · intro other hother hname
      -- the step that undeploys a VDB has the ddl it has loaded
      rcases hdeployed other hother with hkept | ⟨hsaves, hsame⟩
      · exact .deployed hkept hname
      · exact hsaved (hsame.symm.trans hname) hsaves
    · rintro _ _ _ ⟨⟩ hname hsaves
      exact hsaved hname hsaves
  · rename_i other pc hold
    obtain ⟨⟨u, next⟩, hdelete, rfl⟩ := Option.map_eq_some_iff.mp hstep
    obtain ⟨hqueue, hdeployed⟩ := frame_of_deleteSchema hdelete
    refine inHands_set hold h hqueue (deleteSchema_spends hdelete).executor ?_ fun _ => ⟨nofun, nofun⟩
    intro vdb hvdb hname
    exact .deployed (hdeployed ▸ hvdb) hname

/-- The executor takes a task off the queue and runs it, so the request is in its own hands then. -/
theorem inHands_executorStep {s t : SourceServer} {valid : Bool} {source : TeiidDataSource}
    (hsource : source ∈ registry.sources) (hmissing : MissingDdl t source) (h : InHands s source)
    (hstep : executorStep registry stripe s true valid = some t) : InHands t source := by
  unfold executorStep at hstep
  split at hstep
  · rename_i hidle
    -- the task that is taken up is the one of the request, or another one
    have htaken : ∀ {u : SourceServer} {task : SourceTask} {queue : List SourceTask},
        s.queue = task :: queue → u.queue = queue → u.threads = s.threads →
        (∀ mode, task = .deploySourceVdb source.name mode →
          u.executor = some (source, mode, .findSchemaBySourceId)) →
        (∀ vdb ∈ s.deployed, vdb.name = loadName source → vdb ∈ u.deployed) → InHands u source := by
      intro u task queue hqueue hrest hthreads hown hdeployed
      cases h with
      | queued hmode hmem =>
          rw [hqueue] at hmem
          rcases List.mem_cons.mp hmem with hself | htail
          · exact .executor hmode rfl (hown _ hself.symm)
          · exact .queued hmode (hrest ▸ htail)
      | executor _ _ hat =>
          rw [hidle] at hat
          cases hat
      | thread hmode hloads hmem => exact .thread hmode hloads (hthreads ▸ hmem)
      | deployed hmem hname => exact .deployed (hdeployed _ hmem hname) hname
      | completed hcompletes => exact .completed (hthreads ▸ hcompletes)
    unfold takeTask at hstep
    split at hstep
    · cases hstep
    · rename_i teiidName queue hqueue
      cases hstep
      refine htaken hqueue rfl rfl nofun fun vdb hvdb hname => mem_undeploy.mpr ⟨hvdb, ?_⟩
      rw [hname]
      exact loadName_ne source.name teiidName
    · rename_i queue hqueue
      cases hstep
      exact htaken hqueue rfl rfl nofun fun _ hvdb _ => hvdb
    · rename_i teiidSourceName mode queue hqueue
      cases hstep
      refine htaken hqueue rfl rfl ?_ fun _ hvdb _ => hvdb
      rintro _ ⟨⟩
      show (registry.getDataSource source.name).map _ = _
      rw [getDataSource_of_mem hsource]
      rfl
  · rename_i mode hexecutor
    cases hstep
    cases h with
    | queued hmode hmem => exact .queued hmode hmem
    | executor _ hloads hat =>
        rw [hexecutor] at hat
        cases hat
        cases hloads
    | thread hmode hloads hmem => exact .thread hmode hloads hmem
    | deployed hmem hname => exact .deployed hmem hname
    | completed hcompletes => exact .completed hcompletes
  · rename_i other mode pc _ hexecutor
    obtain ⟨⟨u, next⟩, hdeploy, rfl⟩ := Option.map_eq_some_iff.mp hstep
    have hdeployStep := deployStep_of_eq hdeploy
    obtain ⟨hschemas, hqueue⟩ := frame_of_deployStep hdeployStep
    have hthreads := (doDeploySourceVdb_spends hdeploy).threads
    cases h with
    | queued hmode hmem => exact .queued hmode (hqueue _ hmem)
    | executor hmode hloads hat =>
        rw [hexecutor] at hat
        cases hat
        rcases loads_step hmode hloads (missingDdl_congr hschemas hmissing) hdeploy with
          hnext | ⟨vdb, hvdb, hname⟩
        · exact .executor hmode hnext rfl
        · exact .deployed hvdb hname
    | thread hmode hloads hmem => exact .thread hmode hloads (hthreads ▸ hmem)
    | deployed hmem hname =>
        obtain ⟨kept, hkept, hsame⟩ := name_of_deployStep hdeployStep hmem hname
        exact .deployed hkept hsame
    | completed hcompletes => exact .completed (hthreads ▸ hcompletes)

/-- While the row has no ddl, a step leaves the request in some hands. -/
theorem inHands_of_next {s t : SourceServer} {label : SourceLabel} {source : TeiidDataSource}
    (hs : Tracked registry s) (hsource : source ∈ registry.sources) (hsucceeds : succeeds label = true)
    (hmissing : MissingDdl t source) (h : InHands s source)
    (hstep : next registry stripe s label = some t) : InHands t source := by
  -- a thread that enters takes nothing out of the hands of another
  have hentered : ∀ {teiidSourceName : String} {entered : TeiidDataSource → SourceThread},
      enter registry s teiidSourceName entered = some t → InHands t source := by
    intro teiidSourceName entered henter
    obtain ⟨other, _, rfl⟩ := Option.map_eq_some_iff.mp henter
    exact inHands_of_frame h (fun _ htask => htask) rfl (fun _ hthread => List.mem_append_left _ hthread)
      fun vdb hvdb hname => ⟨vdb, hvdb, hname⟩
  cases label with
  | findSchemaModel teiidSourceName => exact hentered hstep
  | refreshSchema teiidSourceName => exact hentered hstep
  | deleteSchema teiidSourceName => exact hentered hstep
  | createSchema teiidSourceName =>
      unfold next at hstep
      dsimp only at hstep
      split at hstep
      · cases hstep
      · unfold createSchema at hstep
        split at hstep
        · cases hstep
        · cases hstep
          exact inHands_of_frame h (fun _ htask => htask) rfl (fun _ hthread => hthread)
            fun vdb hvdb hname => ⟨vdb, hvdb, hname⟩
  | deploySourceVdb teiidSourceName mode =>
      cases hstep
      exact inHands_of_frame h (fun _ htask => List.mem_append_left _ htask) rfl (fun _ hthread => hthread)
        fun vdb hvdb hname => ⟨vdb, hvdb, hname⟩
  | loaded vdbName outcome =>
      obtain ⟨vdb, status, modelDdl, _, _, _, rfl⟩ := loaded_cases hstep
      refine inHands_of_frame h (fun _ htask => htask) rfl
        (fun _ hthread => List.mem_append_left _ hthread) ?_
      intro other hother hname
      exact ⟨_, List.mem_map.mpr ⟨other, hother, rfl⟩, (name_setStatus _ _ other).trans hname⟩
  -- the two that do take: what they put down is taken up by the next point or by a task
  | thread index succeeded valid =>
      obtain rfl : succeeded = true := hsucceeds
      exact inHands_threadStep hs hsource hmissing h hstep
  | executor succeeded valid =>
      obtain rfl : succeeded = true := hsucceeds
      exact inHands_executorStep hsource hmissing h hstep

/-! ## Runs -/

/-- The row of the source is not created. -/
def keepsRow (source : TeiidDataSource) : SourceLabel → Bool
  | .createSchema teiidSourceName => teiidSourceName != source.name
  | _ => true

/-- Completing a deployment can only supply a ddl, never drop one. -/
theorem missingDdl_of_finished {s t : SourceServer} {source : TeiidDataSource} {vdb : SourceVdb}
    {modelDdl : String} {pc next : FinishedPc} {succeeds : Bool} (h : MissingDdl t source)
    (hstep : finishedDeployment stripe s vdb modelDdl pc succeeds = some (t, next)) :
    MissingDdl s source := by
  -- no point takes a stored text away, so a text missing now was missing before
  cases pc with
  | lock =>
      simp only [finishedDeployment] at hstep
      split at hstep <;> cases hstep
      exact h
  | undeploy =>
      simp only [finishedDeployment] at hstep
      split at hstep <;> cases hstep <;> exact h
  | unlock saved => cases saved <;> cases hstep <;> exact h
  | save ddl =>
      simp only [finishedDeployment] at hstep
      split at hstep
      · split at hstep
        · cases hstep
          exact h
        · split at hstep <;> cases hstep
          · exact h
          · exact (missingDdl_setDdl h).1
      · cases hstep
        exact h
  | execute =>
      cases hstep
      exact h
  | done => cases hstep

/-- A step that does not create the row finds it without a ddl where it leaves it so. -/
theorem missingDdl_of_next {s t : SourceServer} {label : SourceLabel} {source : TeiidDataSource}
    (hsource : source ∈ registry.sources) (hkeeps : keepsRow source label = true)
    (h : MissingDdl t source) (hstep : next registry stripe s label = some t) :
    MissingDdl s source := by
  -- a request that enters writes no row
  have hentered : ∀ {teiidSourceName : String} {entered : TeiidDataSource → SourceThread},
      enter registry s teiidSourceName entered = some t → MissingDdl s source := by
    intro teiidSourceName entered henter
    obtain ⟨other, _, rfl⟩ := Option.map_eq_some_iff.mp henter
    exact h
  cases label with
  | findSchemaModel teiidSourceName => exact hentered hstep
  | refreshSchema teiidSourceName => exact hentered hstep
  | deleteSchema teiidSourceName => exact hentered hstep
  | createSchema teiidSourceName =>
      unfold next at hstep
      dsimp only at hstep
      split at hstep
      · cases hstep
      · rename_i other hother
        obtain ⟨hregistered, hname⟩ := mem_of_getDataSource hother
        refine missingDdl_createSchema (fun hid => ?_) hstep h
        -- the row is created for another source, by the guard
        obtain rfl := source_unique hregistered hsource (.inr hid)
        simp [keepsRow, hname] at hkeeps
  | deploySourceVdb teiidSourceName mode =>
      cases hstep
      exact h
  | loaded vdbName outcome =>
      obtain ⟨vdb, status, modelDdl, _, _, _, rfl⟩ := loaded_cases hstep
      exact h
  | thread index succeeded valid =>
      change threadStep stripe s index succeeded valid = some t at hstep
      unfold threadStep at hstep
      split at hstep
      · cases hstep
      · obtain ⟨⟨u, next⟩, hdeploy, rfl⟩ := Option.map_eq_some_iff.mp hstep
        have hleft : MissingDdl u source := h
        -- a deployment writes no row
        exact missingDdl_congr (frame_of_deployStep (deployStep_of_eq hdeploy)).1 hleft
      · obtain ⟨⟨u, next⟩, hfinished, rfl⟩ := Option.map_eq_some_iff.mp hstep
        have hleft : MissingDdl u source := h
        exact missingDdl_of_finished hleft hfinished
      · rename_i other pc _
        obtain ⟨⟨u, next⟩, hdelete, rfl⟩ := Option.map_eq_some_iff.mp hstep
        have hleft : MissingDdl u source := h
        cases pc with
        | commit =>
            simp only [SourceServer.deleteSchema] at hdelete
            split at hdelete <;> cases hdelete
            · exact hleft
            · exact missingDdl_filter hleft
        | execute =>
            cases hdelete
            exact hleft
        | done => cases hdelete
  | executor succeeded valid =>
      change executorStep registry stripe s succeeded valid = some t at hstep
      unfold executorStep at hstep
      split at hstep
      · unfold takeTask at hstep
        split at hstep <;> cases hstep <;> exact h
      · cases hstep
        exact h
      · obtain ⟨⟨u, next⟩, hdeploy, rfl⟩ := Option.map_eq_some_iff.mp hstep
        have hleft : MissingDdl u source := h
        exact missingDdl_congr (frame_of_deployStep (deployStep_of_eq hdeploy)).1 hleft

/-- The request asks for a load of the ddl of the source. -/
def requestsLoad (source : TeiidDataSource) : SourceLabel → Bool
  | .refreshSchema teiidSourceName => teiidSourceName == source.name
  | .deploySourceVdb teiidSourceName mode => teiidSourceName == source.name && !reuses mode
  | _ => false

/-- A request puts the source into the hands of the queue or of a thread. -/
theorem inHands_of_request {s t : SourceServer} {label : SourceLabel} {source : TeiidDataSource}
    (hsource : source ∈ registry.sources) (hrequest : requestsLoad source label = true)
    (hstep : next registry stripe s label = some t) : InHands t source := by
  cases label with
  | refreshSchema teiidSourceName =>
      obtain rfl := eq_of_beq hrequest
      obtain ⟨other, hother, rfl⟩ := Option.map_eq_some_iff.mp hstep
      rw [getDataSource_of_mem hsource] at hother
      cases hother
      have hentered : SourceThread.doDeploySourceVdb source .refresh .findSchemaBySourceId ∈
          s.threads ++ [.doDeploySourceVdb source .refresh .findSchemaBySourceId] :=
        List.mem_append_right _ (List.mem_singleton_self _)
      exact .thread rfl rfl hentered
  | deploySourceVdb teiidSourceName mode =>
      obtain ⟨hname, hmode⟩ := Bool.and_eq_true_iff.mp hrequest
      obtain rfl := eq_of_beq hname
      cases hstep
      exact .queued (by simpa using hmode) (List.mem_append_right _ (List.mem_singleton_self _))
  | findSchemaModel _ | deleteSchema _ | createSchema _ | loaded _ _ | thread _ _ _ | executor _ _ =>
      cases hrequest

/-- A server that has stopped holds no request. -/
theorem not_inHands_of_rest {s : SourceServer} {source : TeiidDataSource} (hs : Tracked registry s)
    (hrest : AtRest s) (hloading : ∀ vdb ∈ s.deployed, vdb.status ≠ .loading) : ¬InHands s source := by
  obtain ⟨hthreads, hqueue, hexecutor⟩ := hrest
  -- at rest every thread is done, and a completion that is done does nothing more
  have hcompletes : ∀ {vdbName : String} {p : FinishedPc → Bool}, p .done = false →
      ¬Completes s.threads vdbName p := by
    rintro vdbName p hp ⟨vdb, modelDdl, pc, hmem, _, hpc⟩
    obtain rfl := eq_of_beq (hthreads _ hmem)
    rw [hp] at hpc
    cases hpc
  intro h
  cases h with
  | queued _ hmem =>
      rw [hqueue] at hmem
      cases hmem
  | executor _ _ hat =>
      rw [hexecutor] at hat
      cases hat
  | thread _ hloads hmem =>
      obtain rfl := eq_of_beq (hthreads _ hmem)
      cases hloads
  | @deployed vdb hmem hname =>
      rcases (hs.vdbs vdb hmem).2 with ⟨_, hload | hcompletion⟩ | ⟨hconn, _⟩
      · exact hloading vdb hmem hload
      -- a VDB that is no longer loading and has nobody to complete it is no load VDB
      · exact hcompletes rfl hcompletion
      · exact loadName_ne source.name vdb.source.name (hname.symm.trans hconn)
  | completed hcompletion => exact hcompletes rfl hcompletion

/-! ## What is reported -/

/-- A row with a ddl is reported as active or as failed, never as missing. -/
theorem schemaState_setSchemaStatus {s : SourceServer} {schemaId : String}
    {status : RestSyndesisSourceStatus} (h : (s.loadMetadata schemaId).isSome = true) :
    (s.setSchemaStatus schemaId status).schemaState ≠ .missing := by
  obtain ⟨ddl, hddl⟩ := Option.isSome_iff_exists.mp h
  unfold setSchemaStatus
  rw [hddl]
  dsimp only
  split
  · exact nofun
  · exact nofun

/-- The status of a schema is that of the source with the id. -/
theorem id_setSchemaStatus (s : SourceServer) (schemaId : String) (status : RestSyndesisSourceStatus) :
    (s.setSchemaStatus schemaId status).id = some schemaId := by
  unfold setSchemaStatus
  dsimp only
  split
  · split <;> rfl
  · rfl

/-- A status with the id of a source is read off its row, and off the VDB that loads its ddl. -/
theorem reported_of_sourceStatus {s : SourceServer} {source : TeiidDataSource} {teiidName : String}
    (hddl : (s.loadMetadata source.syndesisId).isSome = true)
    (hloading : ∀ vdb ∈ s.deployed, vdb.status ≠ .loading)
    (hid : (sourceStatus registry s teiidName).id = some source.syndesisId) :
    (sourceStatus registry s teiidName).schemaState ≠ .missing ∧
      (sourceStatus registry s teiidName).loading = false := by
  cases hregistered : registry.getDataSource teiidName with
  | none =>
      unfold sourceStatus at hid
      rw [hregistered] at hid
      dsimp only at hid
      split at hid <;> cases hid
  | some teiidSource =>
      unfold sourceStatus at hid ⊢
      rw [hregistered] at hid ⊢
      dsimp only at hid ⊢
      -- the status is that of the data source it names
      have hsame : teiidSource.syndesisId = source.syndesisId := by
        have hid' : (s.setSchemaStatus teiidSource.syndesisId
            { sourceName := teiidName }).id = some source.syndesisId := by
          split at hid <;> exact hid
        rw [id_setSchemaStatus] at hid'
        exact Option.some.inj hid'
      rw [← hsame] at hddl
      split
      · rename_i teiidVdb hvdb
        refine ⟨schemaState_setSchemaStatus hddl, ?_⟩
        exact beq_eq_false_iff_ne.mpr (hloading teiidVdb (List.mem_of_find?_eq_some hvdb))
      · refine ⟨schemaState_setSchemaStatus hddl, ?_⟩
        obtain ⟨ddl, hddl⟩ := Option.isSome_iff_exists.mp hddl
        unfold setSchemaStatus
        rw [hddl]
        dsimp only
        split <;> rfl

/-- The request to load the ddl of a source, where no call fails and the row is not created anew: when
the server has stopped, the row has a ddl, and the source is reported neither missing nor loading. -/
theorem requested_schema_reported {s₀ s₁ s₂ s : SourceServer}
    {before after : List (SourceServer × SourceLabel)} {label : SourceLabel} {source : TeiidDataSource}
    (hsource : source ∈ registry.sources) (hstarted : started s₀)
    (hbefore : (system registry stripe).Run s₀ before s₁)
    (hrequest : requestsLoad source label = true) (hstep : next registry stripe s₁ label = some s₂)
    (hafter : (system registry stripe).Run s₂ after s)
    (hsucceeds : ∀ x ∈ before ++ after, succeeds x.2 = true)
    (hkeeps : ∀ x ∈ after, keepsRow source x.2 = true) (hstopped : Stopped registry stripe s)
    {row : SourceSchema} (hrow : s.findSchemaBySourceId source.syndesisId = some row) :
    row.ddl.isSome = true ∧ ∀ status ∈ getSyndesisSourceStatuses registry s,
      status.id = some source.syndesisId → status.schemaState ≠ .missing ∧ status.loading = false := by
  have htracked₁ : Tracked registry s₁ := by
    have hkept : ∀ u other v, Tracked registry u → succeeds other = true →
        (system registry stripe).step u other v → Tracked registry v :=
      fun _ _ _ hu hother hnext => tracked_of_next hu hother hnext
    exact hbefore.preserves hkept (fun x hx => hsucceeds x (List.mem_append_left _ hx))
      (tracked_of_started hstarted)
  have htracked₂ : Tracked registry s₂ := by
    refine tracked_of_next htracked₁ ?_ hstep
    cases label <;> first | rfl | cases hrequest
  -- while the row has no ddl the request is in some hands
  have hkept : ∀ u other v,
      Tracked registry u ∧ (MissingDdl u source → InHands u source) →
      succeeds other = true ∧ keepsRow source other = true →
      (system registry stripe).step u other v →
      Tracked registry v ∧ (MissingDdl v source → InHands v source) := by
    rintro u other v ⟨hu, hhands⟩ ⟨hother, hkeepsRow⟩ hnext
    refine ⟨tracked_of_next hu hother hnext, fun hmissing => ?_⟩
    have hbeforehand := missingDdl_of_next hsource hkeepsRow hmissing hnext
    exact inHands_of_next hu hsource hother hmissing (hhands hbeforehand) hnext
  obtain ⟨htracked, hhands⟩ := hafter.preserves hkept
    (fun x hx => ⟨hsucceeds x (List.mem_append_right _ hx), hkeeps x hx⟩)
    ⟨htracked₂, fun _ => inHands_of_request hsource hrequest hstep⟩
  have hnames : DistinctNames s := by
    have hdistinct : ∀ u other v, DistinctNames u → (system registry stripe).step u other v →
        DistinctNames v := fun _ _ _ hu hnext => distinctNames_of_next hu hnext
    have hnone : DistinctNames s₀ := by
      unfold DistinctNames
      rw [hstarted.1]
      exact List.nodup_nil
    have hnames₁ := hbefore.preserves_of_all hdistinct hnone
    exact hafter.preserves_of_all hdistinct (distinctNames_of_next hnames₁ hstep)
  obtain ⟨hrest, hloading⟩ := (stopped_iff hnames).mp hstopped
  have hddl : row.ddl.isSome = true := by
    by_contra hnone
    have hmissing : MissingDdl s source := ⟨row, hrow, by simpa using hnone⟩
    exact not_inHands_of_rest htracked hrest hloading (hhands hmissing)
  refine ⟨hddl, fun status hstatus hid => ?_⟩
  obtain ⟨reported, _, rfl⟩ := List.mem_map.mp hstatus
  have hloaded : (s.loadMetadata source.syndesisId).isSome = true := by
    unfold loadMetadata
    rw [hrow]
    exact hddl
  exact reported_of_sourceStatus hloaded hloading hid

/-- A row without a ddl, as a new connection has it. -/
def withoutDdl : SourceServer :=
  { schemas := [{ id := 0, name := "pg", sourceId := "c1" }], nextId := 1 }

/-- The executor deploys the VDB that loads, and after the load the one that has the ddl. -/
def schemaLoads : List SourceLabel :=
  List.replicate 8 (.executor true true) ++
    .loaded "pgconn-load" (.ok "CREATE FOREIGN TABLE t (a string)") ::
      List.replicate 5 (.thread 0 true true) ++ List.replicate 10 (.executor true true)

/-- The server with the request, and where it stops. -/
def loadRequested : SourceServer := withoutDdl.execute (.deploySourceVdb "pg" .makeLive)

/-- One source, whose schema was requested and has arrived. -/
def schemaLoaded : SourceServer := System.after (next oneSource fun _ => 0) loadRequested schemaLoads

theorem requested_schema_reported_loaded :
    (schemaLoaded.loadMetadata "c1").isSome = true ∧
      ∀ status ∈ getSyndesisSourceStatuses oneSource schemaLoaded,
        status.id = some "c1" → status.schemaState ≠ .missing ∧ status.loading = false := by
  have hnames : DistinctNames schemaLoaded := by
    show (schemaLoaded.deployed.map (·.name)).Nodup
    decide
  have hstopped : Stopped oneSource (fun _ => 0) schemaLoaded :=
    (stopped_iff hnames).mpr ⟨⟨by decide, by decide, by decide⟩, by decide⟩
  have hsource : { name := "pg", translatorName := "postgresql", syndesisId := "c1" } ∈
      oneSource.sources := by
    decide
  have hstep : next oneSource (fun _ => 0) withoutDdl (.deploySourceVdb "pg" .makeLive) =
      some loadRequested := rfl
  have hrow : schemaLoaded.findSchemaBySourceId "c1" =
      some { id := 0, name := "pg", sourceId := "c1", ddl := some "CREATE FOREIGN TABLE t (a string)" } := by
    decide
  exact ⟨by decide, (requested_schema_reported hsource ⟨rfl, rfl, rfl, rfl⟩ (.nil withoutDdl) rfl hstep
    (System.run_after started (next oneSource fun _ => 0) loadRequested schemaLoads)
    (by decide) (by decide) hstopped hrow).2⟩

end SourceServer

end TeiidSyndesis.Server
