/-
# TeiidSyndesis.Server.SourceInvariant — deployed sources agree with their rows, or are to be corrected.

A change of a row is followed by a task that removes or replaces the VDB.  The invariant says of each
connection VDB that it has loaded the usable ddl of its row, or that such a task is on its way.  Threads
keep it as long as those that deploy are not too late.

Main results:
* `Inv` — the invariant, with `Settled` for each VDB and `coming` for what will correct it;
* `Moves.inv` — a step that keeps the rows and what is coming keeps the invariant;
* `deployStep_of_eq` — the inversion of one step of a deployment;
* `requestStep_inv`, `finishedStep_inv`, `deleteStep_inv`, `threadStep_inv` — steps of threads keep it.
-/
import Mathlib.Data.List.Nodup
import TeiidSyndesis.Library.Lists
import TeiidSyndesis.Library.Tables
import TeiidSyndesis.Server.SourceDeployment

namespace TeiidSyndesis.Server

open TeiidSyndesis.Library TeiidSyndesis.Model

/-! ## What is on its way -/

/-- The task a thread is about to hand to the executor. -/
def SourceThread.announces : SourceThread → Option SourceTask
  | .finishedDeployment vdb _ .execute => some (.deploySourceVdb vdb.source.name .replaceDdl)
  | .deleteSchema source .execute => some (.removeVdb source.name)
  | _ => none

/-- The ddl of the connection VDB a deployment is about to deploy. -/
def DeployPc.reads : DeployPc → Option String
  | .getVdb ddl | .lock ddl | .recheck ddl | .deploy ddl => ddl
  | _ => none

namespace SourceServer

variable {registry : SourceRegistry} {stripe : String → Nat}

/-- The task is queued, or will be by a thread that has committed. -/
def due (s : SourceServer) (task : SourceTask) : Bool :=
  decide (task ∈ s.queue) || s.threads.any fun thread => thread.announces == some task

/-- A task on its way removes the VDB, or replaces it by what is stored. -/
def coming (s : SourceServer) (source : TeiidDataSource) : Bool :=
  s.due (.removeVdb source.name) ||
    ((s.loadMetadata source.syndesisId).isSome && s.due (.deploySourceVdb source.name .replaceDdl))

/-- The executor is about to replace the VDB by what is stored. -/
def replacing (s : SourceServer) (source : TeiidDataSource) : Bool :=
  s.executor.any fun (other, mode, pc) =>
    other == source && mode == .replaceDdl && (s.loadMetadata source.syndesisId).isSome &&
      (pc == .findSchemaBySourceId || pc.reads == s.loadMetadata source.syndesisId)

/-- The row of the source is there with a ddl that is none of a failure. -/
def stored (s : SourceServer) (source : TeiidDataSource) : Bool :=
  (s.loadMetadata source.syndesisId).any fun ddl => !isFailed ddl

/-- A request thread deploys a connection VDB only while the row is there with a usable ddl, or before
the task that follows its change. -/
def deploysStored (s : SourceServer) (label : SourceLabel) : Bool :=
  match label with
  | .thread index succeeds _ =>
      match s.threads[index]? with
      | some (.doDeploySourceVdb source _ (.deploy (some ddl))) =>
          isFailed ddl || !succeeds || stored s source || coming s source || replacing s source
      | _ => true
  | _ => true

/-- A task is due if it is queued, or a thread is about to queue it. -/
theorem due_iff {s : SourceServer} {task : SourceTask} : s.due task = true ↔
    task ∈ s.queue ∨ ∃ thread ∈ s.threads, thread.announces = some task := by
  simp [due]

/-- A correction is coming if the removal of the VDB is due, or its replacement with the stored ddl. -/
theorem coming_iff {s : SourceServer} {source : TeiidDataSource} : s.coming source = true ↔
    s.due (.removeVdb source.name) = true ∨
      ((s.loadMetadata source.syndesisId).isSome = true ∧
        s.due (.deploySourceVdb source.name .replaceDdl) = true) := by
  simp [coming]

/-- The executor replaces the VDB, and has read the stored ddl or is about to. -/
theorem replacing_iff {s : SourceServer} {source : TeiidDataSource} : s.replacing source = true ↔
    ∃ pc, s.executor = some (source, .replaceDdl, pc) ∧
      (s.loadMetadata source.syndesisId).isSome = true ∧
      (pc = .findSchemaBySourceId ∨ pc.reads = s.loadMetadata source.syndesisId) := by
  simp only [replacing, Option.any_eq_true, Bool.and_eq_true, Bool.or_eq_true, beq_iff_eq]
  constructor
  · rintro ⟨⟨other, mode, pc⟩, hexecutor, ⟨⟨rfl, rfl⟩, hsome⟩, hpc⟩
    exact ⟨pc, hexecutor, hsome, hpc⟩
  · rintro ⟨pc, hexecutor, hsome, hpc⟩
    exact ⟨(source, .replaceDdl, pc), hexecutor, ⟨⟨rfl, rfl⟩, hsome⟩, hpc⟩

/-! ## The invariant -/

/-- The text a VDB has loaded is the usable ddl of its row. -/
def Usable (s : SourceServer) (source : TeiidDataSource) (text : Option String) : Prop :=
  ∃ ddl, s.loadMetadata source.syndesisId = some ddl ∧ isFailed ddl = false ∧ text = some ddl

/-- It is, or the VDB is about to be removed or replaced. -/
def Settled (s : SourceServer) (source : TeiidDataSource) (text : Option String) : Prop :=
  Usable s source text ∨ s.coming source = true ∨ s.replacing source = true

/-- Each VDB is settled, and each deployment of the executor reads what is stored or is to be corrected.
-/
structure Inv (registry : SourceRegistry) (s : SourceServer) : Prop where
  threads : ∀ thread ∈ s.threads, thread.source ∈ registry.sources
  running : ∀ source mode pc, s.executor = some (source, mode, pc) → source ∈ registry.sources
  vdbs : ∀ vdb ∈ s.deployed, vdb.source ∈ registry.sources ∧ ∃ ddl, vdb.name = vdbNameFor vdb.source ddl
  /-- the text a redeployment has read is stored, or a later task reads again -/
  executing : ∀ source mode pc ddl, s.executor = some (source, mode, pc) → pc.reads = some ddl →
    s.loadMetadata source.syndesisId = some ddl ∨ s.coming source = true
  /-- each connection VDB has the stored text, or something that changes it is on its way -/
  agreed : ∀ vdb ∈ s.deployed, vdb.name = getWorkspaceSourceVdbName vdb.source.name →
    Settled s vdb.source vdb.ddl

/-- The executor is where it was, no task is lost, and a change of a row is followed by one. -/
structure Moves (registry : SourceRegistry) (s t : SourceServer) : Prop where
  executor : t.executor = s.executor
  due : ∀ task, s.due task = true → t.due task = true
  stored : ∀ source ∈ registry.sources,
    t.loadMetadata source.syndesisId = s.loadMetadata source.syndesisId ∨ t.coming source = true

/-- What is coming keeps coming while its task is due and its row stays. -/
theorem coming_of_due {s t : SourceServer} {source : TeiidDataSource}
    (hdue : ∀ task, s.due task = true → t.due task = true)
    (hstored : t.loadMetadata source.syndesisId = s.loadMetadata source.syndesisId)
    (h : s.coming source = true) : t.coming source = true := by
  rw [coming_iff] at h ⊢
  rw [hstored]
  rcases h with hremove | ⟨hsome, hreplace⟩
  · exact .inl (hdue _ hremove)
  · exact .inr ⟨hsome, hdue _ hreplace⟩

/-- A step of another thread does not call off a correction. -/
theorem Moves.coming {s t : SourceServer} (h : Moves registry s t) {source : TeiidDataSource}
    (hsource : source ∈ registry.sources) (hcoming : s.coming source = true) :
    t.coming source = true := by
  rcases h.stored source hsource with hstored | hnew
  · exact coming_of_due h.due hstored hcoming
  · exact hnew

/-- A step of another thread leaves settled what was. -/
theorem Moves.settled {s t : SourceServer} (h : Moves registry s t) {source : TeiidDataSource}
    {text : Option String} (hsource : source ∈ registry.sources) (hs : Settled s source text) :
    Settled t source text := by
  rcases h.stored source hsource with hstored | hnew
  · rcases hs with ⟨ddl, hddl, husable⟩ | hcoming | hreplacing
    · exact .inl ⟨ddl, hstored.trans hddl, husable⟩
    · exact .inr (.inl (coming_of_due h.due hstored hcoming))
    · obtain ⟨pc, hexecutor, hsome, hpc⟩ := replacing_iff.mp hreplacing
      refine .inr (.inr (replacing_iff.mpr ⟨pc, h.executor.trans hexecutor, ?_, ?_⟩))
      · rw [hstored]
        exact hsome
      · rw [hstored]
        exact hpc
  · exact .inr (.inl hnew)

/-- What the executor has read stays current, or its correction is coming. -/
theorem Moves.executing {s t : SourceServer} (h : Moves registry s t) (hs : Inv registry s)
    {source : TeiidDataSource} {mode : SourceDeploymentMode} {pc : DeployPc} {ddl : String}
    (hexecutor : t.executor = some (source, mode, pc)) (hreads : pc.reads = some ddl) :
    t.loadMetadata source.syndesisId = some ddl ∨ t.coming source = true := by
  have hold : s.executor = some (source, mode, pc) := h.executor.symm.trans hexecutor
  have hsource := hs.running source mode pc hold
  rcases h.stored source hsource with hstored | hnew
  · rcases hs.executing source mode pc ddl hold hreads with hddl | hcoming
    · exact .inl (hstored.trans hddl)
    · exact .inr (h.coming hsource hcoming)
  · exact .inr hnew

/-- A step of another thread than the executor keeps the invariant if the VDBs it leaves were there, or
are none of a connection, or settled. -/
theorem Moves.inv {s t : SourceServer} (h : Moves registry s t) (hs : Inv registry s)
    (hthreads : ∀ thread ∈ t.threads, thread.source ∈ registry.sources)
    (hvdbs : ∀ vdb ∈ t.deployed,
      (∃ old ∈ s.deployed, old.source = vdb.source ∧ old.name = vdb.name ∧ old.ddl = vdb.ddl) ∨
        (vdb.source ∈ registry.sources ∧ (∃ ddl, vdb.name = vdbNameFor vdb.source ddl) ∧
          (vdb.name = getWorkspaceSourceVdbName vdb.source.name → Settled t vdb.source vdb.ddl))) :
    Inv registry t := by
  refine ⟨hthreads, ?_, ?_, ?_, ?_⟩
  · intro source mode pc hexecutor
    exact hs.running source mode pc (h.executor.symm.trans hexecutor)
  · intro vdb hvdb
    rcases hvdbs vdb hvdb with ⟨old, hold, hsource, hname, _⟩ | ⟨hsource, hname, _⟩
    · rw [← hsource, ← hname]
      exact hs.vdbs old hold
    · exact ⟨hsource, hname⟩
  · intro source mode pc ddl hexecutor hreads
    exact h.executing hs hexecutor hreads
  · intro vdb hvdb hconn
    rcases hvdbs vdb hvdb with ⟨old, hold, hsource, hname, hddl⟩ | ⟨_, _, hsettled⟩
    · rw [← hsource, ← hddl]
      refine h.settled (hs.vdbs old hold).1 (hs.agreed old hold ?_)
      rw [hname, hsource]
      exact hconn
    · exact hsettled hconn

/-- It keeps it if all the VDBs it leaves were there. -/
theorem Moves.inv_of_subset {s t : SourceServer} (h : Moves registry s t) (hs : Inv registry s)
    (hthreads : ∀ thread ∈ t.threads, thread.source ∈ registry.sources)
    (hvdbs : ∀ vdb ∈ t.deployed, vdb ∈ s.deployed) : Inv registry t :=
  h.inv hs hthreads fun vdb hvdb => .inl ⟨vdb, hvdbs vdb hvdb, rfl, rfl, rfl⟩

/-! ## What the steps change -/

/-- Which ddl is stored depends on the rows alone. -/
theorem loadMetadata_congr {s t : SourceServer} (h : t.schemas = s.schemas) (id : String) :
    t.loadMetadata id = s.loadMetadata id := by
  unfold loadMetadata findSchemaBySourceId
  rw [h]

/-- Storing a ddl changes it for its own source. -/
theorem loadMetadata_setDdl {s : SourceServer} {id : String} {schema : SourceSchema}
    (h : s.findSchemaBySourceId id = some schema) (ddl other : String) :
    (s.setDdl id ddl).loadMetadata other = if other = id then some ddl else s.loadMetadata other := by
  have hkeys : ∀ row : SourceSchema,
      (if row.sourceId = id then { row with ddl := some ddl } else row).sourceId = row.sourceId := by
    intro row
    split <;> rfl
  unfold loadMetadata findSchemaBySourceId setDdl at *
  rw [find?_map_key SourceSchema.sourceId hkeys]
  by_cases hother : other = id
  · subst hother
    rw [h, if_pos rfl]
    simp [key_of_find? h]
  · rw [if_neg hother]
    cases hfind : s.schemas.find? (·.sourceId = other) with
    | none => rfl
    | some row =>
        have hne : row.sourceId ≠ id := key_of_find? hfind ▸ hother
        simp [hne]

/-- Deleting a row leaves the ddl of the others. -/
theorem loadMetadata_filter (s : SourceServer) (id other : String) (h : other ≠ id) :
    ({ s with schemas := s.schemas.filter (·.sourceId ≠ id) } : SourceServer).loadMetadata other =
      s.loadMetadata other := by
  unfold loadMetadata findSchemaBySourceId
  rw [find?_filter_key SourceSchema.sourceId, if_neg h]

/-- A row that is created has no ddl yet. -/
theorem loadMetadata_createSchema {s t : SourceServer} {source : TeiidDataSource}
    (h : s.createSchema source = some t) (id : String) : t.loadMetadata id = s.loadMetadata id := by
  unfold createSchema at h
  split at h
  · cases h
  · rename_i hnone
    cases h
    unfold loadMetadata findSchemaBySourceId at *
    rw [List.find?_append]
    by_cases hid : source.syndesisId = id
    · rw [← hid, hnone]
      simp
    · simp [hid]

/-- A thread that takes a step leaves the tasks of the others, and its own in the queue. -/
theorem due_set {s u : SourceServer} {index : Nat} {old new : SourceThread}
    (hold : s.threads[index]? = some old) (hqueue : ∀ task ∈ s.queue, task ∈ u.queue)
    (hannounced : ∀ task, old.announces = some task → task ∈ u.queue) {task : SourceTask}
    (h : s.due task = true) :
    ({ u with threads := s.threads.set index new } : SourceServer).due task = true := by
  rw [due_iff] at h ⊢
  rcases h with hqueued | ⟨thread, hthread, hannounces⟩
  · exact .inl (hqueue task hqueued)
  · rcases mem_set_or hold hthread new with rfl | hstays
    · exact .inl (hannounced task hannounces)
    · exact .inr ⟨thread, hstays, hannounces⟩

/-- The point a deployment is at next, where it changes nothing. -/
structure Follows (s : SourceServer) (source : TeiidDataSource) (mode : SourceDeploymentMode)
    (pc next : DeployPc) : Prop where
  reads : ∀ ddl, next.reads = some ddl →
    pc.reads = some ddl ∨ s.loadMetadata source.syndesisId = some ddl
  replaces : mode = .replaceDdl → (s.loadMetadata source.syndesisId).isSome = true →
    pc = .findSchemaBySourceId ∨ pc.reads = s.loadMetadata source.syndesisId →
    next = .findSchemaBySourceId ∨ next.reads = s.loadMetadata source.syndesisId

/-- What one step of `doDeploySourceVdb` can be. -/
inductive DeployStep (s : SourceServer) (source : TeiidDataSource) (mode : SourceDeploymentMode)
    (succeeds valid : Bool) : DeployPc → SourceServer → DeployPc → Prop
  | follows {pc next : DeployPc} :
      Follows s source mode pc next → DeployStep s source mode succeeds valid pc s next
  | undeploys {ddl : String} : isFailed ddl = true →
      DeployStep s source mode succeeds valid (.deploy (some ddl))
        (s.undeploy (vdbNameFor source (some ddl))) (.unlock (some ddl) true)
  | deploys {ddl : Option String} : ddl.any isFailed = false →
      DeployStep s source mode succeeds valid (.deploy ddl)
        (s.deploy (s.generateSourceVdb source ddl valid) succeeds) (.unlock ddl true)
  | refreshes : DeployStep s source mode succeeds valid .refresh (s.execute .refreshPreviewVdb) .done

/-- A replacement keeps no VDB that is there. -/
theorem isKept_replaceDdl {existing : Option SourceVdb} {ddl : String} :
    isKept existing (some ddl) .replaceDdl = false := by
  cases existing with
  | none => rfl
  | some vdb => simp [isKept]

/-- A point that is followed by one that has read the same. -/
theorem follows_of_reads {s : SourceServer} {source : TeiidDataSource} {mode : SourceDeploymentMode}
    {pc next : DeployPc} (hpc : pc ≠ .findSchemaBySourceId) (h : next.reads = pc.reads) :
    Follows s source mode pc next where
  reads _ hddl := .inl (h ▸ hddl)
  replaces _ _ hreads := .inr (h.trans (hreads.resolve_left hpc))

/-- A deployment that returns has nothing to replace the VDB by. -/
theorem follows_of_return {s : SourceServer} {source : TeiidDataSource} {mode : SourceDeploymentMode}
    {pc next : DeployPc} (hnext : next.reads = none)
    (h : mode = .replaceDdl → (s.loadMetadata source.syndesisId).isSome = true →
      pc ≠ .findSchemaBySourceId ∧ pc.reads ≠ s.loadMetadata source.syndesisId) :
    Follows s source mode pc next where
  reads _ hddl := nomatch hnext.symm.trans hddl
  replaces hmode hsome hpc := by
    obtain ⟨hne, hreads⟩ := h hmode hsome
    rcases hpc with heq | heq
    · exact absurd heq hne
    · exact absurd heq hreads

/-- What is kept is not to be replaced. -/
theorem follows_of_kept {s : SourceServer} {source : TeiidDataSource} {mode : SourceDeploymentMode}
    {existing : Option SourceVdb} {pc next : DeployPc} {ddl : Option String}
    (hpc : pc ≠ .findSchemaBySourceId) (hreads : pc.reads = ddl) (hnext : next.reads = none)
    (hkept : isKept existing ddl mode = true) : Follows s source mode pc next := by
  refine follows_of_return hnext ?_
  rintro rfl hsome
  refine ⟨hpc, ?_⟩
  intro heq
  obtain ⟨text, htext⟩ := Option.isSome_iff_exists.mp hsome
  rw [← hreads, heq, htext, isKept_replaceDdl] at hkept
  cases hkept

/-- Every step of a deployment is one of the cases of `DeployStep`. -/
theorem deployStep_of_eq {s t : SourceServer} {source : TeiidDataSource} {mode : SourceDeploymentMode}
    {pc next : DeployPc} {succeeds valid : Bool}
    (h : doDeploySourceVdb stripe s source mode pc succeeds valid = some (t, next)) :
    DeployStep s source mode succeeds valid pc t next := by
  -- one case for each program point; only `deploy` and `refresh` change the server
  cases pc with
  | findSchemaModel =>
      have hreturn : ∀ pc, pc.reads = none →
          Follows s source mode .findSchemaModel pc := fun pc hpc =>
        follows_of_return hpc fun _ hsome =>
          ⟨nofun, fun heq => by rw [← heq] at hsome; cases hsome⟩
      simp only [doDeploySourceVdb] at h
      split at h
      · cases h
        exact .follows (hreturn .done rfl)
      · cases h
        exact .follows (hreturn .findSchemaBySourceId rfl)
  | findSchemaBySourceId =>
      simp only [doDeploySourceVdb] at h
      split at h
      · rename_i hnone
        cases h
        refine .follows ⟨nofun, fun _ hsome => ?_⟩
        rw [loadMetadata, hnone] at hsome
        cases hsome
      · rename_i schema hschema
        -- the ddl that is read here is the stored one
        have hstored : s.loadMetadata source.syndesisId = schema.ddl := by
          rw [loadMetadata, hschema]
          rfl
        split at h
        · rename_i hreuses
          cases h
          refine .follows ⟨nofun, fun _ hsome => ?_⟩
          rw [hstored, (Bool.and_eq_true_iff.mp hreuses).2 |> Option.isNone_iff_eq_none.mp] at hsome
          cases hsome
        · cases h
          refine .follows ⟨?_, ?_⟩
          · intro ddl hddl
            by_cases hmode : mode = .refresh
            · simp [DeployPc.reads, hmode] at hddl
            · exact .inr (by simpa [DeployPc.reads, hmode, hstored] using hddl)
          · rintro rfl _ _
            exact .inr (by simp [DeployPc.reads, hstored])
  | getVdb ddl =>
      simp only [doDeploySourceVdb] at h
      split at h
      · rename_i hkept
        cases h
        exact .follows (follows_of_kept nofun rfl rfl hkept)
      · cases h
        exact .follows (follows_of_reads nofun rfl)
  | lock ddl =>
      simp only [doDeploySourceVdb] at h
      split at h
      · cases h
        exact .follows (follows_of_reads nofun rfl)
      · cases h
  | recheck ddl =>
      simp only [doDeploySourceVdb] at h
      split at h
      · rename_i hkept
        cases h
        exact .follows (follows_of_kept nofun rfl rfl hkept)
      · cases h
        exact .follows (follows_of_reads nofun rfl)
  | deploy ddl =>
      simp only [doDeploySourceVdb] at h
      split at h
      -- a failed ddl only undeploys
      · rename_i hfailed
        cases h
        cases ddl with
        | none => cases hfailed
        | some ddl => exact .undeploys hfailed
      · rename_i hfailed
        cases h
        exact .deploys (Bool.eq_false_iff.mpr hfailed)
  | unlock ddl deployed =>
      cases h
      refine .follows (follows_of_reads nofun ?_)
      split <;> rfl
  | refresh =>
      cases h
      exact .refreshes
  | done => cases h

/-! ## Steps of threads -/

/-- The VDBs of two sources have different names. -/
theorem getWorkspaceSourceVdbName_injective {a b : String}
    (h : getWorkspaceSourceVdbName a = getWorkspaceSourceVdbName b) : a = b := by
  unfold getWorkspaceSourceVdbName at h
  have hl := congrArg String.toList h
  rw [String.toList_append, String.toList_append] at hl
  exact String.toList_inj.mp (List.append_cancel_right hl)

/-- The name of a VDB that loads a ddl is that of no connection VDB. -/
theorem loadName_ne (a b : String) :
    getWorkspaceSourceVdbName a ++ loadSuffix ≠ getWorkspaceSourceVdbName b := by
  intro h
  unfold getWorkspaceSourceVdbName connectionVdbSuffix loadSuffix at h
  have hlast := congrArg (fun name => name.toList.getLast?) h
  simp at hlast

/-- Undeploying takes the VDB of the name, and leaves the rest. -/
theorem mem_undeploy {s : SourceServer} {name : String} {vdb : SourceVdb} :
    vdb ∈ (s.undeploy name).deployed ↔ vdb ∈ s.deployed ∧ vdb.name ≠ name := by
  simp [undeploy]

/-- Deploying replaces the VDB of the name. -/
theorem mem_deploy {s : SourceServer} {new vdb : SourceVdb} {succeeds : Bool}
    (h : vdb ∈ (s.deploy new succeeds).deployed) :
    (vdb ∈ s.deployed ∧ vdb.name ≠ new.name) ∨ (succeeds = true ∧ vdb = new) := by
  rcases List.mem_append.mp h with hold | hnew
  · exact .inl (by simpa using hold)
  · cases succeeds with
    | false => cases hnew
    | true => exact .inr ⟨rfl, List.mem_singleton.mp hnew⟩

/-- A VDB that is generated is its source's, under the name for its ddl. -/
theorem generateSourceVdb_spec (s : SourceServer) (source : TeiidDataSource) (ddl : Option String)
    (valid : Bool) :
    (s.generateSourceVdb source ddl valid).source = source ∧
      (s.generateSourceVdb source ddl valid).name = vdbNameFor source ddl := by
  unfold generateSourceVdb
  split
  · exact ⟨rfl, rfl⟩
  · exact ⟨rfl, rfl⟩

/-- Sources of the registry are told apart by their names, and by their ids. -/
theorem source_unique {source other : TeiidDataSource} (hsource : source ∈ registry.sources)
    (hother : other ∈ registry.sources)
    (h : source.name = other.name ∨ source.syndesisId = other.syndesisId) : source = other := by
  rcases h with hname | hid
  · exact List.inj_on_of_nodup_map registry.names_nodup hsource hother hname
  · exact List.inj_on_of_nodup_map registry.ids_nodup hsource hother hid

/-- A source that is found by name is registered under it. -/
theorem mem_of_getDataSource {name : String} {source : TeiidDataSource}
    (h : registry.getDataSource name = some source) :
    source ∈ registry.sources ∧ source.name = name :=
  ⟨List.mem_of_find?_eq_some h, by simpa using List.find?_some h⟩

/-- A registered source is found by its name. -/
theorem getDataSource_of_mem {source : TeiidDataSource} (h : source ∈ registry.sources) :
    registry.getDataSource source.name = some source := by
  cases hfind : registry.getDataSource source.name with
  | none => simpa using List.find?_eq_none.mp hfind source h
  | some other =>
      obtain ⟨hother, hname⟩ := mem_of_getDataSource hfind
      rw [source_unique hother h (.inl hname)]

/-- A thread that goes on works for the same source. -/
theorem sources_of_set {s : SourceServer} {index : Nat} {old new : SourceThread}
    (hs : ∀ thread ∈ s.threads, thread.source ∈ registry.sources) (hold : s.threads[index]? = some old)
    (hsame : new.source = old.source) :
    ∀ thread ∈ s.threads.set index new, thread.source ∈ registry.sources := by
  intro thread hthread
  rcases List.mem_or_eq_of_mem_set hthread with hmem | rfl
  · exact hs thread hmem
  · rw [hsame]
    exact hs old (List.mem_of_getElem? hold)

/-- A thread that has announced nothing changes no row. -/
theorem moves_of_silent {s u : SourceServer} {index : Nat} {old : SourceThread} (new : SourceThread)
    (hold : s.threads[index]? = some old) (hsilent : old.announces = none)
    (hschemas : u.schemas = s.schemas) (hexecutor : u.executor = s.executor)
    (hqueue : ∀ task ∈ s.queue, task ∈ u.queue) :
    Moves registry s { u with threads := s.threads.set index new } := by
  refine ⟨hexecutor, ?_, fun _ _ => .inl (loadMetadata_congr hschemas _)⟩
  intro task hdue
  exact due_set hold hqueue (fun _ hannounces => nomatch hsilent.symm.trans hannounces) hdue

/-- A thread hands the task it has announced to the executor. -/
theorem moves_of_execute {s : SourceServer} {index : Nat} {old : SourceThread} {task : SourceTask}
    (new : SourceThread) (hold : s.threads[index]? = some old) (hannounces : old.announces = some task) :
    Moves registry s { s.execute task with threads := s.threads.set index new } := by
  refine ⟨rfl, ?_, fun _ _ => .inl rfl⟩
  intro other hdue
  refine due_set hold (fun _ h => List.mem_append_left _ h) (fun announced hannounced => ?_) hdue
  obtain rfl := Option.some.inj (hannounces.symm.trans hannounced)
  exact List.mem_append_right _ (List.mem_singleton_self _)

/-- A thread that only goes on to its next point. -/
theorem goOn_inv {s : SourceServer} {index : Nat} {old new : SourceThread} (hs : Inv registry s)
    (hold : s.threads[index]? = some old) (hsilent : old.announces = none)
    (hsame : new.source = old.source) :
    Inv registry { s with threads := s.threads.set index new } := by
  have hmoves : Moves registry s { s with threads := s.threads.set index new } :=
    moves_of_silent new hold hsilent rfl rfl fun _ h => h
  exact hmoves.inv_of_subset hs (sources_of_set hs.threads hold hsame) fun _ h => h

/-- A request thread that deploys what is stored, or is to be replaced, keeps the invariant. -/
theorem requestStep_inv {s t : SourceServer} {index : Nat} {source : TeiidDataSource}
    {mode : SourceDeploymentMode} {pc next : DeployPc} {succeeds valid : Bool} (hs : Inv registry s)
    (hold : s.threads[index]? = some (.doDeploySourceVdb source mode pc))
    (hguard : deploysStored s (.thread index succeeds valid) = true)
    (h : doDeploySourceVdb stripe s source mode pc succeeds valid = some (t, next)) :
    Inv registry
      { t with threads := s.threads.set index (.doDeploySourceVdb source mode next) } := by
  have hsource : source ∈ registry.sources := hs.threads _ (List.mem_of_getElem? hold)
  have hthreads := sources_of_set hs.threads hold
    (rfl : (SourceThread.doDeploySourceVdb source mode next).source = _)
  -- the thread changes neither the rows nor the executor, and loses no task
  have hmoves : ∀ u : SourceServer, u.schemas = s.schemas → u.executor = s.executor →
      (∀ task ∈ s.queue, task ∈ u.queue) →
      Moves registry s
        { u with threads := s.threads.set index (.doDeploySourceVdb source mode next) } :=
    fun _ => moves_of_silent _ hold rfl
  cases deployStep_of_eq h with
  | follows _ => exact goOn_inv hs hold rfl rfl
  | undeploys _ =>
      exact (hmoves (s.undeploy _) rfl rfl fun _ h => h).inv_of_subset hs hthreads
        fun vdb hvdb => (mem_undeploy.mp hvdb).1
  | refreshes =>
      exact (hmoves (s.execute _) rfl rfl fun _ h => List.mem_append_left _ h).inv_of_subset hs
        hthreads fun _ h => h
  | @deploys ddl hfailed =>
      have hmove := hmoves (s.deploy (s.generateSourceVdb source ddl valid) succeeds) rfl rfl
        fun _ h => h
      refine hmove.inv hs hthreads ?_
      intro vdb hvdb
      rcases mem_deploy hvdb with ⟨hmem, _⟩ | ⟨hsucceeds, rfl⟩
      · exact .inl ⟨vdb, hmem, rfl, rfl, rfl⟩
      · obtain ⟨hof, hname⟩ := generateSourceVdb_spec s source ddl valid
        rw [hof]
        refine .inr ⟨hsource, ⟨ddl, hname⟩, fun hconn => ?_⟩
        cases ddl with
        | none => exact absurd (hname.symm.trans hconn) (loadName_ne source.name source.name)
        | some ddl =>
            refine hmove.settled hsource ?_
            have hnot : isFailed ddl = false := hfailed
            simp only [deploysStored, hold, hnot, hsucceeds, Bool.not_true, Bool.false_or,
              Bool.or_eq_true] at hguard
            rcases hguard with (hstored | hcoming) | hreplacing
            · obtain ⟨text, htext, husable⟩ := Option.any_eq_true _ _ |>.mp hstored
              exact .inl ⟨text, htext, by simpa using husable, htext⟩
            · exact .inr (.inl hcoming)
            · exact .inr (.inr hreplacing)

theorem mem_set_self {s : SourceServer} {index : Nat} {old : SourceThread}
    (hold : s.threads[index]? = some old) (new : SourceThread) : new ∈ s.threads.set index new :=
  List.mem_set (List.getElem?_eq_some_iff.mp hold).1 new

/-- What a thread announces is due. -/
theorem due_of_announces {s : SourceServer} {thread : SourceThread} {task : SourceTask}
    (hthread : thread ∈ s.threads) (h : thread.announces = some task) : s.due task = true :=
  due_iff.mpr (.inr ⟨thread, hthread, h⟩)

/-- A completion that changes the row goes on to replace the VDB. -/
theorem finishedStep_inv {s t : SourceServer} {index : Nat} {vdb : SourceVdb} {modelDdl : String}
    {pc next : FinishedPc} {succeeds : Bool} (hs : Inv registry s)
    (hold : s.threads[index]? = some (.finishedDeployment vdb modelDdl pc))
    (h : finishedDeployment stripe s vdb modelDdl pc succeeds = some (t, next)) :
    Inv registry
      { t with threads := s.threads.set index (.finishedDeployment vdb modelDdl next) } := by
  have hmem := List.mem_of_getElem? hold
  have hsource : vdb.source ∈ registry.sources := hs.threads _ hmem
  have hthreads := sources_of_set hs.threads hold
    (rfl : (SourceThread.finishedDeployment vdb modelDdl next).source = _)
  cases pc with
  | lock =>
      simp only [finishedDeployment] at h
      split at h <;> cases h
      exact goOn_inv hs hold rfl rfl
  | undeploy =>
      simp only [finishedDeployment] at h
      split at h
      · cases h
        have hmoves : Moves registry s
            { s.undeploy vdb.name with
              threads := s.threads.set index
                (.finishedDeployment vdb modelDdl (.unlock (some modelDdl))) } :=
          moves_of_silent _ hold rfl rfl rfl fun _ h => h
        exact hmoves.inv_of_subset hs hthreads fun vdb hvdb => (mem_undeploy.mp hvdb).1
      · cases h
        exact goOn_inv hs hold rfl rfl
  | unlock modelDdl =>
      cases modelDdl <;> cases h <;> exact goOn_inv hs hold rfl rfl
  | save ddl =>
      simp only [finishedDeployment] at h
      split at h
      · split at h
        · cases h
          exact goOn_inv hs hold rfl rfl
        · rename_i schema hschema
          split at h
          · cases h
            exact goOn_inv hs hold rfl rfl
          · cases h
            -- the ddl that is written now is behind the VDBs of its source, and the thread that wrote it
            -- announces their replacement
            have hmove : Moves registry s
                { s.setDdl vdb.source.syndesisId ddl with
                  threads := s.threads.set index (.finishedDeployment vdb modelDdl .execute) } := by
              refine ⟨rfl, fun task hdue => due_set hold (fun _ h => h) nofun hdue, ?_⟩
              intro other hother
              have hstored := loadMetadata_setDdl hschema ddl other.syndesisId
              by_cases hid : other.syndesisId = vdb.source.syndesisId
              · obtain rfl := source_unique hother hsource (.inr hid)
                rw [if_pos rfl] at hstored
                refine .inr (coming_iff.mpr (.inr ⟨Option.isSome_iff_exists.mpr ⟨ddl, hstored⟩, ?_⟩))
                exact due_of_announces (mem_set_self hold _) rfl
              · rw [if_neg hid] at hstored
                exact .inl hstored
            exact hmove.inv_of_subset hs hthreads fun _ h => h
      · cases h
        exact goOn_inv hs hold rfl rfl
  | execute =>
      cases h
      have hmove : Moves registry s
          { s.execute (.deploySourceVdb vdb.source.name .replaceDdl) with
            threads := s.threads.set index (.finishedDeployment vdb modelDdl .done) } :=
        moves_of_execute _ hold rfl
      exact hmove.inv_of_subset hs hthreads fun _ h => h
  | done => cases h

/-- A deletion goes on to remove the VDB. -/
theorem deleteStep_inv {s t : SourceServer} {index : Nat} {source : TeiidDataSource}
    {pc next : DeleteSchemaPc} (hs : Inv registry s)
    (hold : s.threads[index]? = some (.deleteSchema source pc))
    (h : deleteSchema s source pc = some (t, next)) :
    Inv registry { t with threads := s.threads.set index (.deleteSchema source next) } := by
  have hsource : source ∈ registry.sources := hs.threads _ (List.mem_of_getElem? hold)
  have hthreads := sources_of_set hs.threads hold
    (rfl : (SourceThread.deleteSchema source next).source = _)
  cases pc with
  | commit =>
      simp only [deleteSchema] at h
      split at h
      · cases h
        exact goOn_inv hs hold rfl rfl
      · cases h
        -- the row goes, and the thread now announces the removal of the VDB
        have hmove : Moves registry s
            { s with
              schemas := s.schemas.filter (·.sourceId ≠ source.syndesisId)
              threads := s.threads.set index (.deleteSchema source .execute) } := by
          refine ⟨rfl, fun task hdue => due_set hold (fun _ h => h) nofun hdue, ?_⟩
          intro other hother
          by_cases hid : other.syndesisId = source.syndesisId
          · obtain rfl := source_unique hother hsource (.inr hid)
            exact .inr (coming_iff.mpr (.inl (due_of_announces (mem_set_self hold _) rfl)))
          · exact .inl (loadMetadata_filter s source.syndesisId other.syndesisId hid)
        exact hmove.inv_of_subset hs hthreads fun _ h => h
  | execute =>
      cases h
      have hmove : Moves registry s
          { s.execute (.removeVdb source.name) with
            threads := s.threads.set index (.deleteSchema source .done) } :=
        moves_of_execute _ hold rfl
      exact hmove.inv_of_subset hs hthreads fun _ h => h
  | done => cases h

/-- A step of a thread keeps the invariant, where a deployment is not too late. -/
theorem threadStep_inv {s t : SourceServer} {index : Nat} {succeeds valid : Bool}
    (hs : Inv registry s) (hguard : deploysStored s (.thread index succeeds valid) = true)
    (h : threadStep stripe s index succeeds valid = some t) : Inv registry t := by
  unfold threadStep at h
  split at h
  · cases h
  · rename_i source mode pc hold
    obtain ⟨⟨u, next⟩, hstep, rfl⟩ := Option.map_eq_some_iff.mp h
    exact requestStep_inv hs hold hguard hstep
  · rename_i vdb modelDdl pc hold
    obtain ⟨⟨u, next⟩, hstep, rfl⟩ := Option.map_eq_some_iff.mp h
    exact finishedStep_inv hs hold hstep
  · rename_i source pc hold
    obtain ⟨⟨u, next⟩, hstep, rfl⟩ := Option.map_eq_some_iff.mp h
    exact deleteStep_inv hs hold hstep

end SourceServer

end TeiidSyndesis.Server
