/-
# TeiidSyndesis.Server.SourceDeployment — the VDBs of sources and the threads that deploy them.

Request threads run `findSchemaModel` and `refreshSchema`, a thread of the Teiid server runs
`finishedDeployment` when a VDB has loaded, and `deleteSchema` commits and leaves the rest to the one
thread of `connectionExecutor`, which also replaces VDBs.  Each step is one read, one commit or one
section under a lock, and runs interleave arbitrarily.  The main preview VDB is not in the state, so the
tasks that refresh it do nothing here.
-/
import TeiidSyndesis.Library.Transition
import TeiidSyndesis.Model.Entities

namespace TeiidSyndesis.Server

open TeiidSyndesis.Library TeiidSyndesis.Model

/-! ## Sources and their VDBs -/

/-- The data sources of the server: each has a name and a connection of its own. -/
structure SourceRegistry where
  sources : List TeiidDataSource
  names_nodup : (sources.map (·.name)).Nodup
  ids_nodup : (sources.map (·.syndesisId)).Nodup

def SourceRegistry.getDataSource (registry : SourceRegistry) (name : String) :
    Option TeiidDataSource :=
  registry.sources.find? (·.name = name)

inductive SourceDeploymentMode
  | reuseDdl
  | replaceDdl
  | refresh
  | makeLive
  deriving DecidableEq, Repr

/-- Such text in place of a ddl says that a load has failed. -/
def failedDdl : String := "--failed: "

/-- `ddl.startsWith(FAILED_DDL)` -/
def isFailed (ddl : String) : Bool := failedDdl.toList.isPrefixOf ddl.toList

def loadSuffix : String := "-load"

def getWorkspaceSourceVdbName (sourceName : String) : String := sourceName ++ connectionVdbSuffix

/-- Without a ddl it is the VDB that loads one. -/
def vdbNameFor (source : TeiidDataSource) (ddl : Option String) : String :=
  match ddl with
  | some _ => getWorkspaceSourceVdbName source.name
  | none => getWorkspaceSourceVdbName source.name ++ loadSuffix

inductive VdbStatus
  | loading
  | active
  | failed
  deriving DecidableEq, Repr

/-- A deployed VDB of a source, whose name and id are those of its model and its property. -/
structure SourceVdb where
  name : String
  source : TeiidDataSource
  status : VdbStatus
  /-- what the repository `DDLDB` has read for it -/
  ddl : Option String := none
  deriving DecidableEq, Repr

/-! ## Threads -/

/-- Program points of `doDeploySourceVdb`, with the ddl it has read; `findSchemaModel` comes before. -/
inductive DeployPc
  | findSchemaModel
  | findSchemaBySourceId
  | getVdb (ddl : Option String)
  | lock (ddl : Option String)
  | recheck (ddl : Option String)
  | deploy (ddl : Option String)
  | unlock (ddl : Option String) (deployed : Bool)
  | refresh
  | done
  deriving DecidableEq, Repr

/-- Program points of `finishedDeployment`, with the ddl it has got. -/
inductive FinishedPc
  | lock
  | undeploy
  | unlock (modelDdl : Option String)
  | save (modelDdl : String)
  | execute
  | done
  deriving DecidableEq, Repr

/-- Program points of `deleteSchema`. -/
inductive DeleteSchemaPc
  | commit
  | execute
  | done
  deriving DecidableEq, Repr

/-- The VDB whose lock the deployment holds. -/
def DeployPc.locks (source : TeiidDataSource) : DeployPc → Option String
  | .recheck ddl | .deploy ddl | .unlock ddl _ => some (vdbNameFor source ddl)
  | _ => none

/-- The VDB of which the completion holds the lock. -/
def FinishedPc.locks (vdb : SourceVdb) : FinishedPc → Option String
  | .undeploy | .unlock _ => some vdb.name
  | _ => none

inductive SourceThread
  | doDeploySourceVdb (source : TeiidDataSource) (mode : SourceDeploymentMode) (pc : DeployPc)
  /-- of a VDB that has loaded, with its ddl or what went wrong -/
  | finishedDeployment (vdb : SourceVdb) (modelDdl : String) (pc : FinishedPc)
  | deleteSchema (source : TeiidDataSource) (pc : DeleteSchemaPc)
  deriving DecidableEq, Repr

namespace SourceThread

def source : SourceThread → TeiidDataSource
  | .doDeploySourceVdb source _ _ => source
  | .finishedDeployment vdb _ _ => vdb.source
  | .deleteSchema source _ => source

def locks : SourceThread → Option String
  | .doDeploySourceVdb source _ pc => pc.locks source
  | .finishedDeployment vdb _ pc => pc.locks vdb
  | .deleteSchema _ _ => none

def isDone : SourceThread → Bool
  | .doDeploySourceVdb _ _ pc => pc == .done
  | .finishedDeployment _ _ pc => pc == .done
  | .deleteSchema _ pc => pc == .done

end SourceThread

/-- Tasks of `connectionExecutor`. -/
inductive SourceTask
  | deploySourceVdb (teiidSourceName : String) (mode : SourceDeploymentMode)
  | removeVdb (teiidName : String)
  | refreshPreviewVdb
  deriving DecidableEq, Repr

structure SourceServer where
  schemas : List SourceSchema := []
  nextId : Nat := 0
  deployed : List SourceVdb := []
  threads : List SourceThread := []
  queue : List SourceTask := []
  /-- the deployment the executor is at -/
  executor : Option (TeiidDataSource × SourceDeploymentMode × DeployPc) := none
  deriving DecidableEq, Repr

namespace SourceServer

/-! ## The rows and the Teiid server -/

def findSchemaBySourceId (s : SourceServer) (id : String) : Option SourceSchema :=
  s.schemas.find? (·.sourceId = id)

/-- What `DDLDBMetadataRepository.loadMetadata` reads at the time of a deployment. -/
def loadMetadata (s : SourceServer) (id : String) : Option String :=
  (s.findSchemaBySourceId id).bind (·.ddl)

def setDdl (s : SourceServer) (id ddl : String) : SourceServer :=
  { s with
    schemas := s.schemas.map fun row => if row.sourceId = id then { row with ddl := some ddl } else row }

def createSchema (s : SourceServer) (source : TeiidDataSource) : Option SourceServer :=
  match s.findSchemaBySourceId source.syndesisId with
  | some _ => none
  | none =>
      some
        { s with
          schemas :=
            s.schemas ++ [{ id := s.nextId, name := source.name, sourceId := source.syndesisId }]
          nextId := s.nextId + 1 }

def getVdb (s : SourceServer) (name : String) : Option SourceVdb :=
  s.deployed.find? (·.name = name)

/-- `undeployDynamicVdb` -/
def undeploy (s : SourceServer) (name : String) : SourceServer :=
  { s with deployed := s.deployed.filter (·.name ≠ name) }

/-- `deploy` undeploys the VDB of the name first, also when it then fails. -/
def deploy (s : SourceServer) (vdb : SourceVdb) (succeeds : Bool) : SourceServer :=
  { s with
    deployed := s.deployed.filter (·.name ≠ vdb.name) ++ (if succeeds then [vdb] else []) }

/-- `generateSourceVdb` with what its deployment makes of it: with a ddl it loads the row, which may not
be valid, and without one it loads in the background. -/
def generateSourceVdb (s : SourceServer) (source : TeiidDataSource) (ddl : Option String)
    (valid : Bool) : SourceVdb :=
  match ddl with
  | some _ =>
      { name := vdbNameFor source ddl, source := source
        status := if valid then .active else .failed
        ddl := s.loadMetadata source.syndesisId }
  | none => { name := vdbNameFor source ddl, source := source, status := .loading }

def execute (s : SourceServer) (task : SourceTask) : SourceServer :=
  { s with queue := s.queue ++ [task] }

/-- Names of one stripe share a lock. -/
def lockFree (stripe : String → Nat) (s : SourceServer) (vdbName : String) : Bool :=
  let free (locked : Option String) : Bool := locked.all fun other => stripe other != stripe vdbName
  (s.threads.all fun thread => free thread.locks) &&
    (s.executor.all fun (source, _, pc) => free (pc.locks source))

/-! ## doDeploySourceVdb -/

def reuses (mode : SourceDeploymentMode) : Bool := mode == .reuseDdl || mode == .replaceDdl

/-- There is a VDB that need not be deployed. -/
def isKept (existing : Option SourceVdb) (ddl : Option String) (mode : SourceDeploymentMode) : Bool :=
  match existing with
  | none => false
  | some vdb =>
      (ddl.isNone && vdb.status == .loading) || (vdb.status == .active && mode != .replaceDdl)

/-- One step of `doDeploySourceVdb`: the server it leaves and its next point, or nothing while it waits
for its lock or has returned.  A deployment in it raises or not, and the VDB is valid or not. -/
def doDeploySourceVdb (stripe : String → Nat) (s : SourceServer) (source : TeiidDataSource)
    (mode : SourceDeploymentMode) (pc : DeployPc) (succeeds valid : Bool) :
    Option (SourceServer × DeployPc) :=
  match pc with
  | .findSchemaModel =>
      match s.getVdb (getWorkspaceSourceVdbName source.name) with
      | some _ => some (s, .done)
      | none => some (s, .findSchemaBySourceId)
  | .findSchemaBySourceId =>
      match s.findSchemaBySourceId source.syndesisId with
      | none => some (s, .done)
      | some schema =>
          if reuses mode && schema.ddl.isNone then some (s, .done)
          else some (s, .getVdb (if mode = .refresh then none else schema.ddl))
  | .getVdb ddl =>
      if isKept (s.getVdb (vdbNameFor source ddl)) ddl mode then some (s, .done)
      else some (s, .lock ddl)
  | .lock ddl => if lockFree stripe s (vdbNameFor source ddl) then some (s, .recheck ddl) else none
  | .recheck ddl =>
      if isKept (s.getVdb (vdbNameFor source ddl)) ddl mode then some (s, .unlock ddl false)
      else some (s, .deploy ddl)
  | .deploy ddl =>
      if ddl.any isFailed then some (s.undeploy (vdbNameFor source ddl), .unlock ddl true)
      else some (s.deploy (s.generateSourceVdb source ddl valid) succeeds, .unlock ddl true)
  | .unlock ddl deployed => some (s, if deployed && ddl.isSome then .refresh else .done)
  | .refresh => some (s.execute .refreshPreviewVdb, .done)
  | .done => none

/-! ## finishedDeployment and deleteSchema -/

/-- One step of `finishedDeployment`.  Where the VDB cannot be undeployed nothing is saved; where the
commit meets a concurrent one the source is replaced all the same. -/
def finishedDeployment (stripe : String → Nat) (s : SourceServer) (vdb : SourceVdb)
    (modelDdl : String) (pc : FinishedPc) (succeeds : Bool) : Option (SourceServer × FinishedPc) :=
  match pc with
  | .lock => if lockFree stripe s vdb.name then some (s, .undeploy) else none
  | .undeploy =>
      if succeeds then some (s.undeploy vdb.name, .unlock (some modelDdl)) else some (s, .unlock none)
  | .unlock none => some (s, .done)
  | .unlock (some ddl) => some (s, .save ddl)
  | .save ddl =>
      if succeeds then
        match s.findSchemaBySourceId vdb.source.syndesisId with
        | none => some (s, .done)
        | some schema =>
            if schema.ddl = some ddl then some (s, .done)
            else some (s.setDdl vdb.source.syndesisId ddl, .execute)
      else some (s, .execute)
  | .execute => some (s.execute (.deploySourceVdb vdb.source.name .replaceDdl), .done)
  | .done => none

def deleteSchema (s : SourceServer) (source : TeiidDataSource) (pc : DeleteSchemaPc) :
    Option (SourceServer × DeleteSchemaPc) :=
  match pc with
  | .commit =>
      match s.findSchemaBySourceId source.syndesisId with
      | none => some (s, .done)
      | some _ =>
          some
            ({ s with schemas := s.schemas.filter (·.sourceId ≠ source.syndesisId) }, .execute)
  | .execute => some (s.execute (.removeVdb source.name), .done)
  | .done => none

/-! ## The system -/

inductive SourceLabel
  /-- a request thread enters `findSchemaModel` -/
  | findSchemaModel (teiidSourceName : String)
  /-- a request thread enters `refreshSchema` -/
  | refreshSchema (teiidSourceName : String)
  /-- a thread enters `deleteSchema` -/
  | deleteSchema (teiidSourceName : String)
  /-- a row without a ddl is committed for the source -/
  | createSchema (teiidSourceName : String)
  /-- the executor is to deploy the source of a connection that was created or updated -/
  | deploySourceVdb (teiidSourceName : String) (mode : SourceDeploymentMode)
  /-- a VDB has loaded its ddl, or failed to -/
  | loaded (vdbName : String) (outcome : Except String String)
  /-- a thread takes its next step -/
  | thread (index : Nat) (succeeds valid : Bool)
  /-- the executor takes its next step, or its next task -/
  | executor (succeeds valid : Bool)
  deriving DecidableEq

def enter (registry : SourceRegistry) (s : SourceServer) (teiidSourceName : String)
    (entered : TeiidDataSource → SourceThread) : Option SourceServer :=
  (registry.getDataSource teiidSourceName).map fun source =>
    { s with threads := s.threads ++ [entered source] }

/-- The VDB is there, and the listener is told of it; only a VDB that loads a ddl concerns it. -/
def loaded (s : SourceServer) (vdbName : String) (outcome : Except String String) :
    Option SourceServer :=
  match s.getVdb vdbName with
  | none => none
  | some vdb =>
      if vdb.status = .loading then
        let (status, modelDdl) : VdbStatus × String :=
          match outcome with
          | .ok schema => (.active, schema)
          | .error message => (.failed, failedDdl ++ message)
        some
          { s with
            deployed := s.deployed.map fun other =>
              if other.name = vdbName then { other with status := status } else other
            threads :=
              s.threads ++ [.finishedDeployment { vdb with status := status } modelDdl .lock] }
      else none

def threadStep (stripe : String → Nat) (s : SourceServer) (index : Nat) (succeeds valid : Bool) :
    Option SourceServer :=
  match s.threads[index]? with
  | none => none
  | some (.doDeploySourceVdb source mode pc) =>
      (doDeploySourceVdb stripe s source mode pc succeeds valid).map fun (t, next) =>
        { t with threads := s.threads.set index (.doDeploySourceVdb source mode next) }
  | some (.finishedDeployment vdb modelDdl pc) =>
      (finishedDeployment stripe s vdb modelDdl pc succeeds).map fun (t, next) =>
        { t with threads := s.threads.set index (.finishedDeployment vdb modelDdl next) }
  | some (.deleteSchema source pc) =>
      (deleteSchema s source pc).map fun (t, next) =>
        { t with threads := s.threads.set index (.deleteSchema source next) }

/-- The executor's next task; one for a source that is not registered raises. -/
def takeTask (registry : SourceRegistry) (s : SourceServer) : Option SourceServer :=
  match s.queue with
  | [] => none
  | .removeVdb teiidName :: queue =>
      some ({ s with queue := queue }.undeploy (getWorkspaceSourceVdbName teiidName))
  | .refreshPreviewVdb :: queue => some { s with queue := queue }
  | .deploySourceVdb teiidSourceName mode :: queue =>
      some
        { s with
          queue := queue
          executor := (registry.getDataSource teiidSourceName).map fun source =>
            (source, mode, .findSchemaBySourceId) }

def executorStep (registry : SourceRegistry) (stripe : String → Nat) (s : SourceServer)
    (succeeds valid : Bool) : Option SourceServer :=
  match s.executor with
  | none => takeTask registry s
  | some (_, _, .done) => some { s with executor := none }
  | some (source, mode, pc) =>
      (doDeploySourceVdb stripe s source mode pc succeeds valid).map fun (t, next) =>
        { t with executor := some (source, mode, next) }

def next (registry : SourceRegistry) (stripe : String → Nat) (s : SourceServer)
    (label : SourceLabel) : Option SourceServer :=
  match label with
  | .findSchemaModel teiidSourceName =>
      enter registry s teiidSourceName fun source =>
        .doDeploySourceVdb source .reuseDdl .findSchemaModel
  | .refreshSchema teiidSourceName =>
      enter registry s teiidSourceName fun source =>
        .doDeploySourceVdb source .refresh .findSchemaBySourceId
  | .deleteSchema teiidSourceName =>
      enter registry s teiidSourceName fun source => .deleteSchema source .commit
  | .createSchema teiidSourceName =>
      match registry.getDataSource teiidSourceName with
      | none => none
      | some source => createSchema s source
  | .deploySourceVdb teiidSourceName mode => some (s.execute (.deploySourceVdb teiidSourceName mode))
  | .loaded vdbName outcome => loaded s vdbName outcome
  | .thread index succeeds valid => threadStep stripe s index succeeds valid
  | .executor succeeds valid => executorStep registry stripe s succeeds valid

/-- A server starts with the rows of its database, and nothing deployed. -/
def started (s : SourceServer) : Prop :=
  s.deployed = [] ∧ s.threads = [] ∧ s.queue = [] ∧ s.executor = none

def system (registry : SourceRegistry) (stripe : String → Nat) : System SourceServer SourceLabel :=
  .ofNext started (next registry stripe)

/-! ## Servers at rest, and agreement -/

/-- No thread is inside the operations, and nothing is left to the executor. -/
def AtRest (s : SourceServer) : Prop :=
  (∀ thread ∈ s.threads, thread.isDone = true) ∧ s.queue = [] ∧ s.executor = none

/-- A connection VDB is only deployed with the ddl its source has in the store. -/
def Agrees (registry : SourceRegistry) (s : SourceServer) : Prop :=
  ∀ source ∈ registry.sources, ∀ vdb ∈ s.deployed,
    vdb.name = getWorkspaceSourceVdbName source.name →
      ∃ schema ddl, s.findSchemaBySourceId source.syndesisId = some schema ∧
        schema.ddl = some ddl ∧ isFailed ddl = false ∧ vdb.ddl = some ddl

end SourceServer

end TeiidSyndesis.Server
