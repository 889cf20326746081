/-
# TeiidSyndesis.Server.PublishRequests — the publish request.

`publishVirtualization` accepts a request on the strength of the preview VDB: it has to have loaded
without validity errors, and no complete view may be unparsable.  Then it generates the service VDB and
hands it to the OpenShift client.  Nothing is written: the transaction is always rolled back.

Main results:
* `publishViews_config`, `publishPreview_config`, `publishVirtualization_config` — what an answer with a
  configuration says: the preview had loaded without errors, no complete view was unparsable, and the
  configuration is that of the service VDB that was generated.
-/
import TeiidSyndesis.Library.Results
import TeiidSyndesis.OpenShift.BuildStatus
import TeiidSyndesis.Repository.RepositoryManager
import TeiidSyndesis.Server.ServiceVdbClosure

namespace TeiidSyndesis.Server

open TeiidSyndesis.Library TeiidSyndesis.Model TeiidSyndesis.Repository

/-! ## publishVirtualization -/

/-- `PublishRequestPayload`; a number or flag that is null is sent as such. -/
structure PublishRequestPayload where
  name : Option String := none
  cpuUnits : Option Int := some 500
  memory : Option Int := some 1024
  diskSize : Option Int := some 20
  enableOdata : Option Bool := some true
  deriving DecidableEq, Repr

/-- What the endpoint sets in a `PublishConfiguration`, but for the credentials. -/
structure PublishConfiguration where
  vdb : VDBMetaData
  enableOData : Bool
  containerDiskSize : String
  containerMemorySize : String
  cpuUnits : Int
  deriving DecidableEq, Repr

/-- A preview VDB as `updatePreviewVdb` returns it. -/
structure PreviewVdb where
  hasLoaded : Bool
  validityErrors : List String
  vdb : TeiidVdb

/-- How a publish request is refused. -/
inductive PublishFailure
  | failure (failure : Failure)
  | serviceUnavailable
  deriving DecidableEq, Repr

/-- The attributes of the `StatusObject` that is returned, and what has been handed to the OpenShift
client. -/
structure PublishAnswer where
  attributes : List (String × Option String)
  config : Option PublishConfiguration := none
  deriving DecidableEq, Repr

/-- `Status.name` -/
def statusName : OpenShift.Status → String
  | .notFound => "NOTFOUND"
  | .submitted => "SUBMITTED"
  | .configuring => "CONFIGURING"
  | .building => "BUILDING"
  | .deploying => "DEPLOYING"
  | .running => "RUNNING"
  | .failed => "FAILED"
  | .cancelled => "CANCELLED"
  | .deleteSubmitted => "DELETE_SUBMITTED"
  | .deleteRequeue => "DELETE_REQUEUE"
  | .deleteDone => "DELETE_DONE"

/-- Unboxing a field that may be null. -/
def unbox {α : Type} (field : String) : Option α → Except Failure α
  | none => .error (.nullPointer field)
  | some value => .ok value

/-- The configuration that is handed to the OpenShift client. -/
def publishConfiguration (theVdb : VDBMetaData) (payload : PublishRequestPayload) :
    Except Failure PublishConfiguration := do
  let enableOdata ← unbox "enableOdata" payload.enableOdata
  let diskSize ← unbox "diskSize" payload.diskSize
  let memory ← unbox "memory" payload.memory
  let cpuUnits ← unbox "cpuUnits" payload.cpuUnits
  pure
    { vdb := theVdb
      enableOData := enableOdata
      containerDiskSize := toString diskSize ++ "Gi"
      containerMemorySize := toString memory ++ "Mi"
      cpuUnits := cpuUnits }

/-- The end of `publishVirtualization`, once no complete view is unparsable. -/
def publishViews (teiid : Teiid) (finder : SchemaFinder)
    (submit : PublishConfiguration → Except Failure OpenShift.BuildStatus)
    (payload : PublishRequestPayload) (virtualizationName : String) (vdb : TeiidVdb)
    (editorStates : List ViewDefinition) : Except Failure PublishAnswer := do
  let theVdb ← createServiceVdb teiid finder virtualizationName
    (vdb.getTable teiid virtualizationName) editorStates
  let config ← publishConfiguration theVdb payload
  let buildStatus ← submit config
  pure
    { attributes :=
        [("Publishing", some "Operation initiated"),
          ("OpenShift Name", some buildStatus.openShiftName),
          ("Build Status", some (statusName buildStatus.status)),
          ("Build Status Message", buildStatus.statusMessage)]
      config := some config }

/-- `publishVirtualization` from the preview VDB on. -/
def publishPreview (teiid : Teiid) (finder : SchemaFinder) (store : Store)
    (submit : PublishConfiguration → Except Failure OpenShift.BuildStatus)
    (payload : PublishRequestPayload) (dataservice : DataVirtualization) :
    Option PreviewVdb → Except PublishFailure PublishAnswer
  | none => .error .serviceUnavailable
  | some vdb =>
      if vdb.hasLoaded then
        match vdb.validityErrors with
        | error :: _ => .ok { attributes := [("error", some error)] }
        | [] =>
            let editorStates := store.findViewDefinitions dataservice.name
            match editorStates.find? fun vd => vd.complete && !vd.parsable with
            | some vd =>
                .ok
                  { attributes :=
                      [("Publishing", some "Operation initiated"),
                        ("error", some (vd.name ++ " is not parsable"))] }
            | none =>
                match publishViews teiid finder submit payload dataservice.name vdb.vdb
                    editorStates with
                | .error failure => .error (.failure failure)
                | .ok answer => .ok answer
      else .error .serviceUnavailable

/-- `publishVirtualization`, with the preview and the client as it calls them. -/
def publishVirtualization (teiid : Teiid) (finder : SchemaFinder) (store : Store)
    (updatePreviewVdb : String → Except Failure (Option PreviewVdb))
    (submit : PublishConfiguration → Except Failure OpenShift.BuildStatus)
    (payload : PublishRequestPayload) : Except PublishFailure PublishAnswer :=
  match payload.name with
  | none => .error (.failure (.forbidden "VDB not found"))
  | some name =>
      match store.findDataVirtualization name with
      | none => .error (.failure (.notFound name))
      | some dataservice =>
          match updatePreviewVdb dataservice.name with
          | .error failure => .error (.failure failure)
          | .ok vdb => publishPreview teiid finder store submit payload dataservice vdb

/-- An answer with a configuration has passed the check of the views. -/
theorem publishViews_config {teiid : Teiid} {finder : SchemaFinder}
    {submit : PublishConfiguration → Except Failure OpenShift.BuildStatus}
    {payload : PublishRequestPayload} {virtualizationName : String} {vdb : TeiidVdb}
    {editorStates : List ViewDefinition} {answer : PublishAnswer} {config : PublishConfiguration}
    (h : publishViews teiid finder submit payload virtualizationName vdb editorStates = .ok answer)
    (hconfig : answer.config = some config) :
    createServiceVdb teiid finder virtualizationName (vdb.getTable teiid virtualizationName)
      editorStates = .ok config.vdb := by
  obtain ⟨theVdb, hvdb, h⟩ := bind_eq_ok.mp h
  obtain ⟨built, hbuilt, h⟩ := bind_eq_ok.mp h
  obtain ⟨buildStatus, -, h⟩ := bind_eq_ok.mp h
  obtain rfl := pure_eq_ok.mp h
  obtain rfl : built = config := Option.some.inj hconfig
  obtain ⟨enableOdata, -, hbuilt⟩ := bind_eq_ok.mp hbuilt
  obtain ⟨diskSize, -, hbuilt⟩ := bind_eq_ok.mp hbuilt
  obtain ⟨memory, -, hbuilt⟩ := bind_eq_ok.mp hbuilt
  obtain ⟨cpuUnits, -, hbuilt⟩ := bind_eq_ok.mp hbuilt
  obtain rfl := pure_eq_ok.mp hbuilt
  exact hvdb

/-- What has been found out when the OpenShift client is handed a configuration. -/
theorem publishPreview_config {teiid : Teiid} {finder : SchemaFinder} {store : Store}
    {submit : PublishConfiguration → Except Failure OpenShift.BuildStatus}
    {payload : PublishRequestPayload} {dataservice : DataVirtualization} {vdb : Option PreviewVdb}
    {answer : PublishAnswer} {config : PublishConfiguration}
    (h : publishPreview teiid finder store submit payload dataservice vdb = .ok answer)
    (hconfig : answer.config = some config) :
    ∃ loaded, vdb = some loaded ∧ loaded.validityErrors = [] ∧
      (∀ viewDef ∈ store.findViewDefinitions dataservice.name,
        viewDef.complete = true → viewDef.parsable = true) ∧
      createServiceVdb teiid finder dataservice.name (loaded.vdb.getTable teiid dataservice.name)
        (store.findViewDefinitions dataservice.name) = .ok config.vdb := by
  -- all ways but the last answer without a configuration
  unfold publishPreview at h
  split at h
  · cases h
  · rename_i loaded
    split at h
    · split at h
      · cases h
        cases hconfig
      · rename_i hvalid
        dsimp only at h
        split at h
        · cases h
          cases hconfig
        · rename_i hparsable
          split at h
          · cases h
          · rename_i hviews
            cases h
            refine ⟨loaded, rfl, hvalid, ?_, publishViews_config hviews hconfig⟩
            intro viewDef hview hcomplete
            have hnot := List.find?_eq_none.mp hparsable viewDef hview
            simpa [hcomplete] using hnot
    · cases h

/-- An answer with a configuration has passed every check, and the configuration is that of the service
VDB. -/
theorem publishVirtualization_config {teiid : Teiid} {finder : SchemaFinder} {store : Store}
    {updatePreviewVdb : String → Except Failure (Option PreviewVdb)}
    {submit : PublishConfiguration → Except Failure OpenShift.BuildStatus}
    {payload : PublishRequestPayload} {answer : PublishAnswer} {config : PublishConfiguration}
    (h : publishVirtualization teiid finder store updatePreviewVdb submit payload = .ok answer)
    (hconfig : answer.config = some config) :
    ∃ dvName loaded, payload.name = some dvName ∧ updatePreviewVdb dvName = .ok (some loaded) ∧
      loaded.validityErrors = [] ∧
      (∀ viewDef ∈ store.findViewDefinitions dvName,
        viewDef.complete = true → viewDef.parsable = true) ∧
      createServiceVdb teiid finder dvName (loaded.vdb.getTable teiid dvName)
        (store.findViewDefinitions dvName) = .ok config.vdb := by
  unfold publishVirtualization at h
  split at h
  · cases h
  · rename_i name hname
    split at h
    · cases h
    · rename_i dataservice hfind
      obtain rfl : dataservice.name = name := key_of_find? hfind
      split at h
      · cases h
      · rename_i vdb hupdate
        obtain ⟨loaded, rfl, hrest⟩ := publishPreview_config h hconfig
        exact ⟨_, loaded, hname, hupdate, hrest⟩

end TeiidSyndesis.Server
