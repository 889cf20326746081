/-
# TeiidSyndesis.Server.PreviewDeployment — preview VDBs, the threads that deploy them and the store.

Request threads run `updatePreviewVdb` and `deleteDataVirtualization`; the one thread of
`connectionExecutor` runs `refreshPreviewVdb`.  Each step is one section under a lock or one
unprotected call, and runs interleave arbitrarily.  The store is what the transactions see: the
virtualizations with their views, changed by commits.  A commit that changes the texts of the
complete and parsable views moves the version on; a virtualization that is created again is a new row
and starts at version 0.

Main results:
* `endsWith_getPreviewVdbName`, `connectionName_ne`, `connectionName_ne_previewVdb` — the names of VDBs do
  not collide;
* `mem_undeploy`, `mem_deploy` — what deploying and undeploying do;
* `find_of_commit` — what is found after a commit;
* `updatePreviewVdb_moved`, `moved_of_next` — the inversion of a step;
* `deployed_of_moved`, `request_of_moved`, `find_of_moved` — so what a step changes, store by store.
-/
import TeiidSyndesis.Library.Tables
import TeiidSyndesis.Library.Transition
import TeiidSyndesis.Server.PreviewVdbs

namespace TeiidSyndesis.Server

open TeiidSyndesis.Library TeiidSyndesis.Model

/-! ## State -/

/-- A commit of views leaves them with the row, touched or not. -/
def StoredVirtualization.commit (stored : StoredVirtualization) (views : List ViewDefinition)
    (touch : Bool) : StoredVirtualization :=
  { row := if touch then { stored.row with version := stored.row.version + 1 } else stored.row
    views := views }

/-- A commit keeps the name. -/
theorem StoredVirtualization.name_commit (stored : StoredVirtualization)
    (views : List ViewDefinition) (touch : Bool) :
    (stored.commit views touch).row.name = stored.row.name := by
  cases touch <;> rfl

/-- A VDB the Teiid server has deployed, stamped with the time of its deployment. -/
structure Deployed where
  vdb : VDBMetaData
  active : Bool := true
  deployedAt : Nat
  deriving DecidableEq, Repr

/-- Program points of `updatePreviewVdb`; a path that raises leaves through `unlock` as well. -/
inductive PreviewPc
  | findDataVirtualization
  | getVdb (dv : DataVirtualization)
  | lock (dv : DataVirtualization)
  | recheck (dv : DataVirtualization)
  | findViewDefinitions (dv : DataVirtualization)
  | deploy (dv : DataVirtualization) (theVdb : VDBMetaData)
  | unlock
  | done
  deriving DecidableEq, Repr

/-- The thread holds the lock of its virtualization. -/
def PreviewPc.holdsLock : PreviewPc → Bool
  | .recheck _ | .findViewDefinitions _ | .deploy _ _ | .unlock => true
  | _ => false

/-- The virtualization a request has read. -/
def PreviewPc.dv : PreviewPc → Option DataVirtualization
  | .getVdb dv | .lock dv | .recheck dv | .findViewDefinitions dv | .deploy dv _ => some dv
  | _ => none

/-- Program points of `deleteDataVirtualization`. -/
inductive DeleteDvPc
  | commit
  | removeVdb
  | done
  deriving DecidableEq, Repr

/-- The requests that are open, with where they stand. -/
inductive PreviewRequest
  | updatePreviewVdb (dvName : String) (pc : PreviewPc)
  | deleteDataVirtualization (virtualization : String) (pc : DeleteDvPc)
  deriving DecidableEq, Repr

/-- Program points of `refreshPreviewVdb`: the loop over the VDBs it has listed, with the imports it
has collected, ends in the deployment of the new main preview VDB. -/
inductive RefreshPc
  | getVdbs
  | loop (vdbs : List Deployed) (imports : List String)
  deriving DecidableEq, Repr

/-- The server: its VDBs, the store, the open requests and the executor. -/
structure PreviewServer where
  virtualizations : List StoredVirtualization := []
  nextId : Nat := 0
  deployed : List Deployed := []
  clock : Nat := 0
  requests : List PreviewRequest := []
  executor : Option RefreshPc := none
  deriving DecidableEq, Repr

namespace PreviewServer

/-! ## The Teiid server -/

/-- The VDB of a name. -/
def getVdb (s : PreviewServer) (name : String) : Option Deployed :=
  s.deployed.find? (·.vdb.name = name)

/-- `undeployDynamicVdb` -/
def undeploy (s : PreviewServer) (name : String) : PreviewServer :=
  { s with deployed := s.deployed.filter (·.vdb.name ≠ name) }

/-- `deploy` undeploys the VDB of the name first, also when it then fails. -/
def deploy (s : PreviewServer) (vdb : VDBMetaData) (active succeeds : Bool) : PreviewServer :=
  { s with
    deployed :=
      s.deployed.filter (·.vdb.name ≠ vdb.name) ++
        (if succeeds then [{ vdb := vdb, active := active, deployedAt := s.clock }] else [])
    clock := s.clock + 1 }

/-- `repositoryManager.findDataVirtualization` -/
def find (s : PreviewServer) (name : String) : Option StoredVirtualization :=
  s.virtualizations.find? (·.row.name = name)

/-! ## updatePreviewVdb -/

/-- Names of one stripe share a lock. -/
def lockFree (stripe : String → Nat) (s : PreviewServer) (dvName : String) : Bool :=
  s.requests.all fun request =>
    match request with
    | .updatePreviewVdb other pc => !pc.holdsLock || stripe other != stripe dvName
    | .deleteDataVirtualization _ _ => true

/-- One step of `updatePreviewVdb`: the server it leaves and its next point, or nothing while it
waits for its lock or has returned. -/
def updatePreviewVdb (stripe : String → Nat) (s : PreviewServer) (dvName : String) (pc : PreviewPc)
    (succeeds : Bool) : Option (PreviewServer × PreviewPc) :=
  match pc with
  | .findDataVirtualization =>
      match s.find dvName with
      | none => some (s, .done)
      | some stored => some (s, .getVdb stored.row)
  | .getVdb dv =>
      match isCurrent dv ((s.getVdb (getPreviewVdbName dvName)).map (·.vdb)) with
      | .ok false => some (s, .lock dv)
      | _ => some (s, .done)
  | .lock dv => if lockFree stripe s dvName then some (s, .recheck dv) else none
  | .recheck dv =>
      match isCurrent dv ((s.getVdb (getPreviewVdbName dvName)).map (·.vdb)) with
      | .ok false => some (s, .findViewDefinitions dv)
      | _ => some (s, .unlock)
  | .findViewDefinitions dv =>
      let views := ((s.find dvName).map (·.views)).getD []
      match createPreviewVdb dvName (getPreviewVdbName dvName) views with
      | .ok theVdb => some (s, .deploy dv { theVdb with versionProperty := some dv.version })
      | .error _ => some (s, .unlock)
  | .deploy _ theVdb => some (s.deploy theVdb true succeeds, .unlock)
  | .unlock => some (s, .done)
  | .done => none

/-! ## deleteDataVirtualization and refreshPreviewVdb -/

/-- One step of `deleteDataVirtualization`. -/
def deleteDataVirtualization (s : PreviewServer) (virtualization : String) (pc : DeleteDvPc) :
    Option (PreviewServer × DeleteDvPc) :=
  match pc with
  | .commit =>
      match s.find virtualization with
      | none => some (s, .done)
      | some _ =>
          some
            ({ s with virtualizations := s.virtualizations.filter (·.row.name ≠ virtualization) },
              .removeVdb)
  | .removeVdb => some (s.undeploy (getPreviewVdbName virtualization), .done)
  | .done => none

def endsWith (name suffix : String) : Bool := suffix.toList.isSuffixOf name.toList

/-- One step of `refreshPreviewVdb`. -/
def refreshPreviewVdb (s : PreviewServer) (pc : RefreshPc) (succeeds : Bool) :
    PreviewServer × Option RefreshPc :=
  match pc with
  | .getVdbs => (s, some (.loop s.deployed []))
  | .loop (found :: vdbs) imports =>
      if endsWith found.vdb.name connectionVdbSuffix then
        (s, some (.loop vdbs (if found.active then imports ++ [found.vdb.name] else imports)))
      else if endsWith found.vdb.name "vdb" then
        (s.undeploy found.vdb.name, some (.loop vdbs imports))
      else (s, some (.loop vdbs imports))
  | .loop [] imports =>
      (s.deploy { name := previewVdb, imports := imports, preview := true } true succeeds, none)

/-! ## The system -/

/-- Whose step is next. -/
inductive Label
  /-- a request thread enters `updatePreviewVdb` -/
  | updatePreviewVdb (dvName : String)
  /-- a request thread enters `deleteDataVirtualization` -/
  | deleteDataVirtualization (virtualization : String)
  /-- a request thread takes its next step; a deployment in it succeeds or fails -/
  | request (thread : Nat) (succeeds : Bool)
  /-- `createDataVirtualization` commits -/
  | createDataVirtualization (name : String) (description : Option String)
  /-- a change of the views of a virtualization commits, touching the virtualization or not -/
  | commitViews (name : String) (views : List ViewDefinition) (touch : Bool)
  /-- the executor starts `refreshPreviewVdb` -/
  | refreshPreviewVdb
  /-- the executor takes its next step -/
  | executor (succeeds : Bool)
  /-- the VDB of a connection is deployed, or loses its connection -/
  | connection (name : String) (active : Bool)
  | removeConnection (name : String)
  deriving DecidableEq, Repr

/-- A request thread takes its next step. -/
def requestStep (stripe : String → Nat) (s : PreviewServer) (thread : Nat) (succeeds : Bool) :
    Option PreviewServer :=
  match s.requests[thread]? with
  | none => none
  | some (.updatePreviewVdb dvName pc) =>
      (updatePreviewVdb stripe s dvName pc succeeds).map fun (t, next) =>
        { t with requests := s.requests.set thread (.updatePreviewVdb dvName next) }
  | some (.deleteDataVirtualization virtualization pc) =>
      (deleteDataVirtualization s virtualization pc).map fun (t, next) =>
        { t with requests := s.requests.set thread (.deleteDataVirtualization virtualization next) }

/-- A virtualization is created, as a new row. -/
def create (s : PreviewServer) (name : String) (description : Option String) :
    Option PreviewServer :=
  match s.find name with
  | some _ => none
  | none =>
      some
        { s with
          virtualizations :=
            s.virtualizations ++
              [{ row := { id := s.nextId, name := name, description := description } }]
          nextId := s.nextId + 1 }

/-- A change of the texts that are previewed touches the virtualization. -/
def commitViews (s : PreviewServer) (name : String) (views : List ViewDefinition) (touch : Bool) :
    Option PreviewServer :=
  match s.find name with
  | none => none
  | some stored =>
      if touch || usableDdls views == usableDdls stored.views then
        some
          { s with
            virtualizations := s.virtualizations.map fun other =>
              if other.row.name = name then other.commit views touch else other }
      else none

/-- One step of the server. -/
def next (stripe : String → Nat) (s : PreviewServer) (label : Label) : Option PreviewServer :=
  match label with
  | .updatePreviewVdb dvName =>
      some
        { s with
          requests := s.requests ++ [.updatePreviewVdb dvName .findDataVirtualization] }
  | .deleteDataVirtualization virtualization =>
      some { s with requests := s.requests ++ [.deleteDataVirtualization virtualization .commit] }
  | .request thread succeeds => requestStep stripe s thread succeeds
  | .createDataVirtualization name description => create s name description
  | .commitViews name views touch => commitViews s name views touch
  | .refreshPreviewVdb =>
      match s.executor with
      | none => some { s with executor := some .getVdbs }
      | some _ => none
  | .executor succeeds =>
      match s.executor with
      | none => none
      | some pc =>
          let (t, next) := refreshPreviewVdb s pc succeeds
          some { t with executor := next }
  | .connection name active =>
      some (s.deploy { name := name ++ connectionVdbSuffix } active true)
  | .removeConnection name => some (s.undeploy (name ++ connectionVdbSuffix))

/-- Nothing is stored or deployed. -/
def initial : PreviewServer := {}

/-- Runs of the server. -/
def system (stripe : String → Nat) : System PreviewServer Label :=
  .ofNext (· = initial) (next stripe)

/-! ## Names of VDBs -/

/-- The names of preview VDBs of virtualizations end as such, and not as names of connections. -/
theorem endsWith_getPreviewVdbName (dvName : String) :
    endsWith (getPreviewVdbName dvName) "vdb" = true ∧
      endsWith (getPreviewVdbName dvName) connectionVdbSuffix = false := by
  unfold endsWith getPreviewVdbName connectionVdbSuffix
  rw [String.toList_append]
  constructor
  · exact List.isSuffixOf_iff_suffix.mpr (List.suffix_append _ _)
  · rw [Bool.eq_false_iff]
    intro h
    obtain ⟨l, hl⟩ := List.isSuffixOf_iff_suffix.mp h
    have hlast := congrArg List.getLast? hl
    simp at hlast

/-- The VDB of all sources is no preview of a virtualization. -/
theorem previewVdb_ne (dvName : String) : previewVdb ≠ getPreviewVdbName dvName := by
  intro h
  have hends := (endsWith_getPreviewVdbName dvName).1
  rw [← h] at hends
  exact absurd hends (by decide)

theorem endsWith_connectionName (name : String) :
    endsWith (name ++ connectionVdbSuffix) connectionVdbSuffix = true := by
  unfold endsWith
  rw [String.toList_append]
  exact List.isSuffixOf_iff_suffix.mpr (List.suffix_append _ _)

/-- The VDB of a source is no preview of a virtualization. -/
theorem connectionName_ne (name dvName : String) :
    name ++ connectionVdbSuffix ≠ getPreviewVdbName dvName := by
  intro h
  have hends := endsWith_connectionName name
  rw [h, (endsWith_getPreviewVdbName dvName).2] at hends
  cases hends

/-- The VDB of a source is not the VDB of all sources. -/
theorem connectionName_ne_previewVdb (name : String) :
    name ++ connectionVdbSuffix ≠ previewVdb := by
  intro h
  have hends := endsWith_connectionName name
  rw [h] at hends
  exact absurd hends (by decide)

/-! ## What deploying and undeploying do -/

/-- Undeploying takes the VDB of the name. -/
theorem mem_undeploy {s : PreviewServer} {name : String} {d : Deployed} :
    d ∈ (s.undeploy name).deployed ↔ d ∈ s.deployed ∧ d.vdb.name ≠ name := by
  simp [undeploy]

/-- Deploying replaces it, if it succeeds. -/
theorem mem_deploy {s : PreviewServer} {vdb : VDBMetaData} {active succeeds : Bool} {d : Deployed}
    (h : d ∈ (s.deploy vdb active succeeds).deployed) :
    (d ∈ s.deployed ∧ d.vdb.name ≠ vdb.name) ∨
      (succeeds = true ∧ d = { vdb := vdb, active := active, deployedAt := s.clock }) := by
  rcases List.mem_append.mp h with hold | hnew
  · exact .inl (by simpa using hold)
  · cases succeeds with
    | false => cases hnew
    | true => exact .inr ⟨rfl, List.mem_singleton.mp hnew⟩

/-! ## What the store finds after a commit -/

/-- What is found by name has it. -/
theorem name_of_find {s : PreviewServer} {name : String} {stored : StoredVirtualization}
    (h : s.find name = some stored) : stored.row.name = name := by
  simpa using List.find?_some h

/-- A virtualization that is found after one was deleted was found before. -/
theorem find_of_filter {s : PreviewServer} {deleted name : String} {stored : StoredVirtualization}
    (h : (s.virtualizations.filter (·.row.name ≠ deleted)).find? (·.row.name = name) =
      some stored) : s.find name = some stored := by
  rw [find?_filter_key fun other : StoredVirtualization => other.row.name] at h
  split at h
  · cases h
  · exact h

/-- A created virtualization is found under its name, and nothing else changes. -/
theorem find_of_append {s : PreviewServer} {created stored : StoredVirtualization} {name : String}
    (h : (s.virtualizations ++ [created]).find? (·.row.name = name) = some stored) :
    s.find name = some stored ∨ (stored = created ∧ created.row.name = name) := by
  rw [List.find?_append] at h
  rcases Option.or_eq_some_iff.mp h with hold | ⟨_, hnew⟩
  · exact .inl hold
  · have hcreated := List.mem_of_find?_eq_some hnew
    have hname := List.find?_some hnew
    rw [List.mem_singleton.mp hcreated] at hname
    exact .inr ⟨List.mem_singleton.mp hcreated, by simpa using hname⟩

/-- A commit of views changes what is found under its name only. -/
theorem find_of_commit {s : PreviewServer} {committed name : String} {views : List ViewDefinition}
    {touch : Bool} {stored : StoredVirtualization}
    (h : (s.virtualizations.map fun other =>
        if other.row.name = committed then other.commit views touch else other).find?
          (·.row.name = name) = some stored) :
    (name ≠ committed ∧ s.find name = some stored) ∨
      (name = committed ∧ ∃ before, s.find name = some before ∧
        stored = before.commit views touch) := by
  have hkeys : ∀ other : StoredVirtualization,
      (if other.row.name = committed then other.commit views touch else other).row.name =
        other.row.name := by
    intro other
    split
    · exact StoredVirtualization.name_commit other views touch
    · rfl
  rw [find?_map_key (fun other : StoredVirtualization => other.row.name) hkeys] at h
  obtain ⟨before, hfind, hstored⟩ := Option.map_eq_some_iff.mp h
  have hname := name_of_find hfind
  rw [hname] at hstored
  by_cases hne : name = committed
  · rw [if_pos hne] at hstored
    exact .inr ⟨hne, before, hfind, hstored.symm⟩
  · rw [if_neg hne] at hstored
    exact .inl ⟨hne, hstored ▸ hfind⟩

/-! ## The inversion of a step -/

/-- Everything one step of `updatePreviewVdb` can do. -/
inductive PreviewMoved (s : PreviewServer) (dvName : String) (succeeds : Bool) :
    PreviewPc → PreviewServer → PreviewPc → Prop
  | finds {stored : StoredVirtualization} (h : s.find dvName = some stored) :
      PreviewMoved s dvName succeeds .findDataVirtualization s (.getVdb stored.row)
  | checks {pc pc' : PreviewPc} {dv : DataVirtualization} (hpc : pc.dv = some dv)
      (hpc' : pc'.dv = some dv) (hne : ∀ dv' theVdb, pc' ≠ .deploy dv' theVdb) :
      PreviewMoved s dvName succeeds pc s pc'
  | generates {dv : DataVirtualization} {theVdb : VDBMetaData}
      (h : createPreviewVdb dvName (getPreviewVdbName dvName)
        (((s.find dvName).map (·.views)).getD []) = .ok theVdb) :
      PreviewMoved s dvName succeeds (.findViewDefinitions dv) s
        (.deploy dv { theVdb with versionProperty := some dv.version })
  | deploys (dv : DataVirtualization) (theVdb : VDBMetaData) :
      PreviewMoved s dvName succeeds (.deploy dv theVdb) (s.deploy theVdb true succeeds) .unlock
  | leaves (pc : PreviewPc) {pc' : PreviewPc} (hpc' : pc'.dv = none) :
      PreviewMoved s dvName succeeds pc s pc'

/-- Every step of a preview is one of its moves. -/
theorem updatePreviewVdb_moved {stripe : String → Nat} {s t : PreviewServer} {dvName : String}
    {pc pc' : PreviewPc} {succeeds : Bool}
    (h : updatePreviewVdb stripe s dvName pc succeeds = some (t, pc')) :
    PreviewMoved s dvName succeeds pc t pc' := by
  -- one case for each program point; a point that ends the request leaves it
  cases pc with
  | findDataVirtualization =>
      simp only [updatePreviewVdb] at h
      split at h
      · cases h
        exact .leaves _ rfl
      · rename_i stored hfind
        cases h
        exact .finds hfind
  | getVdb dv =>
      simp only [updatePreviewVdb] at h
      split at h
      · cases h
        exact .checks (rfl : PreviewPc.dv _ = some dv) rfl (by simp)
      · cases h
        exact .leaves _ rfl
  | lock dv =>
      simp only [updatePreviewVdb] at h
      split at h
      · cases h
        exact .checks (rfl : PreviewPc.dv _ = some dv) rfl (by simp)
      · cases h
  | recheck dv =>
      simp only [updatePreviewVdb] at h
      split at h
      · cases h
        exact .checks (rfl : PreviewPc.dv _ = some dv) rfl (by simp)
      · cases h
        exact .leaves _ rfl
  | findViewDefinitions dv =>
      simp only [updatePreviewVdb] at h
      split at h
      · rename_i theVdb hcreate
        cases h
        exact .generates hcreate
      · cases h
        exact .leaves _ rfl
  | deploy dv theVdb =>
      cases h
      exact .deploys dv theVdb
  | unlock =>
      cases h
      exact .leaves _ rfl
  | done => cases h

/-- Everything one step of the system can do. -/
inductive Moved (s : PreviewServer) : Label → PreviewServer → Prop
  | arrives (label : Label) {request : PreviewRequest}
      (hfirst : (∃ dvName, request = .updatePreviewVdb dvName .findDataVirtualization) ∨
        ∃ dvName, request = .deleteDataVirtualization dvName .commit) :
      Moved s label { s with requests := s.requests ++ [request] }
  | preview {thread : Nat} {succeeds : Bool} {dvName : String} {pc pc' : PreviewPc}
      {t : PreviewServer} (hget : s.requests[thread]? = some (.updatePreviewVdb dvName pc))
      (hmoved : PreviewMoved s dvName succeeds pc t pc') :
      Moved s (.request thread succeeds)
        { t with requests := s.requests.set thread (.updatePreviewVdb dvName pc') }
  | deleteCommit {thread : Nat} {succeeds : Bool} {dvName : String} (pc' : DeleteDvPc)
      (hget : s.requests[thread]? = some (.deleteDataVirtualization dvName .commit))
      (virtualizations : List StoredVirtualization)
      (hkept : ∀ v ∈ virtualizations, v ∈ s.virtualizations)
      (hfind : ∀ name stored, virtualizations.find? (·.row.name = name) = some stored →
        s.find name = some stored) :
      Moved s (.request thread succeeds)
        { s with
          virtualizations := virtualizations
          requests := s.requests.set thread (.deleteDataVirtualization dvName pc') }
  | removeVdb {thread : Nat} {succeeds : Bool} {dvName : String}
      (hget : s.requests[thread]? = some (.deleteDataVirtualization dvName .removeVdb)) :
      Moved s (.request thread succeeds)
        { s.undeploy (getPreviewVdbName dvName) with
          requests := s.requests.set thread (.deleteDataVirtualization dvName .done) }
  | create {name : String} {description : Option String} (hname : s.find name = none) :
      Moved s (.createDataVirtualization name description)
        { s with
          virtualizations :=
            s.virtualizations ++
              [{ row := { id := s.nextId, name := name, description := description } }]
          nextId := s.nextId + 1 }
  | commit {name : String} {views : List ViewDefinition} {touch : Bool}
      {stored : StoredVirtualization} (hfind : s.find name = some stored)
      (htouch : touch = true ∨ usableDdls views = usableDdls stored.views) :
      Moved s (.commitViews name views touch)
        { s with
          virtualizations := s.virtualizations.map fun other =>
            if other.row.name = name then other.commit views touch else other }
  | refresh (hidle : s.executor = none) :
      Moved s .refreshPreviewVdb { s with executor := some .getVdbs }
  | executor {succeeds : Bool} {pc : RefreshPc} (hpc : s.executor = some pc) :
      Moved s (.executor succeeds)
        { (PreviewServer.refreshPreviewVdb s pc succeeds).1 with
          executor := (PreviewServer.refreshPreviewVdb s pc succeeds).2 }
  | connection (name : String) (active : Bool) :
      Moved s (.connection name active)
        (s.deploy { name := name ++ connectionVdbSuffix } active true)
  | removeConnection (name : String) :
      Moved s (.removeConnection name) (s.undeploy (name ++ connectionVdbSuffix))

/-- Every step of the server is one of the moves of its threads. -/
theorem moved_of_next {stripe : String → Nat} {s t : PreviewServer} {label : Label}
    (h : next stripe s label = some t) : Moved s label t := by
  -- a request takes its step by its own program; the other labels are one action each
  cases label with
  | updatePreviewVdb dvName =>
      cases h
      exact .arrives _ (.inl ⟨dvName, rfl⟩)
  | deleteDataVirtualization dvName =>
      cases h
      exact .arrives _ (.inr ⟨dvName, rfl⟩)
  | request thread succeeds =>
      simp only [next, requestStep] at h
      split at h
      · cases h
      · rename_i dvName pc hget
        obtain ⟨⟨t', pc'⟩, hstep, rfl⟩ := Option.map_eq_some_iff.mp h
        exact .preview hget (updatePreviewVdb_moved hstep)
      · rename_i dvName pc hget
        obtain ⟨⟨t', pc'⟩, hstep, rfl⟩ := Option.map_eq_some_iff.mp h
        cases pc with
        | commit =>
            simp only [PreviewServer.deleteDataVirtualization] at hstep
            split at hstep
            · -- a virtualization that is not there ends the request
              cases hstep
              exact .deleteCommit .done hget s.virtualizations (fun _ hv => hv) fun _ _ hv => hv
            · cases hstep
              exact .deleteCommit .removeVdb hget _ (fun _ hv => (List.mem_filter.mp hv).1)
                fun _ _ hv => find_of_filter hv
        | removeVdb =>
            cases hstep
            exact .removeVdb hget
        | done => cases hstep
  | createDataVirtualization name description =>
      simp only [next, PreviewServer.create] at h
      split at h
      · cases h
      · rename_i hname
        cases h
        exact .create hname
  | commitViews name views touch =>
      simp only [next, PreviewServer.commitViews] at h
      split at h
      · cases h
      · rename_i stored hfind
        split at h
        · rename_i htouch
          cases h
          exact .commit hfind (by simpa using htouch)
        · cases h
  | refreshPreviewVdb =>
      simp only [next] at h
      split at h
      · rename_i hidle
        cases h
        exact .refresh hidle
      · cases h
  | executor succeeds =>
      simp only [next] at h
      split at h
      · cases h
      · rename_i pc hpc
        cases h
        exact .executor hpc
  | connection name active =>
      cases h
      exact .connection name active
  | removeConnection name =>
      cases h
      exact .removeConnection name

/-! ## What a step changes -/

/-- The executor leaves everything but the deployed VDBs alone, and deploys only the main one. -/
theorem refreshPreviewVdb_frame (s : PreviewServer) (pc : RefreshPc) (succeeds : Bool) :
    ∃ deployed clock,
      (PreviewServer.refreshPreviewVdb s pc succeeds).1 =
        { s with deployed := deployed, clock := clock } ∧
      ∀ d ∈ deployed, d ∈ s.deployed ∨ d.vdb.name = previewVdb := by
  cases pc with
  | getVdbs => exact ⟨_, _, rfl, fun _ hd => .inl hd⟩
  | loop vdbs imports =>
      cases vdbs with
      | nil =>
          refine ⟨_, _, rfl, ?_⟩
          intro d hd
          rcases mem_deploy hd with ⟨hold, _⟩ | ⟨_, rfl⟩
          · exact .inl hold
          · exact .inr rfl
      | cons found vdbs =>
          simp only [PreviewServer.refreshPreviewVdb]
          split
          · exact ⟨_, _, rfl, fun _ hd => .inl hd⟩
          · split
            · exact ⟨_, _, rfl, fun _ hd => .inl (mem_undeploy.mp hd).1⟩
            · exact ⟨_, _, rfl, fun _ hd => .inl hd⟩

/-- A deployed VDB was deployed before, or a request deploys it, or it previews no
virtualization. -/
theorem deployed_of_moved {s t : PreviewServer} {label : Label} (h : Moved s label t)
    {d : Deployed} (hd : d ∈ t.deployed) :
    d ∈ s.deployed ∨
      (∃ thread dvName dv, label = .request thread true ∧
        s.requests[thread]? = some (.updatePreviewVdb dvName (.deploy dv d.vdb))) ∨
      ∀ dvName, d.vdb.name ≠ getPreviewVdbName dvName := by
  -- a VDB is deployed by a request, by the executor, or for a connection
  cases h with
  | @preview thread succeeds dvName pc pc' t' hget hmoved =>
      cases hmoved with
      | deploys dv theVdb =>
          rcases mem_deploy hd with ⟨hold, _⟩ | ⟨hsucceeds, rfl⟩
          · exact .inl hold
          · subst hsucceeds
            exact .inr (.inl ⟨thread, dvName, dv, rfl, hget⟩)
      | _ => exact .inl hd
  | removeVdb | removeConnection => exact .inl (mem_undeploy.mp hd).1
  | @executor succeeds pc hpc =>
      obtain ⟨deployed, clock, hframe, hdeployed⟩ := refreshPreviewVdb_frame s pc succeeds
      rw [hframe] at hd
      rcases hdeployed d hd with hold | hmain
      · exact .inl hold
      · refine .inr (.inr ?_)
        intro dvName
        rw [hmain]
        exact previewVdb_ne dvName
  | connection name active =>
      rcases mem_deploy hd with ⟨hold, _⟩ | ⟨_, rfl⟩
      · exact .inl hold
      · exact .inr (.inr (connectionName_ne name))
  | _ => exact .inl hd

/-- A request is where it was before, or has arrived, or has taken a step. -/
theorem request_of_moved {s t : PreviewServer} {label : Label} (h : Moved s label t)
    {dvName : String} {pc' : PreviewPc} (hmem : .updatePreviewVdb dvName pc' ∈ t.requests) :
    .updatePreviewVdb dvName pc' ∈ s.requests ∨ pc' = .findDataVirtualization ∨
      ∃ pc succeeds t', .updatePreviewVdb dvName pc ∈ s.requests ∧
        PreviewMoved s dvName succeeds pc t' pc' := by
  -- a request is as it was, or new, or has moved on by one point
  cases h with
  | arrives _ hfirst =>
      rcases List.mem_append.mp hmem with hold | hnew
      · exact .inl hold
      · have hrequest := List.mem_singleton.mp hnew
        rcases hfirst with ⟨_, rfl⟩ | ⟨_, rfl⟩
        · cases hrequest
          exact .inr (.inl rfl)
        · cases hrequest
  | preview hget hmoved =>
      have hrequest := List.mem_of_getElem? hget
      rcases List.mem_or_eq_of_mem_set hmem with hold | hnew
      · cases hmoved <;> exact .inl hold
      · cases hnew
        exact .inr (.inr ⟨_, _, _, hrequest, hmoved⟩)
  | deleteCommit | removeVdb =>
      rcases List.mem_or_eq_of_mem_set hmem with hold | hnew
      · exact .inl hold
      · cases hnew
  | @executor succeeds pc hpc =>
      obtain ⟨deployed, clock, hframe, _⟩ := refreshPreviewVdb_frame s pc succeeds
      rw [hframe] at hmem
      exact .inl hmem
  | _ => exact .inl hmem

/-- A virtualization that is found was found before, or is new, or its views were committed. -/
theorem find_of_moved {s t : PreviewServer} {label : Label} (h : Moved s label t) {name : String}
    {stored : StoredVirtualization} (hfind : t.find name = some stored) :
    s.find name = some stored ∨
      ((∃ description, label = .createDataVirtualization name description) ∧
        stored.row.id = s.nextId) ∨
      ∃ before views touch, s.find name = some before ∧ stored = before.commit views touch ∧
        (touch = true ∨ usableDdls views = usableDdls before.views) := by
  cases h with
  | preview _ hmoved => cases hmoved <;> exact .inl hfind
  | deleteCommit _ _ _ _ hkept => exact .inl (hkept name stored hfind)
  | @create created description _ =>
      rcases find_of_append hfind with hold | ⟨rfl, rfl⟩
      · exact .inl hold
      · exact .inr (.inl ⟨⟨description, rfl⟩, rfl⟩)
  | @commit committed views touch before hbefore htouch =>
      rcases find_of_commit hfind with ⟨_, hold⟩ | ⟨rfl, before', hbefore', rfl⟩
      · exact .inl hold
      · rw [hbefore] at hbefore'
        cases hbefore'
        exact .inr (.inr ⟨before, views, touch, hbefore, rfl, htouch⟩)
  | @executor succeeds pc hpc =>
      obtain ⟨deployed, clock, hframe, _⟩ := refreshPreviewVdb_frame s pc succeeds
      rw [hframe] at hfind
      exact .inl hfind
  | _ => exact .inl hfind

/-! ## The VDBs requests are about to deploy -/

/-- A request deploys under the name of the preview VDB of its virtualization. -/
def NamesPreview (s : PreviewServer) : Prop :=
  ∀ dvName dv theVdb, .updatePreviewVdb dvName (.deploy dv theVdb) ∈ s.requests →
    theVdb.name = getPreviewVdbName dvName

/-- What a request is about to deploy is the preview of its virtualization. -/
theorem namesPreview_step {stripe : String → Nat} {s t : PreviewServer} {label : Label}
    (hs : NamesPreview s) (hnext : next stripe s label = some t) : NamesPreview t := by
  intro dvName dv theVdb hmem
  rcases request_of_moved (moved_of_next hnext) hmem with hold | hfirst | ⟨pc, _, _, _, hmoved⟩
  · exact hs dvName dv theVdb hold
  · cases hfirst
  · -- only the step that generates a VDB names it
    cases hmoved with
    | generates hcreate => exact (frame_of_createPreviewVdb hcreate).1
    | checks _ _ hne => exact absurd rfl (hne _ _)
    | leaves _ hpc' => cases hpc'

end PreviewServer

end TeiidSyndesis.Server
