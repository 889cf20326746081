/-
# TeiidSyndesis.OpenShift.VirtualizationResources — what publishing creates, unpublishing deletes.

The objects of a virtualization are created under names derived from its OpenShift name, each with the
OpenShift name as its application label; builds, pods and replication controllers inherit the label.
`deleteVDBServiceResources` finds some of them by name and some by label.  A name ends in a suffix that
tells its use, so two virtualizations share none, whatever suffix a virtualization itself ends in.

A call of the deletion that raises may have deleted some of what it was to delete.

Main results:
* `madeFor_creations` — every object of a cluster is made for one virtualization;
* `deleteAll_returns` — what calls that return delete;
* `suffixed_inj`, `selected_iff` — names end in a suffix that tells their use, so which objects are
  selected;
* `Names.getOpenShiftName_inj` — virtualizations whose names differ have different OpenShift names;
* `unpublish_exact` — so unpublishing deletes the objects of its own virtualization, and no others.
-/
import TeiidSyndesis.OpenShift.Lifecycle
import TeiidSyndesis.Server.DataVirtualizationService

namespace TeiidSyndesis.OpenShift

open TeiidSyndesis.Library TeiidSyndesis.Model TeiidSyndesis.Server

/-! ## The cluster -/

/-- An object: its kind, its name and its application label. -/
structure Resource where
  kind : ResourceKind
  name : String
  /-- label `application` -/
  application : Option String
  deriving DecidableEq, Repr

/-- The objects of a project. -/
abbrev Cluster := List Resource

namespace Cluster

/-- An object is known by its kind and its name. -/
def find (cluster : Cluster) (kind : ResourceKind) (name : String) : Option Resource :=
  List.find? (fun r => r.kind = kind ∧ r.name = name) cluster

/-- `createOrReplace` -/
def createOrReplace (cluster : Cluster) (resource : Resource) : Cluster :=
  cluster.filter (fun r => ¬(r.kind = resource.kind ∧ r.name = resource.name)) ++ [resource]

/-- `createNew`, where `get` has found no object. -/
def createNew (cluster : Cluster) (resource : Resource) : Cluster :=
  match cluster.find resource.kind resource.name with
  | some _ => cluster
  | none => cluster ++ [resource]

/-! ## Creating the objects of a virtualization -/

def createImageStream (cluster : Cluster) (openShiftName : String) : Cluster :=
  cluster.createOrReplace
    { kind := .imageStream, name := openShiftName, application := some openShiftName }

/-- The name of a build config. -/
def getBuildConfigName (openShiftName : String) : String := openShiftName ++ "-build-config"

def createBuildConfig (cluster : Cluster) (openShiftName : String) : Cluster :=
  cluster.createOrReplace
    { kind := .buildConfig
      name := getBuildConfigName openShiftName
      application := some openShiftName }

/-- An object a controller makes from one that has the label; OpenShift draws its name. -/
def inherited (kind : ResourceKind) (name openShiftName : String) : Resource :=
  { kind := kind, name := name, application := some openShiftName }

/-- `instantiateBinary` -/
def createBuild (cluster : Cluster) (openShiftName buildName : String) : Cluster :=
  cluster ++ [inherited .build buildName openShiftName]

/-- The calls `configureBuild` makes on the cluster. -/
def configureBuild (cluster : Cluster) (openShiftName buildName : String) : Cluster :=
  ((cluster.createImageStream openShiftName).createBuildConfig openShiftName).createBuild
    openShiftName buildName

def createDeploymentConfig (cluster : Cluster) (openShiftName : String) : Cluster :=
  cluster.createOrReplace
    { kind := .deploymentConfig, name := openShiftName, application := some openShiftName }

def createSecret (cluster : Cluster) (openShiftName : String) : Cluster :=
  cluster.createOrReplace
    { kind := .secret, name := secretName openShiftName, application := some openShiftName }

/-- `createService` and `createODataService`, which differ in ports and annotations only. -/
def createService (cluster : Cluster) (openShiftName type : String) : Cluster :=
  cluster.createNew
    { kind := .service, name := openShiftName ++ "-" ++ type, application := some openShiftName }

def createRoute (cluster : Cluster) (openShiftName type : String) : Cluster :=
  cluster.createNew
    { kind := .route, name := openShiftName ++ "-" ++ type, application := some openShiftName }

def createServices (cluster : Cluster) (exposeVia3scale : Bool) (openShiftName : String) : Cluster :=
  let cluster :=
    ((cluster.createService openShiftName "odata").createService openShiftName "jdbc").createService
      openShiftName "pg"
  if exposeVia3scale then cluster else cluster.createRoute openShiftName "odata"

end Cluster

/-- The objects created for a virtualization. -/
inductive CreatedFor (openShiftName : String) : Resource → Prop
  | imageStream : CreatedFor openShiftName ⟨.imageStream, openShiftName, some openShiftName⟩
  | buildConfig :
      CreatedFor openShiftName
        ⟨.buildConfig, Cluster.getBuildConfigName openShiftName, some openShiftName⟩
  | deploymentConfig :
      CreatedFor openShiftName ⟨.deploymentConfig, openShiftName, some openShiftName⟩
  | secret : CreatedFor openShiftName ⟨.secret, secretName openShiftName, some openShiftName⟩
  | service {type : String} : type ∈ ["odata", "jdbc", "pg"] →
      CreatedFor openShiftName ⟨.service, openShiftName ++ "-" ++ type, some openShiftName⟩
  | route : CreatedFor openShiftName ⟨.route, openShiftName ++ "-" ++ "odata", some openShiftName⟩
  | inherited {kind : ResourceKind} (name : String) :
      kind ∈ [ResourceKind.build, .pod, .replicationController] →
      CreatedFor openShiftName (Cluster.inherited kind name openShiftName)

/-- Every object of the cluster was created for one of the virtualizations. -/
def MadeFor (names : List String) (cluster : Cluster) : Prop :=
  ∀ r ∈ cluster, ∃ name ∈ names, CreatedFor (getOpenShiftName name) r

/-- What is created for a virtualization bears its label. -/
theorem CreatedFor.application {openShiftName : String} {r : Resource}
    (h : CreatedFor openShiftName r) : r.application = some openShiftName := by
  cases h <;> rfl

/-! ## Clusters made by publishing -/

/-- The steps that create objects: those of the client, and a controller's. -/
inductive Creation
  | configureBuild (virtualization buildName : String)
  | createDeploymentConfig (virtualization : String)
  | createSecret (virtualization : String)
  | createServices (virtualization : String) (exposeVia3scale : Bool)
  | replicationController (virtualization name : String)
  | pod (virtualization name : String)
  deriving DecidableEq, Repr

namespace Creation

/-- The virtualization a creation is for. -/
def virtualization : Creation → String
  | .configureBuild virtualization _ | .createDeploymentConfig virtualization
  | .createSecret virtualization | .createServices virtualization _
  | .replicationController virtualization _ | .pod virtualization _ => virtualization

/-- What a creation does. -/
def apply (cluster : Cluster) : Creation → Cluster
  | .configureBuild virtualization buildName =>
      cluster.configureBuild (getOpenShiftName virtualization) buildName
  | .createDeploymentConfig virtualization =>
      cluster.createDeploymentConfig (getOpenShiftName virtualization)
  | .createSecret virtualization => cluster.createSecret (getOpenShiftName virtualization)
  | .createServices virtualization exposeVia3scale =>
      cluster.createServices exposeVia3scale (getOpenShiftName virtualization)
  | .replicationController virtualization name =>
      cluster ++ [Cluster.inherited .replicationController name (getOpenShiftName virtualization)]
  | .pod virtualization name =>
      cluster ++ [Cluster.inherited .pod name (getOpenShiftName virtualization)]

end Creation

section Made

variable {names : List String} {cluster : Cluster} {name : String} {r : Resource}

theorem MadeFor.append (h : MadeFor names cluster) (hname : name ∈ names)
    (hr : CreatedFor (getOpenShiftName name) r) : MadeFor names (cluster ++ [r]) := by
  intro x hx
  rcases List.mem_append.mp hx with hold | hnew
  · exact h x hold
  · rw [List.mem_singleton.mp hnew]
    exact ⟨name, hname, hr⟩

/-- An object that is replaced. -/
theorem MadeFor.createOrReplace (h : MadeFor names cluster) (hname : name ∈ names)
    (hr : CreatedFor (getOpenShiftName name) r) : MadeFor names (cluster.createOrReplace r) := by
  have hkept : MadeFor names
      (cluster.filter fun x => ¬(x.kind = r.kind ∧ x.name = r.name)) :=
    fun x hx => h x (List.mem_filter.mp hx).1
  exact hkept.append hname hr

/-- One that is created unless it is there. -/
theorem MadeFor.createNew (h : MadeFor names cluster) (hname : name ∈ names)
    (hr : CreatedFor (getOpenShiftName name) r) : MadeFor names (cluster.createNew r) := by
  unfold Cluster.createNew
  split
  · exact h
  · exact h.append hname hr

/-- The services of a virtualization. -/
theorem MadeFor.createServices (h : MadeFor names cluster) (hname : name ∈ names)
    (exposeVia3scale : Bool) :
    MadeFor names (cluster.createServices exposeVia3scale (getOpenShiftName name)) := by
  have hodata := h.createNew hname (@CreatedFor.service _ "odata" (by simp))
  have hjdbc := hodata.createNew hname (@CreatedFor.service _ "jdbc" (by simp))
  have hpg := hjdbc.createNew hname (@CreatedFor.service _ "pg" (by simp))
  unfold Cluster.createServices
  split
  · exact hpg
  · exact hpg.createNew hname .route

/-- A creation for one of the virtualizations. -/
theorem MadeFor.creation (h : MadeFor names cluster) {creation : Creation}
    (hname : creation.virtualization ∈ names) : MadeFor names (creation.apply cluster) := by
  cases creation with
  | configureBuild v buildName =>
      have hstream := h.createOrReplace hname .imageStream
      have hconfig := hstream.createOrReplace hname .buildConfig
      exact hconfig.append hname (.inherited buildName (by simp))
  | createDeploymentConfig v => exact h.createOrReplace hname .deploymentConfig
  | createSecret v => exact h.createOrReplace hname .secret
  | createServices v exposeVia3scale => exact h.createServices hname exposeVia3scale
  | replicationController v rc => exact h.append hname (.inherited rc (by simp))
  | pod v pod => exact h.append hname (.inherited pod (by simp))

/-- Any sequence of creations for the virtualizations. -/
theorem madeFor_creations {creations : List Creation}
    (hnames : ∀ creation ∈ creations, creation.virtualization ∈ names) :
    MadeFor names (creations.foldl Creation.apply []) := by
  suffices h : ∀ cluster, MadeFor names cluster →
      MadeFor names (creations.foldl Creation.apply cluster) from h [] (fun _ hr => nomatch hr)
  induction creations with
  | nil => exact fun _ h => h
  | cons creation creations ih =>
      intro cluster h
      have hhead := h.creation (hnames creation List.mem_cons_self)
      exact ih (fun c hc => hnames c (List.mem_cons_of_mem _ hc)) _ hhead

end Made

/-! ## Deleting them -/

/-- How a call of the deletion ends; one that raises may have deleted some objects before. -/
inductive DeleteCall
  | returns
  | kubernetesClientException (deleted : List Resource)
  deriving DecidableEq, Repr

def DeleteCall.raises : DeleteCall → Bool
  | .returns => false
  | .kubernetesClientException _ => true

namespace Selector

/-- The object is selected. -/
def selects (selector : Selector) (r : Resource) : Bool :=
  match selector with
  | .withName kind name => r.kind == kind && r.name == name
  | .withLabel kind application => r.kind == kind && r.application == some application

/-- A call deletes what it selects, or some of it and raises. -/
def delete (selector : Selector) (call : DeleteCall) (cluster : Cluster) : Cluster :=
  match call with
  | .returns => cluster.filter fun r => !selector.selects r
  | .kubernetesClientException deleted =>
      cluster.filter fun r => !(selector.selects r && deleted.contains r)

end Selector

/-- The calls of a `try` block up to the first that raises, and whether one has. -/
def deleteBlock (calls : Nat → DeleteCall) : List Selector → Cluster → Cluster × Bool
  | [], cluster => (cluster, false)
  | selector :: selectors, cluster =>
      if (calls 0).raises then (selector.delete (calls 0) cluster, true)
      else deleteBlock (fun i => calls (i + 1)) selectors (selector.delete (calls 0) cluster)

/-- The `try` blocks, one after another; each catch clause sets the status. -/
def deleteAll (calls : Nat → Nat → DeleteCall) :
    List (List Selector) → Cluster → BuildStatus → Cluster × BuildStatus
  | [], cluster, status => (cluster, status)
  | block :: blocks, cluster, status =>
      let (cluster, raised) := deleteBlock (calls 0) block cluster
      let status := if raised then status.write { status := some .deleteRequeue } else status
      deleteAll (fun i => calls (i + 1)) blocks cluster status

/-- `calls i j` is the end of the call at place `j` of block `i`. -/
def deleteVDBServiceResources (openShiftName : String) (calls : Nat → Nat → DeleteCall)
    (cluster : Cluster) (status : BuildStatus) : Cluster × BuildStatus :=
  let (cluster, status) := deleteAll calls (deleteBlocks openShiftName) cluster status
  (cluster, status.write { status := some .deleteDone })

/-- Some call of the blocks raises. -/
def Raises (calls : Nat → Nat → DeleteCall) (blocks : List (List Selector)) : Prop :=
  ∃ i, ∃ hi : i < blocks.length, ∃ j < blocks[i].length, (calls i j).raises = true

/-- What is left where no call raises: the objects no call selects. -/
def undeleted (selectors : List Selector) (cluster : Cluster) : Cluster :=
  cluster.filter fun r => !selectors.any (·.selects r)

/-- A block whose calls return deletes what it selects. -/
theorem deleteBlock_returns {calls : Nat → DeleteCall} {selectors : List Selector}
    (h : ∀ j < selectors.length, (calls j).raises = false) (cluster : Cluster) :
    deleteBlock calls selectors cluster = (undeleted selectors cluster, false) := by
  induction selectors generalizing calls cluster with
  | nil => simp [deleteBlock, undeleted]
  | cons selector selectors ih =>
      have hhead : (calls 0).raises = false := h 0 (by simp)
      have htail : ∀ j < selectors.length, (calls (j + 1)).raises = false := by
        intro j hj
        exact h (j + 1) (by simpa using hj)
      have hreturns : calls 0 = .returns := by
        cases hcall : calls 0 with
        | returns => rfl
        | kubernetesClientException deleted =>
            rw [hcall] at hhead
            cases hhead
      rw [deleteBlock, if_neg (by rw [hhead]; simp), ih htail, hreturns]
      simp [Selector.delete, undeleted, List.filter_filter, Bool.and_comm]

/-- Where every call returns, all blocks delete what they select. -/
theorem deleteAll_returns {calls : Nat → Nat → DeleteCall} {blocks : List (List Selector)}
    (h : ¬ Raises calls blocks) (cluster : Cluster) (status : BuildStatus) :
    deleteAll calls blocks cluster status = (undeleted blocks.flatten cluster, status) := by
  induction blocks generalizing calls cluster with
  | nil => simp [deleteAll, undeleted]
  | cons block blocks ih =>
      have hhead : ∀ j < block.length, (calls 0 j).raises = false := by
        intro j hj
        cases hraises : (calls 0 j).raises with
        | false => rfl
        | true => exact absurd ⟨0, by simp, j, by simpa using hj, hraises⟩ h
      have htail : ¬ Raises (fun i => calls (i + 1)) blocks := by
        rintro ⟨i, hi, j, hj, hraises⟩
        exact h ⟨i + 1, by simpa using hi, j, by simpa using hj, hraises⟩
      rw [deleteAll, deleteBlock_returns hhead]
      simp only [Bool.false_eq_true, if_false]
      rw [ih htail]
      simp [undeleted, List.filter_filter, Bool.and_comm]

/-! ## Which objects are deleted -/

/-- The suffixes of the services and the route; their last letters differ. -/
theorem suffixed_inj {a b type type' : String} (ht : type ∈ ["odata", "jdbc", "pg"])
    (ht' : type' ∈ ["odata", "jdbc", "pg"]) (h : a ++ "-" ++ type = b ++ "-" ++ type') : a = b := by
  have hlast : (a ++ "-" ++ type).toList.getLast? = (b ++ "-" ++ type').toList.getLast? := by rw [h]
  obtain rfl : type = type' := by
    simp only [List.mem_cons, List.not_mem_nil, or_false] at ht ht'
    rcases ht with rfl | rfl | rfl <;> rcases ht' with rfl | rfl | rfl <;>
      first | rfl | simp at hlast
  exact (String.append_left_inj _).mp ((String.append_left_inj _).mp h)

/-- The names a deletion finds services and routes by. -/
theorem suffixed (openShiftName : String) :
    openShiftName ++ "-odata" = openShiftName ++ "-" ++ "odata" ∧
      openShiftName ++ "-jdbc" = openShiftName ++ "-" ++ "jdbc" ∧
      openShiftName ++ "-pg" = openShiftName ++ "-" ++ "pg" := by
  refine ⟨?_, ?_, ?_⟩ <;> rw [String.append_assoc] <;> rfl

/-- A deletion selects the services of the three protocols. -/
theorem selects_service {openShiftName name : String} {application : Option String} :
    (deleteBlocks openShiftName).flatten.any (·.selects ⟨.service, name, application⟩) = true ↔
      ∃ type ∈ ["odata", "jdbc", "pg"], name = openShiftName ++ "-" ++ type := by
  obtain ⟨hodata, hjdbc, hpg⟩ := suffixed openShiftName
  rw [deleteBlocks, hodata, hjdbc, hpg]
  simp [Selector.selects, or_left_comm]

/-- Of all that was created for virtualizations, a deletion selects what was created for its own. -/
theorem selected_iff {openShiftName openShiftName' : String} {r : Resource}
    (h : CreatedFor openShiftName' r) :
    (deleteBlocks openShiftName).flatten.any (·.selects r) = true ↔
      openShiftName' = openShiftName := by
  cases h with
  | imageStream => simp [deleteBlocks, Selector.selects]
  | buildConfig => simp [deleteBlocks, Selector.selects]
  | deploymentConfig => simp [deleteBlocks, Selector.selects]
  | secret => simp [deleteBlocks, Selector.selects, secretName]
  | @service type htype =>
      rw [selects_service]
      constructor
      · rintro ⟨type', htype', hname⟩
        exact suffixed_inj htype htype' hname
      · rintro rfl
        exact ⟨type, htype, rfl⟩
  | route =>
      rw [deleteBlocks, (suffixed openShiftName).1]
      simp [Selector.selects]
  | inherited name hkind =>
      simp only [List.mem_cons, List.not_mem_nil, or_false] at hkind
      rcases hkind with rfl | rfl | rfl <;>
        simp [deleteBlocks, Selector.selects, Cluster.inherited]

/-! ## The names of virtualizations -/

/-- Names of virtualizations that are valid, and differ in more than case. -/
structure Names (teiid : Teiid) (names : List String) : Prop where
  valid : ∀ name ∈ names, getValidationMessage teiid name = none
  distinct : (names.map asciiUpperCase).Nodup

/-- The map of `asciiUpperCase` does not see that a letter has been made lower case. -/
theorem upperCase_toLower (c : Char) :
    (if 'a' ≤ c.toLower ∧ c.toLower ≤ 'z' then Char.ofNat (c.toLower.toNat - 32) else c.toLower) =
      if 'a' ≤ c ∧ c ≤ 'z' then Char.ofNat (c.toNat - 32) else c := by
  by_cases hupper : 'A' ≤ c ∧ c ≤ 'Z'
  · have hletters : ∀ n < 91, 65 ≤ n →
        (if 'a' ≤ (Char.ofNat n).toLower ∧ (Char.ofNat n).toLower ≤ 'z' then
          Char.ofNat ((Char.ofNat n).toLower.toNat - 32) else (Char.ofNat n).toLower) =
        if 'a' ≤ Char.ofNat n ∧ Char.ofNat n ≤ 'z' then Char.ofNat ((Char.ofNat n).toNat - 32)
          else Char.ofNat n := by decide
    have hletter := hletters c.toNat (Nat.lt_succ_of_le hupper.2) hupper.1
    rwa [Char.ofNat_toNat] at hletter
  · have hsame : c.toLower = c := by
      unfold Char.toLower
      exact dif_neg hupper
    rw [hsame]

/-- Names with one OpenShift name differ in case only. -/
theorem upperCase_of_getOpenShiftName {a b : String}
    (h : getOpenShiftName a = getOpenShiftName b) : asciiUpperCase a = asciiUpperCase b := by
  unfold getOpenShiftName at h
  have hlower : a.toList.map Char.toLower = b.toList.map Char.toLower :=
    String.ofList_injective ((String.append_right_inj _).mp h)
  unfold asciiUpperCase
  congr 1
  have hupper := congrArg (List.map fun c =>
    if 'a' ≤ c ∧ c ≤ 'z' then Char.ofNat (c.toNat - 32) else c) hlower
  simp only [List.map_map, Function.comp_def, upperCase_toLower] at hupper
  exact hupper

/-- Different virtualizations have different OpenShift names. -/
theorem Names.getOpenShiftName_inj {teiid : Teiid} {names : List String} (h : Names teiid names)
    {a b : String} (ha : a ∈ names) (hb : b ∈ names)
    (heq : getOpenShiftName a = getOpenShiftName b) : a = b :=
  List.inj_on_of_nodup_map h.distinct ha hb (upperCase_of_getOpenShiftName heq)

/-! ## Unpublishing one virtualization -/

/-- Where no call fails, nothing is left that was created for the virtualization. -/
theorem not_createdFor_of_left {openShiftName : String} {calls : Nat → Nat → DeleteCall}
    {cluster : Cluster} {status : BuildStatus} {r : Resource}
    (hcalls : ¬ Raises calls (deleteBlocks openShiftName))
    (hr : r ∈ (deleteVDBServiceResources openShiftName calls cluster status).1) :
    ¬ CreatedFor openShiftName r := by
  intro hcreated
  unfold deleteVDBServiceResources at hr
  rw [deleteAll_returns hcalls] at hr
  have hkept := (List.mem_filter.mp hr).2
  rw [(selected_iff hcreated).mpr rfl] at hkept
  cases hkept

/-- Where no call fails, what is left of a cluster made for virtualizations are the objects with
another label. -/
theorem deleted_eq {names : List String} {cluster : Cluster} (hmade : MadeFor names cluster)
    {openShiftName : String} {calls : Nat → Nat → DeleteCall}
    (hcalls : ¬ Raises calls (deleteBlocks openShiftName)) (status : BuildStatus) :
    (deleteVDBServiceResources openShiftName calls cluster status).1 =
      cluster.filter fun r => r.application ≠ some openShiftName := by
  unfold deleteVDBServiceResources
  rw [deleteAll_returns hcalls]
  refine List.filter_congr fun r hr => ?_
  obtain ⟨name, _, hcreated⟩ := hmade r hr
  have hselected := @selected_iff openShiftName _ r hcreated
  rw [hcreated.application, Bool.eq_iff_iff, Bool.not_eq_true', ← Bool.not_eq_true, hselected]
  simp

/-- Unpublishing a virtualization removes every object created for it, and none created for
another. -/
theorem unpublish_exact {teiid : Teiid} {names : List String} (hnames : Names teiid names)
    {cluster : Cluster} (hmade : MadeFor names cluster) {virtualization : String}
    (hmem : virtualization ∈ names) {calls : Nat → Nat → DeleteCall}
    (hcalls : ¬ Raises calls (deleteBlocks (getOpenShiftName virtualization)))
    (status : BuildStatus) :
    (∀ r ∈ (deleteVDBServiceResources (getOpenShiftName virtualization) calls cluster status).1,
        ¬ CreatedFor (getOpenShiftName virtualization) r) ∧
      ∀ other ∈ names, other ≠ virtualization →
        ∀ r, CreatedFor (getOpenShiftName other) r →
          (r ∈ (deleteVDBServiceResources (getOpenShiftName virtualization) calls cluster status).1 ↔
            r ∈ cluster) := by
  constructor
  · exact fun r hr => not_createdFor_of_left hcalls hr
  · intro other hother hne r hcreated
    rw [deleted_eq hmade hcalls status]
    have hlabel : r.application ≠ some (getOpenShiftName virtualization) := by
      rw [hcreated.application]
      intro heq
      exact hne (hnames.getOpenShiftName_inj hother hmem (Option.some.inj heq))
    rw [List.mem_filter]
    exact ⟨And.left, fun hr => ⟨hr, decide_eq_true hlabel⟩⟩

/-- Two virtualizations that have been published; the name of one ends as the services of the other
do. -/
def publishedTwice : List Creation :=
  ["dv", "dv-odata"].flatMap fun name =>
    [ .configureBuild name (name ++ "-1"), .pod name (name ++ "-1-build"),
      .createSecret name, .createDeploymentConfig name, .replicationController name (name ++ "-rc"),
      .createServices name false ]

theorem unpublish_exact_suffix :
    (∀ r ∈ (deleteVDBServiceResources (getOpenShiftName "dv") (fun _ _ => .returns)
        (publishedTwice.foldl Creation.apply []) { openShiftName := "dv-dv" }).1,
        ¬ CreatedFor (getOpenShiftName "dv") r) ∧
      ∀ other ∈ ["dv", "dv-odata"], other ≠ "dv" →
        ∀ r, CreatedFor (getOpenShiftName other) r →
          (r ∈ (deleteVDBServiceResources (getOpenShiftName "dv") (fun _ _ => .returns)
            (publishedTwice.foldl Creation.apply []) { openShiftName := "dv-dv" }).1 ↔
            r ∈ publishedTwice.foldl Creation.apply []) := by
  have hnames : Names (Teiid.ascii fun _ => { schema := { name := "dv" } }) ["dv", "dv-odata"] :=
    ⟨by decide, by decide⟩
  have hcalls : ¬ Raises (fun _ _ => .returns) (deleteBlocks (getOpenShiftName "dv")) := by
    rintro ⟨i, hi, j, hj, hraises⟩
    cases hraises
  exact unpublish_exact hnames (madeFor_creations (by decide)) (by decide) hcalls _

end TeiidSyndesis.OpenShift
