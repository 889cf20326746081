/-
# TeiidSyndesis.Server.PreviewIncarnation — preview VDBs across deletion and re-creation.

`updatePreviewVdb` trusts a deployed VDB whose version is the version of the virtualization.  The
version counts the commits of one incarnation of a virtualization, and a re-created one counts from 0
again.  Within an incarnation the tag is sound however the threads interleave: the views are read
after the version, so a VDB is at worst younger than its tag says.  A VDB of a former incarnation must
not meet the next one: no request deploys into an incarnation it has not read, and none is created
while a VDB of its name is deployed.

Main results:
* `readBefore_of_moved`, `read_of_moved`, `generated_of_moved` — what a request has read stays at most as
  new as the store;
* `deployed_matches` — so a VDB that is deployed is what its tag says, or younger;
* `incarnations_step` — the invariant, kept by steps that keep incarnations apart;
* `coherent_of_apart` — so previews agree with the store in every run of them;
* `previewOutlives_stale` — and a preview that outlives its virtualization.
-/
import TeiidSyndesis.Server.PreviewDeployment

namespace TeiidSyndesis.Server

open TeiidSyndesis.Library TeiidSyndesis.Model

namespace PreviewServer

/-! ## Agreement with the store -/

/-- A deployed VDB that bears the name and the version of a stored virtualization is generated from
its views. -/
def Coherent (s : PreviewServer) : Prop :=
  ∀ d ∈ s.deployed, ∀ dvName stored, s.find dvName = some stored →
    d.vdb.name = getPreviewVdbName dvName → d.vdb.versionProperty = some stored.row.version →
      Generated d.vdb dvName stored

/-- A request deploys into the incarnation it has read, or below its version; a virtualization is
created where no VDB of its name is deployed. -/
def keepsIncarnation (s : PreviewServer) (label : Label) : Bool :=
  match label with
  | .request thread true =>
      match s.requests[thread]? with
      | some (.updatePreviewVdb dvName (.deploy dv _)) =>
          match s.find dvName with
          | some stored => stored.row.id == dv.id || decide (dv.version < stored.row.version)
          | none => true
      | _ => true
  | .createDataVirtualization name _ => s.getVdb (getPreviewVdbName name) == none
  | _ => true

/-! ## VDBs that stay coherent -/

/-- A commit that does not touch the virtualization leaves the texts a VDB is generated from. -/
theorem matches_commit {vdb : VDBMetaData} {dvName : String} {stored : StoredVirtualization}
    {views : List ViewDefinition} {touch : Bool} (hs : Matches vdb dvName stored)
    (htouch : touch = true ∨ usableDdls views = usableDdls stored.views) :
    Matches vdb dvName (stored.commit views touch) := by
  refine matches_of_version hs ?_
  cases touch with
  | true => exact .inl (Nat.lt_succ_self _)
  | false =>
      have hsame : usableDdls views = usableDdls stored.views := by simpa using htouch
      exact .inr ⟨rfl, hsame⟩

/-- What a request has read of its virtualization is not ahead of it. -/
def ReadBefore (s : PreviewServer) (dvName : String) (dv : DataVirtualization) : Prop :=
  dv.id < s.nextId ∧ ∀ stored, s.find dvName = some stored → stored.row.id = dv.id →
    dv.version ≤ stored.row.version

/-- A deployed VDB matches the row of its name, and what a request has read or generated is from a row
that is there, or was. -/
structure Incarnations (s : PreviewServer) : Prop where
  /-- a preview VDB that is deployed matches the virtualization of its name -/
  deployed : ∀ d ∈ s.deployed, ∀ dvName stored, s.find dvName = some stored →
    d.vdb.name = getPreviewVdbName dvName → Matches d.vdb dvName stored
  /-- a request holds no version ahead of the row it has read -/
  read : ∀ dvName pc dv, .updatePreviewVdb dvName pc ∈ s.requests → pc.dv = some dv →
    ReadBefore s dvName dv
  /-- a VDB not yet deployed matches it too, unless it was created anew -/
  generated : ∀ dvName dv theVdb, .updatePreviewVdb dvName (.deploy dv theVdb) ∈ s.requests →
    theVdb.versionProperty = some dv.version ∧
      ∀ stored, s.find dvName = some stored → stored.row.id = dv.id → Matches theVdb dvName stored
  /-- a new incarnation gets a new id -/
  ids : ∀ dvName stored, s.find dvName = some stored → stored.row.id < s.nextId
  named : NamesPreview s

/-- Ids are only ever drawn. -/
theorem nextId_of_moved {s t : PreviewServer} {label : Label} (h : Moved s label t) :
    s.nextId ≤ t.nextId := by
  cases h with
  | create => exact Nat.le_succ _
  | preview _ hmoved => cases hmoved <;> exact Nat.le_refl _
  | @executor succeeds pc hpc =>
      obtain ⟨deployed, clock, hframe, _⟩ := refreshPreviewVdb_frame s pc succeeds
      exact Nat.le_of_eq (by rw [hframe])
  | _ => exact Nat.le_refl _

/-- A created virtualization takes the next identifier. -/
theorem nextId_of_create {stripe : String → Nat} {s t : PreviewServer} {name : String}
    {description : Option String}
    (h : next stripe s (.createDataVirtualization name description) = some t) :
    t.nextId = s.nextId + 1 := by
  simp only [next, PreviewServer.create] at h
  split at h
  · cases h
  · cases h
    rfl

/-! ## The steps -/

/-- What holds of a row with the identifier a request has read, and is kept by commits, holds after
a step: a new row has a new identifier. -/
theorem row_of_moved {s t : PreviewServer} {label : Label} (h : Moved s label t) {dvName : String}
    {id : Nat} (hid : id < s.nextId) {P : StoredVirtualization → Prop}
    (hs : ∀ stored, s.find dvName = some stored → stored.row.id = id → P stored)
    (hcommit : ∀ stored views touch, P stored →
      (touch = true ∨ usableDdls views = usableDdls stored.views) → P (stored.commit views touch)) :
    ∀ stored, t.find dvName = some stored → stored.row.id = id → P stored := by
  intro stored hfind hstored
  rcases find_of_moved h hfind with hold | ⟨_, hnew⟩ | ⟨before, views, touch, hbefore, rfl, htouch⟩
  · exact hs stored hold hstored
  · -- the identifier of a new row is larger than any that was read
    omega
  · refine hcommit before views touch (hs before hbefore ?_) htouch
    rw [← hstored]
    cases touch <;> rfl

/-- A commit never moves a version back. -/
theorem version_commit (stored : StoredVirtualization) (views : List ViewDefinition)
    (touch : Bool) : stored.row.version ≤ (stored.commit views touch).row.version := by
  cases touch with
  | true => exact Nat.le_succ _
  | false => exact Nat.le_refl _

/-- What was read before stays so. -/
theorem readBefore_of_moved {s t : PreviewServer} {label : Label} (h : Moved s label t)
    {dvName : String} {dv : DataVirtualization} (hs : ReadBefore s dvName dv) :
    ReadBefore t dvName dv := by
  refine ⟨Nat.lt_of_lt_of_le hs.1 (nextId_of_moved h), ?_⟩
  refine row_of_moved h hs.1 hs.2 ?_
  intro stored views touch hle _
  exact Nat.le_trans hle (version_commit stored views touch)

/-- The virtualization of a request was read before the step, also by the step itself. -/
theorem read_of_moved {s t : PreviewServer} {label : Label} (hs : Incarnations s)
    (h : Moved s label t) {dvName : String} {pc : PreviewPc} {dv : DataVirtualization}
    (hmem : .updatePreviewVdb dvName pc ∈ t.requests) (hdv : pc.dv = some dv) :
    ReadBefore s dvName dv := by
  rcases request_of_moved h hmem with hold | rfl | ⟨pc₀, _, _, hbefore, hmoved⟩
  · exact hs.read dvName pc dv hold hdv
  · cases hdv
  · cases hmoved with
    | finds hfind =>
        cases hdv
        refine ⟨hs.ids dvName _ hfind, ?_⟩
        intro stored hstored _
        rw [hfind] at hstored
        cases hstored
        exact Nat.le_refl _
    | checks hpc hpc' =>
        rw [hpc'] at hdv
        cases hdv
        exact hs.read dvName pc₀ dv hbefore hpc
    | generates =>
        cases hdv
        exact hs.read dvName _ dv hbefore rfl
    | deploys => cases hdv
    | leaves _ hpc' =>
        rw [hpc'] at hdv
        cases hdv

/-- What a request is about to deploy matches the row it has read, also where the step has just
generated it. -/
theorem generated_of_moved {s t : PreviewServer} {label : Label} (hs : Incarnations s)
    (h : Moved s label t) {dvName : String} {dv : DataVirtualization} {theVdb : VDBMetaData}
    (hmem : .updatePreviewVdb dvName (.deploy dv theVdb) ∈ t.requests) :
    theVdb.versionProperty = some dv.version ∧
      ∀ stored, s.find dvName = some stored → stored.row.id = dv.id →
        Matches theVdb dvName stored := by
  rcases request_of_moved h hmem with hold | hfirst | ⟨pc₀, _, _, hbefore, hmoved⟩
  · exact hs.generated dvName dv theVdb hold
  · cases hfirst
  · cases hmoved with
    | generates hcreate =>
        -- the views are read now, the version was read before and may be behind
        refine ⟨rfl, ?_⟩
        intro stored hfind hid version hversion
        obtain rfl : dv.version = version := by simpa using hversion
        refine ⟨(hs.read dvName _ dv hbefore rfl).2 stored hfind hid, ?_⟩
        intro _
        rw [hfind] at hcreate
        exact generated_of_create hcreate _
    | checks _ _ hne => exact absurd rfl (hne _ _)
    | leaves _ hpc' => cases hpc'

/-- What is deployed after a guarded step matches the rows as they were before it. -/
theorem deployed_matches {s t : PreviewServer} {label : Label} (hs : Incarnations s)
    (hguard : keepsIncarnation s label = true) (h : Moved s label t) {d : Deployed}
    (hd : d ∈ t.deployed) {dvName : String} {stored : StoredVirtualization}
    (hfind : s.find dvName = some stored) (hname : d.vdb.name = getPreviewVdbName dvName) :
    Matches d.vdb dvName stored := by
  rcases deployed_of_moved h hd with hold | ⟨thread, dvName', dv, rfl, hget⟩ | hother
  · exact hs.deployed d hold dvName stored hfind hname
  · have hrequest := List.mem_of_getElem? hget
    obtain rfl : dvName' = dvName :=
      getPreviewVdbName_injective ((hs.named dvName' dv d.vdb hrequest).symm.trans hname)
    obtain ⟨hversion, hmatches⟩ := hs.generated dvName' dv d.vdb hrequest
    have hown : stored.row.id = dv.id ∨ dv.version < stored.row.version := by
      simpa [keepsIncarnation, hget, hfind] using hguard
    -- the row is the one the request has read, or is past the version the VDB bears
    rcases hown with hid | hlt
    · exact hmatches stored hfind hid
    · intro version hv
      obtain rfl : dv.version = version := by simpa [hversion] using hv
      refine ⟨Nat.le_of_lt hlt, ?_⟩
      intro heq
      omega
  · exact absurd hname (hother dvName)

/-- Where nothing is found nothing is deployed. -/
theorem getVdb_none {s : PreviewServer} {name : String} (h : s.getVdb name = none) :
    ∀ d ∈ s.deployed, d.vdb.name ≠ name := by
  intro d hd heq
  have := List.find?_eq_none.mp h d hd
  simp [heq] at this

/-- A step that keeps incarnations apart keeps the invariant. -/
theorem incarnations_step {stripe : String → Nat} {s t : PreviewServer} {label : Label}
    (hs : Incarnations s) (hguard : keepsIncarnation s label = true)
    (hnext : next stripe s label = some t) : Incarnations t where
  deployed := by
    intro d hd dvName stored hfind hname
    -- the row found now was there before, is created by this step, or is one the step commits
    have h := moved_of_next hnext
    rcases find_of_moved h hfind with
      hold | ⟨⟨description, rfl⟩, _⟩ | ⟨before, views, touch, hbefore, rfl, htouch⟩
    · exact deployed_matches hs hguard h hd hold hname
    · -- a VDB of the name of a virtualization that is being created
      have hnone : s.getVdb (getPreviewVdbName dvName) = none := by
        simpa [keepsIncarnation] using hguard
      rcases deployed_of_moved h hd with hold | ⟨_, _, _, hlabel, _⟩ | hother
      · exact absurd hname (getVdb_none hnone d hold)
      · cases hlabel
      · exact absurd hname (hother dvName)
    · exact matches_commit (deployed_matches hs hguard h hd hbefore hname) htouch
  read := by
    intro dvName pc dv hmem hdv
    have h := moved_of_next hnext
    exact readBefore_of_moved h (read_of_moved hs h hmem hdv)
  generated := by
    intro dvName dv theVdb hmem
    have h := moved_of_next hnext
    obtain ⟨hversion, hmatches⟩ := generated_of_moved hs h hmem
    refine ⟨hversion, row_of_moved h (read_of_moved hs h hmem rfl).1 hmatches ?_⟩
    intro stored views touch hmatch htouch
    exact matches_commit hmatch htouch
  ids := by
    intro dvName stored hfind
    have h := moved_of_next hnext
    have hle := nextId_of_moved h
    rcases find_of_moved h hfind with hold | ⟨⟨_, rfl⟩, hnew⟩ | ⟨before, _, touch, hbefore, rfl, _⟩
    · exact Nat.lt_of_lt_of_le (hs.ids dvName stored hold) hle
    · rw [nextId_of_create hnext, hnew]
      exact Nat.lt_succ_self _
    · have hlt := hs.ids dvName before hbefore
      cases touch <;> exact Nat.lt_of_lt_of_le hlt hle
  named := namesPreview_step hs.named hnext

/-- Nothing is stored or deployed. -/
theorem incarnations_initial : Incarnations initial where
  deployed := fun _ hd => nomatch hd
  read := fun _ _ _ hmem => nomatch hmem
  generated := fun _ _ _ hmem => nomatch hmem
  ids := fun _ _ hfind => nomatch hfind
  named := fun _ _ _ hmem => nomatch hmem

/-- In a run that keeps incarnations apart every preview VDB agrees with the store as far as its
version says so. -/
theorem coherent_of_apart {stripe : String → Nat} {s : PreviewServer}
    {tr : List (PreviewServer × Label)} (hrun : (system stripe).Run initial tr s)
    (hguard : System.Guarded (fun s label => keepsIncarnation s label = true) tr) :
    Coherent s := by
  have hstep : ∀ s label t, Incarnations s → keepsIncarnation s label = true →
      (system stripe).step s label t → Incarnations t :=
    fun _ _ _ hs hg hst => incarnations_step hs hg hst
  have hs := hrun.preserves hstep hguard incarnations_initial
  intro d hd dvName stored hfind hname hversion
  exact (hs.deployed d hd dvName stored hfind hname stored.row.version hversion).2 rfl

def previewedView : ViewDefinition :=
  { name := "v", dataVirtualizationName := "dv", ddl := some "CREATE VIEW v AS SELECT 1 AS col;",
    complete := true, parsable := true }

/-- The virtualization is deleted with its preview VDB, created again and previewed again. -/
def previewRecreated : List Label :=
  .createDataVirtualization "dv" none :: .updatePreviewVdb "dv" ::
    List.replicate 7 (.request 0 true) ++
    .deleteDataVirtualization "dv" :: List.replicate 2 (.request 1 true) ++
    .createDataVirtualization "dv" none :: .commitViews "dv" [previewedView] true ::
    .updatePreviewVdb "dv" :: List.replicate 7 (.request 2 true)

theorem coherent_recreated :
    Coherent (System.after (next fun _ => 0) initial previewRecreated) :=
  coherent_of_apart (System.run_after _ (next fun _ => 0) initial previewRecreated) (by decide)

/-- A request has generated the VDB of a virtualization at version 1, then the virtualization is
deleted with its preview VDB and created again; the VDB is deployed and a first view is
committed. -/
def previewOutlives : List Label :=
  .createDataVirtualization "dv" none :: .commitViews "dv" [] true ::
    .updatePreviewVdb "dv" :: List.replicate 5 (.request 0 true) ++
    .deleteDataVirtualization "dv" :: List.replicate 2 (.request 1 true) ++
    .createDataVirtualization "dv" none :: List.replicate 2 (.request 0 true) ++
    [.commitViews "dv" [previewedView] true]

theorem previewOutlives_stale :
    ¬ ∀ (stripe : String → Nat) (tr : List (PreviewServer × Label)) (s : PreviewServer),
      (system stripe).Run initial tr s → Coherent s := by
  intro h
  have hrun := System.run_after (· = initial) (next fun _ => 0) initial previewOutlives
  have hcoherent := h (fun _ => 0) _ _ hrun
  have hgenerated := hcoherent
    { vdb := ⟨"dvvdb", [serviceModel "dv" ""], [previewVdb], true, some 1⟩, deployedAt := 0 }
    (by decide) "dv" ⟨⟨1, "dv", none, 1⟩, [previewedView]⟩ (by decide) (by decide) (by decide)
  unfold Generated at hgenerated
  exact absurd hgenerated (by decide)

end PreviewServer

end TeiidSyndesis.Server
