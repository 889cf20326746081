/-
# TeiidSyndesis.Server.PreviewOrder — preview VDBs and the main preview VDB they import.

`refreshPreviewVdb` lists the VDBs, undeploys the preview VDBs of virtualizations one at a time and
deploys the new main preview VDB at the end, and gives the master lock back between these.  A
deployed VDB keeps the imports it was deployed with.  A request that rebuilds a preview VDB while the
refresh is on its way is undone by it as long as the refresh still has a VDB of that name to undeploy;
after that its VDB stays, older than the main one that comes.

Main results:
* `order_deploy`, `ordered_undeploy` — deploying and undeploying keep the order;
* `ordered_executor`, `listed_deploy` — so do the steps of the refresh, and of a request while the refresh
  still has a VDB of its name;
* `ordered_step`, `boundToCurrent` — so after a refresh every preview imports the current main one;
* `previewInGap_outdated` — and one that does not.
-/
import TeiidSyndesis.Server.PreviewDeployment

namespace TeiidSyndesis.Server

open TeiidSyndesis.Library TeiidSyndesis.Model

namespace PreviewServer

/-! ## The order of deployments -/

/-- The VDB is the preview VDB of a virtualization. -/
def PreviewsVirtualization (vdb : VDBMetaData) : Prop :=
  ∃ dvName, vdb.name = getPreviewVdbName dvName

/-- Every preview VDB of a virtualization was deployed after the main preview VDB. -/
def BoundToCurrent (s : PreviewServer) : Prop :=
  ∀ main ∈ s.deployed, main.vdb.name = previewVdb →
    ∀ d ∈ s.deployed, PreviewsVirtualization d.vdb → main.deployedAt < d.deployedAt

/-- All requests have returned and the executor is idle. -/
def finished (s : PreviewServer) : Bool :=
  s.executor == none && s.requests.all fun request =>
    match request with
    | .updatePreviewVdb _ pc => pc == .done
    | .deleteDataVirtualization _ pc => pc == .done

/-- While the executor is in its loop, a request deploys only a VDB of a name the loop has yet to
come to, or fails to deploy it. -/
def deploysListed (s : PreviewServer) (label : Label) : Bool :=
  match label with
  | .request thread true =>
      match s.requests[thread]?, s.executor with
      | some (.updatePreviewVdb _ (.deploy _ theVdb)), some (.loop vdbs _) =>
          decide (theVdb.name ∈ vdbs.map fun d => d.vdb.name)
      | _, _ => true
  | _ => true

/-- The deployed preview VDBs of virtualizations that the loop of the executor has yet to come
to. -/
def Listed (s : PreviewServer) : Prop :=
  ∀ vdbs imports, s.executor = some (.loop vdbs imports) →
    ∀ d ∈ s.deployed, PreviewsVirtualization d.vdb → d.vdb.name ∈ vdbs.map fun d => d.vdb.name

/-- The VDBs in the order of their deployment, and what the refresh has yet to undeploy. -/
structure Ordered (s : PreviewServer) : Prop where
  clock : ∀ d ∈ s.deployed, d.deployedAt < s.clock
  /-- the previews were deployed after the VDB they import -/
  order : BoundToCurrent s
  /-- a refresh in progress still comes to every preview of a virtualization -/
  listed : Listed s
  named : NamesPreview s

/-! ## Deploying and undeploying -/

/-- What is deployed is younger than everything else. -/
theorem clock_deploy {s : PreviewServer} {vdb : VDBMetaData} {active succeeds : Bool}
    (hs : ∀ d ∈ s.deployed, d.deployedAt < s.clock) :
    ∀ d ∈ (s.deploy vdb active succeeds).deployed,
      d.deployedAt < (s.deploy vdb active succeeds).clock := by
  intro d hd
  show d.deployedAt < s.clock + 1
  rcases mem_deploy hd with ⟨hold, _⟩ | ⟨_, rfl⟩
  · have := hs d hold
    omega
  · exact Nat.lt_succ_self _

/-- Deploying keeps the order, when the main preview VDB is deployed only where no virtualization
has a preview VDB. -/
theorem order_deploy {s : PreviewServer} {vdb : VDBMetaData} {active succeeds : Bool}
    (hclock : ∀ d ∈ s.deployed, d.deployedAt < s.clock) (hs : BoundToCurrent s)
    (hmain : vdb.name = previewVdb → ∀ d ∈ s.deployed, ¬ PreviewsVirtualization d.vdb) :
    BoundToCurrent (s.deploy vdb active succeeds) := by
  intro main hm hname d hd hpreview
  rcases mem_deploy hm with ⟨hmold, _⟩ | ⟨_, rfl⟩
  · rcases mem_deploy hd with ⟨hdold, _⟩ | ⟨_, rfl⟩
    · exact hs main hmold hname d hdold hpreview
    · exact hclock main hmold
  · rcases mem_deploy hd with ⟨hdold, _⟩ | ⟨_, rfl⟩
    · exact absurd hpreview (hmain hname d hdold)
    · obtain ⟨dvName, hdv⟩ := hpreview
      exact absurd (hname.symm.trans hdv) (previewVdb_ne dvName)

theorem order_undeploy {s : PreviewServer} {name : String} (hs : BoundToCurrent s) :
    BoundToCurrent (s.undeploy name) :=
  fun main hm hname d hd hpreview =>
    hs main (mem_undeploy.mp hm).1 hname d (mem_undeploy.mp hd).1 hpreview

/-- The loop goes on to the next VDB when no preview VDB of the name it passes by is left. -/
theorem listed_next {s t : PreviewServer} {found : Deployed} {vdbs : List Deployed}
    {imports : List String}
    (hlisted : ∀ d ∈ s.deployed, PreviewsVirtualization d.vdb →
      d.vdb.name ∈ (found :: vdbs).map fun d => d.vdb.name)
    (hdeployed : ∀ d ∈ t.deployed, d ∈ s.deployed)
    (hpassed : ∀ d ∈ t.deployed, PreviewsVirtualization d.vdb → d.vdb.name ≠ found.vdb.name) :
    Listed { t with executor := some (.loop vdbs imports) } := by
  intro vdbs' _ hloop d hd hpreview
  cases hloop
  rcases List.mem_cons.mp (hlisted d (hdeployed d hd) hpreview) with heq | hmem
  · exact absurd heq (hpassed d hd hpreview)
  · exact hmem

/-- Undeploying keeps the order of the rest. -/
theorem ordered_undeploy {s : PreviewServer} (hs : Ordered s) (name : String)
    (hnamed : NamesPreview (s.undeploy name)) : Ordered (s.undeploy name) where
  clock := fun d hd => hs.clock d (mem_undeploy.mp hd).1
  order := order_undeploy hs.order
  listed := fun vdbs imports hloop d hd hpreview =>
    hs.listed vdbs imports hloop d (mem_undeploy.mp hd).1 hpreview
  named := hnamed

/-! ## The steps -/

/-- A step of the executor undeploys what it passes by, so nothing is left to be older than the main
preview VDB it deploys. -/
theorem ordered_executor {s : PreviewServer} {pc : RefreshPc} (succeeds : Bool) (hs : Ordered s)
    (hpc : s.executor = some pc) :
    (∀ d ∈ (refreshPreviewVdb s pc succeeds).1.deployed,
      d.deployedAt < (refreshPreviewVdb s pc succeeds).1.clock) ∧
    BoundToCurrent (refreshPreviewVdb s pc succeeds).1 ∧
    Listed { (refreshPreviewVdb s pc succeeds).1 with
      executor := (refreshPreviewVdb s pc succeeds).2 } := by
  cases pc with
  | getVdbs =>
      refine ⟨hs.clock, hs.order, ?_⟩
      intro vdbs imports hloop d hd _
      cases hloop
      exact List.mem_map_of_mem hd
  | loop vdbs imports =>
      have hlisted := hs.listed vdbs imports hpc
      cases vdbs with
      | nil =>
          -- every preview VDB of a virtualization has been undeployed on the way
          have hnone : ∀ d ∈ s.deployed, ¬ PreviewsVirtualization d.vdb :=
            fun d hd hpreview => nomatch hlisted d hd hpreview
          refine ⟨clock_deploy hs.clock, ?_, ?_⟩
          · exact order_deploy hs.clock hs.order fun _ => hnone
          · intro vdbs imports hloop
            cases hloop
      | cons found vdbs =>
          simp only [refreshPreviewVdb]
          split
          · -- the VDB of a connection, which no preview VDB has the name of
            rename_i hconn
            refine ⟨hs.clock, hs.order, listed_next hlisted (fun _ hd => hd) ?_⟩
            rintro d hd ⟨dvName, hdv⟩ heq
            rw [← heq, hdv, (endsWith_getPreviewVdbName dvName).2] at hconn
            cases hconn
          · split
            · have hundeployed := @order_undeploy s found.vdb.name hs.order
              refine ⟨fun d hd => hs.clock d (mem_undeploy.mp hd).1, hundeployed, ?_⟩
              exact listed_next hlisted (fun d hd => (mem_undeploy.mp hd).1)
                fun d hd _ => (mem_undeploy.mp hd).2
            · -- neither suffix, so no preview VDB either
              rename_i hvdb
              refine ⟨hs.clock, hs.order, listed_next hlisted (fun _ hd => hd) ?_⟩
              rintro d hd ⟨dvName, hdv⟩ heq
              rw [← heq, hdv, (endsWith_getPreviewVdbName dvName).1] at hvdb
              exact hvdb rfl

/-- What a request deploys in the loop of the executor is listed there. -/
theorem listed_deploy {s : PreviewServer} {vdb : VDBMetaData} {active succeeds : Bool}
    (hs : Listed s)
    (hvdb : succeeds = true → PreviewsVirtualization vdb → ∀ vdbs imports,
      s.executor = some (.loop vdbs imports) → vdb.name ∈ vdbs.map fun d => d.vdb.name) :
    Listed (s.deploy vdb active succeeds) := by
  intro vdbs imports hloop d hd hpreview
  rcases mem_deploy hd with ⟨hold, _⟩ | ⟨hsucceeds, rfl⟩
  · exact hs vdbs imports hloop d hold hpreview
  · exact hvdb hsucceeds hpreview vdbs imports hloop

/-- A step that meets the guard keeps the order. -/
theorem ordered_step {stripe : String → Nat} {s t : PreviewServer} {label : Label}
    (hs : Ordered s) (hguard : deploysListed s label = true)
    (hnext : next stripe s label = some t) : Ordered t := by
  have hnamed := namesPreview_step hs.named hnext
  -- only deployments and removals touch the order; the name decides which VDB they are about
  cases moved_of_next hnext with
  | @preview thread succeeds dvName pc pc' t' hget hmoved =>
      cases hmoved with
      | deploys dv theVdb =>
          have hname := hs.named dvName dv theVdb (List.mem_of_getElem? hget)
          have horder : BoundToCurrent (s.deploy theVdb true succeeds) := by
            refine order_deploy hs.clock hs.order ?_
            intro hmain
            exact absurd (hmain.symm.trans hname) (previewVdb_ne dvName)
          have hlisted : Listed (s.deploy theVdb true succeeds) := by
            refine listed_deploy hs.listed ?_
            intro hsucceeds _ vdbs imports hloop
            subst hsucceeds
            simpa [deploysListed, hget, hloop] using hguard
          exact ⟨clock_deploy hs.clock, horder, hlisted, hnamed⟩
      | _ => exact ⟨hs.clock, hs.order, hs.listed, hnamed⟩
  | removeVdb =>
      obtain ⟨hclock, horder, hlisted, _⟩ := ordered_undeploy hs _ hs.named
      exact ⟨hclock, horder, hlisted, hnamed⟩
  | refresh =>
      refine ⟨hs.clock, hs.order, ?_, hnamed⟩
      intro vdbs imports hloop
      cases hloop
  | @executor succeeds pc hpc =>
      obtain ⟨hclock, horder, hlisted⟩ := ordered_executor succeeds hs hpc
      exact ⟨hclock, horder, hlisted, hnamed⟩
  | connection name active =>
      refine ⟨clock_deploy hs.clock, ?_, ?_, hnamed⟩
      · refine order_deploy hs.clock hs.order ?_
        intro hmain
        exact absurd hmain (connectionName_ne_previewVdb name)
      · refine listed_deploy hs.listed ?_
        rintro _ ⟨dvName, hdv⟩
        exact absurd hdv (connectionName_ne name dvName)
  | removeConnection name => exact ordered_undeploy hs _ hnamed
  | _ => exact ⟨hs.clock, hs.order, hs.listed, hnamed⟩

theorem ordered_initial : Ordered initial where
  clock := fun _ hd => nomatch hd
  order := fun _ hmain => nomatch hmain
  listed := fun _ _ hloop => nomatch hloop
  named := fun _ _ _ hmem => nomatch hmem

/-- In a run in which requests deploy only what the refresh has yet to come to, no preview VDB of a
virtualization is ever older than the main preview VDB. -/
theorem boundToCurrent {stripe : String → Nat} {s : PreviewServer}
    {tr : List (PreviewServer × Label)} (hrun : (system stripe).Run initial tr s)
    (hguard : System.Guarded (fun s label => deploysListed s label = true) tr) :
    BoundToCurrent s := by
  have hstep : ∀ s label t, Ordered s → deploysListed s label = true →
      (system stripe).step s label t → Ordered t :=
    fun _ _ _ hs hg hst => ordered_step hs hg hst
  exact (hrun.preserves hstep hguard ordered_initial).order

/-- A preview VDB is built while the refresh has its name still ahead, and again after it. -/
def previewBeforeLoopEnds : List Label :=
  .createDataVirtualization "dv" none :: .refreshPreviewVdb :: .executor true :: .executor true ::
    .updatePreviewVdb "dv" :: List.replicate 7 (.request 0 true) ++
    .commitViews "dv" [] true :: .refreshPreviewVdb :: .executor true :: .executor true ::
    .updatePreviewVdb "dv" :: List.replicate 7 (.request 1 true) ++
    [.executor true, .executor true] ++
    .updatePreviewVdb "dv" :: List.replicate 7 (.request 2 true)

theorem boundToCurrent_beforeLoopEnds :
    BoundToCurrent (System.after (next fun _ => 0) initial previewBeforeLoopEnds) :=
  boundToCurrent (System.run_after _ (next fun _ => 0) initial previewBeforeLoopEnds) (by decide)

/-- The preview VDB is built again after the refresh has undeployed it and before the new main
preview VDB is deployed. -/
def previewInGap : List Label :=
  .createDataVirtualization "dv" none :: .refreshPreviewVdb :: .executor true :: .executor true ::
    .updatePreviewVdb "dv" :: List.replicate 7 (.request 0 true) ++
    .refreshPreviewVdb :: List.replicate 3 (.executor true) ++
    .updatePreviewVdb "dv" :: List.replicate 7 (.request 1 true) ++ [.executor true]

theorem previewInGap_outdated :
    ¬ ∀ (stripe : String → Nat) (tr : List (PreviewServer × Label)) (s : PreviewServer),
      (system stripe).Run initial tr s → finished s = true → BoundToCurrent s := by
  intro h
  have hrun := System.run_after (· = initial) (next fun _ => 0) initial previewInGap
  have hbound := h (fun _ => 0) _ _ hrun (by decide)
  have hpreview : PreviewsVirtualization
      (((System.after (next fun _ => 0) initial previewInGap).deployed.getD 0
        { vdb := { name := "" }, deployedAt := 0 }).vdb) := ⟨"dv", by decide⟩
  have hlater := hbound
    ((System.after (next fun _ => 0) initial previewInGap).deployed.getD 1
      { vdb := { name := "" }, deployedAt := 0 })
    (by decide) (by decide) _ (by decide) hpreview
  exact absurd hlater (by decide)

end PreviewServer

end TeiidSyndesis.Server
