/-
# TeiidSyndesis.Server.SourceAgreement — when deployed sources agree with their rows.

The executor finishes a task before it takes the next, so what it deploys is up to date or to be
replaced.  A request thread may have read its row before a change and deploy after the task that follows
it; without such deployments the VDBs agree with the rows whenever the operations are at rest.

Main results:
* `deployTask_inv`, `executorStep_inv` — the executor keeps the invariant, task by task;
* `next_inv` — so does every step that meets the guard `deploysStored`;
* `Inv.agrees` — at rest the invariant says that the VDBs agree with the rows;
* `agrees_of_deploysStored` — this for every run;
* `failed_source_deployed` — and without the guard it fails.
-/
import TeiidSyndesis.Server.SourceInvariant

namespace TeiidSyndesis.Server

open TeiidSyndesis.Library TeiidSyndesis.Model

namespace SourceServer

variable {registry : SourceRegistry} {stripe : String → Nat}

/-! ## Steps of the executor -/

/-- What is on its way for a source stays so while the rows stay and its tasks do. -/
theorem coming_of_tasks {s t : SourceServer} {source : TeiidDataSource} (hschemas : t.schemas = s.schemas)
    (hremove : s.due (.removeVdb source.name) = true → t.due (.removeVdb source.name) = true)
    (hreplace : s.due (.deploySourceVdb source.name .replaceDdl) = true →
      t.due (.deploySourceVdb source.name .replaceDdl) = true)
    (h : s.coming source = true) : t.coming source = true := by
  rw [coming_iff] at h ⊢
  rw [loadMetadata_congr hschemas]
  rcases h with hdue | ⟨hsome, hdue⟩
  · exact .inl (hremove hdue)
  · exact .inr ⟨hsome, hreplace hdue⟩

/-- What a row is usable for depends on the rows alone. -/
theorem usable_congr {s t : SourceServer} (hschemas : t.schemas = s.schemas) {source : TeiidDataSource}
    {text : Option String} (h : Usable s source text) : Usable t source text := by
  obtain ⟨ddl, hddl, husable⟩ := h
  exact ⟨ddl, (loadMetadata_congr hschemas _).trans hddl, husable⟩

/-- In the middle of a deployment no row changes and no task is lost. -/
theorem deployTask_frame {s t : SourceServer} {source : TeiidDataSource} {mode : SourceDeploymentMode}
    {pc next : DeployPc} {succeeds valid : Bool}
    (h : doDeploySourceVdb stripe s source mode pc succeeds valid = some (t, next)) :
    t.schemas = s.schemas ∧ t.threads = s.threads ∧ ∀ task ∈ s.queue, task ∈ t.queue := by
  cases deployStep_of_eq h with
  | follows _ => exact ⟨rfl, rfl, fun _ h => h⟩
  | undeploys _ => exact ⟨rfl, rfl, fun _ h => h⟩
  | deploys _ => exact ⟨rfl, rfl, fun _ h => h⟩
  | refreshes => exact ⟨rfl, rfl, fun _ h => List.mem_append_left _ h⟩

/-- The executor replaces only the VDB of the source it is at. -/
theorem replacing_at {s : SourceServer} {source other : TeiidDataSource} {mode : SourceDeploymentMode}
    {pc : DeployPc} (hexecutor : s.executor = some (source, mode, pc))
    (h : s.replacing other = true) :
    other = source ∧ mode = .replaceDdl ∧ (s.loadMetadata source.syndesisId).isSome = true ∧
      (pc = .findSchemaBySourceId ∨ pc.reads = s.loadMetadata source.syndesisId) := by
  obtain ⟨_, hat, hsome, hpc⟩ := replacing_iff.mp h
  rw [hexecutor] at hat
  cases hat
  exact ⟨rfl, rfl, hsome, hpc⟩

/-- What is read in a deployment is the row, or had been read before. -/
theorem deployTask_reads {s t : SourceServer} {source : TeiidDataSource} {mode : SourceDeploymentMode}
    {pc next : DeployPc} {succeeds valid : Bool}
    (h : doDeploySourceVdb stripe s source mode pc succeeds valid = some (t, next)) {ddl : String}
    (hreads : next.reads = some ddl) :
    pc.reads = some ddl ∨ s.loadMetadata source.syndesisId = some ddl := by
  cases deployStep_of_eq h with
  | follows hfollows => exact hfollows.reads ddl hreads
  | undeploys _ => cases hreads
  | deploys _ => cases hreads
  | refreshes => cases hreads

/-- A VDB that is there after a step of the executor was there, and is replaced if it was to be, or is
the one it has deployed, which is usable or about to be replaced. -/
theorem deployTask_deployed {s t : SourceServer} {source : TeiidDataSource} {mode : SourceDeploymentMode}
    {pc next : DeployPc} {succeeds valid : Bool} (hs : Inv registry s)
    (hexecutor : s.executor = some (source, mode, pc))
    (h : doDeploySourceVdb stripe s source mode pc succeeds valid = some (t, next)) :
    ∀ vdb ∈ t.deployed,
      (vdb ∈ s.deployed ∧ (vdb.name = getWorkspaceSourceVdbName vdb.source.name →
        s.replacing vdb.source = true →
        ({ t with executor := some (source, mode, next) } : SourceServer).replacing vdb.source =
          true)) ∨
      (vdb.source = source ∧ (∃ ddl, vdb.name = vdbNameFor source ddl) ∧
        (vdb.name = getWorkspaceSourceVdbName source.name →
          Usable s source vdb.ddl ∨ s.coming source = true)) := by
  intro vdb hvdb
  -- a VDB of `t` was there before, unless this step deploys it
  cases deployStep_of_eq h with
  | follows hfollows =>
      refine .inl ⟨hvdb, fun _ hother => ?_⟩
      obtain ⟨heq, hmode, hsome, hpc⟩ := replacing_at hexecutor hother
      rw [heq]
      exact replacing_iff.mpr ⟨next, by rw [hmode], hsome, hfollows.replaces hmode hsome hpc⟩
  | undeploys _ =>
      obtain ⟨hmem, hname⟩ := mem_undeploy.mp hvdb
      refine .inl ⟨hmem, fun hconn hother => ?_⟩
      rw [(replacing_at hexecutor hother).1] at hconn
      exact absurd hconn hname
  | refreshes =>
      refine .inl ⟨hvdb, fun _ hother => ?_⟩
      obtain ⟨_, _, hsome, hpc⟩ := replacing_at hexecutor hother
      rw [← hpc.resolve_left nofun] at hsome
      cases hsome
  | @deploys ddl hfailed =>
      obtain ⟨hof, hnameFor⟩ := generateSourceVdb_spec s source ddl valid
      rcases mem_deploy hvdb with ⟨hmem, hname⟩ | ⟨_, rfl⟩
      · -- the VDB that is replaced is no longer there
        refine .inl ⟨hmem, fun hconn hother => ?_⟩
        obtain ⟨heq, _, hsome, hpc⟩ := replacing_at hexecutor hother
        rw [← hpc.resolve_left nofun] at hsome
        obtain ⟨text, rfl⟩ := Option.isSome_iff_exists.mp hsome
        rw [heq] at hconn
        exact absurd (hconn.trans hnameFor.symm) hname
      · refine .inr ⟨hof, ⟨ddl, hnameFor⟩, fun hconn => ?_⟩
        cases ddl with
        | none => exact absurd (hnameFor.symm.trans hconn) (loadName_ne source.name source.name)
        | some ddl =>
            -- hcome | the text the task carries is the stored one, or a later task comes that reads it
            -- again
            rcases hs.executing source mode _ ddl hexecutor rfl with hddl | hcome
            · exact .inl ⟨ddl, hddl, hfailed, hddl⟩
            · exact .inr hcome

/-- The executor changes no row and loses no task in the middle of a deployment, and what it has read is
stored or to be replaced. -/
theorem deployTask_inv {s t : SourceServer} {source : TeiidDataSource} {mode : SourceDeploymentMode}
    {pc next : DeployPc} {succeeds valid : Bool} (hs : Inv registry s)
    (hexecutor : s.executor = some (source, mode, pc))
    (h : doDeploySourceVdb stripe s source mode pc succeeds valid = some (t, next)) :
    Inv registry { t with executor := some (source, mode, next) } := by
  have hsource := hs.running source mode pc hexecutor
  have hdeployed := deployTask_deployed hs hexecutor h
  obtain ⟨hschemas, hthreads, hqueue⟩ := deployTask_frame h
  -- the other tasks stay queued, so what was to come is still to come
  have hcoming : ∀ {other : TeiidDataSource}, s.coming other = true →
      ({ t with executor := some (source, mode, next) } : SourceServer).coming other = true := by
    intro other
    have hdue : ∀ {task : SourceTask}, s.due task = true →
        ({ t with executor := some (source, mode, next) } : SourceServer).due task = true := by
      intro task hdue
      rw [due_iff] at hdue ⊢
      rw [hthreads]
      exact hdue.imp_left (hqueue task)
    exact coming_of_tasks hschemas hdue hdue
  refine ⟨?_, ?_, ?_, ?_, ?_⟩
  · intro thread hthread
    exact hs.threads thread (hthreads ▸ hthread)
  · rintro _ _ _ ⟨⟩
    exact hsource
  · intro vdb hvdb
    rcases hdeployed vdb hvdb with ⟨hmem, _⟩ | ⟨hof, hname, _⟩
    · exact hs.vdbs vdb hmem
    · rw [hof]
      exact ⟨hsource, hname⟩
  · rintro _ _ _ ddl ⟨⟩ hnext
    have hdone : s.loadMetadata source.syndesisId = some ddl ∨ s.coming source = true := by
      rcases deployTask_reads h hnext with hpc | hddl
      · exact hs.executing source mode pc ddl hexecutor hpc
      · exact .inl hddl
    exact hdone.imp ((loadMetadata_congr hschemas _).trans ·) hcoming
  · intro vdb hvdb hconn
    rcases hdeployed vdb hvdb with ⟨hmem, hkeeps⟩ | ⟨hof, _, hnew⟩
    · rcases hs.agreed vdb hmem hconn with husable | hcome | hreplace
      · exact .inl (usable_congr hschemas husable)
      · exact .inr (.inl (hcoming hcome))
      · exact .inr (.inr (hkeeps hconn hreplace))
    · rw [hof] at hconn ⊢
      exact (hnew hconn).imp (usable_congr hschemas) fun hcome => .inl (hcoming hcome)

/-- Taking a task off the queue leaves the others due. -/
theorem due_of_ne {s t : SourceServer} {taken task : SourceTask} {queue : List SourceTask}
    (hqueue : s.queue = taken :: queue) (htqueue : t.queue = queue) (hthreads : t.threads = s.threads)
    (hne : task ≠ taken) (h : s.due task = true) : t.due task = true := by
  rw [due_iff] at h ⊢
  rw [htqueue, hthreads]
  refine h.imp_left fun hmem => ?_
  rw [hqueue] at hmem
  exact (List.mem_cons.mp hmem).resolve_left hne

/-- An idle executor replaces nothing. -/
theorem not_replacing {s : SourceServer} (h : s.executor = none) (source : TeiidDataSource) :
    ¬s.replacing source = true := by
  intro hreplacing
  obtain ⟨_, hat, _⟩ := replacing_iff.mp hreplacing
  rw [h] at hat
  cases hat

/-- A source stays settled while the tasks that were due for it are. -/
theorem settled_of_tasks {s t : SourceServer} {source : TeiidDataSource} {text : Option String}
    (hexecutor : s.executor = none) (hschemas : t.schemas = s.schemas)
    (hremove : s.due (.removeVdb source.name) = true → t.due (.removeVdb source.name) = true)
    (hreplace : s.due (.deploySourceVdb source.name .replaceDdl) = true →
      t.due (.deploySourceVdb source.name .replaceDdl) = true)
    (h : Settled s source text) : Settled t source text := by
  rcases h with husable | hcoming | hreplacing
  · exact .inl (usable_congr hschemas husable)
  · exact .inr (.inl (coming_of_tasks hschemas hremove hreplace hcoming))
  · exact absurd hreplacing (not_replacing hexecutor source)

/-- The next task removes a VDB, or has it replaced by what is stored. -/
theorem takeTask_inv {s t : SourceServer} (hs : Inv registry s) (hexecutor : s.executor = none)
    (h : takeTask registry s = some t) : Inv registry t := by
  unfold takeTask at h
  split at h
  · cases h
  · rename_i teiidName queue hqueue
    cases h
    -- what was due stays due, but for the task that is taken
    have hdue : ∀ task, task ≠ .removeVdb teiidName → s.due task = true →
        ({ s with queue := queue }.undeploy (getWorkspaceSourceVdbName teiidName)).due task = true :=
      fun task hne => due_of_ne hqueue rfl rfl hne
    refine ⟨hs.threads, hs.running, fun vdb hvdb => hs.vdbs vdb (mem_undeploy.mp hvdb).1,
      fun source mode pc ddl hat => (nomatch hexecutor.symm.trans hat), ?_⟩
    intro vdb hvdb hconn
    obtain ⟨hmem, hname⟩ := mem_undeploy.mp hvdb
    -- the VDB whose removal was due is gone, so the task is none for those that stay
    have hother : SourceTask.removeVdb vdb.source.name ≠ .removeVdb teiidName := by
      rintro ⟨⟩
      exact hname hconn
    exact settled_of_tasks hexecutor rfl (hdue _ hother) (hdue _ nofun) (hs.agreed vdb hmem hconn)
  · rename_i queue hqueue
    cases h
    have hdue : ∀ task, task ≠ .refreshPreviewVdb → s.due task = true →
        ({ s with queue := queue } : SourceServer).due task = true :=
      fun task hne => due_of_ne hqueue rfl rfl hne
    refine ⟨hs.threads, hs.running, hs.vdbs,
      fun source mode pc ddl hat => (nomatch hexecutor.symm.trans hat), ?_⟩
    intro vdb hvdb hconn
    exact settled_of_tasks hexecutor rfl (hdue _ nofun) (hdue _ nofun) (hs.agreed vdb hvdb hconn)
  · rename_i teiidSourceName mode queue hqueue
    cases h
    have hdue : ∀ task, task ≠ .deploySourceVdb teiidSourceName mode → s.due task = true →
        ({ s with
          queue := queue
          executor := (registry.getDataSource teiidSourceName).map fun source =>
            (source, mode, .findSchemaBySourceId) } : SourceServer).due task = true :=
      fun task hne => due_of_ne hqueue rfl rfl hne
    refine ⟨hs.threads, ?_, hs.vdbs, ?_, ?_⟩
    · intro source mode' pc hat
      obtain ⟨other, hother, heq⟩ := Option.map_eq_some_iff.mp hat
      cases heq
      exact (mem_of_getDataSource hother).1
    · intro source mode' pc ddl hat hreads
      obtain ⟨other, _, heq⟩ := Option.map_eq_some_iff.mp hat
      cases heq
      cases hreads
    · intro vdb hvdb hconn
      have hagreed := hs.agreed vdb hvdb hconn
      -- the task may be the one that was to correct this VDB
      by_cases htask : SourceTask.deploySourceVdb vdb.source.name .replaceDdl =
          .deploySourceVdb teiidSourceName mode
      · cases htask
        rcases hagreed with husable | hcoming | hreplacing
        · exact .inl (usable_congr rfl husable)
        · rcases coming_iff.mp hcoming with hremove | ⟨hsome, _⟩
          · exact .inr (.inl (coming_iff.mpr (.inl (hdue _ nofun hremove))))
          · -- the task is at hand now
            refine .inr (.inr (replacing_iff.mpr ⟨.findSchemaBySourceId, ?_, hsome, .inl rfl⟩))
            simp only [getDataSource_of_mem (hs.vdbs vdb hvdb).1, Option.map_some]
        · exact absurd hreplacing (not_replacing hexecutor vdb.source)
      · exact settled_of_tasks hexecutor rfl (hdue _ nofun) (hdue _ htask) hagreed

/-- A step of the executor keeps the invariant: it takes a task, or goes on with one. -/
theorem executorStep_inv {s t : SourceServer} {succeeds valid : Bool} (hs : Inv registry s)
    (h : executorStep registry stripe s succeeds valid = some t) : Inv registry t := by
  unfold executorStep at h
  split at h
  · rename_i hexecutor
    exact takeTask_inv hs hexecutor h
  · rename_i source mode hexecutor
    cases h
    refine ⟨hs.threads, nofun, hs.vdbs, nofun, ?_⟩
    intro vdb hvdb hconn
    rcases hs.agreed vdb hvdb hconn with husable | hcome | hreplace
    · exact .inl (usable_congr rfl husable)
    · exact .inr (.inl (coming_of_tasks rfl id id hcome))
    · -- a deployment that is done replaces nothing
      obtain ⟨pc, hat, hsome, hpc⟩ := replacing_iff.mp hreplace
      rw [hexecutor] at hat
      cases hat
      rw [← hpc.resolve_left nofun] at hsome
      cases hsome
  · rename_i source mode pc _ hexecutor
    obtain ⟨⟨u, next⟩, hstep, rfl⟩ := Option.map_eq_some_iff.mp h
    exact deployTask_inv hs hexecutor hstep

/-! ## Runs -/

/-- A thread that enters, and a task that is added, disturb nothing. -/
theorem moves_of_append {s t : SourceServer} (hexecutor : t.executor = s.executor)
    (hqueue : ∀ task ∈ s.queue, task ∈ t.queue) (hthreads : ∀ thread ∈ s.threads, thread ∈ t.threads)
    (hstored : ∀ id, t.loadMetadata id = s.loadMetadata id) : Moves registry s t := by
  refine ⟨hexecutor, fun task hdue => ?_, fun source _ => .inl (hstored source.syndesisId)⟩
  rw [due_iff] at hdue ⊢
  rcases hdue with hqueued | ⟨thread, hthread, hannounces⟩
  · exact .inl (hqueue task hqueued)
  · exact .inr ⟨thread, hthreads thread hthread, hannounces⟩

/-- Threads that enter are for registered sources. -/
theorem sources_of_append {s : SourceServer} {thread : SourceThread}
    (hs : ∀ thread ∈ s.threads, thread.source ∈ registry.sources)
    (hthread : thread.source ∈ registry.sources) :
    ∀ other ∈ s.threads ++ [thread], other.source ∈ registry.sources := by
  intro other hother
  rcases List.mem_append.mp hother with hold | hnew
  · exact hs other hold
  · rw [List.mem_singleton.mp hnew]
    exact hthread

/-- A request thread that enters has touched nothing yet. -/
theorem enter_inv {s t : SourceServer} {teiidSourceName : String}
    {entered : TeiidDataSource → SourceThread} (hentered : ∀ source, (entered source).source = source)
    (hs : Inv registry s) (h : enter registry s teiidSourceName entered = some t) :
    Inv registry t := by
  obtain ⟨source, hsource, rfl⟩ := Option.map_eq_some_iff.mp h
  have hmoves : Moves registry s { s with threads := s.threads ++ [entered source] } :=
    moves_of_append rfl (fun _ h => h) (fun _ h => List.mem_append_left _ h) fun _ => rfl
  refine hmoves.inv_of_subset hs (sources_of_append hs.threads ?_) fun _ h => h
  rw [hentered]
  exact (mem_of_getDataSource hsource).1

/-- A VDB that has loaded changes its status, and its thread is one that completes it. -/
theorem loaded_inv {s t : SourceServer} {vdbName : String} {outcome : Except String String}
    (hs : Inv registry s) (h : loaded s vdbName outcome = some t) : Inv registry t := by
  unfold loaded at h
  split at h
  · cases h
  · rename_i vdb hfind
    split at h
    · have hmem : vdb ∈ s.deployed := List.mem_of_find?_eq_some hfind
      obtain ⟨status, modelDdl, rfl⟩ : ∃ status modelDdl, t =
          { s with
            deployed := s.deployed.map fun other =>
              if other.name = vdbName then { other with status := status } else other
            threads := s.threads ++
              [.finishedDeployment { vdb with status := status } modelDdl .lock] } := by
        cases outcome with
        | ok schema => exact ⟨.active, schema, (Option.some.inj h).symm⟩
        | error message => exact ⟨.failed, failedDdl ++ message, (Option.some.inj h).symm⟩
      have hmoves : Moves registry s
          { s with
            deployed := s.deployed.map fun other =>
              if other.name = vdbName then { other with status := status } else other
            threads := s.threads ++
              [.finishedDeployment { vdb with status := status } modelDdl .lock] } :=
        moves_of_append rfl (fun _ h => h) (fun _ h => List.mem_append_left _ h) fun _ => rfl
      refine hmoves.inv hs (sources_of_append hs.threads (hs.vdbs vdb hmem).1) ?_
      intro other hother
      obtain ⟨old, hold, rfl⟩ := List.mem_map.mp hother
      refine .inl ⟨old, hold, ?_⟩
      split <;> exact ⟨rfl, rfl, rfl⟩
    · cases h

/-- A step whose deployment has the stored ddl keeps the invariant. -/
theorem next_inv {s t : SourceServer} {label : SourceLabel} (hs : Inv registry s)
    (hguard : deploysStored s label = true) (h : next registry stripe s label = some t) :
    Inv registry t := by
  -- only a deployment by a thread needs the guard; the other steps keep the invariant by themselves
  cases label with
  | findSchemaModel teiidSourceName => exact enter_inv (fun _ => rfl) hs h
  | refreshSchema teiidSourceName => exact enter_inv (fun _ => rfl) hs h
  | deleteSchema teiidSourceName => exact enter_inv (fun _ => rfl) hs h
  | createSchema teiidSourceName =>
      simp only [next] at h
      split at h
      · cases h
      · rename_i source _
        have hstored := loadMetadata_createSchema h
        unfold createSchema at h
        split at h
        · cases h
        · obtain rfl := Option.some.inj h
          have hmoves : Moves registry s
              { s with
                schemas :=
                  s.schemas ++ [{ id := s.nextId, name := source.name, sourceId := source.syndesisId }]
                nextId := s.nextId + 1 } :=
            moves_of_append rfl (fun _ h => h) (fun _ h => h) hstored
          exact hmoves.inv_of_subset hs hs.threads fun _ h => h
  | deploySourceVdb teiidSourceName mode =>
      obtain rfl := Option.some.inj h
      have hmoves : Moves registry s (s.execute (.deploySourceVdb teiidSourceName mode)) :=
        moves_of_append rfl (fun _ h => List.mem_append_left _ h) (fun _ h => h) fun _ => rfl
      exact hmoves.inv_of_subset hs hs.threads fun _ h => h
  | loaded vdbName outcome => exact loaded_inv hs h
  | thread index succeeds valid => exact threadStep_inv hs hguard h
  | executor succeeds valid => exact executorStep_inv hs h

/-- A started server has deployed nothing, so everything agrees. -/
theorem started_inv {s : SourceServer} (h : started s) : Inv registry s := by
  obtain ⟨hdeployed, hthreads, _, hexecutor⟩ := h
  refine ⟨?_, ?_, ?_, ?_, ?_⟩
  · rw [hthreads]
    exact nofun
  · rw [hexecutor]
    exact nofun
  · rw [hdeployed]
    exact nofun
  · rw [hexecutor]
    exact nofun
  · rw [hdeployed]
    exact nofun

/-- At rest nothing is on its way. -/
theorem AtRest.not_coming {s : SourceServer} (h : AtRest s) (source : TeiidDataSource) :
    ¬s.coming source = true ∧ ¬s.replacing source = true := by
  obtain ⟨hthreads, hqueue, hexecutor⟩ := h
  have hdue : ∀ task, ¬s.due task = true := by
    intro task hdue
    rw [due_iff, hqueue] at hdue
    rcases hdue with hqueued | ⟨thread, hthread, hannounces⟩
    · cases hqueued
    · have hdone := hthreads thread hthread
      unfold SourceThread.announces at hannounces
      split at hannounces <;> cases hannounces <;> cases hdone
  refine ⟨?_, not_replacing hexecutor source⟩
  intro hcoming
  rcases coming_iff.mp hcoming with hremove | ⟨_, hreplace⟩
  · exact hdue _ hremove
  · exact hdue _ hreplace

/-- At rest nothing is coming any more, so what is settled agrees. -/
theorem Inv.agrees {s : SourceServer} (hs : Inv registry s) (hrest : AtRest s) : Agrees registry s := by
  intro source hsource vdb hvdb hname
  obtain ⟨hof, ddl, hddl⟩ := hs.vdbs vdb hvdb
  -- the name of a connection VDB tells its source
  have hsame : vdb.source = source := by
    cases ddl with
    | none => exact absurd (hddl.symm.trans hname) (loadName_ne vdb.source.name source.name)
    | some ddl =>
        exact source_unique hof hsource (.inl (getWorkspaceSourceVdbName_injective
          (hddl.symm.trans hname)))
  obtain ⟨hcoming, hreplacing⟩ := hrest.not_coming vdb.source
  have hconn : vdb.name = getWorkspaceSourceVdbName vdb.source.name := by
    rw [hsame]
    exact hname
  obtain ⟨text, htext, husable, hloaded⟩ :=
    (hs.agreed vdb hvdb hconn).resolve_right (not_or.mpr ⟨hcoming, hreplacing⟩)
  rw [hsame] at htext
  obtain ⟨schema, hschema, hstored⟩ := Option.bind_eq_some_iff.mp htext
  exact ⟨schema, text, hschema, hstored, husable, hloaded⟩

/-- In a run whose request threads deploy only what is stored, or what a task on its way corrects, the
connection VDBs agree with the rows whenever the operations are at rest. -/
theorem agrees_of_deploysStored {s₀ s : SourceServer} {tr : List (SourceServer × SourceLabel)}
    (hstarted : started s₀) (hrun : (system registry stripe).Run s₀ tr s)
    (hstores : System.Guarded (fun s label => deploysStored s label = true) tr) (hrest : AtRest s) :
    Agrees registry s := by
  have hkeeps : ∀ s label t, Inv registry s → deploysStored s label = true →
      (system registry stripe).step s label t → Inv registry t :=
    fun _ _ _ hs hg hst => next_inv hs hg hst
  exact (hrun.preserves hkeeps hstores (started_inv hstarted)).agrees hrest

/-- A deployment of another kind leaves a VDB that nothing on its way corrects. -/
theorem unsettled_of_late {s t : SourceServer} {index : Nat} {succeeds valid : Bool}
    (hlate : deploysStored s (.thread index succeeds valid) = false)
    (h : threadStep stripe s index succeeds valid = some t) :
    ∃ vdb ∈ t.deployed, vdb.name = getWorkspaceSourceVdbName vdb.source.name ∧
      ¬Settled t vdb.source vdb.ddl := by
  simp only [deploysStored] at hlate
  split at hlate
  · rename_i source mode ddl hold
    simp only [Bool.or_eq_false_iff, Bool.not_eq_false'] at hlate
    obtain ⟨⟨⟨⟨hfailed, rfl⟩, hstored⟩, hcoming⟩, hreplacing⟩ := hlate
    simp only [threadStep, hold, doDeploySourceVdb, Option.any_some, hfailed] at h
    obtain rfl := Option.some.inj h
    refine ⟨s.generateSourceVdb source (some ddl) valid,
      List.mem_append_right _ (List.mem_singleton_self _), rfl, ?_⟩
    -- hcome | hreplace) | each way of being settled is one of the conjuncts the guard has denied
    rintro (⟨text, htext, husable, _⟩ | hcome | hreplace)
    · have hany : stored s source = true :=
        (Option.any_eq_true _ _).mpr ⟨text, htext, by rw [husable]; rfl⟩
      rw [hstored] at hany
      cases hany
    · -- the thread has announced nothing
      have hdue : ∀ task, SourceServer.due
          { s.deploy (s.generateSourceVdb source (some ddl) valid) true with
            threads := s.threads.set index (.doDeploySourceVdb source mode (.unlock (some ddl) true)) }
          task = true → s.due task = true := by
        intro task hdue
        rw [due_iff] at hdue ⊢
        refine hdue.imp_right ?_
        rintro ⟨thread, hthread, hannounces⟩
        rcases List.mem_or_eq_of_mem_set hthread with hmem | rfl
        · exact ⟨thread, hmem, hannounces⟩
        · cases hannounces
      have hbefore : s.coming source = true := by
        refine coming_of_tasks ?_ (hdue _) (hdue _) hcome
        rfl
      rw [hcoming] at hbefore
      cases hbefore
    · have hbefore : s.replacing source = true := hreplace
      rw [hreplacing] at hbefore
      cases hbefore
  · cases hlate

/-- One source, whose ddl has been stored by an earlier server. -/
def oneSource : SourceRegistry where
  sources := [{ name := "pg", translatorName := "postgresql", syndesisId := "c1" }]
  names_nodup := by decide
  ids_nodup := by decide

/-- A server whose only source has its ddl. -/
def withDdl : SourceServer :=
  { schemas := [{ id := 0, name := "pg", sourceId := "c1", ddl := some "CREATE FOREIGN TABLE t (a string)" }]
    nextId := 1 }

/-- A request deploys the VDB, and the executor refreshes the preview. -/
def requested : List SourceLabel :=
  .findSchemaModel "pg" :: List.replicate 8 (.thread 0 true true) ++ [.executor true true]

/-- A server whose source was deployed and asked for again. -/
theorem agrees_of_deploysStored_requested :
    Agrees oneSource (System.after (next oneSource fun _ => 0) withDdl requested) :=
  agrees_of_deploysStored ⟨rfl, rfl, rfl, rfl⟩
    (System.run_after started (next oneSource fun _ => 0) withDdl requested) (by decide)
    ⟨by decide, by decide, by decide⟩

/-- A refresh fails while a request is about to deploy the VDB from the row it has read before. -/
def overtaken : List SourceLabel :=
  .refreshSchema "pg" :: List.replicate 6 (.thread 0 true true) ++
    .findSchemaModel "pg" :: List.replicate 3 (.thread 1 true true) ++
    .loaded "pgconn-load" (.error "no connection") :: List.replicate 5 (.thread 2 true true) ++
    List.replicate 10 (.executor true true) ++
    List.replicate 5 (.thread 1 true true) ++ [.executor true true]

/-- A thread that read its row before the failure was stored deploys what is out of date. -/
theorem failed_source_deployed :
    ¬∀ (registry : SourceRegistry) (stripe : String → Nat) (s₀ s : SourceServer)
      (tr : List (SourceServer × SourceLabel)), started s₀ →
        (system registry stripe).Run s₀ tr s → AtRest s → Agrees registry s := by
  intro h
  have hagrees := h oneSource (fun _ => 0) withDdl
    (System.after (next oneSource fun _ => 0) withDdl overtaken) _ ⟨rfl, rfl, rfl, rfl⟩
    (System.run_after started (next oneSource fun _ => 0) withDdl overtaken)
    ⟨by decide, by decide, by decide⟩
  obtain ⟨schema, ddl, hschema, hddl, husable, _⟩ := hagrees
    { name := "pg", translatorName := "postgresql", syndesisId := "c1" } (by decide)
    { name := "pgconn"
      source := { name := "pg", translatorName := "postgresql", syndesisId := "c1" }
      status := .active, ddl := some "--failed: no connection" } (by decide) (by decide)
  have hrow : SourceServer.findSchemaBySourceId
      (System.after (next oneSource fun _ => 0) withDdl overtaken) "c1" =
      some { id := 0, name := "pg", sourceId := "c1", ddl := some "--failed: no connection" } := by
    decide
  rw [hrow] at hschema
  cases hschema
  cases hddl
  exact absurd husable (by decide)

end SourceServer

end TeiidSyndesis.Server
