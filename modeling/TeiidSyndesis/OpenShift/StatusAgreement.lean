/-
# TeiidSyndesis.OpenShift.StatusAgreement — the monitored status and the one read on demand.

`BuildStatusRunner.run` and `getVDBService` both read a status from a build and a deployment config.
The monitor reads the build it has started, and a deployment counts as done when it is ready.  The
lookup reads the build the API lists first, and a deployment that is not progressing as failed, ready or
not.  A pass over a job is followed to its end here, with the same objects behind every call.

Main results:
* `monitoredStatus_outcome`, `getVDBService_outcome` — either reading as a table over the outcome of its
  build;
* `monitoredStatus_eq_iff` — where the two tables agree;
* `runBuildStatus_leads`, `status_of_pass` — what a whole pass of the monitor leaves;
* `status_agrees_iff` — so when the two statuses agree after it.
-/
import TeiidSyndesis.OpenShift.MonitorPass

namespace TeiidSyndesis.OpenShift

open TeiidSyndesis.Library

/-! ## The two tables -/

/-- The status a pass leaves in a job that is building or deploying. -/
def monitoredStatus (status : Status) (build : Build) (dc : DeploymentConfig) : Status :=
  if build.phase.isCompleted then
    if status = .deploying then
      if isDeploymentInReadyState dc then .running
      else if isDeploymentProgressing dc then .deploying else .failed
    else .deploying
  else if build.phase.isCancelled then .cancelled
  else if build.phase.isFailed then .failed
  else status

/-- The status read on demand, where a build and the deployment config are there. -/
theorem getVDBService_status {openShiftName : String} {view : ServiceView} {first : Build}
    {rest : List Build} {dc : DeploymentConfig} (hbuilds : view.builds = first :: rest)
    (hdc : view.deploymentConfig = some dc) :
    (getVDBService openShiftName view).status =
      if first.phase.isCancelled then .cancelled
      else if first.phase.isFailed then .failed
      else if first.phase.isCompleted then
        if isDeploymentProgressing dc then
          if isDeploymentInReadyState dc then .running else .deploying
        else .failed
      else .building := by
  simp only [getVDBService, hbuilds, completedBuildStatus, hdc]
  split
  · rfl
  · split
    · rfl
    · split <;> rfl

/-- What a phase says to both. -/
inductive Outcome
  | pending
  | completed
  | failed
  | cancelled
  deriving DecidableEq, Repr

/-- What a build phase comes to. -/
def BuildPhase.outcome : BuildPhase → Outcome
  | .new | .pending | .running => .pending
  | .complete => .completed
  | .failed | .error => .failed
  | .cancelled => .cancelled

/-- When the two statuses are one: for a job in `status`, by the outcomes of the monitored build and of
the one listed first. -/
def Agree (status : Status) (monitored first : Outcome) (dc : DeploymentConfig) : Prop :=
  match monitored, first with
  | .cancelled, .cancelled => True
  | .failed, .failed => True
  | .failed, .completed => isDeploymentProgressing dc = false
  | .pending, .pending => status = .building
  | .pending, .completed =>
      status = .deploying ∧ isDeploymentProgressing dc = true ∧ isDeploymentInReadyState dc = false
  | .completed, .completed =>
      isDeploymentProgressing dc = true ∨ isDeploymentInReadyState dc = false
  | .completed, .failed =>
      isDeploymentProgressing dc = false ∧ isDeploymentInReadyState dc = false
  | _, _ => False

instance (status : Status) (monitored first : Outcome) (dc : DeploymentConfig) :
    Decidable (Agree status monitored first dc) :=
  match monitored, first with
  | .cancelled, .cancelled | .failed, .failed => inferInstanceAs (Decidable True)
  | .failed, .completed => inferInstanceAs (Decidable (_ = _))
  | .pending, .pending => inferInstanceAs (Decidable (_ = _))
  | .pending, .completed => inferInstanceAs (Decidable (_ ∧ _ ∧ _))
  | .completed, .completed => inferInstanceAs (Decidable (_ ∨ _))
  | .completed, .failed => inferInstanceAs (Decidable (_ ∧ _))
  | .cancelled, .pending | .cancelled, .completed | .cancelled, .failed | .failed, .pending
  | .failed, .cancelled | .pending, .failed | .pending, .cancelled | .completed, .pending
  | .completed, .cancelled => inferInstanceAs (Decidable False)

/-- The monitor's reading, by the outcome of the build it started. -/
theorem monitoredStatus_outcome (status : Status) (build : Build) (dc : DeploymentConfig) :
    monitoredStatus status build dc =
      match build.phase.outcome with
      | .completed =>
          if status = .deploying then
            if isDeploymentInReadyState dc then .running
            else if isDeploymentProgressing dc then .deploying else .failed
          else .deploying
      | .cancelled => .cancelled
      | .failed => .failed
      | .pending => status := by
  unfold monitoredStatus
  cases build.phase <;> rfl

/-- The reading of the lookup, by the outcome of the build that is listed first. -/
theorem getVDBService_outcome {openShiftName : String} {view : ServiceView} {first : Build}
    {rest : List Build} {dc : DeploymentConfig} (hbuilds : view.builds = first :: rest)
    (hdc : view.deploymentConfig = some dc) :
    (getVDBService openShiftName view).status =
      match first.phase.outcome with
      | .completed =>
          if isDeploymentProgressing dc then
            if isDeploymentInReadyState dc then .running else .deploying
          else .failed
      | .cancelled => .cancelled
      | .failed => .failed
      | .pending => .building := by
  rw [getVDBService_status hbuilds hdc]
  cases first.phase <;> rfl

/-- The tables agree where they are said to. -/
theorem monitoredStatus_eq_iff {status : Status} {build : Build} {openShiftName : String}
    {view : ServiceView} {first : Build} {rest : List Build} {dc : DeploymentConfig}
    (hbuilds : view.builds = first :: rest) (hdc : view.deploymentConfig = some dc)
    (hstatus : (status = .building ∧ build.phase.isCompleted = false) ∨ status = .deploying) :
    monitoredStatus status build dc = (getVDBService openShiftName view).status ↔
      Agree status build.phase.outcome first.phase.outcome dc := by
  have hpending : status = .building → build.phase.outcome ≠ .completed := by
    rintro rfl hcompleted
    rcases hstatus with ⟨-, hphase⟩ | h
    · cases hbuild : build.phase <;> simp [hbuild, BuildPhase.outcome, BuildPhase.isCompleted] at *
    · cases h
  have hcases : status = .building ∨ status = .deploying := hstatus.imp And.left id
  rw [monitoredStatus_outcome, getVDBService_outcome hbuilds hdc]
  generalize build.phase.outcome = monitored at hpending ⊢
  generalize first.phase.outcome = listed
  unfold Agree
  cases isDeploymentProgressing dc <;> cases isDeploymentInReadyState dc <;>
    rcases hcases with rfl | rfl <;> cases monitored <;> cases listed <;> simp_all

/-! ## A pass followed to its end -/

/-- Every call returns, with this build and this deployment config. -/
def Answer.Shows (answer : Answer) (build : Build) (dc : DeploymentConfig) : Prop :=
  answer.call = .returns ∧ answer.build = some build ∧ answer.deploymentConfig = some dc

/-- What is known at a point of a pass that ends in the status `final`. -/
def MonitorPc.Leads (build : Build) (dc : DeploymentConfig) (final : Status) (pc : MonitorPc)
    (status : Status) : Prop :=
  match pc with
  | .start | .sleep | .checkDeleteSubmitted | .checkDeleteRequeue | .checkDeleteDone | .checkFailed
  | .checkCancelled | .checkSubmitted | .checkConfiguring | .findBuild =>
      (status = .building ∨ status = .deploying) ∧ monitoredStatus status build dc = final
  | .checkDeploying =>
      (status = .building ∨ status = .deploying) ∧ build.phase.isCompleted = true ∧
        monitoredStatus status build dc = final
  | .deploy | .deploymentName _ | .deploying => final = .deploying
  | .findDeployment =>
      build.phase.isCompleted = true ∧ status = .deploying ∧
        monitoredStatus .deploying build dc = final
  | .connect | .running => final = .running
  | .notProgressing _ | .buildFailed _ => final = .failed
  | .buildCancelled _ => final = .cancelled
  | .deployLatest | .notReady _ _ | .resubmit | .finish | .done => status = final
  | .deleting _ | .removeSyndesisConnection | .configureBuild | .executeConfigure => False

/-- One step of such a pass. -/
theorem runBuildStatus_leads {runner work : Nat} {s : Shared} {pc : MonitorPc} {answer : Answer}
    {build : Build} {dc : DeploymentConfig} {final : Status} (hwork : work < s.works.length)
    (hanswer : answer.Shows build dc) (h : pc.Leads build dc final (s.status work)) :
    (runBuildStatus runner work s pc answer).2.Leads build dc final
      (((runBuildStatus runner work s pc answer).1.apply s).status work) := by
  obtain ⟨hcall, hbuild, hdc⟩ := hanswer
  have hwrite : ∀ fields status, fields.status = some status →
      ((Action.write work fields).apply s).status work = status :=
    fun fields status h => Action.status_of_sets ⟨fields, rfl, h⟩ hwork
  have hkeep : ∀ fields : Fields, fields.status = none →
      ((Action.write work fields).apply s).status work = s.status work := by
    intro fields hnone
    unfold Shared.status
    rw [Action.work_write, if_pos ⟨rfl, hwork⟩, BuildStatus.write_status, hnone]
    rfl
  -- a status of an unpublish job, of a settled job or of one not yet building is ruled out
  have hother : ∀ status, s.status work = .building ∨ s.status work = .deploying →
      status ≠ .building → status ≠ .deploying → s.status work ≠ status := by
    rintro status (hs | hs) hne hne' heq
    · exact hne (heq.symm.trans hs)
    · exact hne' (heq.symm.trans hs)
  cases pc with
  | start => exact h
  | sleep =>
      simp only [runBuildStatus, hcall, if_true]
      exact h
  | checkDeleteSubmitted =>
      simp only [runBuildStatus, if_neg (hother .deleteSubmitted h.1 (by simp) (by simp))]
      exact h
  | checkDeleteRequeue =>
      simp only [runBuildStatus, if_neg (hother .deleteRequeue h.1 (by simp) (by simp))]
      exact h
  | checkDeleteDone =>
      simp only [runBuildStatus, if_neg (hother .deleteDone h.1 (by simp) (by simp))]
      exact h
  | checkFailed =>
      simp only [runBuildStatus, if_neg (hother .failed h.1 (by simp) (by simp))]
      exact h
  | checkCancelled =>
      simp only [runBuildStatus, if_neg (hother .cancelled h.1 (by simp) (by simp))]
      exact h
  | checkSubmitted =>
      simp only [runBuildStatus, if_neg (hother .submitted h.1 (by simp) (by simp))]
      exact h
  | checkConfiguring =>
      simp only [runBuildStatus, if_neg (hother .configuring h.1 (by simp) (by simp))]
      exact h
  | findBuild =>
      obtain ⟨hstatus, hfinal⟩ := h
      simp only [runBuildStatus, hcall, hbuild, if_true]
      split
      · rename_i hcompleted
        exact ⟨hstatus, hcompleted, hfinal⟩
      · rename_i hcompleted
        unfold monitoredStatus at hfinal
        rw [if_neg hcompleted] at hfinal
        split
        · rename_i hcancelled
          rw [if_pos hcancelled] at hfinal
          exact hfinal.symm
        · rename_i hcancelled
          rw [if_neg hcancelled] at hfinal
          split
          · rename_i hfailed
            rw [if_pos hfailed] at hfinal
            exact hfinal.symm
          · rename_i hfailed
            rw [if_neg hfailed] at hfinal
            exact hfinal
  | checkDeploying =>
      obtain ⟨hstatus, hcompleted, hfinal⟩ := h
      simp only [runBuildStatus]
      split
      · rename_i hdeploying
        rw [hdeploying] at hfinal
        exact ⟨hcompleted, hdeploying, hfinal⟩
      · rename_i hdeploying
        rw [monitoredStatus, if_pos hcompleted, if_neg hdeploying] at hfinal
        exact hfinal.symm
  | deploy =>
      simp only [runBuildStatus, hcall, hdc]
      exact h
  | deploymentName name => exact h
  | deploying => exact (hwrite _ _ rfl).trans (Eq.symm h)
  | deployLatest =>
      simp only [runBuildStatus, hcall, if_true]
      exact h
  | findDeployment =>
      obtain ⟨hcompleted, hdeploying, hfinal⟩ := h
      rw [monitoredStatus, if_pos hcompleted, if_pos rfl] at hfinal
      simp only [runBuildStatus, hcall, hdc]
      split
      · rename_i hready
        rw [if_pos hready] at hfinal
        exact hfinal.symm
      · rename_i hready
        rw [if_neg hready] at hfinal
        split
        · rename_i hprogressing
          rw [if_pos hprogressing] at hfinal
          exact hdeploying.trans hfinal
        · rename_i hprogressing
          rw [if_neg hprogressing] at hfinal
          exact hfinal.symm
  | connect =>
      simp only [runBuildStatus, hcall, if_true]
      exact h
  | running => exact (hwrite _ _ rfl).trans (Eq.symm h)
  | notProgressing dc => exact (hwrite _ _ rfl).trans (Eq.symm h)
  | notReady dc requeue =>
      simp only [runBuildStatus]
      have hstatus := (hkeep { statusMessage := some (notReadyMessage dc) } rfl).trans h
      split <;> exact hstatus
  | buildCancelled build => exact (hwrite _ _ rfl).trans (Eq.symm h)
  | buildFailed build => exact (hwrite _ _ rfl).trans (Eq.symm h)
  | resubmit => exact h
  | finish => exact h
  | done => exact h
  | deleting p => exact h.elim
  | removeSyndesisConnection => exact h.elim
  | configureBuild => exact h.elim
  | executeConfigure => exact h.elim

namespace Lifecycle

/-- A pass ends in the status its first point leads to. -/
theorem status_of_pass {runner work : Nat} {s t : Lifecycle} {tr : List (MonitorPc × Answer)}
    {build : Build} {dc : DeploymentConfig} {final : Status} (hpass : Pass runner s tr t)
    (hshows : ∀ x ∈ tr, x.2.Shows build dc) {pc : MonitorPc} (hmonitor : s.monitor = some (runner, pc))
    (hruns : s.shared.RunsAt runner work) (h : pc.Leads build dc final (s.status work)) :
    t.status work = final := by
  induction hpass generalizing pc with
  | done hdone =>
      rw [hmonitor] at hdone
      cases hdone
      exact h
  | @step s m t pc' answer tr hm hpc hnext hrest ih =>
      rw [hmonitor] at hm
      cases hm
      rw [List.forall_mem_cons] at hshows
      rw [monitorStep_eq hmonitor hpc, hruns.runnerWork_eq] at hnext
      cases hnext
      exact ih hshows.2 rfl (hruns.apply _) (runBuildStatus_leads hruns.work_lt hshows.1 h)

/-- After one pass a job that was building or deploying has the status read on demand from the same
objects exactly if the outcomes of its build and of the build listed first agree. -/
theorem status_agrees_iff {trace : List (Lifecycle × Label)} {s t : Lifecycle} {runner : Nat}
    {tr : List (MonitorPc × Answer)} {openShiftName : String} {view : ServiceView}
    {build first : Build} {rest : List Build} {dc : DeploymentConfig}
    (hrun : system.Run initial trace s) (hstart : s.monitor = some (runner, .start))
    (hbuilds : view.builds = first :: rest) (hdc : view.deploymentConfig = some dc)
    (hstatus : (s.status (s.shared.runnerWork runner) = .building ∧
        build.phase.isCompleted = false) ∨
      s.status (s.shared.runnerWork runner) = .deploying)
    (hpass : Pass runner s tr t) (hshows : ∀ x ∈ tr, x.2.Shows build dc) :
    t.status (s.shared.runnerWork runner) = (getVDBService openShiftName view).status ↔
      Agree (s.status (s.shared.runnerWork runner)) build.phase.outcome first.phase.outcome dc := by
  have hfinal : t.status (s.shared.runnerWork runner) =
      monitoredStatus (s.status (s.shared.runnerWork runner)) build dc :=
    status_of_pass hpass hshows hstart ((valid_of_run hrun).runsAt hstart)
      ⟨hstatus.imp And.left id, rfl⟩
  rw [hfinal]
  exact monitoredStatus_eq_iff hbuilds hdc hstatus

/-- The answers of a pass of twelve steps that sees one build and a deployment config. -/
def showing (phase : BuildPhase) : List Answer :=
  List.replicate 12
    { build := some { name := "v-2", phase := phase }, deploymentConfig := some { name := "dv-v" } }

/-- A pass takes its answers from those that are given. -/
theorem answer_mem_of_mem_passOf {answers : List Answer} {s : Lifecycle} {x : MonitorPc × Answer}
    (h : x ∈ (passOf s answers).1) : x.2 ∈ answers := by
  induction answers generalizing s with
  | nil => cases h
  | cons answer answers ih =>
      unfold passOf at h
      split at h
      · rcases List.mem_cons.mp h with rfl | hrest
        · exact List.mem_cons_self
        · exact List.mem_cons_of_mem _ (ih hrest)
      · cases h

/-- Each call of the pass is answered with the same objects. -/
theorem shows_of_mem {phase : BuildPhase} {s : Lifecycle} {x : MonitorPc × Answer}
    (h : x ∈ (passOf s (showing phase)).1) :
    x.2.Shows { name := "v-2", phase := phase } { name := "dv-v" } := by
  rw [List.eq_of_mem_replicate (answer_mem_of_mem_passOf h)]
  exact ⟨rfl, rfl, rfl⟩

/-- The job of a build that has failed, and is listed after another one that has failed. -/
theorem status_agrees_iff_failed :
    (passOf (System.after next initial buildingTaken) (showing .failed)).2.status 1 =
      (getVDBService "dv-v"
        { builds := [{ name := "v-1", phase := .error }, { name := "v-2", phase := .failed }]
          deploymentConfig := some { name := "dv-v" } }).status :=
  (status_agrees_iff (System.run_after (· = initial) next initial buildingTaken) rfl rfl rfl
    (.inl ⟨by decide, rfl⟩) (@pass_passOf 0 _ (showing .failed) rfl (by decide))
    fun _ hx => shows_of_mem hx).mpr (by decide)

/-- The API lists an old failed build before the one that is monitored. -/
theorem listed_first_disagrees :
    ¬ ∀ (trace : List (Lifecycle × Label)) (s t : Lifecycle) (runner : Nat)
      (tr : List (MonitorPc × Answer)) (openShiftName : String) (view : ServiceView)
      (build : Build) (dc : DeploymentConfig) (created : Build → Nat),
      system.Run initial trace s → s.monitor = some (runner, .start) → build ∈ view.builds →
      (∀ other ∈ view.builds, created other ≤ created build) → view.deploymentConfig = some dc →
      ((s.status (s.shared.runnerWork runner) = .building ∧ build.phase.isCompleted = false) ∨
        s.status (s.shared.runnerWork runner) = .deploying) →
      Pass runner s tr t → (∀ x ∈ tr, x.2.Shows build dc) →
      t.status (s.shared.runnerWork runner) = (getVDBService openShiftName view).status := by
  intro h
  have hstatus := h _ _ _ 0 _ "dv-v"
    { builds := [{ name := "v-1", phase := .failed }, { name := "v-2", phase := .running }]
      deploymentConfig := some { name := "dv-v" } }
    { name := "v-2", phase := .running } { name := "dv-v" }
    (fun build => if build.name = "v-2" then 1 else 0)
    (System.run_after (· = initial) next initial buildingTaken) rfl (by decide) (by decide) rfl
    (.inl ⟨by decide, rfl⟩) (@pass_passOf 0 _ (showing .running) rfl (by decide))
    fun _ hx => shows_of_mem hx
  exact absurd hstatus (by decide)

end Lifecycle

end TeiidSyndesis.OpenShift
