/-
# TeiidSyndesis.OpenShift.DeletionRetry — what becomes of a deletion that has failed.

Each catch clause of `deleteVDBServiceResources` writes `DELETE_REQUEUE`, on which the monitor deletes
again.  The last statement of the method writes `DELETE_DONE` over it, on which the monitor removes the
Syndesis connection and lets the job go.  So a deletion is retried for no pattern of failures; the
branch of the monitor that would retry it is there, and does.

Main results:
* `deleteVDBServiceResources_status`, `work_of_runTask` — a deletion ends done, whatever has failed;
* `allNamed_of_run` — every status names a virtualization, so a monitored one has a connection to remove;
* `requeue_deletes_again` — a pass over a requeued status deletes again;
* `done_lets_go` — a pass over a finished deletion lets the job go;
* `retried_iff` — so when a deletion is retried.
-/
import TeiidSyndesis.OpenShift.QueuedJobs
import TeiidSyndesis.OpenShift.VirtualizationResources

namespace TeiidSyndesis.OpenShift

open TeiidSyndesis.Library TeiidSyndesis.Model

/-! ## The status a deletion ends with -/

/-- The last statement of the method has the last word. -/
theorem deleteVDBServiceResources_status (openShiftName : String) (calls : Nat → Nat → DeleteCall)
    (cluster : Cluster) (status : BuildStatus) :
    (deleteVDBServiceResources openShiftName calls cluster status).2.status = .deleteDone := rfl

/-- How the blocks end, as the answers to the steps of a delete task.  The last step asks for none. -/
def blockAnswers (calls : Nat → Nat → DeleteCall) : List (List Selector) → List Answer
  | [] => [{}]
  | block :: blocks =>
      { call := if (deleteBlock (calls 0) block []).2 then .kubernetesClientException else .returns } ::
        blockAnswers (fun i => calls (i + 1)) blocks

/-- A task from a point on, with no other thread in between, up to its end or the last answer. -/
def runTask (job : Job) : List Answer → TaskPc → Shared → Shared
  | [], _, s => s
  | answer :: answers, pc, s =>
      match job.run pc answer with
      | (action, .running next) => runTask job answers next (action.apply s)
      | (action, _) => action.apply s

/-- Whether a block raises does not depend on the cluster. -/
theorem deleteBlock_raised (calls : Nat → DeleteCall) (selectors : List Selector)
    (cluster cluster' : Cluster) :
    (deleteBlock calls selectors cluster).2 = (deleteBlock calls selectors cluster').2 := by
  induction selectors generalizing calls cluster cluster' with
  | nil => rfl
  | cons selector selectors ih =>
      simp only [deleteBlock]
      split
      · rfl
      · exact ih _ _ _

/-- The delete task of `deleteVirtualization` writes the status `deleteVDBServiceResources` does. -/
theorem work_of_runTask {work : Nat} (openShiftName : String) (calls : Nat → Nat → DeleteCall)
    (blocks : List (List Selector)) {s : Shared} (hwork : work < s.works.length) (cluster : Cluster) :
    (runTask (.delete work openShiftName) (blockAnswers calls blocks) (.deleting blocks) s).work work =
      (deleteAll calls blocks cluster (s.work work)).2.write { status := some .deleteDone } := by
  induction blocks generalizing calls s cluster with
  | nil =>
      show ((Action.write work { status := some .deleteDone }).apply s).work work = _
      rw [Action.work_write, if_pos ⟨rfl, hwork⟩]
      rfl
  | cons block blocks ih =>
      have hraised := deleteBlock_raised (calls 0) block [] cluster
      simp only [blockAnswers, runTask, Job.run, deleteTask, deleteAll]
      rw [← hraised]
      cases (deleteBlock (calls 0) block []).2 with
      | false => exact ih _ hwork _
      | true =>
          have hlt : work < ((Action.write work { status := some .deleteRequeue }).apply s).works.length :=
            Nat.lt_of_lt_of_le hwork (Action.apply_works_length_le _ _)
          have hwritten := Action.work_write s work work { status := some .deleteRequeue }
          rw [if_pos ⟨rfl, hwork⟩] at hwritten
          simp only [if_true]
          rw [ih _ hlt _, hwritten]

/-! ## Every status names its virtualization -/

/-- The virtualization of a status, under whose name the deletion is submitted again. -/
def BuildStatus.Named (status : BuildStatus) : Prop :=
  ∃ virtualization, status.dataVirtualizationName = some virtualization ∧
    status.openShiftName = getOpenShiftName virtualization

/-- A status read from OpenShift has the name that was looked up. -/
theorem getVDBService_openShiftName (openShiftName : String) (view : ServiceView) :
    (getVDBService openShiftName view).openShiftName = openShiftName := by
  unfold getVDBService completedBuildStatus
  repeat' split
  all_goals rfl

/-- A status read from OpenShift names its virtualization. -/
theorem serviceStatus_named (virtualization : String) (answer : Answer) :
    (serviceStatus virtualization answer).Named := by
  refine ⟨virtualization, ?_, ?_⟩
  · unfold serviceStatus
    dsimp only
    split <;> split <;> rfl
  · unfold serviceStatus
    dsimp only
    split <;> split <;> first | rfl | exact getVDBService_openShiftName _ _

/-- The status of a request names its virtualization. -/
theorem getVirtualizationStatus_named {virtualization : String} {s : Shared} {pc : StatusPc}
    {answer : Answer} {b : BuildStatus}
    (h : (getVirtualizationStatus virtualization s pc answer).1 = .allocate b) : b.Named := by
  rcases getVirtualizationStatus_acts virtualization s pc answer with hskip | hallocate
  · rw [hskip] at h
    cases h
  · rw [hallocate] at h
    cases h
    exact serviceStatus_named virtualization answer

/-- A delete request creates objects that name their virtualization. -/
theorem deleteVirtualization_named {virtualization : String} {s : Shared} {pc : DeletePc}
    {answer : Answer} {b : BuildStatus}
    (h : (deleteVirtualization virtualization s pc answer).1 = .allocate b) : b.Named := by
  cases pc with
  | status p =>
      simp only [deleteVirtualization] at h
      split at h <;> exact getVirtualizationStatus_named h
  | findActive | findQueued | checkUsed => simp only [deleteVirtualization] at h; split at h <;> cases h
  | _ => cases h

/-- A publish request creates objects that name their virtualization. -/
theorem publishVirtualization_named {virtualization : String} {s : Shared} {pc : PublishPc}
    {answer : Answer} {b : BuildStatus}
    (h : (publishVirtualization virtualization s pc answer).1 = .allocate b) : b.Named := by
  cases pc with
  | status p =>
      simp only [publishVirtualization] at h
      split at h <;> exact getVirtualizationStatus_named h
  | addToQueue =>
      cases h
      exact ⟨virtualization, rfl, rfl⟩
  | _ => cases h

namespace Lifecycle

/-- Whichever thread creates an object, it names its virtualization. -/
theorem act_allocates_named {s : Lifecycle} {label : Label} {b : BuildStatus}
    (h : act s label = .allocate b) : b.Named := by
  cases label with
  | publish v => cases h
  | delete v => cases h
  | request thread answer =>
      cases hrequest : s.requests[thread]? with
      | none =>
          simp only [act, hrequest] at h
          cases h
      | some request =>
          rw [act_request hrequest] at h
          cases request with
          | publish v pc => exact publishVirtualization_named h
          | delete v pc => exact deleteVirtualization_named h
  | monitor answer =>
      cases hmonitor : s.monitor with
      | none =>
          simp only [act, hmonitor] at h
          cases h
      | some monitor =>
          obtain ⟨runner, pc⟩ := monitor
          rw [act_monitor hmonitor] at h
          -- of the monitor's points only those inside a deletion allocate
          cases pc with
          | deleting p =>
              simp only [runBuildStatus] at h
              split at h
              · split at h <;> exact deleteVirtualization_named h
              · exact deleteVirtualization_named h
          | findBuild | findDeployment =>
              simp only [runBuildStatus] at h
              repeat' split at h
              all_goals cases h
          | _ => cases h
  | task index answer =>
      cases hget : s.shared.tasks[index]? with
      | none =>
          simp only [act, hget] at h
          cases h
      | some task =>
          obtain ⟨job, phase⟩ := task
          cases phase with
          | running pc =>
              rw [act_task hget rfl] at h
              have hacts := job_acts job pc answer
              rw [h] at hacts
              cases hacts
          | _ =>
              simp only [act, hget] at h
              cases h

/-- Every `BuildStatus` names its virtualization. -/
def AllNamed (s : Lifecycle) : Prop := ∀ ref < s.shared.works.length, (s.shared.work ref).Named

/-- A step keeps every name. -/
theorem allNamed_step {s t : Lifecycle} {label : Label} (hs : AllNamed s)
    (hnext : next s label = some t) : AllNamed t := by
  have h := moved_of_next hnext
  intro ref href
  rw [Shared.work_congr (works_of_moved h) ref]
  rw [works_of_moved h] at href
  cases hact : act s label with
  | allocate b =>
      rw [Action.work_allocate]
      split
      · exact act_allocates_named hact
      · rename_i hne
        rw [hact] at href
        have hlt : ref < s.shared.works.length := by
          simp only [Action.apply, List.length_append, List.length_singleton] at href
          omega
        exact hs ref hlt
  | write work fields =>
      have hlt : ref < s.shared.works.length := by simpa [hact, Action.apply] using href
      rw [Action.work_write]
      split
      · exact hs ref hlt
      · exact hs ref hlt
  | _ =>
      rw [hact] at href
      exact hs ref href

/-- Every object names its virtualization, in any state that is reached. -/
theorem allNamed_of_run {s : Lifecycle} {tr : List (Lifecycle × Label)}
    (hrun : system.Run initial tr s) : AllNamed s := by
  have hinit : ∀ s, system.init s → AllNamed s := by
    rintro s rfl ref href
    cases href
  exact hrun.invariant_of_all hinit (fun _ _ _ hs hnext => allNamed_step hs hnext) rfl

/-! ## The pass over a deletion that is requeued -/

end Lifecycle

/-- The delete task is submitted. -/
def MonitorPc.submitsDelete (pc : MonitorPc) (_answer : Answer) : Bool :=
  match pc with
  | .deleting (.submit _ _) => true
  | _ => false

/-- The points of a pass that deletes again. -/
def requeuePoints (work : Nat) : List MonitorPc :=
  [ .start, .sleep, .checkDeleteSubmitted, .checkDeleteRequeue, .deleting .findActive,
    .deleting (.checkFound work false), .deleting (.checkUsed work false),
    .deleting (.submit work false), .deleting (.write work false), .resubmit, .finish ]

namespace Lifecycle

/-- A pass that is not over takes its next step. -/
theorem Pass.next {runner : Nat} {s u : Lifecycle} {tr : List (MonitorPc × Answer)} {pc : MonitorPc}
    (hpass : Pass runner s tr u) (hmonitor : s.monitor = some (runner, pc)) (hpc : pc ≠ .done) :
    ∃ answer tr', tr = (pc, answer) :: tr' ∧
      Pass runner
        { s with
          shared :=
            (runBuildStatus runner (s.shared.runnerWork runner) s.shared pc answer).1.apply s.shared
          monitor :=
            some (runner,
              (runBuildStatus runner (s.shared.runnerWork runner) s.shared pc answer).2) }
        tr' u := by
  cases hpass with
  | done hdone =>
      rw [hmonitor] at hdone
      cases hdone
      exact absurd rfl hpc
  | @step _ t _ pc' answer tr' hm hpc' hnext hrest =>
      rw [hmonitor] at hm
      cases hm
      rw [monitorStep_eq hmonitor hpc] at hnext
      cases hnext
      exact ⟨answer, tr', rfl, hrest⟩

/-- A point that does nothing leads to the next. -/
theorem Pass.skip {runner : Nat} {s u : Lifecycle} {tr : List (MonitorPc × Answer)}
    {pc : MonitorPc} (hpass : Pass runner s tr u) (next : MonitorPc)
    (hmonitor : s.monitor = some (runner, pc)) (hpc : pc ≠ .done)
    (hskip : ∀ answer, runBuildStatus runner (s.shared.runnerWork runner) s.shared pc answer =
      (.skip, next)) :
    ∃ answer tr', tr = (pc, answer) :: tr' ∧
      Pass runner { s with monitor := some (runner, next) } tr' u := by
  obtain ⟨answer, tr', rfl, hrest⟩ := hpass.next hmonitor hpc
  rw [hskip answer] at hrest
  exact ⟨answer, tr', rfl, hrest⟩

/-- A pass that is not interrupted registers its job, sleeps, and then looks at the status. -/
theorem Pass.awake {runner : Nat} {s t : Lifecycle} {tr : List (MonitorPc × Answer)}
    (hpass : Pass runner s tr t) (hstart : s.monitor = some (runner, .start))
    (hraise : ¬ Took MonitorPc.raises tr) :
    ∃ a₀ a₁ tr', tr = (.start, a₀) :: (.sleep, a₁) :: tr' ∧ ¬ Took MonitorPc.raises tr' ∧
      Pass runner
        { s with
          shared :=
            (Action.putActive (s.runnerName runner) (s.shared.runnerWork runner)).apply s.shared
          monitor := some (runner, .checkDeleteSubmitted) } tr' t := by
  obtain ⟨a₀, tr₀, rfl, h₀⟩ := hpass.next hstart (by simp)
  have hsleep : (runBuildStatus runner (s.shared.runnerWork runner) s.shared .start a₀).2 = .sleep :=
    rfl
  rw [hsleep] at h₀
  obtain ⟨a₁, tr₁, rfl, h₁⟩ := h₀.next rfl (by simp)
  have hcall : a₁.call = .returns := by
    by_contra hcall
    exact hraise ((took_head (by simpa [MonitorPc.raises] using hcall) tr₁).cons _)
  simp only [runBuildStatus, hcall, if_true] at h₁
  exact ⟨a₀, a₁, tr₁, rfl, fun h => hraise ((h.cons _).cons _), h₁⟩

/-- What the monitor finds at a job whose deletion is requeued, once it has registered it. -/
structure Requeued (s : Shared) (runner work : Nat) (virtualization : String) : Prop where
  runner : s.runnerWork runner = work
  status : s.status work = .deleteRequeue
  unused : (s.work work).usedBy = []
  named : (s.work work).dataVirtualizationName = some virtualization
  /-- the job is still registered -/
  active : s.activeJobs.lookup (getOpenShiftName virtualization) = some work

/-- The points of a pass over a requeued status, once it is awake. -/
theorem points_of_requeued {s t : Lifecycle} {runner work : Nat} {virtualization : String}
    {tr : List (MonitorPc × Answer)} (hs : Requeued s.shared runner work virtualization)
    (hmonitor : s.monitor = some (runner, .checkDeleteSubmitted)) (hpass : Pass runner s tr t) :
    tr.map Prod.fst = (requeuePoints work).drop 2 := by
  obtain ⟨hwork, hstatus, hused, hdv, hactive⟩ := hs
  -- the status leads to the deletion, which finds the job, unused
  obtain ⟨a₂, tr₂, rfl, h₂⟩ := hpass.skip .checkDeleteRequeue hmonitor (by simp)
    (by simp [runBuildStatus, hwork, hstatus])
  obtain ⟨a₃, tr₃, rfl, h₃⟩ := h₂.skip (.deleting .findActive) rfl (by simp)
    (by simp [runBuildStatus, hwork, hstatus])
  obtain ⟨a₄, tr₄, rfl, h₄⟩ := h₃.skip (.deleting (.checkFound work false)) rfl (by simp)
    (by simp [runBuildStatus, deleteVirtualization, hwork, hdv, hactive])
  obtain ⟨a₅, tr₅, rfl, h₅⟩ := h₄.skip (.deleting (.checkUsed work false)) rfl (by simp)
    (by simp [runBuildStatus, deleteVirtualization, hstatus])
  obtain ⟨a₆, tr₆, rfl, h₆⟩ := h₅.skip (.deleting (.submit work false)) rfl (by simp)
    (by simp [runBuildStatus, deleteVirtualization, hused])
  obtain ⟨a₇, tr₇, rfl, h₇⟩ := h₆.next rfl (by simp)
  obtain ⟨a₈, tr₈, rfl, h₈⟩ := h₇.next rfl (by simp [runBuildStatus, deleteVirtualization])
  obtain ⟨a₉, tr₉, rfl, h₉⟩ := h₈.next rfl (by simp [runBuildStatus, deleteVirtualization])
  obtain ⟨a₁₀, tr₁₀, rfl, h₁₀⟩ := h₉.next rfl (by simp [runBuildStatus, deleteVirtualization])
  cases h₁₀ with
  | done => rfl
  | step hm hpc =>
      cases hm
      exact absurd rfl hpc

/-- The monitor deletes again where it finds `DELETE_REQUEUE`, and stays with the job. -/
theorem points_of_requeue {trace : List (Lifecycle × Label)} {s t : Lifecycle} {runner : Nat}
    {tr : List (MonitorPc × Answer)} (hrun : system.Run initial trace s)
    (hstart : s.monitor = some (runner, .start))
    (hstatus : s.status (s.shared.runnerWork runner) = .deleteRequeue) (hpass : Pass runner s tr t)
    (hraise : ¬ Took MonitorPc.raises tr) :
    tr.map Prod.fst = requeuePoints (s.shared.runnerWork runner) := by
  have hvalid := valid_of_run hrun
  have hrunner := hvalid.monitor runner _ hstart
  have hlt := hvalid.shared.runnerWork_lt hrunner
  obtain ⟨v, hdv, hname⟩ := allNamed_of_run hrun _ hlt
  have hused : (s.shared.work (s.shared.runnerWork runner)).usedBy = [] := by
    have hmem : s.shared.runnerWork runner ∈ s.shared.runners := by
      unfold Shared.runnerWork
      rw [List.getD_eq_getElem _ _ hrunner]
      exact List.getElem_mem hrunner
    exact ((unused_of_run hrun).runners _ hmem).2
  obtain ⟨a₀, a₁, tr', rfl, _, hawake⟩ := hpass.awake hstart hraise
  -- the job is registered, so the deletion finds it
  have hrequeued : Requeued
      ((Action.putActive (s.runnerName runner) (s.shared.runnerWork runner)).apply s.shared)
      runner (s.shared.runnerWork runner) v := by
    refine ⟨rfl, hstatus, hused, hdv, ?_⟩
    unfold runnerName
    rw [← hname]
    exact List.lookup_cons_self
  rw [List.map_cons, List.map_cons, points_of_requeued hrequeued rfl hawake]
  rfl

/-- A pass that has been at a point has taken its call. -/
theorem took_of_points {kind : MonitorPc → Answer → Bool} {tr : List (MonitorPc × Answer)}
    {points : List MonitorPc} (hpoints : tr.map Prod.fst = points) (pc : MonitorPc)
    (hmem : pc ∈ points) (hkind : ∀ answer, kind pc answer = true) : Took kind tr := by
  rw [← hpoints] at hmem
  obtain ⟨⟨_, answer⟩, hx, rfl⟩ := List.mem_map.mp hmem
  exact ⟨_, hx, hkind answer⟩

/-- A pass takes no call at points it does not pass. -/
theorem not_took_of_points {kind : MonitorPc → Answer → Bool} {tr : List (MonitorPc × Answer)}
    {points : List MonitorPc} (hpoints : tr.map Prod.fst = points)
    (hkind : ∀ pc ∈ points, ∀ answer, kind pc answer = false) : ¬ Took kind tr := by
  rintro ⟨⟨pc, answer⟩, hx, htaken⟩
  have hmem : pc ∈ points := hpoints ▸ List.mem_map_of_mem hx
  rw [hkind pc hmem answer] at htaken
  cases htaken

/-- The branch for `DELETE_REQUEUE` submits the deletion again and keeps the Syndesis connection. -/
theorem requeue_deletes_again {trace : List (Lifecycle × Label)} {s t : Lifecycle} {runner : Nat}
    {tr : List (MonitorPc × Answer)} (hrun : system.Run initial trace s)
    (hstart : s.monitor = some (runner, .start))
    (hstatus : s.status (s.shared.runnerWork runner) = .deleteRequeue) (hpass : Pass runner s tr t)
    (hraise : ¬ Took MonitorPc.raises tr) :
    Took MonitorPc.submitsDelete tr ∧ Took MonitorPc.resubmits tr ∧ ¬ Took MonitorPc.removes tr := by
  have hpoints := points_of_requeue hrun hstart hstatus hpass hraise
  refine ⟨?_, ?_, ?_⟩
  · exact took_of_points hpoints (.deleting (.submit (s.shared.runnerWork runner) false))
      (by simp [requeuePoints]) (fun _ => rfl)
  · exact took_of_points hpoints .resubmit (by simp [requeuePoints]) (fun _ => rfl)
  · refine not_took_of_points hpoints ?_
    intro pc hpc answer
    simp only [requeuePoints, List.mem_cons, List.not_mem_nil, or_false] at hpc
    rcases hpc with rfl | rfl | rfl | rfl | rfl | rfl | rfl | rfl | rfl | rfl | rfl <;> rfl

/-- A pass over a finished deletion removes the connection, unless a call raises. -/
theorem removes_of_done {s t : Lifecycle} {runner : Nat} {tr : List (MonitorPc × Answer)}
    (hpass : Pass runner s tr t) (hmonitor : s.monitor = some (runner, .checkDeleteSubmitted))
    (hstatus : s.shared.status (s.shared.runnerWork runner) = .deleteDone)
    (hraise : ¬ Took MonitorPc.raises tr) :
    Took MonitorPc.removes tr ∧ ¬ Took MonitorPc.submitsDelete tr := by
  -- the status is neither of those that keep the job
  obtain ⟨a₂, tr₂, rfl, h₂⟩ := hpass.skip .checkDeleteRequeue hmonitor (by simp)
    (by simp [runBuildStatus, hstatus])
  obtain ⟨a₃, tr₃, rfl, h₃⟩ := h₂.skip .checkDeleteDone rfl (by simp)
    (by simp [runBuildStatus, hstatus])
  obtain ⟨a₄, tr₄, rfl, h₄⟩ := h₃.skip .removeSyndesisConnection rfl (by simp)
    (by simp [runBuildStatus, hstatus])
  obtain ⟨a₅, tr₅, rfl, h₅⟩ := h₄.skip .finish rfl (by simp) (fun _ => rfl)
  obtain ⟨a₆, tr₆, rfl, h₆⟩ := h₅.next rfl (by simp)
  have hcall : a₅.call = .returns := by
    by_contra hcall
    have hhead : MonitorPc.raises .removeSyndesisConnection a₅ = true := by
      simpa [MonitorPc.raises] using hcall
    exact hraise ((((took_head hhead _).cons _).cons _).cons _)
  have hend : tr₆ = [] := by
    cases h₆ with
    | done => rfl
    | step hm hpc =>
        cases hm
        exact absurd rfl hpc
  subst hend
  constructor
  · have hhead : MonitorPc.removes .removeSyndesisConnection a₅ = true := by
      simp [MonitorPc.removes, hcall]
    exact (((took_head hhead _).cons _).cons _).cons _
  · simp [Took, MonitorPc.submitsDelete]

/-- The branch for `DELETE_DONE` removes the Syndesis connection and does not delete again. -/
theorem done_lets_go {s t : Lifecycle} {runner : Nat} {tr : List (MonitorPc × Answer)}
    (hstart : s.monitor = some (runner, .start))
    (hstatus : s.status (s.shared.runnerWork runner) = .deleteDone) (hpass : Pass runner s tr t)
    (hraise : ¬ Took MonitorPc.raises tr) :
    Took MonitorPc.removes tr ∧ ¬ Took MonitorPc.submitsDelete tr := by
  obtain ⟨a₀, a₁, tr', rfl, hraise', hawake⟩ := hpass.awake hstart hraise
  obtain ⟨hremoves, hsubmits⟩ := removes_of_done hawake rfl hstatus hraise'
  refine ⟨(hremoves.cons _).cons _, ?_⟩
  rintro ⟨x, hx, hkind⟩
  rcases List.mem_cons.mp hx with rfl | hx
  · cases hkind
  rcases List.mem_cons.mp hx with rfl | hx
  · cases hkind
  · exact hsubmits ⟨x, hx, hkind⟩

/-- So it is after every deletion, whichever of its calls have failed. -/
theorem deletion_not_repeated {openShiftName : String} {calls : Nat → Nat → DeleteCall}
    {cluster : Cluster} {status : BuildStatus} {s t : Lifecycle} {runner : Nat}
    {tr : List (MonitorPc × Answer)} (hstart : s.monitor = some (runner, .start))
    (hwork : s.shared.work (s.shared.runnerWork runner) =
      (deleteVDBServiceResources openShiftName calls cluster status).2)
    (hpass : Pass runner s tr t) (hraise : ¬ Took MonitorPc.raises tr) :
    Took MonitorPc.removes tr ∧ ¬ Took MonitorPc.submitsDelete tr :=
  done_lets_go hstart (congrArg BuildStatus.status hwork) hpass hraise

/-! ## When a deletion is retried -/

/-- The deletion tells by its status whether a call has failed.  A monitor that finds this status
deletes again where one has, and removes the Syndesis connection only where nothing is left. -/
structure Retried (openShiftName : String) (calls : Nat → Nat → DeleteCall) (cluster : Cluster)
    (status : BuildStatus) : Prop where
  done : ¬ Raises calls (deleteBlocks openShiftName) →
    (deleteVDBServiceResources openShiftName calls cluster status).2.status = .deleteDone
  requeue : Raises calls (deleteBlocks openShiftName) →
    (deleteVDBServiceResources openShiftName calls cluster status).2.status = .deleteRequeue
  /-- the next pass over the job calls for the deletion once more -/
  deletedAgain : Raises calls (deleteBlocks openShiftName) →
    ∀ trace s t runner tr, system.Run initial trace s → s.monitor = some (runner, .start) →
      s.shared.work (s.shared.runnerWork runner) =
        (deleteVDBServiceResources openShiftName calls cluster status).2 →
      Pass runner s tr t → ¬ Took MonitorPc.raises tr → Took MonitorPc.submitsDelete tr
  /-- the connection is removed only where nothing of the virtualization is left -/
  connection : ∀ trace s t runner tr, system.Run initial trace s →
    s.monitor = some (runner, .start) →
      s.shared.work (s.shared.runnerWork runner) =
        (deleteVDBServiceResources openShiftName calls cluster status).2 →
      Pass runner s tr t → Took MonitorPc.removes tr →
        ∀ r ∈ (deleteVDBServiceResources openShiftName calls cluster status).1,
          ¬ CreatedFor openShiftName r

/-- A deletion is retried where it fails exactly if it does not fail. -/
theorem retried_iff (openShiftName : String) (calls : Nat → Nat → DeleteCall) (cluster : Cluster)
    (status : BuildStatus) :
    Retried openShiftName calls cluster status ↔ ¬ Raises calls (deleteBlocks openShiftName) := by
  constructor
  · intro h hraises
    -- the last statement has overwritten what the catch clause wrote
    have hrequeue := h.requeue hraises
    rw [deleteVDBServiceResources_status] at hrequeue
    cases hrequeue
  · intro hcalls
    constructor
    · exact fun _ => deleteVDBServiceResources_status _ _ _ _
    · exact fun hraises => absurd hraises hcalls
    · exact fun hraises => absurd hraises hcalls
    · exact fun _ _ _ _ _ _ _ _ _ _ r hr => not_createdFor_of_left hcalls hr

/-- The deletion of the pods fails, and nothing else. -/
def podsFail (block _call : Nat) : DeleteCall :=
  if block = 2 then .kubernetesClientException [] else .returns

/-- The pod is left, the status is `DELETE_DONE`. -/
theorem failed_deletion_done :
    Cluster.inherited .pod "dv-1-build" "dv-dv" ∈
        (deleteVDBServiceResources "dv-dv" podsFail (publishedTwice.foldl Creation.apply [])
          { openShiftName := "dv-dv" }).1 ∧
      ¬ Retried "dv-dv" podsFail (publishedTwice.foldl Creation.apply [])
        { openShiftName := "dv-dv" } := by
  constructor
  · decide
  · intro h
    have hraises : Raises podsFail (deleteBlocks "dv-dv") := ⟨2, by decide, 0, by decide, by decide⟩
    have hrequeue := h.requeue hraises
    rw [deleteVDBServiceResources_status] at hrequeue
    cases hrequeue

end Lifecycle

end TeiidSyndesis.OpenShift
