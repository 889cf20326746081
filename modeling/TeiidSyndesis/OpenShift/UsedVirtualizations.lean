/-
# TeiidSyndesis.OpenShift.UsedVirtualizations — what keeps a used virtualization from being unpublished.

`deleteVirtualization` reads the users from the status it has found.  A monitored job never has any: it
was created by a publish, which does not look for users, or by an unpublish that had found none.  A
status computed from OpenShift has them filled in for `RUNNING` only.  So the guard holds for a running
virtualization that is not monitored, and for no other.

Main results:
* `spares_found`, `spares_service` — the end of a call, with a monitored job and with a status read from
  OpenShift;
* `getVDBService_spared_iff` — which statuses a request spares;
* `unused_step`, `unused_of_run` — the invariant: no monitored job has users;
* `delete_spares_iff` — so exactly when a call spares a virtualization that is used;
* `used_is_deleted` — a used one that is not.
-/
import TeiidSyndesis.OpenShift.Integrations
import TeiidSyndesis.OpenShift.MonitoredJobs
import TeiidSyndesis.OpenShift.MonitorPass

namespace TeiidSyndesis.OpenShift

open TeiidSyndesis.Library TeiidSyndesis.Model TeiidSyndesis.Repository

/-! ## A call followed to its end -/

/-- What a call has done: the status it returns, if it returns, and the objects it leaves. -/
structure Deleted where
  returned : Option Nat
  shared : Shared
  deriving DecidableEq, Repr

/-- `deleteVirtualization` from a point on, with no other thread in between; `none` if the steps do not
suffice. -/
def deleteFrom (virtualization : String) (answer : Answer) :
    Nat → DeletePc → Shared → Option Deleted
  | 0, _, _ => none
  | steps + 1, pc, s =>
      let (action, next) := deleteVirtualization virtualization s pc answer
      match next with
      | .done => some { returned := pc.work, shared := action.apply s }
      | next => deleteFrom virtualization answer steps next (action.apply s)

/-- A call that no one interferes with, each of its requests answered alike. -/
def deleteAlone (virtualization : String) (answer : Answer) (s : Shared) : Option Deleted :=
  deleteFrom virtualization answer (DeletePc.rank .findActive) .findActive s

/-- No delete task is submitted, and the status that is returned is not that of a deletion. -/
def Deleted.Spares (d : Deleted) (s : Shared) : Prop :=
  d.shared.tasks = s.tasks ∧ ∀ work, d.returned = some work → d.shared.status work ≠ .deleteSubmitted

instance (d : Deleted) (s : Shared) : Decidable (d.Spares s) :=
  decidable_of_iff
    (d.shared.tasks = s.tasks ∧ ∀ work ∈ d.returned, d.shared.status work ≠ .deleteSubmitted) Iff.rfl

/-- A call that goes on is followed one step further. -/
theorem deleteFrom_next {virtualization : String} {answer : Answer} {steps : Nat} {pc next : DeletePc}
    {s : Shared} {action : Action}
    (hstep : deleteVirtualization virtualization s pc answer = (action, next)) (hnext : next ≠ .done) :
    deleteFrom virtualization answer (steps + 1) pc s =
      deleteFrom virtualization answer steps next (action.apply s) := by
  simp only [deleteFrom, hstep]

/-- A call that returns has come to its end. -/
theorem deleteFrom_done {virtualization : String} {answer : Answer} {steps : Nat} {pc : DeletePc}
    {s : Shared} {action : Action}
    (hstep : deleteVirtualization virtualization s pc answer = (action, .done)) :
    deleteFrom virtualization answer (steps + 1) pc s =
      some { returned := pc.work, shared := action.apply s } := by
  simp only [deleteFrom, hstep]

/-- With a status at hand, the call spares the virtualization where nothing is found, or users are. -/
theorem spares_found {virtualization : String} {answer : Answer} {steps work : Nat} {queue : Bool}
    {s : Shared} (hwork : work < s.works.length) :
    ∃ d, deleteFrom virtualization answer (steps + 5) (.checkFound work queue) s = some d ∧
      (d.Spares s ↔ s.status work = .notFound ∨ (s.work work).usedBy ≠ []) := by
  by_cases hstatus : s.status work = .notFound
  -- the points are walked one by one: found, in use, submitted
  · have hcheck : deleteVirtualization virtualization s (.checkFound work queue) answer =
        (.skip, .done) := by simp only [deleteVirtualization, if_pos hstatus]
    refine ⟨_, deleteFrom_done hcheck, iff_of_true ⟨rfl, ?_⟩ (.inl hstatus)⟩
    rintro ref href
    cases href
    show s.status work ≠ .deleteSubmitted
    simp [hstatus]
  · have hcheck : deleteVirtualization virtualization s (.checkFound work queue) answer =
        (.skip, .checkUsed work queue) := by simp only [deleteVirtualization, if_neg hstatus]
    rw [deleteFrom_next hcheck (by simp)]
    show ∃ d, deleteFrom virtualization answer (steps + 4) (.checkUsed work queue) s = some d ∧ _
    by_cases hused : (s.work work).usedBy = []
    · have hunused : deleteVirtualization virtualization s (.checkUsed work queue) answer =
          (.skip, .submit work queue) := by simp only [deleteVirtualization, if_pos hused]
      have htasks : ∀ d : Deleted,
          d.shared.tasks = s.tasks ++ [{ job := .delete work (getOpenShiftName virtualization) }] →
          (d.Spares s ↔ s.status work = .notFound ∨ (s.work work).usedBy ≠ []) := by
        intro d hd
        refine iff_of_false ?_ (by simp [hstatus, hused])
        rintro ⟨hsame, _⟩
        rw [hd] at hsame
        simp at hsame
      rw [deleteFrom_next hunused (by simp), deleteFrom_next rfl (by simp)]
      cases queue with
      | false => exact ⟨_, deleteFrom_done rfl, htasks _ rfl⟩
      | true =>
          rw [deleteFrom_next rfl (by simp)]
          exact ⟨_, deleteFrom_done rfl, htasks _ rfl⟩
    · -- the status that is returned has been cancelled
      refine ⟨_, deleteFrom_done (by simp only [deleteVirtualization, if_neg hused]; rfl), ?_⟩
      refine iff_of_true ⟨rfl, ?_⟩ (.inr hused)
      intro ref href
      cases href
      rw [Action.status_of_sets ⟨_, rfl, rfl⟩ hwork]
      simp

/-- A monitored virtualization is found under its name. -/
theorem deleteAlone_of_active {virtualization : String} {answer : Answer} {s : Shared} {work : Nat}
    (hactive : s.activeJobs.lookup (getOpenShiftName virtualization) = some work) :
    deleteAlone virtualization answer s =
      deleteFrom virtualization answer 11 (.checkFound work false) s := by
  have hfind : deleteVirtualization virtualization s .findActive answer =
      (.skip, .checkFound work false) := by simp only [deleteVirtualization, hactive]
  exact deleteFrom_next hfind (by simp)

/-- Without a monitored job the status is read from OpenShift. -/
theorem deleteAlone_of_unmonitored {virtualization : String} {answer : Answer} {s : Shared}
    (hactive : s.activeJobs.lookup (getOpenShiftName virtualization) = none)
    (hqueued : s.queuedWork (getOpenShiftName virtualization) = none) :
    deleteAlone virtualization answer s =
      deleteFrom virtualization answer 8 (.status .service) s := by
  have hfind : deleteVirtualization virtualization s .findActive answer = (.skip, .findQueued) := by
    simp only [deleteVirtualization, hactive]
  have hscan : deleteVirtualization virtualization s .findQueued answer =
      (.skip, .status .active) := by simp only [deleteVirtualization, hqueued]
  have hfind' : deleteVirtualization virtualization s (.status .active) answer =
      (.skip, .status .queued) := by
    simp only [deleteVirtualization, getVirtualizationStatus, hactive]
  have hscan' : deleteVirtualization virtualization s (.status .queued) answer =
      (.skip, .status .service) := by
    simp only [deleteVirtualization, getVirtualizationStatus, hqueued]
  calc deleteAlone virtualization answer s
      = deleteFrom virtualization answer 11 .findQueued s := deleteFrom_next hfind (by simp)
    _ = deleteFrom virtualization answer 10 (.status .active) s := deleteFrom_next hscan (by simp)
    _ = deleteFrom virtualization answer 9 (.status .queued) s := deleteFrom_next hfind' (by simp)
    _ = deleteFrom virtualization answer 8 (.status .service) s := deleteFrom_next hscan' (by simp)

/-! ## The status read from OpenShift -/

/-- OpenShift has no build of the virtualization, and no controller left from an earlier one. -/
def ServiceView.Unpublished (view : ServiceView) : Prop :=
  view.builds = [] ∧ view.replicas.head? ≠ some 0

/-- The build listed first is complete, and its deployment is ready and progressing. -/
def ServiceView.Published (view : ServiceView) : Prop :=
  ∃ build, view.builds.head? = some build ∧ build.phase.isCompleted = true ∧
    ∃ dc, view.deploymentConfig = some dc ∧ isDeploymentInReadyState dc = true ∧
      isDeploymentProgressing dc = true

/-- A completed build is running exactly if its deployment is ready and progressing. -/
theorem completedBuildStatus_running_iff {view : ServiceView} {build : Build} {status : BuildStatus} :
    (completedBuildStatus view build status).status = .running ↔
      ∃ dc, view.deploymentConfig = some dc ∧ isDeploymentInReadyState dc = true ∧
        isDeploymentProgressing dc = true := by
  unfold completedBuildStatus
  cases view.deploymentConfig with
  | none =>
      refine iff_of_false ?_ (by simp)
      dsimp only
      split <;> simp
  | some dc =>
      by_cases hp : isDeploymentProgressing dc <;>
        by_cases hr : isDeploymentInReadyState dc <;> simp [hp, hr]

/-- A completed build is found. -/
theorem completedBuildStatus_ne_notFound (view : ServiceView) (build : Build) (status : BuildStatus) :
    (completedBuildStatus view build status).status ≠ .notFound := by
  unfold completedBuildStatus
  cases view.deploymentConfig with
  | none =>
      dsimp only
      split <;> simp
  | some dc =>
      by_cases hp : isDeploymentProgressing dc <;>
        by_cases hr : isDeploymentInReadyState dc <;> simp [hp, hr]

/-- The status read from OpenShift has no users yet. -/
theorem getVDBService_usedBy (openShiftName : String) (view : ServiceView) :
    (getVDBService openShiftName view).usedBy = [] := by
  unfold getVDBService completedBuildStatus
  repeat' split
  all_goals rfl

/-- It is one of the two statuses that have their users filled in, or are not deleted at all. -/
theorem getVDBService_spared_iff {openShiftName : String} {view : ServiceView} :
    ((getVDBService openShiftName view).status = .notFound ∨
        (getVDBService openShiftName view).status = .running) ↔
      view.Unpublished ∨ view.Published := by
  unfold getVDBService ServiceView.Unpublished ServiceView.Published
  cases hbuilds : view.builds with
  | nil =>
      cases hreplicas : view.replicas with
      | nil => simp
      | cons n rest =>
          by_cases hn : n = 0
          · subst hn
            simp
          · simp [hn]
  | cons build rest =>
      by_cases hc : build.phase.isCompleted = true
      · have hphase : build.phase = .complete := by simpa [BuildPhase.isCompleted] using hc
        simp [hphase, BuildPhase.isCancelled, BuildPhase.isFailed, BuildPhase.isCompleted,
          completedBuildStatus_running_iff, completedBuildStatus_ne_notFound]
      · by_cases hcancelled : build.phase.isCancelled = true
        · simp [hc, hcancelled]
        by_cases hfailed : build.phase.isFailed = true
        · simp [hc, hcancelled, hfailed]
        · simp [hc, hcancelled, hfailed]

/-- The status a lookup makes of what OpenShift answers has the users of a running virtualization. -/
theorem serviceStatus_spared_iff {virtualization : String} {answer : Answer} {usedIn : List String}
    (hanswer : answer.usedIn = some usedIn) (hused : usedIn ≠ []) :
    ((serviceStatus virtualization answer).status = .notFound ∨
        (serviceStatus virtualization answer).usedBy ≠ []) ↔
      answer.call ≠ .returns ∨ answer.service.Unpublished ∨ answer.service.Published := by
  by_cases hcall : answer.call = .returns
  · have hservice := @getVDBService_spared_iff (getOpenShiftName virtualization) answer.service
    have husers := getVDBService_usedBy (getOpenShiftName virtualization) answer.service
    simp only [serviceStatus, hcall, if_true, hanswer, Option.getD_some, ne_eq, not_true, false_or]
    rw [← hservice]
    split
    · rename_i hrunning
      simp [hrunning, hused]
    · rename_i hrunning
      simp [hrunning, husers]
  · simp [serviceStatus, hcall]

/-- A call without a monitored job spares what it reads as running, and what it does not find. -/
theorem spares_service {virtualization : String} {answer : Answer} {s : Shared} {usedIn : List String}
    (hanswer : answer.usedIn = some usedIn) (hused : usedIn ≠ []) :
    ∃ d, deleteFrom virtualization answer 8 (.status .service) s = some d ∧
      (d.Spares s ↔
        answer.call ≠ .returns ∨ answer.service.Unpublished ∨ answer.service.Published) := by
  by_cases hraises : answer.call = .exception ∨ answer.call = .error
  · have hcall : answer.call ≠ .returns := by rcases hraises with h | h <;> simp [h]
    have hservice : deleteVirtualization virtualization s (.status .service) answer =
        (.skip, .done) := by
      simp only [deleteVirtualization, getVirtualizationStatus]
      rcases hraises with h | h <;> simp [h]
    have hreturned : ∀ work : Nat, none = some work → s.status work ≠ .deleteSubmitted :=
      fun work h => absurd h.symm (Option.some_ne_none work)
    exact ⟨_, deleteFrom_done hservice, iff_of_true ⟨rfl, hreturned⟩ (.inl hcall)⟩
  · have hservice : deleteVirtualization virtualization s (.status .service) answer =
        (.allocate (serviceStatus virtualization answer), .checkFound s.works.length true) := by
      rw [not_or] at hraises
      simp [deleteVirtualization, getVirtualizationStatus, hraises, hanswer]
    rw [deleteFrom_next hservice (by simp)]
    have hwork := Action.work_allocate s (serviceStatus virtualization answer) s.works.length
    rw [if_pos rfl] at hwork
    obtain ⟨d, hd, hspares⟩ := @spares_found virtualization answer 2 s.works.length true
      ((Action.allocate (serviceStatus virtualization answer)).apply s) (by simp [Action.apply])
    refine ⟨d, hd, ?_⟩
    rw [← serviceStatus_spared_iff hanswer hused, ← hwork]
    exact hspares

/-! ## Monitored jobs have no users -/

/-- The status is known, and used nowhere. -/
def Shared.Deletable (s : Shared) (work : Nat) : Prop :=
  s.status work ≠ .notFound ∧ (s.work work).usedBy = []

/-- What `deleteVirtualization` has checked at a point. -/
def DeletePc.Checked (pc : DeletePc) (s : Shared) : Prop :=
  match pc with
  | .checkUsed work _ => s.status work ≠ .notFound
  | .submit work _ | .write work _ | .enqueue work => s.Deletable work
  | _ => True

/-- An object with a status that is not the default one has been created. -/
theorem Shared.lt_of_status {s : Shared} {work : Nat} (h : s.status work ≠ .notFound) :
    work < s.works.length := by
  by_contra hge
  apply h
  unfold Shared.status
  rw [Shared.work_of_length_le (by omega)]

/-- A delete request that has gone past the check holds a job without users. -/
theorem deleteVirtualization_checked {virtualization : String} {s : Shared} {pc : DeletePc}
    {answer : Answer} (h : pc.Checked s) :
    (deleteVirtualization virtualization s pc answer).2.Checked s := by
  cases pc with
  | findActive => simp only [deleteVirtualization]; split <;> trivial
  | findQueued => simp only [deleteVirtualization]; split <;> trivial
  | status p => simp only [deleteVirtualization]; split <;> trivial
  | checkFound work queue =>
      simp only [deleteVirtualization]
      split
      · trivial
      · rename_i hstatus
        exact hstatus
  | checkUsed work queue =>
      simp only [deleteVirtualization]
      split
      · rename_i hused
        exact ⟨h, hused⟩
      · trivial
  | submit work queue => exact h
  | write work queue =>
      simp only [deleteVirtualization]
      split
      · exact h
      · trivial
  | enqueue work => trivial
  | done => trivial

/-- A publish enqueues the job it has just created, for which it has not looked for users. -/
theorem publishVirtualization_next_enqueue {virtualization : String} {s : Shared} {pc : PublishPc}
    {answer : Answer} {work : Nat}
    (h : (publishVirtualization virtualization s pc answer).2 = .enqueue work) :
    ((publishVirtualization virtualization s pc answer).1.apply s).Deletable work := by
  cases pc with
  | addToQueue =>
      cases h
      have hnew := Action.work_allocate s
        { openShiftName := getOpenShiftName virtualization
          dataVirtualizationName := some virtualization
          status := .submitted
          statusMessage := some "Submitted build for configuration" } s.works.length
      rw [if_pos rfl] at hnew
      unfold Shared.Deletable Shared.status
      show (Shared.work _ _).status ≠ _ ∧ _
      simp only [publishVirtualization, hnew]
      exact ⟨by simp, trivial⟩
  | status p => simp only [publishVirtualization] at h; split at h <;> cases h
  | check ref => simp only [publishVirtualization] at h; split at h <;> cases h
  | enqueue ref => cases h
  | done => cases h

namespace Lifecycle

/-- No step takes the status of an object back to `NOTFOUND`. -/
theorem found_of_moved {s t : Lifecycle} {label : Label} (h : Moved s label t) {work : Nat}
    (hwork : s.status work ≠ .notFound) : t.status work ≠ .notFound := by
  intro ht
  rcases status_of_moved h work with hsame | hsets | ⟨_, _, hnew, _⟩
  · exact hwork (hsame ▸ ht)
  · rw [ht] at hsets
    rcases act_sets hsets with ⟨_, _, _, hst⟩ | ⟨_, _, hst⟩ | ⟨_, _, _, _, _, _, hst, _⟩ |
      ⟨_, _, _, _, _, _, _, hjob, hset⟩
    · cases hst
    · cases hst
    · simp [Status.OfMonitor] at hst
    · rcases job_sets hjob hset with ⟨_, hst⟩ | ⟨_, _, ⟨hst, _⟩ | ⟨hst, _⟩⟩ <;> simp at hst
  · have hlt := Shared.lt_of_status hwork
    omega

/-- A job without users stays without: no step adds one. -/
theorem deletable_of_moved {s t : Lifecycle} {label : Label} (h : Moved s label t) {work : Nat}
    (hwork : s.shared.Deletable work) : t.shared.Deletable work :=
  ⟨found_of_moved h hwork.1,
    (work_frame_of_moved h (Shared.lt_of_status hwork.1)).2.trans hwork.2⟩

/-- A step leaves true what a delete request has checked. -/
theorem checked_of_moved {s t : Lifecycle} {label : Label} (h : Moved s label t) {pc : DeletePc}
    (hpc : pc.Checked s.shared) : pc.Checked t.shared := by
  cases pc with
  | checkUsed work queue => exact found_of_moved h hpc
  | submit work queue => exact deletable_of_moved h hpc
  | write work queue => exact deletable_of_moved h hpc
  | enqueue work => exact deletable_of_moved h hpc
  | _ => trivial

/-- The queue holds tasks, and whatever is monitored or about to be is used nowhere. -/
structure Unused (s : Lifecycle) : Prop where
  /-- only runners of jobs are queued -/
  workQueue : ∀ runnable ∈ s.shared.workQueue, ∃ runner, runnable = .futureTask runner
  runners : ∀ work ∈ s.shared.runners, s.shared.Deletable work
  activeJobs : ∀ job ∈ s.shared.activeJobs, s.shared.Deletable job.2
  /-- a call that is about to submit has seen the virtualization unused -/
  deletes : ∀ pc ∈ s.deletePoints, pc.Checked s.shared
  /-- a job that is about to be queued -/
  publishes : ∀ virtualization work, .publish virtualization (.enqueue work) ∈ s.requests →
    s.shared.Deletable work

/-- No job is monitored at the start. -/
theorem unused_initial : Unused initial where
  workQueue := fun _ h => nomatch h
  runners := fun _ h => nomatch h
  activeJobs := fun _ h => nomatch h
  deletes := fun _ h => nomatch h
  publishes := fun _ _ h => nomatch h

/-- The job of a new runner is used nowhere. -/
theorem deletable_of_enqueues {s : Lifecycle} (hs : Unused s) {label : Label} {work : Nat}
    (h : enqueues s label = some work) : s.shared.Deletable work := by
  unfold enqueues at h
  split at h
  · rename_i hpoint
    cases h
    exact hs.deletes _ (mem_of_deletePoint hpoint)
  · split at h
    · rename_i hget
      cases h
      exact hs.publishes _ _ (List.mem_of_getElem? hget)
    · cases h
  · cases h

/-- The runners and the monitored jobs change as the action of the step says. -/
theorem jobs_of_moved {s t : Lifecycle} {label : Label} (h : Moved s label t) :
    t.shared.runners = ((act s label).apply s.shared).runners ∧
      t.shared.activeJobs = ((act s label).apply s.shared).activeJobs := by
  cases h with
  | publish | delete => exact ⟨rfl, rfl⟩
  | request hrequest => rw [act_request hrequest]; exact ⟨rfl, rfl⟩
  | take hidle hqueue => simp only [act, hidle]; exact ⟨rfl, rfl⟩
  | idle hmonitor => rw [act_monitor hmonitor]; exact ⟨rfl, rfl⟩
  | monitor hmonitor _ => rw [act_monitor hmonitor]; exact ⟨rfl, rfl⟩
  | @start index answer task htask hphase _ =>
      obtain ⟨job, phase⟩ := task
      cases hphase
      simp only [act, htask]
      exact ⟨rfl, rfl⟩
  | task htask hphase => rw [act_task htask hphase]; exact ⟨rfl, rfl⟩

/-- The monitor registers the job of the runner it executes. -/
theorem act_putsActive {s : Lifecycle} {label : Label} {name : String} {work : Nat}
    (h : act s label = .putActive name work) :
    ∃ runner, s.monitor = some (runner, .start) ∧ s.shared.runnerWork runner = work := by
  have hacts := acts s label
  rw [h] at hacts
  cases hacts with
  | delete _ hdelete => cases hdelete
  | monitor _ hmonitor hacts _ =>
      cases hacts
      exact ⟨_, hmonitor, rfl⟩
  | task _ hjob => cases hjob

/-- A step keeps the invariant: what comes under monitoring was created without users. -/
theorem unused_step {s t : Lifecycle} {label : Label} (hvalid : Valid s) (hs : Unused s)
    (hnext : next s label = some t) : Unused t := by
  have h := moved_of_next hnext
  obtain ⟨hrunners, hactive⟩ := jobs_of_moved h
  constructor
  · intro runnable hmem
    rcases mem_workQueue_of_apply (workQueue_of_moved h hmem) with hold | ⟨_, _, rfl⟩ | ⟨_, _, rfl⟩
    · exact hs.workQueue runnable hold
    · exact ⟨_, rfl⟩
    · exact ⟨_, rfl⟩
  · intro work hmem
    apply deletable_of_moved h
    rw [hrunners] at hmem
    cases hact : act s label with
    | submitRunner ref =>
        rw [hact] at hmem
        rcases List.mem_append.mp hmem with hold | hnew
        · exact hs.runners work hold
        · rw [List.mem_singleton.mp hnew]
          -- a job that is handed over was created by a publish, or found unused by a deletion
          exact deletable_of_enqueues hs (act_submitsRunner hact)
    | _ =>
        rw [hact] at hmem
        exact hs.runners work hmem
  · intro job hmem
    apply deletable_of_moved h
    rw [hactive] at hmem
    cases hact : act s label with
    | putActive name ref =>
        rw [hact] at hmem
        rcases List.mem_cons.mp hmem with rfl | hold
        -- a job comes under its name when its runner starts
        · obtain ⟨runner, hmonitor, rfl⟩ := act_putsActive hact
          have hlt := hvalid.monitor runner _ hmonitor
          unfold Shared.runnerWork
          rw [List.getD_eq_getElem _ _ hlt]
          exact hs.runners _ (List.getElem_mem hlt)
        · exact hs.activeJobs job (List.mem_filter.mp hold).1
    | removeActive name =>
        rw [hact] at hmem
        exact hs.activeJobs job (List.mem_filter.mp hmem).1
    | _ =>
        rw [hact] at hmem
        exact hs.activeJobs job hmem
  · intro pc hpc
    rcases deletePoint_of_moved h hpc with hold | rfl | ⟨v, answer, p, hp, rfl, _⟩
    · exact checked_of_moved h (hs.deletes pc hold)
    · trivial
    · exact checked_of_moved h (deleteVirtualization_checked (hs.deletes p hp))
  · intro v work hmem
    have hold : .publish v (.enqueue work) ∈ s.requests → t.shared.Deletable work :=
      fun hmem => deletable_of_moved h (hs.publishes v work hmem)
    cases h with
    | publish v' =>
        rcases List.mem_append.mp hmem with hmem | hmem
        · exact hold hmem
        · cases List.mem_singleton.mp hmem
    | delete v' =>
        rcases List.mem_append.mp hmem with hmem | hmem
        · exact hold hmem
        · cases List.mem_singleton.mp hmem
    | @request thread answer request hrequest =>
        rcases List.mem_or_eq_of_mem_set hmem with hmem | hnew
        · exact hold hmem
        · cases request with
          | publish v' p =>
              exact publishVirtualization_next_enqueue (Request.publish.inj hnew).2.symm
          | delete v' p => cases hnew
    | take | idle | monitor | start | task => exact hold hmem

/-- No monitored job has users, in any state that is reached. -/
theorem unused_of_run {s : Lifecycle} {tr : List (Lifecycle × Label)}
    (hrun : system.Run initial tr s) : Unused s := by
  have hinit : ∀ s, system.init s → Valid s ∧ Unused s := by
    rintro s rfl
    exact ⟨valid_initial, unused_initial⟩
  have hstep : ∀ s label t, Valid s ∧ Unused s → system.step s label t → Valid t ∧ Unused t :=
    fun _ _ _ hs hnext => ⟨valid_step hs.1 hnext, unused_step hs.1 hs.2 hnext⟩
  exact (hrun.invariant_of_all hinit hstep rfl).2

/-- Every queued job is wrapped, so none is found in the queue. -/
theorem queuedWork_eq_none {s : Lifecycle} (hs : Unused s) (openShiftName : String) :
    s.shared.queuedWork openShiftName = none := by
  unfold Shared.queuedWork
  rw [List.findSome?_eq_none_iff]
  intro runnable hmem
  obtain ⟨runner, rfl⟩ := hs.workQueue runnable hmem
  rfl

/-! ## When a used virtualization is spared -/

/-- A call of `deleteVirtualization` for a virtualization that an integration uses submits no delete task
and returns no status of one exactly if no job of it is monitored and OpenShift has it published, or
not at all, or cannot be asked. -/
theorem delete_spares_iff {teiid : Teiid} {trace : List (Lifecycle × Label)} {s : Lifecycle}
    {virtualization : String} {answer : Answer} {document : IntegrationsDocument}
    {integrationsInUse : IntegrationsInUse} {table : SharedTable teiid} {dv : Row} {sourceId : String}
    (hrun : system.Run initial trace s)
    (hdv : table.findDataVirtualization virtualization = some dv) (hsource : dv.sourceId = some sourceId)
    (hlists : document.Lists sourceId)
    (hindex : findIntegrationByConnectionId document = some integrationsInUse)
    (hanswer : answer.usedIn = some (findIntegrationUsedIn integrationsInUse table virtualization)) :
    ∃ d, deleteAlone virtualization answer s.shared = some d ∧
      (d.Spares s.shared ↔
        s.shared.activeJobs.lookup (getOpenShiftName virtualization) = none ∧
          (answer.call ≠ .returns ∨ answer.service.Unpublished ∨ answer.service.Published)) := by
  have hunused := unused_of_run hrun
  have husers := findIntegrationUsedIn_ne_nil hdv hsource hlists hindex
  cases hactive : s.shared.activeJobs.lookup (getOpenShiftName virtualization) with
  | some work =>
      -- a monitored job has no users
      obtain ⟨front, back, hjobs, _⟩ := List.lookup_eq_some_iff.mp hactive
      have hjob : s.shared.Deletable work :=
        hunused.activeJobs (_, work) (hjobs ▸ List.mem_append_right _ List.mem_cons_self)
      rw [deleteAlone_of_active hactive]
      obtain ⟨d, hd, hspares⟩ := @spares_found virtualization answer 6 work false s.shared
        (Shared.lt_of_status hjob.1)
      refine ⟨d, hd, hspares.trans (iff_of_false ?_ (by simp))⟩
      simp [hjob.1, hjob.2]
  | none =>
      rw [deleteAlone_of_unmonitored hactive (queuedWork_eq_none hunused _)]
      obtain ⟨d, hd, hspares⟩ := spares_service (by rw [hanswer]) husers
      exact ⟨d, hd, hspares.trans (by simp)⟩

/-- One virtualization, with its connection stored. -/
def publishedTable : SharedTable (.ascii fun _ => { schema := { name := "v" } }) where
  rows := [{ type := .virtualization, name := "v", sourceId := some "c1" }]
  consistent := List.pairwise_singleton _ _

/-- One integration, with a step that uses the connection. -/
def usingDocument : IntegrationsDocument :=
  { items := some [{
      name := some "orders"
      flows := some [{ steps := some [{}, { connection := some { id := some "c1" } }] }] }] }

/-- One integration uses the connection. -/
theorem usingDocument_lists : usingDocument.Lists "c1" :=
  ⟨_, rfl, _, List.mem_cons_self, _, rfl, _, List.mem_cons_self, _, rfl,
    { connection := some { id := some "c1" } }, by decide, _, rfl, rfl⟩

/-- What OpenShift has of a virtualization that is up. -/
def deployedView : ServiceView where
  builds := [{ name := "v-1", phase := .complete }]
  deploymentConfig := some
    { name := "dv-v"
      conditions :=
        [{ type := "Available", status := "True" }, { type := "Progressing", status := "True" }]
      observedGeneration := 4 }

/-- A running virtualization that is used is spared. -/
theorem delete_spares_iff_published :
    ∃ d, deleteAlone "v" { service := deployedView, usedIn := some ["orders"] } initial.shared =
      some d ∧ d.Spares initial.shared := by
  obtain ⟨d, hd, hspares⟩ := @delete_spares_iff _ [] initial "v"
    { service := deployedView, usedIn := some ["orders"] } usingDocument _ publishedTable _ "c1"
    (.nil initial) rfl rfl usingDocument_lists rfl rfl
  have hpublished : deployedView.Published :=
    ⟨_, rfl, rfl, _, rfl, by decide, by decide⟩
  exact ⟨d, hd, hspares.mpr ⟨rfl, .inr (.inr hpublished)⟩⟩

/-- A used virtualization is unpublished while a new publish of it is monitored. -/
theorem used_is_deleted :
    ¬ (∀ (teiid : Teiid) (trace : List (Lifecycle × Label)) (s : Lifecycle) (virtualization : String)
      (answer : Answer) (document : IntegrationsDocument) (integrationsInUse : IntegrationsInUse)
      (table : SharedTable teiid) (dv : Row) (sourceId : String), system.Run initial trace s →
      table.findDataVirtualization virtualization = some dv → dv.sourceId = some sourceId →
      document.Lists sourceId → findIntegrationByConnectionId document = some integrationsInUse →
      answer.usedIn = some (findIntegrationUsedIn integrationsInUse table virtualization) →
      ∀ d, deleteAlone virtualization answer s.shared = some d → d.Spares s.shared) := by
  intro h
  have hrun := System.run_after (· = initial) next initial (buildingTaken ++ [.monitor {}])
  have hspares := h _ _ _ "v" { service := deployedView, usedIn := some ["orders"] } usingDocument
    _ publishedTable _ "c1" hrun rfl rfl usingDocument_lists rfl rfl _ rfl
  exact absurd hspares (by decide)

end Lifecycle

end TeiidSyndesis.OpenShift
