/-
# TeiidSyndesis.OpenShift.LifecycleSteps — what one step of the publish lifecycle can do.

The facts every invariant of `Lifecycle.system` is derived from, stated once: the effect of each
shared action on the `BuildStatus` objects, the inversion of `Lifecycle.next`, and, for each program,
the statuses it can write and the points it can write them from.  No proof about runs unfolds a
program; it asks these lemmas.

Main results:
* `work_frame`, `status_apply` — what an action does to one object, and what it leaves;
* `moved_of_next` — the inversion of a step: which action was taken, and where its thread went;
* `works_of_moved`, `status_of_moved` — so what a step does to one `BuildStatus`;
* `publishVirtualization_acts`, `deleteVirtualization_acts`, `runBuildStatus_acts`, `job_acts` — the
  actions of each program, and `acts` for a step of any of them;
* `deletePoint_of_moved`, `monitor_of_moved`, `task_of_moved` — where the threads stand afterwards.
-/
import Mathlib.Data.List.GetD
import TeiidSyndesis.Library.Lists
import TeiidSyndesis.OpenShift.Lifecycle

namespace TeiidSyndesis.OpenShift

open TeiidSyndesis.Library

/-! ## Actions and the shared objects -/

namespace Shared

@[simp]
theorem status_eq (s : Shared) (ref : Nat) : (s.work ref).status = s.status ref := rfl

/-- There is nothing past the end of the list. -/
theorem work_of_length_le {s : Shared} {ref : Nat} (h : s.works.length ≤ ref) :
    s.work ref = { openShiftName := "" } := by
  unfold work
  rw [List.getD_eq_getElem?_getD, List.getElem?_eq_none h]
  rfl

/-- Two states with the same `BuildStatus` objects agree on every one of them. -/
theorem work_congr {s t : Shared} (h : t.works = s.works) (ref : Nat) : t.work ref = s.work ref := by
  unfold work
  rw [h]

end Shared

namespace Action

/-- The action writes `status` into the `BuildStatus` at `work`. -/
def Sets (action : Action) (work : Nat) (status : Status) : Prop :=
  ∃ fields, action = .write work fields ∧ fields.status = some status

/-- A write sets the status of its own object, if it carries one. -/
theorem sets_write_iff {work ref : Nat} {fields : Fields} {status : Status} :
    (Action.write work fields).Sets ref status ↔ work = ref ∧ fields.status = some status := by
  constructor
  · rintro ⟨f, hf, hstatus⟩
    cases hf
    exact ⟨rfl, hstatus⟩
  · rintro ⟨rfl, hstatus⟩
    exact ⟨fields, rfl, hstatus⟩

instance (action : Action) (work : Nat) (status : Status) : Decidable (action.Sets work status) :=
  match action with
  | .write _ _ => decidable_of_iff _ sets_write_iff.symm
  | .skip | .allocate _ | .submitRunner _ | .resubmit _ | .putActive _ _ | .removeActive _
  | .submitTask _ => .isFalse (by rintro ⟨_, h, _⟩; cases h)

/-- No action removes an object. -/
theorem apply_works_length_le (action : Action) (s : Shared) :
    s.works.length ≤ (action.apply s).works.length := by
  cases action <;> simp [apply]

/-- A new object comes at the end. -/
theorem work_allocate (s : Shared) (status : BuildStatus) (ref : Nat) :
    ((Action.allocate status).apply s).work ref =
      if ref = s.works.length then status else s.work ref := by
  unfold apply Shared.work
  dsimp only
  rcases Nat.lt_trichotomy ref s.works.length with h | h | h
  · rw [List.getD_append _ _ _ _ h, if_neg (Nat.ne_of_lt h)]
  · subst h
    simp
  · rw [if_neg (Nat.ne_of_gt h), List.getD_append_right _ _ _ _ (Nat.le_of_lt h),
      List.getD_eq_default _ _ (by simp only [List.length_cons, List.length_nil]; omega),
      List.getD_eq_default _ _ (Nat.le_of_lt h)]

/-- A write changes its own object. -/
theorem work_write (s : Shared) (work ref : Nat) (fields : Fields) :
    ((Action.write work fields).apply s).work ref =
      if ref = work ∧ work < s.works.length then (s.work ref).write fields else s.work ref := by
  unfold apply Shared.work
  dsimp only
  rw [List.getD_eq_getElem?_getD, List.getD_eq_getElem?_getD, List.getElem?_modify]
  by_cases href : ref = work
  · subst href
    by_cases hlt : ref < s.works.length
    · simp [hlt]
    · simp [hlt]
  · simp [href, Ne.symm href]

/-- An object that exists keeps its OpenShift name and its users through every action. -/
theorem work_frame {action : Action} {s : Shared} {ref : Nat} (h : ref < s.works.length) :
    ((action.apply s).work ref).openShiftName = (s.work ref).openShiftName ∧
      ((action.apply s).work ref).usedBy = (s.work ref).usedBy := by
  cases action with
  | allocate b => rw [work_allocate, if_neg (Nat.ne_of_lt h)]; exact ⟨rfl, rfl⟩
  | write w f =>
      rw [work_write]
      split
      · exact ⟨BuildStatus.write_openShiftName _ _, BuildStatus.write_usedBy _ _⟩
      · exact ⟨rfl, rfl⟩
  | _ => exact ⟨rfl, rfl⟩

/-- A status changes only where the action writes one, or in the object it allocates. -/
theorem status_apply (action : Action) (s : Shared) (ref : Nat) :
    (action.apply s).status ref = s.status ref ∨
      action.Sets ref ((action.apply s).status ref) ∨
      ∃ b, action = .allocate b ∧ ref = s.works.length ∧
        (action.apply s).status ref = b.status := by
  cases action with
  | allocate b =>
      by_cases h : ref = s.works.length
      · exact .inr (.inr ⟨b, rfl, h, by unfold Shared.status; rw [work_allocate, if_pos h]⟩)
      · exact .inl (by unfold Shared.status; rw [work_allocate, if_neg h])
  | write w f =>
      unfold Shared.status
      rw [work_write]
      by_cases h : ref = w ∧ w < s.works.length
      · rw [if_pos h, BuildStatus.write_status]
        cases hf : f.status with
        | none => exact .inl rfl
        | some st => exact .inr (.inl ⟨f, by rw [h.1], hf⟩)
      · exact .inl (by rw [if_neg h])
  | _ => exact .inl rfl

/-- A write of a status into an existing object is read back. -/
theorem status_of_sets {action : Action} {s : Shared} {ref : Nat} {status : Status}
    (h : action.Sets ref status) (href : ref < s.works.length) :
    (action.apply s).status ref = status := by
  obtain ⟨fields, rfl, hf⟩ := h
  unfold Shared.status
  rw [work_write, if_pos ⟨rfl, href⟩, BuildStatus.write_status, hf]
  rfl

end Action

/-! ## The inversion of a step -/

namespace Lifecycle

/-- Everything one step can do. -/
inductive Moved (s : Lifecycle) : Label → Lifecycle → Prop
  | publish (virtualization : String) :
      Moved s (.publish virtualization)
        { s with requests := s.requests ++ [.publish virtualization (.status .active)] }
  | delete (virtualization : String) :
      Moved s (.delete virtualization)
        { s with requests := s.requests ++ [.delete virtualization .findActive] }
  | request {thread : Nat} {answer : Answer} {request : Request}
      (hrequest : s.requests[thread]? = some request) :
      Moved s (.request thread answer)
        { s with
          shared := (request.next s.shared answer).1.apply s.shared
          requests := s.requests.set thread (request.next s.shared answer).2 }
  | take {answer : Answer} {runnable : Runnable} {rest : List Runnable}
      (hidle : s.monitor = none) (hqueue : s.shared.workQueue = runnable :: rest) :
      Moved s (.monitor answer)
        { s with
          shared := { s.shared with workQueue := rest }
          monitor := some (runnable.runner, .start) }
  | idle {answer : Answer} {runner : Nat} (hmonitor : s.monitor = some (runner, .done)) :
      Moved s (.monitor answer) { s with monitor := none }
  | monitor {answer : Answer} {runner : Nat} {pc : MonitorPc}
      (hmonitor : s.monitor = some (runner, pc)) (hpc : pc ≠ .done) :
      Moved s (.monitor answer)
        { s with
          shared :=
            (runBuildStatus runner (s.shared.runnerWork runner) s.shared pc answer).1.apply s.shared
          monitor :=
            some (runner,
              (runBuildStatus runner (s.shared.runnerWork runner) s.shared pc answer).2) }
  | start {index : Nat} {answer : Answer} {task : Task}
      (htask : s.shared.tasks[index]? = some task) (hphase : task.phase = .queued)
      (hmay : mayStart s.shared.tasks index = true) :
      Moved s (.task index answer)
        { s with shared := setPhase s.shared index (.running task.job.start) }
  | task {index : Nat} {answer : Answer} {task : Task} {pc : TaskPc}
      (htask : s.shared.tasks[index]? = some task) (hphase : task.phase = .running pc) :
      Moved s (.task index answer)
        { s with
          shared :=
            setPhase ((task.job.run pc answer).1.apply s.shared) index (task.job.run pc answer).2 }

/-- Every step is a move of the label's thread. -/
theorem moved_of_next {s t : Lifecycle} {label : Label} (h : next s label = some t) :
    Moved s label t := by
  -- each label has the states that enable it; the steps that are not enabled contradict `h`
  cases label with
  | publish virtualization =>
      cases h
      exact .publish virtualization
  | delete virtualization =>
      cases h
      exact .delete virtualization
  | request thread answer =>
      simp only [next, requestStep, Option.map_eq_some_iff] at h
      obtain ⟨request, hrequest, rfl⟩ := h
      exact .request hrequest
  | monitor answer =>
      simp only [next, monitorStep] at h
      split at h
      · rename_i hidle
        split at h
        · cases h
        · rename_i hqueue
          cases h
          exact .take hidle hqueue
      · rename_i hmonitor
        cases h
        exact .idle hmonitor
      · rename_i hpc hmonitor
        cases h
        exact .monitor hmonitor hpc
  | task index answer =>
      simp only [next, taskStep] at h
      split at h
      · cases h
      · rename_i task htask
        split at h
        · rename_i hphase
          split at h
          · rename_i hmay
            cases h
            exact .start htask hphase hmay
          · cases h
        · rename_i pc hphase
          cases h
          exact .task htask hphase
        · cases h

/-- The shared action of a step; arrivals, starts and the monitor taking or dropping a job touch no
`BuildStatus`. -/
def act (s : Lifecycle) : Label → Action
  | .publish _ | .delete _ => .skip
  | .request thread answer =>
      match s.requests[thread]? with
      | some request => (request.next s.shared answer).1
      | none => .skip
  | .monitor answer =>
      match s.monitor with
      | some (runner, pc) =>
          (runBuildStatus runner (s.shared.runnerWork runner) s.shared pc answer).1
      | none => .skip
  | .task index answer =>
      match s.shared.tasks[index]? with
      | some ⟨job, .running pc⟩ => (job.run pc answer).1
      | _ => .skip

/-- The action of a request is the one of its program. -/
theorem act_request {s : Lifecycle} {thread : Nat} {answer : Answer} {request : Request}
    (h : s.requests[thread]? = some request) :
    act s (.request thread answer) = (request.next s.shared answer).1 := by
  simp only [act, h]

/-- The action of the monitor is the one of `runBuildStatus`. -/
theorem act_monitor {s : Lifecycle} {answer : Answer} {runner : Nat} {pc : MonitorPc}
    (h : s.monitor = some (runner, pc)) :
    act s (.monitor answer) =
      (runBuildStatus runner (s.shared.runnerWork runner) s.shared pc answer).1 := by
  simp only [act, h]

/-- The action of a task is the one of its job. -/
theorem act_task {s : Lifecycle} {index : Nat} {answer : Answer} {task : Task} {pc : TaskPc}
    (h : s.shared.tasks[index]? = some task) (hphase : task.phase = .running pc) :
    act s (.task index answer) = (task.job.run pc answer).1 := by
  obtain ⟨job, phase⟩ := task
  cases hphase
  simp only [act, h]

/-- A step changes the `BuildStatus` objects as its action says. -/
theorem works_of_moved {s t : Lifecycle} {label : Label} (h : Moved s label t) :
    t.shared.works = ((act s label).apply s.shared).works := by
  cases h with
  | publish => rfl
  | delete => rfl
  | request hrequest => rw [act_request hrequest]
  | take hidle hqueue => simp only [act, hidle]; rfl
  | idle hmonitor => rw [act_monitor hmonitor]; rfl
  | monitor hmonitor _ => rw [act_monitor hmonitor]
  | @start index answer task htask hphase _ =>
      obtain ⟨job, phase⟩ := task
      cases hphase
      simp only [act, htask]
      rfl
  | task htask hphase => rw [act_task htask hphase]; rfl

/-- A step changes a status only where its action writes one, or in a new object. -/
theorem status_of_moved {s t : Lifecycle} {label : Label} (h : Moved s label t) (ref : Nat) :
    t.status ref = s.status ref ∨
      (act s label).Sets ref (t.status ref) ∨
      ∃ b, act s label = .allocate b ∧ ref = s.shared.works.length ∧ t.status ref = b.status := by
  have hwork := Shared.work_congr (works_of_moved h) ref
  have hstatus : t.status ref = ((act s label).apply s.shared).status ref :=
    congrArg BuildStatus.status hwork
  rw [hstatus]
  exact Action.status_apply _ _ _

/-- Objects are only ever added. -/
theorem works_length_le_of_moved {s t : Lifecycle} {label : Label} (h : Moved s label t) :
    s.shared.works.length ≤ t.shared.works.length := by
  rw [works_of_moved h]
  exact Action.apply_works_length_le _ _

/-- An object that exists keeps its OpenShift name and its users through every step. -/
theorem work_frame_of_moved {s t : Lifecycle} {label : Label} (h : Moved s label t) {ref : Nat}
    (href : ref < s.shared.works.length) :
    (t.shared.work ref).openShiftName = (s.shared.work ref).openShiftName ∧
      (t.shared.work ref).usedBy = (s.shared.work ref).usedBy := by
  rw [Shared.work_congr (works_of_moved h) ref]
  exact Action.work_frame href

end Lifecycle

/-! ## What the programs do to the shared objects -/

/-- What a write sets, read off the write. -/
theorem Action.sets_write {work ref : Nat} {fields : Fields} {status : Status}
    (h : (Action.write work fields).Sets ref status) :
    ref = work ∧ fields.status = some status :=
  ⟨(sets_write_iff.mp h).1.symm, (sets_write_iff.mp h).2⟩

/-- The status of the service is one of those a request may report. -/
theorem serviceStatus_status (virtualization : String) (answer : Answer) :
    (serviceStatus virtualization answer).status.OfService := by
  unfold serviceStatus
  by_cases hcall : answer.call = .returns
  · have hservice := getVDBService_ofService (getOpenShiftName virtualization) answer.service
    simp only [hcall, if_true]
    split <;> exact hservice
  · simp [hcall, Status.OfService]

/-- A status lookup allocates the record it derives from OpenShift, and does nothing else. -/
theorem getVirtualizationStatus_acts (virtualization : String) (s : Shared) (pc : StatusPc)
    (answer : Answer) :
    (getVirtualizationStatus virtualization s pc answer).1 = .skip ∨
      (getVirtualizationStatus virtualization s pc answer).1 =
        .allocate (serviceStatus virtualization answer) := by
  cases pc with
  | active => simp only [getVirtualizationStatus]; split <;> exact .inl rfl
  | queued => simp only [getVirtualizationStatus]; split <;> exact .inl rfl
  | service =>
      simp only [getVirtualizationStatus]
      split
      · exact .inl rfl
      · exact .inr rfl
  | found work => exact .inl rfl
  | raised => exact .inl rfl

/-- What `publishVirtualization` does at a point. -/
inductive PublishActs : PublishPc → Action → Prop
  | skip (pc : PublishPc) : PublishActs pc .skip
  | allocate (pc : PublishPc) {b : BuildStatus} (hb : b.status.OfService ∨ b.status = .submitted) :
      PublishActs pc (.allocate b)
  | enqueue (work : Nat) : PublishActs (.enqueue work) (.submitRunner work)

/-- The actions of a publish request, program point by program point. -/
theorem publishVirtualization_acts (virtualization : String) (s : Shared) (pc : PublishPc)
    (answer : Answer) : PublishActs pc (publishVirtualization virtualization s pc answer).1 := by
  cases pc with
  | status p =>
      have hlookup : PublishActs (.status p) (getVirtualizationStatus virtualization s p answer).1 := by
        rcases getVirtualizationStatus_acts virtualization s p answer with hact | hact
        · rw [hact]
          exact .skip _
        · rw [hact]
          exact .allocate _ (.inl (serviceStatus_status virtualization answer))
      simp only [publishVirtualization]
      split <;> exact hlookup
  | addToQueue => exact .allocate _ (.inr rfl)
  | enqueue work => exact .enqueue work
  | check work => exact .skip _
  | done => exact .skip _

/-- What `deleteVirtualization` does at a point: it cancels itself for a used virtualization,
submits the delete task, marks the job and enqueues its runner. -/
inductive DeleteActs (s : Shared) : DeletePc → Action → Prop
  | skip (pc : DeletePc) : DeleteActs s pc .skip
  | allocate (pc : DeletePc) {b : BuildStatus} (hb : b.status.OfService) :
      DeleteActs s pc (.allocate b)
  | cancel (work : Nat) (queue : Bool) {fields : Fields} (hused : (s.work work).usedBy ≠ [])
      (hstatus : fields.status = some .cancelled) :
      DeleteActs s (.checkUsed work queue) (.write work fields)
  | submit (work : Nat) (queue : Bool) (name : String) :
      DeleteActs s (.submit work queue) (.submitTask (.delete work name))
  | mark (work : Nat) (queue : Bool) {fields : Fields}
      (hstatus : fields.status = some .deleteSubmitted) :
      DeleteActs s (.write work queue) (.write work fields)
  | enqueue (work : Nat) : DeleteActs s (.enqueue work) (.submitRunner work)

/-- The actions of a delete request. -/
theorem deleteVirtualization_acts (virtualization : String) (s : Shared) (pc : DeletePc)
    (answer : Answer) : DeleteActs s pc (deleteVirtualization virtualization s pc answer).1 := by
  cases pc with
  | findActive => simp only [deleteVirtualization]; split <;> exact .skip _
  | findQueued => simp only [deleteVirtualization]; split <;> exact .skip _
  | status p =>
      have hlookup :
          DeleteActs s (.status p) (getVirtualizationStatus virtualization s p answer).1 := by
        rcases getVirtualizationStatus_acts virtualization s p answer with hact | hact
        · rw [hact]
          exact .skip _
        · rw [hact]
          exact .allocate _ (serviceStatus_status virtualization answer)
      simp only [deleteVirtualization]
      split <;> exact hlookup
  | checkUsed work queue =>
      simp only [deleteVirtualization]
      split
      · exact .skip _
      · rename_i hused
        exact .cancel work queue hused rfl
  | checkFound work queue => exact .skip _
  | submit work queue => exact .submit work queue _
  | write work queue => exact .mark work queue rfl
  | enqueue work => exact .enqueue work
  | done => exact .skip _

/-- The statuses the monitor writes on its own. -/
def Status.OfMonitor (status : Status) : Prop :=
  status = .configuring ∨ status = .deploying ∨ status = .running ∨ status = .failed ∨
    status = .cancelled

/-- The points at which the monitor writes a status of its own. -/
def MonitorPc.writesStatus : MonitorPc → Bool
  | .configureBuild | .deploying | .running | .notProgressing _ | .buildCancelled _
  | .buildFailed _ => true
  | _ => false

/-- What the monitor does at a point of its pass over `work`, outside `deleteVirtualization`. -/
inductive MonitorActs (runner work : Nat) (s : Shared) : MonitorPc → Action → Prop
  | skip (pc : MonitorPc) : MonitorActs runner work s pc .skip
  | start : MonitorActs runner work s .start (.putActive (s.work work).openShiftName work)
  | write (pc : MonitorPc) {fields : Fields}
      (hstatus : ∀ status, fields.status = some status →
        status.OfMonitor ∧ pc.writesStatus = true) :
      MonitorActs runner work s pc (.write work fields)
  | configure : MonitorActs runner work s .executeConfigure (.submitTask (.configure work))
  | resubmit : MonitorActs runner work s .resubmit (.resubmit runner)
  | finish : MonitorActs runner work s .finish (.removeActive (s.work work).openShiftName)

/-- Inside `deleteVirtualization` the monitor acts as a delete request does. -/
theorem runBuildStatus_deleting_acts (runner work : Nat) (s : Shared) (p : DeletePc)
    (answer : Answer) : DeleteActs s p (runBuildStatus runner work s (.deleting p) answer).1 := by
  have hdelete := deleteVirtualization_acts ((s.work work).dataVirtualizationName.getD "") s p answer
  simp only [runBuildStatus]
  split
  · split <;> exact hdelete
  · exact hdelete

/-- Elsewhere it acts for its own runner. -/
theorem runBuildStatus_acts (runner work : Nat) (s : Shared) {pc : MonitorPc} (answer : Answer)
    (hpc : ∀ p, pc ≠ .deleting p) :
    MonitorActs runner work s pc (runBuildStatus runner work s pc answer).1 := by
  cases pc with
  | deleting p => exact absurd rfl (hpc p)
  | findBuild =>
      simp only [runBuildStatus]
      repeat' split
      all_goals exact .skip _
  | findDeployment =>
      simp only [runBuildStatus]
      repeat' split
      all_goals exact .skip _
  | start => exact .start
  | executeConfigure => exact .configure
  | resubmit => exact .resubmit
  | finish => exact .finish
  | configureBuild | deploying | running | notProgressing dc | buildCancelled build
  | buildFailed build =>
      refine .write _ fun status h => ?_
      cases h
      simp [Status.OfMonitor, MonitorPc.writesStatus]
  | deploy | deploymentName dc | notReady dc requeue => exact .write _ fun _ h => nomatch h
  | _ => exact .skip _

/-- The statuses an unpublish job goes through. -/
def Status.Unpublish (status : Status) : Prop :=
  status = .deleteSubmitted ∨ status = .deleteRequeue ∨ status = .deleteDone

/-- What a task does at a point: a configure task settles its build, a delete task requeues its
deletion where a client call raises, and ends it. -/
inductive JobActs : Job → TaskPc → Answer → Action → Prop
  | skip (job : Job) (pc : TaskPc) (answer : Answer) : JobActs job pc answer .skip
  | configure (work : Nat) (pc : TaskPc) (answer : Answer) {fields : Fields}
      (hstatus : ∀ status, fields.status = some status → status = .building ∨ status = .failed) :
      JobActs (.configure work) pc answer (.write work fields)
  | requeue (work : Nat) (name : String) (block : List Selector) (blocks : List (List Selector))
      {answer : Answer} (hcall : answer.call = .kubernetesClientException) :
      JobActs (.delete work name) (.deleting (block :: blocks)) answer
        (.write work { status := some .deleteRequeue })
  | done (work : Nat) (name : String) (answer : Answer) :
      JobActs (.delete work name) (.deleting []) answer
        (.write work { status := some .deleteDone })

/-- The actions of a task. -/
theorem job_acts (job : Job) (pc : TaskPc) (answer : Answer) :
    JobActs job pc answer (job.run pc answer).1 := by
  cases job with
  | configure work =>
      cases pc with
      | configuring =>
          simp only [Job.run, configureTask]
          split
          · exact .configure work _ _ fun _ h => nomatch h
          all_goals exact .skip _ _ _
      | configured =>
          refine .configure work _ _ fun status h => .inl ?_
          cases h
          rfl
      | configureFailed message =>
          refine .configure work _ _ fun status h => .inr ?_
          cases h
          rfl
      | _ => exact .skip _ _ _
  | delete work name =>
      cases pc with
      | openClient => simp only [Job.run, deleteTask]; split <;> exact .skip _ _ _
      | deleting blocks =>
          cases blocks with
          | nil => exact .done work name answer
          | cons block blocks =>
              -- only the one exception the blocks catch is written down
              simp only [Job.run, deleteTask]
              split
              · exact .skip _ _ _
              · rename_i hcall
                exact .requeue work name block blocks hcall
              all_goals exact .skip _ _ _
      | _ => exact .skip _ _ _

/-- Only the point `submit` leads to the point `write`. -/
theorem deleteVirtualization_next_write {virtualization : String} {s : Shared} {pc : DeletePc}
    {answer : Answer} {work : Nat} {queue : Bool}
    (h : (deleteVirtualization virtualization s pc answer).2 = .write work queue) :
    pc = .submit work queue ∧ (deleteVirtualization virtualization s pc answer).1 =
      .submitTask (.delete work (getOpenShiftName virtualization)) := by
  cases pc with
  | submit ref queue' =>
      simp only [deleteVirtualization, DeletePc.write.injEq] at h
      obtain ⟨rfl, rfl⟩ := h
      exact ⟨rfl, rfl⟩
  | findActive => simp only [deleteVirtualization] at h; split at h <;> cases h
  | findQueued => simp only [deleteVirtualization] at h; split at h <;> cases h
  | status pc => simp only [deleteVirtualization] at h; split at h <;> cases h
  | checkFound ref queue' => simp only [deleteVirtualization] at h; split at h <;> cases h
  | checkUsed ref queue' => simp only [deleteVirtualization] at h; split at h <;> cases h
  | write ref queue' => simp only [deleteVirtualization] at h; split at h <;> cases h
  | enqueue ref => cases h
  | done => cases h

/-! ## Where threads stand in `deleteVirtualization` -/

/-- The `BuildStatus` a point of `deleteVirtualization` works on. -/
def DeletePc.work : DeletePc → Option Nat
  | .status (.found work) | .checkFound work _ | .checkUsed work _ | .submit work _ | .write work _
  | .enqueue work => some work
  | _ => none

/-- Where a request stands in `deleteVirtualization`. -/
def Request.deletePoint : Request → Option DeletePc
  | .publish _ _ => none
  | .delete _ pc => some pc

/-- Where the monitor stands in it. -/
def MonitorPc.deletePoint : MonitorPc → Option DeletePc
  | .deleting pc => some pc
  | _ => none

/-- The monitor enters `deleteVirtualization` at its first point and follows its program. -/
theorem runBuildStatus_next_deleting {runner work : Nat} {s : Shared} {pc : MonitorPc}
    {answer : Answer} {p : DeletePc}
    (h : (runBuildStatus runner work s pc answer).2 = .deleting p) :
    p = .findActive ∨
      ∃ q, pc = .deleting q ∧
        p = (deleteVirtualization ((s.work work).dataVirtualizationName.getD "") s q answer).2 ∧
        (runBuildStatus runner work s pc answer).1 =
          (deleteVirtualization ((s.work work).dataVirtualizationName.getD "") s q answer).1 := by
  cases pc with
  | deleting q =>
      -- the call has not returned, so its own next point is the one reached
      refine .inr ⟨q, rfl, ?_⟩
      simp only [runBuildStatus] at h ⊢
      split at h
      · split at h <;> cases h
      · cases h
        exact ⟨rfl, rfl⟩
  | checkDeleteRequeue =>
      simp only [runBuildStatus] at h
      split at h
      · cases h
        exact .inl rfl
      · cases h
  | findBuild =>
      simp only [runBuildStatus] at h
      repeat' split at h
      all_goals cases h
  | findDeployment =>
      simp only [runBuildStatus] at h
      repeat' split at h
      all_goals cases h
  | sleep | checkDeleteSubmitted | checkDeleteDone | checkFailed | checkCancelled | checkSubmitted
  | checkConfiguring | checkDeploying | deploy | deployLatest | connect =>
      simp only [runBuildStatus] at h
      split at h <;> cases h
  | notReady dc requeue =>
      simp only [runBuildStatus] at h
      split at h <;> cases h
  | _ => cases h

namespace Lifecycle

/-- The point of `deleteVirtualization` at which the thread of the step stands. -/
def deletePoint (s : Lifecycle) (label : Label) : Option DeletePc :=
  match label with
  | .request thread _ => s.requests[thread]?.bind Request.deletePoint
  | .monitor _ => s.monitor.bind fun monitor => monitor.2.deletePoint
  | _ => none

/-- The points of `deleteVirtualization` at which the threads of the state stand. -/
def deletePoints (s : Lifecycle) : List DeletePc :=
  (s.monitor.bind fun monitor => monitor.2.deletePoint).toList ++
    s.requests.filterMap Request.deletePoint

/-- The threads in `deleteVirtualization` are the monitor, and the delete requests. -/
theorem mem_deletePoints {s : Lifecycle} {pc : DeletePc} :
    pc ∈ s.deletePoints ↔
      (∃ runner, s.monitor = some (runner, .deleting pc)) ∨
        ∃ virtualization, .delete virtualization pc ∈ s.requests := by
  unfold deletePoints
  rw [List.mem_append, List.mem_filterMap]
  refine or_congr ?_ ?_
  · rw [Option.mem_toList, Option.bind_eq_some_iff]
    constructor
    · rintro ⟨⟨runner, p⟩, hmonitor, hp⟩
      cases p <;> cases hp
      exact ⟨runner, hmonitor⟩
    · rintro ⟨runner, hmonitor⟩
      exact ⟨_, hmonitor, rfl⟩
  · constructor
    · rintro ⟨request, hmem, hp⟩
      cases request <;> cases hp
      exact ⟨_, hmem⟩
    · rintro ⟨virtualization, hmem⟩
      exact ⟨_, hmem, rfl⟩

/-- After a step a thread stands in `deleteVirtualization` where one stood before, at the first
point, or at the successor of the point it stood at. -/
theorem deletePoint_of_moved {s t : Lifecycle} {label : Label} (h : Moved s label t)
    {pc : DeletePc} (hpc : pc ∈ t.deletePoints) :
    pc ∈ s.deletePoints ∨ pc = .findActive ∨
      ∃ virtualization answer, ∃ p ∈ s.deletePoints,
        pc = (deleteVirtualization virtualization s.shared p answer).2 ∧
          act s label = (deleteVirtualization virtualization s.shared p answer).1 := by
  rcases mem_deletePoints.mp hpc with ⟨runner, hmonitor⟩ | ⟨virtualization, hrequest⟩
  -- the thread is the monitor, and then a request
  · cases h with
    | publish | delete | request | start | task =>
        exact .inl (mem_deletePoints.mpr (.inl ⟨runner, hmonitor⟩))
    | take | idle => cases hmonitor
    | @monitor answer runner' pc' hs _ =>
        have hnext := (Prod.mk.inj (Option.some.inj hmonitor)).2
        rcases runBuildStatus_next_deleting hnext with hfirst | ⟨q, rfl, hq, hact⟩
        · exact .inr (.inl hfirst)
        · refine .inr (.inr ⟨_, answer, q, mem_deletePoints.mpr (.inl ⟨_, hs⟩), hq, ?_⟩)
          rw [act_monitor hs, hact]
  · have hold : ∀ v, .delete v pc ∈ s.requests → pc ∈ s.deletePoints :=
      fun v hmem => mem_deletePoints.mpr (.inr ⟨v, hmem⟩)
    cases h with
    | publish v =>
        rcases List.mem_append.mp hrequest with hmem | hmem
        · exact .inl (hold _ hmem)
        · cases List.mem_singleton.mp hmem
    | delete v =>
        rcases List.mem_append.mp hrequest with hmem | hmem
        · exact .inl (hold _ hmem)
        · cases List.mem_singleton.mp hmem
          exact .inr (.inl rfl)
    | @request thread answer request hs =>
        rcases List.mem_or_eq_of_mem_set hrequest with hmem | hnew
        · exact .inl (hold _ hmem)
        · cases request with
          | publish v p => cases hnew
          | delete v p =>
              have hpoint : p ∈ s.deletePoints :=
                mem_deletePoints.mpr (.inr ⟨v, List.mem_of_getElem? hs⟩)
              cases hnew
              exact .inr (.inr ⟨_, answer, p, hpoint, rfl, act_request hs⟩)
    | take | idle | monitor | start | task => exact .inl (hold _ hrequest)

/-! ## Where the monitor stands and which tasks there are -/

/-- The monitor stands where it stood, takes a runner, or has taken one step of its program. -/
theorem monitor_of_moved {s t : Lifecycle} {label : Label} (h : Moved s label t) {runner : Nat}
    {pc : MonitorPc} (ht : t.monitor = some (runner, pc)) :
    (s.monitor = some (runner, pc) ∧ ∀ answer, label ≠ .monitor answer) ∨
      (s.monitor = none ∧ pc = .start ∧
        ∃ runnable ∈ s.shared.workQueue, runnable.runner = runner) ∨
      ∃ answer q, label = .monitor answer ∧ s.monitor = some (runner, q) ∧ q ≠ .done ∧
        pc = (runBuildStatus runner (s.shared.runnerWork runner) s.shared q answer).2 := by
  cases h with
  | publish | delete | request | start | task => exact .inl ⟨ht, fun _ h => by cases h⟩
  | take hidle hqueue =>
      cases ht
      exact .inr (.inl ⟨hidle, rfl, _, hqueue ▸ List.mem_cons_self, rfl⟩)
  | idle => cases ht
  | monitor hmonitor hdone =>
      cases ht
      exact .inr (.inr ⟨_, _, rfl, hmonitor, hdone, rfl⟩)

/-- No action removes a task. -/
theorem mem_tasks_apply {action : Action} {s : Shared} {task : Task} (h : task ∈ s.tasks) :
    task ∈ (action.apply s).tasks := by
  cases action <;> simp [Action.apply, h]

/-- Tasks keep their places in the list. -/
theorem tasks_getElem?_apply {action : Action} {s : Shared} {index : Nat} {task : Task}
    (h : s.tasks[index]? = some task) : (action.apply s).tasks[index]? = some task := by
  cases action with
  | submitTask job =>
      obtain ⟨hlt, _⟩ := List.getElem?_eq_some_iff.mp h
      show (s.tasks ++ [_])[index]? = some task
      rw [List.getElem?_append_left hlt]
      exact h
  | _ => exact h

/-- A new task is one that was submitted. -/
theorem mem_tasks_of_apply {action : Action} {s : Shared} {task : Task}
    (h : task ∈ (action.apply s).tasks) :
    task ∈ s.tasks ∨ (action = .submitTask task.job ∧ task.phase = .queued) := by
  cases action with
  | submitTask job =>
      rcases List.mem_append.mp h with hold | hnew
      · exact .inl hold
      · rw [List.mem_singleton.mp hnew]
        exact .inr ⟨rfl, rfl⟩
  | _ => exact .inl h

/-- A task of the state after a step was there, is the one the step submits, or is one that the
step has moved on. -/
theorem task_of_moved {s t : Lifecycle} {label : Label} (h : Moved s label t) {task : Task}
    (ht : task ∈ t.shared.tasks) :
    task ∈ s.shared.tasks ∨ (act s label = .submitTask task.job ∧ task.phase = .queued) ∨
      ∃ old ∈ s.shared.tasks, old.job = task.job ∧ old.phase ≠ .finished := by
  cases h with
  | publish | delete | take | idle => exact .inl ht
  | request hrequest =>
      rw [act_request hrequest]
      rcases mem_tasks_of_apply ht with hold | hnew
      · exact .inl hold
      · exact .inr (.inl hnew)
  | monitor hmonitor _ =>
      rw [act_monitor hmonitor]
      rcases mem_tasks_of_apply ht with hold | hnew
      · exact .inl hold
      · exact .inr (.inl hnew)
  | start hget hphase _ =>
      rcases mem_modify ht with hold | ⟨old, hold, rfl⟩
      · exact .inl hold
      · rw [hget] at hold
        cases hold
        exact .inr (.inr ⟨_, List.mem_of_getElem? hget, rfl, by simp [hphase]⟩)
  | task hget hphase =>
      -- the phase changes after the action, which may have queued a task of its own
      rw [act_task hget hphase]
      rcases mem_modify ht with hmem | ⟨old, hold, rfl⟩
      · rcases mem_tasks_of_apply hmem with hold | hnew
        · exact .inl hold
        · exact .inr (.inl hnew)
      · rw [tasks_getElem?_apply hget] at hold
        cases hold
        exact .inr (.inr ⟨_, List.mem_of_getElem? hget, rfl, by simp [hphase]⟩)

/-! ## What a step does to the shared objects -/

/-- The label's own point is one of them. -/
theorem mem_of_deletePoint {s : Lifecycle} {label : Label} {pc : DeletePc}
    (h : s.deletePoint label = some pc) : pc ∈ s.deletePoints := by
  cases label with
  | request thread answer =>
      obtain ⟨request, hget, hpoint⟩ := Option.bind_eq_some_iff.mp h
      refine List.mem_append_right _ (List.mem_filterMap.mpr ⟨request, ?_, hpoint⟩)
      exact List.mem_of_getElem? hget
  | monitor answer => exact List.mem_append_left _ (Option.mem_toList.mpr h)
  | _ => cases h

/-- The `BuildStatus` for which the step is about to hand a new runner to `workExecutor`. -/
def enqueues (s : Lifecycle) (label : Label) : Option Nat :=
  match s.deletePoint label, label with
  | some (.enqueue work), _ => some work
  | _, .request thread _ =>
      match s.requests[thread]? with
      | some (.publish _ (.enqueue work)) => some work
      | _ => none
  | _, _ => none

/-- Everything a step can do to the shared objects, with the point it does it from. -/
inductive Acts (s : Lifecycle) : Label → Action → Prop
  | skip (label : Label) : Acts s label .skip
  | allocate (label : Label) {b : BuildStatus} (hb : b.status.OfService ∨ b.status = .submitted) :
      Acts s label (.allocate b)
  | enqueue {label : Label} {work : Nat} (h : enqueues s label = some work) :
      Acts s label (.submitRunner work)
  | delete {label : Label} {pc : DeletePc} {action : Action} (hpoint : s.deletePoint label = some pc)
      (h : DeleteActs s.shared pc action) : Acts s label action
  | monitor {runner : Nat} {pc : MonitorPc} {action : Action} (answer : Answer)
      (hmonitor : s.monitor = some (runner, pc))
      (h : MonitorActs runner (s.shared.runnerWork runner) s.shared pc action)
      (hpc : ∀ p, pc ≠ .deleting p) : Acts s (.monitor answer) action
  | task {index : Nat} {job : Job} {pc : TaskPc} {answer : Answer} {action : Action}
      (hget : s.shared.tasks[index]? = some ⟨job, .running pc⟩) (h : JobActs job pc answer action) :
      Acts s (.task index answer) action

/-- Whatever thread moves, its action is one that `Acts` lists. -/
theorem acts (s : Lifecycle) (label : Label) : Acts s label (act s label) := by
  cases label with
  -- a request that begins touches nothing of what the threads share
  | publish v => exact .skip _
  | delete v => exact .skip _
  | request thread answer =>
      cases hget : s.requests[thread]? with
      | none => simp only [act, hget]; exact .skip _
      | some request =>
          rw [act_request hget]
          cases request with
          | publish v pc =>
              have hpublish := publishVirtualization_acts v s.shared pc answer
              show Acts s _ (publishVirtualization v s.shared pc answer).1
              -- the action is abstracted, so that its cases do not unfold the program of the request
              revert hpublish
              generalize (publishVirtualization v s.shared pc answer).1 = action
              intro hpublish
              cases hpublish with
              | skip => exact .skip _
              | allocate _ hb => exact .allocate _ hb
              | enqueue work =>
                  exact .enqueue (by simp [enqueues, deletePoint, Request.deletePoint, hget])
          | delete v pc =>
              have hpoint : s.deletePoint (.request thread answer) = some pc := by
                simp only [deletePoint, hget]
                rfl
              exact .delete hpoint (deleteVirtualization_acts v s.shared pc answer)
  | monitor answer =>
      cases hmonitor : s.monitor with
      | none => simp only [act, hmonitor]; exact .skip _
      | some monitor =>
          obtain ⟨runner, pc⟩ := monitor
          rw [act_monitor hmonitor]
          by_cases hpc : ∃ p, pc = .deleting p
          · -- inside `deleteVirtualization` the monitor acts as a request does
            obtain ⟨p, rfl⟩ := hpc
            have hpoint : s.deletePoint (.monitor answer) = some p := by
              simp only [deletePoint, hmonitor]
              rfl
            exact .delete hpoint (runBuildStatus_deleting_acts _ _ _ p answer)
          · have hother : ∀ p, pc ≠ .deleting p := fun p hp => hpc ⟨p, hp⟩
            exact .monitor answer hmonitor (runBuildStatus_acts _ _ _ answer hother) hother
  | task index answer =>
      cases hget : s.shared.tasks[index]? with
      | none => simp only [act, hget]; exact .skip _
      | some task =>
          obtain ⟨job, phase⟩ := task
          cases phase with
          | running pc =>
              rw [act_task hget rfl]
              exact .task hget (job_acts job pc answer)
          | _ => simp only [act, hget]; exact .skip _

/-- A status is written by a thread in `deleteVirtualization`, by the monitor into the work of its
runner, or by a running task. -/
theorem act_sets {s : Lifecycle} {label : Label} {work : Nat} {status : Status}
    (h : (act s label).Sets work status) :
    (∃ queue, s.deletePoint label = some (.checkUsed work queue) ∧
        (s.shared.work work).usedBy ≠ [] ∧ status = .cancelled) ∨
      (∃ queue, s.deletePoint label = some (.write work queue) ∧ status = .deleteSubmitted) ∨
      (∃ answer runner pc, label = .monitor answer ∧ s.monitor = some (runner, pc) ∧
        work = s.shared.runnerWork runner ∧ status.OfMonitor ∧ pc.writesStatus = true) ∨
      ∃ index answer job pc, label = .task index answer ∧
        s.shared.tasks[index]? = some ⟨job, .running pc⟩ ∧
        ∃ action, JobActs job pc answer action ∧ action.Sets work status := by
  obtain ⟨fields, hwrite, hstatus⟩ := h
  have hacts := acts s label
  rw [hwrite] at hacts
  cases hacts with
  | delete hpoint hdelete =>
      cases hdelete with
      | cancel _ queue hused hcancel =>
          rw [hstatus] at hcancel
          exact .inl ⟨queue, hpoint, hused, Option.some.inj hcancel⟩
      | mark _ queue hmark =>
          rw [hstatus] at hmark
          exact .inr (.inl ⟨queue, hpoint, Option.some.inj hmark⟩)
  | monitor answer hmonitor hacts _ =>
      cases hacts with
      | write _ hown =>
          obtain ⟨hof, hpc⟩ := hown status hstatus
          exact .inr (.inr (.inl ⟨answer, _, _, rfl, hmonitor, rfl, hof, hpc⟩))
  | task hget hjob => exact .inr (.inr (.inr ⟨_, _, _, _, rfl, hget, _, hjob, _, rfl, hstatus⟩))

/-- A configure task settles its build; a delete task requeues or ends its deletion. -/
theorem job_sets {job : Job} {pc : TaskPc} {answer : Answer} {action : Action} {work : Nat}
    {status : Status} (hjob : JobActs job pc answer action) (h : action.Sets work status) :
    (job = .configure work ∧ (status = .building ∨ status = .failed)) ∨
      (∃ name, job = .delete work name ∧
        ((status = .deleteRequeue ∧ answer.call = .kubernetesClientException ∧
            ∃ block blocks, pc = .deleting (block :: blocks)) ∨
          (status = .deleteDone ∧ pc = .deleting []))) := by
  cases hjob with
  | skip =>
      obtain ⟨_, hskip, _⟩ := h
      cases hskip
  | configure ref _ _ hbuild =>
      obtain ⟨rfl, hstatus⟩ := Action.sets_write h
      exact .inl ⟨rfl, hbuild status hstatus⟩
  | requeue ref name block blocks hcall =>
      obtain ⟨rfl, hstatus⟩ := Action.sets_write h
      exact .inr ⟨name, rfl, .inl ⟨(Option.some.inj hstatus).symm, hcall, block, blocks, rfl⟩⟩
  | done ref name =>
      obtain ⟨rfl, hstatus⟩ := Action.sets_write h
      exact .inr ⟨name, rfl, .inr ⟨(Option.some.inj hstatus).symm, rfl⟩⟩

/-- `DELETE_SUBMITTED` is written by `deleteVirtualization`, and by nothing else. -/
theorem deletePoint_of_sets {s : Lifecycle} {label : Label} {work : Nat}
    (h : (act s label).Sets work .deleteSubmitted) :
    ∃ queue, s.deletePoint label = some (.write work queue) := by
  rcases act_sets h with ⟨_, _, _, hst⟩ | ⟨queue, hpoint, _⟩ | ⟨_, _, _, _, _, _, hst, _⟩ |
    ⟨_, _, _, _, _, _, _, hjob, hsets⟩
  · cases hst
  · exact ⟨queue, hpoint⟩
  · simp [Status.OfMonitor] at hst
  · rcases job_sets hjob hsets with ⟨_, hst⟩ | ⟨_, _, ⟨hst, _⟩ | ⟨hst, _⟩⟩ <;> simp at hst

/-- A new `BuildStatus` holds what OpenShift reports, or a submitted build. -/
theorem act_allocates {s : Lifecycle} {label : Label} {b : BuildStatus}
    (h : act s label = .allocate b) : b.status.OfService ∨ b.status = .submitted := by
  have hacts := acts s label
  rw [h] at hacts
  cases hacts with
  | allocate _ hb => exact hb
  | delete _ hdelete =>
      cases hdelete with
      | allocate _ hb => exact .inl hb
  | monitor _ _ hmonitor _ => cases hmonitor
  | task _ hjob => cases hjob

/-- Only the monitor configures a build. -/
theorem act_configures {s : Lifecycle} {label : Label} {work : Nat}
    (h : act s label = .submitTask (.configure work)) :
    ∃ runner, s.monitor = some (runner, .executeConfigure) ∧ s.shared.runnerWork runner = work := by
  have hacts := acts s label
  rw [h] at hacts
  cases hacts with
  | delete _ hdelete => cases hdelete
  | monitor _ hmonitor hacts _ =>
      cases hacts
      exact ⟨_, hmonitor, rfl⟩
  | task _ hjob => cases hjob

/-- Only a publish request submits a new runner. -/
theorem act_submitsRunner {s : Lifecycle} {label : Label} {work : Nat}
    (h : act s label = .submitRunner work) : enqueues s label = some work := by
  have hacts := acts s label
  rw [h] at hacts
  cases hacts with
  | enqueue henqueues => exact henqueues
  | delete hpoint hdelete =>
      cases hdelete
      simp only [enqueues, hpoint]
  | monitor _ _ hmonitor _ => cases hmonitor
  | task _ hjob => cases hjob

/-- The monitor resubmits the runner it is executing. -/
theorem act_resubmits {s : Lifecycle} {label : Label} {runner : Nat}
    (h : act s label = .resubmit runner) : s.monitor = some (runner, .resubmit) := by
  have hacts := acts s label
  rw [h] at hacts
  cases hacts with
  | delete _ hdelete => cases hdelete
  | monitor _ hmonitor hacts _ =>
      cases hacts
      exact hmonitor
  | task _ hjob => cases hjob

/-- Tasks submit no tasks. -/
theorem task_ne_submitTask {s : Lifecycle} {index : Nat} {answer : Answer} {job : Job} :
    act s (.task index answer) ≠ .submitTask job := by
  intro h
  have hacts := acts s (.task index answer)
  rw [h] at hacts
  cases hacts with
  | delete hpoint _ => cases hpoint
  | task _ hjob => cases hjob

/-- Tasks do not submit tasks, so a submitted task is queued after the step. -/
theorem queued_of_submitTask {s t : Lifecycle} {label : Label} (h : Moved s label t) {job : Job}
    (hact : act s label = .submitTask job) : { job := job } ∈ t.shared.tasks := by
  cases h with
  | publish | delete => cases hact
  | take hidle _ => simp only [act, hidle] at hact; cases hact
  | idle hmonitor => rw [act_monitor hmonitor] at hact; cases hact
  | request hrequest =>
      rw [act_request hrequest] at hact
      rw [hact]
      exact List.mem_append_right _ (List.mem_singleton_self _)
  | monitor hmonitor _ =>
      rw [act_monitor hmonitor] at hact
      rw [hact]
      exact List.mem_append_right _ (List.mem_singleton_self _)
  | start | task => exact absurd hact task_ne_submitTask

end Lifecycle

end TeiidSyndesis.OpenShift
