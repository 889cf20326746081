/-
# TeiidSyndesis.OpenShift.UnpublishSettles — a deletion that has run is not left pending.

`deleteVirtualization` hands its delete task to `configureService` before it writes
`DELETE_SUBMITTED`.  When the task ends first, the late write hides the task's `DELETE_DONE`: the
monitor then requeues the job forever and the Syndesis connection is never removed.  The invariant
below is what holds when a task ends only after that write: a status marked, or about to be marked,
`DELETE_SUBMITTED` has a delete task that is still to end.

Main results:
* `deleteTask_writes_done`, `deleteTask_raises` — how the task of a deletion ends;
* `needs_of_moved`, `settled_of_ends` — what a step may bring, and what the end of a task settles;
* `deletionsPending_step` — the invariant, kept where a task ends after the mark is written;
* `unpublish_not_stuck` — so no job is left pending in such a run;
* `unpublish_stuck` — and one that is.
-/
import TeiidSyndesis.Library.Lists
import TeiidSyndesis.OpenShift.LifecycleSteps

namespace TeiidSyndesis.OpenShift

open TeiidSyndesis.Library

/-! ## Jobs that wait for their deletion -/

/-- The next step writes `DELETE_SUBMITTED` into `work`. -/
def DeletePc.writes (pc : DeletePc) (work : Nat) : Bool :=
  match pc with
  | .write ref _ => ref == work
  | _ => false

/-- The job deletes for this object. -/
def Job.deletes (job : Job) (work : Nat) : Bool :=
  match job with
  | .configure _ => false
  | .delete ref _ => ref == work

/-- The delete task ends here with a throwable that no block catches. -/
def TaskPc.raises (pc : TaskPc) (call : Call) : Bool :=
  match pc with
  | .openClient => call != .returns
  | .deleting (_ :: _) => call == .exception || call == .error
  | _ => false

/-- The next step of the delete task is its last. -/
def TaskPc.ends (pc : TaskPc) (call : Call) : Bool := pc.raises call || pc == .deleting []

/-- A task that has finished has come to its end. -/
theorem ends_of_finished {work : Nat} {name : String} {pc : TaskPc} {answer : Answer}
    (h : (deleteTask work name pc answer).2 = .finished) : pc.ends answer.call = true := by
  cases pc with
  | openClient =>
      simp only [deleteTask] at h
      split at h
      · cases h
      · rename_i hcall
        simpa [TaskPc.ends, TaskPc.raises] using hcall
  | deleting blocks =>
      cases blocks with
      | nil => rfl
      | cons block blocks => cases hcall : answer.call <;> simp_all [deleteTask, TaskPc.ends, TaskPc.raises]
  | _ => cases h

/-- The last write of a delete task is the one that is not skipped by a throwable. -/
theorem deleteTask_writes_done {work : Nat} {name : String} {pc : TaskPc} {answer : Answer}
    (hends : pc.ends answer.call = true) (hraises : pc.raises answer.call = false) :
    (deleteTask work name pc answer).1.Sets work .deleteDone := by
  obtain rfl : pc = .deleting [] := by simpa [TaskPc.ends, hraises] using hends
  exact ⟨_, rfl, rfl⟩

/-- A throwable writes nothing. -/
theorem deleteTask_raises {work : Nat} {name : String} {pc : TaskPc} {answer : Answer}
    (h : pc.raises answer.call = true) : (deleteTask work name pc answer).1 = .skip := by
  cases pc with
  | openClient =>
      have hcall : answer.call ≠ .returns := by simpa [TaskPc.raises] using h
      simp only [deleteTask, if_neg hcall]
  | deleting blocks =>
      cases blocks with
      | nil => cases h
      | cons block blocks =>
          simp only [deleteTask]
          split
          · rfl
          · rename_i hcall
            simp [TaskPc.raises, hcall] at h
          all_goals rfl
  | _ => cases h

namespace Lifecycle

/-- Some thread has submitted a delete task for `work` and is still to mark it. -/
def AboutToMark (s : Lifecycle) (work : Nat) : Prop :=
  ∃ pc ∈ s.deletePoints, pc.writes work = true

/-- A delete task for `work` is queued or running. -/
def DeletePending (s : Lifecycle) (work : Nat) : Prop :=
  ∃ task ∈ s.shared.tasks, task.job.deletes work = true ∧ task.phase ≠ .finished

/-- A delete task for `work` has ended. -/
def DeleteFinished (s : Lifecycle) (work : Nat) : Prop :=
  ∃ task ∈ s.shared.tasks, task.job.deletes work = true ∧ task.phase = .finished

/-- Every call of `deleteVirtualization` that works on `work` has returned. -/
def DeleteReturned (s : Lifecycle) (work : Nat) : Prop :=
  ∀ pc ∈ s.deletePoints, pc.work ≠ some work

/-- The delete task is over, nobody will mark or delete again, and the job still waits for it. -/
def Stuck (s : Lifecycle) (work : Nat) : Prop :=
  s.status work = .deleteSubmitted ∧ DeleteFinished s work ∧ ¬ DeletePending s work ∧
    DeleteReturned s work

instance (s : Lifecycle) (work : Nat) : Decidable (AboutToMark s work) :=
  inferInstanceAs (Decidable (∃ pc ∈ s.deletePoints, pc.writes work = true))

instance (s : Lifecycle) (work : Nat) : Decidable (DeletePending s work) :=
  inferInstanceAs (Decidable (∃ task ∈ s.shared.tasks,
    task.job.deletes work = true ∧ task.phase ≠ .finished))

instance (s : Lifecycle) (work : Nat) : Decidable (DeleteFinished s work) :=
  inferInstanceAs (Decidable (∃ task ∈ s.shared.tasks,
    task.job.deletes work = true ∧ task.phase = .finished))

instance (s : Lifecycle) (work : Nat) : Decidable (DeleteReturned s work) :=
  inferInstanceAs (Decidable (∀ pc ∈ s.deletePoints, pc.work ≠ some work))

instance (s : Lifecycle) (work : Nat) : Decidable (Stuck s work) :=
  inferInstanceAs (Decidable (_ ∧ _))

/-- A delete task for `work` other than the task at `index` is queued or running. -/
def OtherDeletePending (s : Lifecycle) (index work : Nat) : Prop :=
  ∃ task ∈ s.shared.tasks.eraseIdx index, task.job.deletes work = true ∧ task.phase ≠ .finished

instance (s : Lifecycle) (index work : Nat) : Decidable (OtherDeletePending s index work) :=
  inferInstanceAs (Decidable (∃ task ∈ s.shared.tasks.eraseIdx index,
    task.job.deletes work = true ∧ task.phase ≠ .finished))

/-- A step that ends the last delete task of a `BuildStatus` is taken when no thread is still to
mark the deletion, and not by a throwable that leaves `DELETE_SUBMITTED` behind. -/
def endsDeleteInOrder (s : Lifecycle) (label : Label) : Bool :=
  match label with
  | .task index answer =>
      match s.shared.tasks[index]? with
      | some ⟨.delete work _, .running pc⟩ =>
          !pc.ends answer.call || decide (OtherDeletePending s index work) ||
            (!decide (AboutToMark s work) &&
              (!pc.raises answer.call || s.status work != .deleteSubmitted))
      | _ => true
  | _ => true

/-! ## What a step does to points and tasks -/

/-- A thread comes to the marking write by submitting the delete task. -/
theorem aboutToMark_of_moved {s t : Lifecycle} {label : Label} (h : Moved s label t) {work : Nat}
    (ht : AboutToMark t work) :
    AboutToMark s work ∨ ∃ name, act s label = .submitTask (.delete work name) := by
  obtain ⟨pc, hpc, hwrites⟩ := ht
  rcases deletePoint_of_moved h hpc with hmem | rfl | ⟨v, answer, p, hp, hnext, hact⟩
  · exact .inl ⟨pc, hmem, hwrites⟩
  · cases hwrites
  · obtain ⟨queue, rfl⟩ : ∃ queue, pc = .write work queue := by
      cases pc <;> simp [DeletePc.writes] at hwrites
      exact ⟨_, by rw [hwrites]⟩
    exact .inr ⟨_, hact.trans (deleteVirtualization_next_write hnext.symm).2⟩

/-- Another task of the deletion is still there. -/
theorem mem_tasks_of_otherPending {s t : Lifecycle} {index : Nat} {answer : Answer} {work : Nat}
    (h : Moved s (.task index answer) t) (hs : OtherDeletePending s index work) :
    DeletePending t work := by
  obtain ⟨task, htask, hdeletes, hphase⟩ := hs
  cases h with
  | start => exact ⟨task, mem_modify_of_mem_eraseIdx htask _, hdeletes, hphase⟩
  | @task _ _ task' pc =>
      obtain ⟨j, hj, hget⟩ := List.mem_eraseIdx_iff_getElem?.mp htask
      have hkept : task ∈ ((task'.job.run pc answer).1.apply s.shared).tasks.eraseIdx index :=
        List.mem_eraseIdx_iff_getElem?.mpr ⟨j, hj, tasks_getElem?_apply hget⟩
      exact ⟨task, mem_modify_of_mem_eraseIdx hkept _, hdeletes, hphase⟩

/-- A pending deletion stays pending, unless the step ends its task. -/
theorem deletePending_of_moved {s t : Lifecycle} {label : Label} (h : Moved s label t) {work : Nat}
    (hs : DeletePending s work) :
    DeletePending t work ∨
      ∃ index answer name pc, label = .task index answer ∧
        s.shared.tasks[index]? = some ⟨.delete work name, .running pc⟩ ∧
        pc.ends answer.call = true := by
  obtain ⟨task, htask, hdeletes, hphase⟩ := hs
  -- a pending task is only ended by a step of its own
  cases h with
  | publish | delete | take | idle => exact .inl ⟨task, htask, hdeletes, hphase⟩
  | request | monitor => exact .inl ⟨task, mem_tasks_apply htask, hdeletes, hphase⟩
  | @start index answer task' hget hqueued _ =>
      rcases mem_modify_or htask index
          (fun task'' => { task'' with phase := .running task'.job.start }) with hmem | ⟨_, hmem⟩
      · exact .inl ⟨task, hmem, hdeletes, hphase⟩
      · exact .inl ⟨_, hmem, hdeletes, by simp⟩
  | @task index answer task' pc hget hrunning =>
      rcases mem_modify_or (mem_tasks_apply htask) index
          (fun task'' => { task'' with phase := (task'.job.run pc answer).2 }) with
        hmem | ⟨hsame, hmem⟩
      · exact .inl ⟨task, hmem, hdeletes, hphase⟩
      · -- the pending task is the one that takes the step
        rw [tasks_getElem?_apply hget] at hsame
        cases hsame
        obtain ⟨job, phase⟩ := task
        cases hrunning
        cases job with
        | configure ref => cases hdeletes
        | delete ref name =>
            obtain rfl : ref = work := by simpa [Job.deletes] using hdeletes
            by_cases hend : (deleteTask ref name pc answer).2 = .finished
            · exact .inr ⟨index, answer, name, pc, rfl, hget, ends_of_finished hend⟩
            · exact .inl ⟨_, hmem, hdeletes, hend⟩

/-- A step in order that ends a delete task leaves another one, or nobody to wait for it. -/
theorem inOrder_ends {s : Lifecycle} {index work : Nat} {name : String} {pc : TaskPc}
    {answer : Answer} (hget : s.shared.tasks[index]? = some ⟨.delete work name, .running pc⟩)
    (horder : endsDeleteInOrder s (.task index answer) = true) (hends : pc.ends answer.call = true) :
    OtherDeletePending s index work ∨
      (¬ AboutToMark s work ∧
        (pc.raises answer.call = true → s.status work ≠ .deleteSubmitted)) := by
  simp only [endsDeleteInOrder, hget, hends] at horder
  simpa [imp_iff_not_or] using horder

/-! ## The invariant -/

/-- A job marked `DELETE_SUBMITTED`, or about to be, has a deletion that is still to end. -/
def DeletionsPending (s : Lifecycle) : Prop :=
  ∀ work, s.status work = .deleteSubmitted ∨ AboutToMark s work → DeletePending s work

/-- Nothing is to be deleted. -/
theorem deletionsPending_initial : DeletionsPending initial := by
  rintro work (hstatus | ⟨pc, hpc, _⟩)
  · cases hstatus
  · cases hpc

/-- What newly needs a deletion: a thread that has just submitted one. -/
theorem needs_of_moved {s t : Lifecycle} {label : Label} (h : Moved s label t) {work : Nat}
    (ht : t.status work = .deleteSubmitted ∨ AboutToMark t work) :
    (s.status work = .deleteSubmitted ∨ AboutToMark s work) ∨
      ∃ name, act s label = .submitTask (.delete work name) := by
  rcases ht with hstatus | hmark
  · rcases status_of_moved h work with hsame | hsets | ⟨b, hact, _, hb⟩
    · exact .inl (.inl (hsame ▸ hstatus))
    · -- who writes the mark was about to write it
      rw [hstatus] at hsets
      obtain ⟨queue, hpoint⟩ := deletePoint_of_sets hsets
      exact .inl (.inr ⟨_, mem_of_deletePoint hpoint, by simp [DeletePc.writes]⟩)
    · -- no new object is created with the mark
      rw [hstatus] at hb
      rcases act_allocates hact with hservice | hsubmitted
      · simp [Status.OfService, ← hb] at hservice
      · rw [← hb] at hsubmitted
        cases hsubmitted
  · rcases aboutToMark_of_moved h hmark with hold | hnew
    · exact .inl (.inr hold)
    · exact .inr hnew

/-- When the task of a deletion nobody will mark ends, nothing is left that waits for it. -/
theorem settled_of_ends {s t : Lifecycle} {index work : Nat} {name : String} {pc : TaskPc}
    {answer : Answer} (h : Moved s (.task index answer) t)
    (hget : s.shared.tasks[index]? = some ⟨.delete work name, .running pc⟩)
    (hends : pc.ends answer.call = true) (hmark : ¬ AboutToMark s work)
    (hstatus : pc.raises answer.call = true → s.status work ≠ .deleteSubmitted) :
    ¬ (t.status work = .deleteSubmitted ∨ AboutToMark t work) := by
  have hact : act s (.task index answer) = (deleteTask work name pc answer).1 := act_task hget rfl
  have hread : t.status work = ((act s (.task index answer)).apply s.shared).status work :=
    congrArg BuildStatus.status (Shared.work_congr (works_of_moved h) work)
  rintro (ht | ht)
  -- the task has written the end of the deletion, or what its failure leaves
  · rw [hread, hact] at ht
    cases hraises : pc.raises answer.call with
    | true =>
        rw [deleteTask_raises hraises] at ht
        exact hstatus hraises ht
    | false =>
        have hsets := @deleteTask_writes_done work name pc answer hends hraises
        by_cases hlt : work < s.shared.works.length
        · rw [Action.status_of_sets hsets hlt] at ht
          cases ht
        · -- a write to no object leaves no object there
          obtain ⟨fields, hwrite, _⟩ := hsets
          have hlen : ((deleteTask work name pc answer).1.apply s.shared).works.length ≤ work := by
            rw [hwrite]
            simpa [Action.apply] using hlt
          have hnone := congrArg BuildStatus.status (Shared.work_of_length_le hlen)
          rw [Shared.status_eq, ht] at hnone
          cases hnone
  · rcases aboutToMark_of_moved h ht with hold | ⟨next, hsubmit⟩
    · exact hmark hold
    · exact task_ne_submitTask hsubmit

/-- A step keeps the invariant. -/
theorem deletionsPending_step {s t : Lifecycle} {label : Label} (hs : DeletionsPending s)
    (horder : endsDeleteInOrder s label = true) (h : next s label = some t) :
    DeletionsPending t := by
  intro work ht
  have hmoved := moved_of_next h
  rcases needs_of_moved hmoved ht with hneeds | ⟨name, hact⟩
  · rcases deletePending_of_moved hmoved (hs work hneeds) with
      hpending | ⟨index, answer, name, pc, rfl, hget, hends⟩
    · exact hpending
    · rcases inOrder_ends hget horder hends with hother | ⟨hmark, hstatus⟩
      · exact mem_tasks_of_otherPending hmoved hother
      · exact absurd ht (settled_of_ends hmoved hget hends hmark hstatus)
  · exact ⟨_, queued_of_submitTask hmoved hact, by simp [Job.deletes], by simp⟩

/-- In a run that ends delete tasks in order, no deletion that is over is left pending. -/
theorem unpublish_not_stuck {s : Lifecycle} {tr : List (Lifecycle × Label)}
    (hrun : system.Run initial tr s)
    (horder : System.Guarded (fun s label => endsDeleteInOrder s label = true) tr) (work : Nat) :
    ¬ Stuck s work := by
  have hinv : DeletionsPending s := by
    refine hrun.invariant ?_ ?_ rfl horder
    · rintro s rfl
      exact deletionsPending_initial
    · intro s label t hs hguard hstep
      exact deletionsPending_step hs hguard hstep
  rintro ⟨hstatus, _, hpending, _⟩
  exact hpending (hinv work (.inl hstatus))

/-! ## Two schedules of one unpublish request -/

/-- A virtualization that OpenShift reports as running. -/
def deployedService : ServiceView :=
  { builds := [{ name := "dv-v-1", phase := .complete }]
    deploymentConfig := some { name := "dv-v", conditions := [{ type := "Available", status := "True" }] } }

/-- The request of the first thread up to the delete task it submits. -/
def unpublishUntilSubmitted : List Label :=
  .delete "v" :: List.replicate 8 (.request 0 { service := deployedService })

/-- All of the first task: it starts, opens the client and runs through its ten blocks. -/
def deleteTaskSteps : List Label := List.replicate 13 (.task 0 {})

theorem unpublish_not_stuck_inOrder :
    ¬ Stuck (System.after next initial
      (unpublishUntilSubmitted ++ .request 0 {} :: deleteTaskSteps)) 0 :=
  unpublish_not_stuck (System.run_after _ next initial _) (by decide) 0

/-- The delete task can end before the request marks the job, which is then stuck. -/
theorem unpublish_stuck :
    ¬ ∀ (tr : List (Lifecycle × Label)) (s : Lifecycle) (work : Nat),
      system.Run initial tr s → ¬ Stuck s work := by
  intro h
  have hrun := System.run_after (· = initial) next initial
    (unpublishUntilSubmitted ++ (deleteTaskSteps ++ [.request 0 {}, .request 0 {}]))
  exact h _ _ 0 hrun (by decide)

end Lifecycle

end TeiidSyndesis.OpenShift
