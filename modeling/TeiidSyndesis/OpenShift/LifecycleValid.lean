/-
# TeiidSyndesis.OpenShift.LifecycleValid — every reference a thread holds is to an object that exists.

A reference is a position in the list of all objects of its kind, so an invariant has to say that no
thread holds one past the end: a queue entry, a monitored job and a request point at runners and
`BuildStatus` objects that were created before.  The second half of the invariant is what
`deleteVirtualization` has checked when it goes on: the job it deletes is used nowhere.  Both hold in
every run, without a guard.

Main results:
* `valid_apply` — an action that names objects in range keeps every reference of the shared objects;
* `getVirtualizationStatus_valid`, `publishVirtualization_valid`, `deleteVirtualization_valid`,
  `job_validIn` — one lemma for each program that takes actions;
* `valid_step`, `valid_of_run` — the invariant `Lifecycle.Valid` holds of every state that is reached.
-/
import TeiidSyndesis.OpenShift.LifecycleSteps

namespace TeiidSyndesis.OpenShift

open TeiidSyndesis.Library

/-! ## References in the shared objects -/

namespace Shared

/-- Every reference the shared objects hold is to an object that exists. -/
structure Valid (s : Shared) : Prop where
  runners : ∀ work ∈ s.runners, work < s.works.length
  activeJobs : ∀ job ∈ s.activeJobs, job.2 < s.works.length
  workQueue : ∀ runnable ∈ s.workQueue, runnable.runner < s.runners.length

/-- The reference, if there is one, is to an existing `BuildStatus`. -/
def InRange (s : Shared) (ref : Option Nat) : Prop :=
  ∀ work, ref = some work → work < s.works.length

/-- No reference is in range trivially. -/
theorem inRange_none (s : Shared) : s.InRange none := by
  intro work h
  cases h

/-- A reference is in range exactly if its object has been created. -/
theorem inRange_some {s : Shared} {work : Nat} : s.InRange (some work) ↔ work < s.works.length := by
  constructor
  · intro h
    exact h work rfl
  · intro h ref href
    cases href
    exact h

/-- Objects are only ever added, so a reference stays in range. -/
theorem InRange.mono {s t : Shared} {ref : Option Nat} (h : s.InRange ref)
    (hlen : s.works.length ≤ t.works.length) : t.InRange ref :=
  fun work href => Nat.lt_of_lt_of_le (h work href) hlen

/-- The job of a runner that exists is a job that exists. -/
theorem Valid.runnerWork_lt {s : Shared} (hs : s.Valid) {runner : Nat}
    (h : runner < s.runners.length) : s.runnerWork runner < s.works.length := by
  unfold runnerWork
  rw [List.getD_eq_getElem _ _ h]
  exact hs.runners _ (List.getElem_mem h)

/-- The job under which a name is monitored is a job that exists. -/
theorem Valid.active_lt {s : Shared} (hs : s.Valid) {name : String} {work : Nat}
    (h : s.activeJobs.lookup name = some work) : work < s.works.length := by
  obtain ⟨l₁, l₂, hl, _⟩ := List.lookup_eq_some_iff.mp h
  exact hs.activeJobs (name, work) (hl ▸ List.mem_append_right _ List.mem_cons_self)

/-- The job a name is queued with is a job that exists. -/
theorem Valid.queuedWork_lt {s : Shared} (hs : s.Valid) {name : String} {work : Nat}
    (h : s.queuedWork name = some work) : work < s.works.length := by
  obtain ⟨runnable, hmem, hfound⟩ := List.exists_of_findSome?_eq_some h
  cases runnable with
  | futureTask runner => cases hfound
  | buildStatusRunner runner =>
      dsimp only at hfound
      split at hfound
      · cases hfound
        exact hs.runnerWork_lt (hs.workQueue _ hmem)
      · cases hfound

/-- New runners leave the work of the others alone. -/
theorem runnerWork_apply {s : Shared} {runner : Nat} (h : runner < s.runners.length)
    (action : Action) : (action.apply s).runnerWork runner = s.runnerWork runner := by
  cases action with
  | submitRunner work =>
      unfold runnerWork
      exact List.getD_append _ _ _ _ h
  | _ => rfl

/-- No action removes a runner. -/
theorem runners_length_le_apply (action : Action) (s : Shared) :
    s.runners.length ≤ (action.apply s).runners.length := by
  cases action <;> simp [Action.apply]

/-- The runner and the job it works at are there. -/
structure RunsAt (s : Shared) (runner work : Nat) : Prop where
  runner_lt : runner < s.runners.length
  runnerWork_eq : s.runnerWork runner = work
  work_lt : work < s.works.length

/-- A runner keeps its job through every action. -/
theorem RunsAt.apply {s : Shared} {runner work : Nat} (h : s.RunsAt runner work) (action : Action) :
    (action.apply s).RunsAt runner work where
  runner_lt := Nat.lt_of_lt_of_le h.runner_lt (runners_length_le_apply action s)
  runnerWork_eq := (runnerWork_apply h.runner_lt action).trans h.runnerWork_eq
  work_lt := Nat.lt_of_lt_of_le h.work_lt (Action.apply_works_length_le action s)

end Shared

namespace Action

/-- The references the action stores are to existing objects. -/
def ValidIn (action : Action) (s : Shared) : Prop :=
  match action with
  | .submitRunner work => work < s.works.length
  | .putActive _ work => work < s.works.length
  | .resubmit runner => runner < s.runners.length
  | _ => True

/-- One action keeps the references of the shared objects, if its own are in range. -/
theorem valid_apply {action : Action} {s : Shared} (ha : action.ValidIn s) (hs : s.Valid) :
    (action.apply s).Valid := by
  -- the lists only grow, so an index that was valid stays valid
  have hlen := apply_works_length_le action s
  have hrunners := Shared.runners_length_le_apply action s
  constructor
  · intro work hmem
    refine Nat.lt_of_lt_of_le ?_ hlen
    cases action with
    | submitRunner ref =>
        rcases List.mem_append.mp hmem with hold | hnew
        · exact hs.runners work hold
        · rw [List.mem_singleton.mp hnew]
          exact ha
    | _ => exact hs.runners work hmem
  · intro job hmem
    refine Nat.lt_of_lt_of_le ?_ hlen
    cases action with
    | putActive name ref =>
        rcases List.mem_cons.mp hmem with rfl | hold
        · exact ha
        · exact hs.activeJobs job (List.mem_filter.mp hold).1
    | removeActive name => exact hs.activeJobs job (List.mem_filter.mp hmem).1
    | _ => exact hs.activeJobs job hmem
  · intro runnable hmem
    cases action with
    | submitRunner ref =>
        rcases List.mem_append.mp hmem with hold | hnew
        · exact Nat.lt_of_lt_of_le (hs.workQueue runnable hold) hrunners
        · rw [List.mem_singleton.mp hnew]
          show s.runners.length < (s.runners ++ [ref]).length
          simp
    | resubmit runner =>
        rcases List.mem_append.mp hmem with hold | hnew
        · exact hs.workQueue runnable hold
        · rw [List.mem_singleton.mp hnew]
          exact ha
    | _ => exact hs.workQueue runnable hmem

end Action

/-! ## References held at program points -/

/-- The job a request for the status has found. -/
def StatusPc.work : StatusPc → Option Nat
  | .found work => some work
  | _ => none

/-- The job a publish request has in hand. -/
def PublishPc.work : PublishPc → Option Nat
  | .status pc => pc.work
  | .check work | .enqueue work => some work
  | _ => none

/-- What `deleteVirtualization` knows at a point: its job exists, and once checked it is unused. -/
def DeletePc.Valid (pc : DeletePc) (s : Shared) : Prop :=
  s.InRange pc.work ∧
    match pc with
    | .submit work _ | .write work _ => (s.work work).usedBy = []
    | _ => True

/-- What a delete request has checked stays so while no job comes into use. -/
theorem DeletePc.Valid.mono {pc : DeletePc} {s t : Shared} (h : pc.Valid s)
    (hlen : s.works.length ≤ t.works.length)
    (hused : ∀ ref, ref < s.works.length → (t.work ref).usedBy = (s.work ref).usedBy) :
    pc.Valid t := by
  refine ⟨h.1.mono hlen, ?_⟩
  cases pc with
  | submit work queue => exact (hused work (h.1 work rfl)).trans h.2
  | write work queue => exact (hused work (h.1 work rfl)).trans h.2
  | _ => trivial

/-- A status lookup finds a monitored job, a queued one, or the record it has just allocated. -/
theorem getVirtualizationStatus_valid {virtualization : String} {s : Shared} {pc : StatusPc}
    {answer : Answer} (hs : s.Valid) (hpc : s.InRange pc.work) :
    (getVirtualizationStatus virtualization s pc answer).1.ValidIn s ∧
      ((getVirtualizationStatus virtualization s pc answer).1.apply s).InRange
        (getVirtualizationStatus virtualization s pc answer).2.work := by
  -- the answer is a job that is registered or queued, or a record made for it
  cases pc with
  | active =>
      simp only [getVirtualizationStatus]
      split
      · rename_i work hfound
        exact ⟨trivial, Shared.inRange_some.mpr (hs.active_lt hfound)⟩
      · exact ⟨trivial, Shared.inRange_none s⟩
  | queued =>
      simp only [getVirtualizationStatus]
      split
      · rename_i work hfound
        exact ⟨trivial, Shared.inRange_some.mpr (hs.queuedWork_lt hfound)⟩
      · exact ⟨trivial, Shared.inRange_none s⟩
  | service =>
      simp only [getVirtualizationStatus]
      split
      · exact ⟨trivial, Shared.inRange_none s⟩
      · refine ⟨trivial, Shared.inRange_some.mpr ?_⟩
        show s.works.length < (s.works ++ [_]).length
        simp
  | found work => exact ⟨trivial, hpc⟩
  | raised => exact ⟨trivial, Shared.inRange_none s⟩

/-- A publish request only enqueues the job it has found, or one it creates at the end of the list. -/
theorem publishVirtualization_valid {virtualization : String} {s : Shared} {pc : PublishPc}
    {answer : Answer} (hs : s.Valid) (hpc : s.InRange pc.work) :
    (publishVirtualization virtualization s pc answer).1.ValidIn s ∧
      ((publishVirtualization virtualization s pc answer).1.apply s).InRange
        (publishVirtualization virtualization s pc answer).2.work := by
  -- the status that was looked up, and the object that is allocated for the job
  cases pc with
  | status pc =>
      have hlookup := @getVirtualizationStatus_valid virtualization s pc answer hs hpc
      simp only [publishVirtualization]
      split
      · rename_i work hfound
        rw [hfound] at hlookup
        exact hlookup
      · exact ⟨hlookup.1, Shared.inRange_none _⟩
      · exact hlookup
  | check work =>
      refine ⟨trivial, ?_⟩
      simp only [publishVirtualization]
      split <;> exact Shared.inRange_none s
  | addToQueue =>
      refine ⟨trivial, Shared.inRange_some.mpr ?_⟩
      show s.works.length < (s.works ++ [_]).length
      simp
  | enqueue work => exact ⟨hpc work rfl, Shared.inRange_none _⟩
  | done => exact ⟨trivial, Shared.inRange_none s⟩

/-- A delete request goes on with a job that is used nowhere, and says so in its own state. -/
theorem deleteVirtualization_valid {virtualization : String} {s : Shared} {pc : DeletePc}
    {answer : Answer} (hs : s.Valid) (hpc : pc.Valid s) :
    (deleteVirtualization virtualization s pc answer).1.ValidIn s ∧
      (deleteVirtualization virtualization s pc answer).2.Valid
        ((deleteVirtualization virtualization s pc answer).1.apply s) := by
  cases pc with
  | findActive =>
      simp only [deleteVirtualization]
      split
      · rename_i work hfound
        exact ⟨trivial, Shared.inRange_some.mpr (hs.active_lt hfound), trivial⟩
      · exact ⟨trivial, Shared.inRange_none s, trivial⟩
  | findQueued =>
      simp only [deleteVirtualization]
      split
      · rename_i work hfound
        exact ⟨trivial, Shared.inRange_some.mpr (hs.queuedWork_lt hfound), trivial⟩
      · exact ⟨trivial, Shared.inRange_none s, trivial⟩
  | status pc =>
      have hrange : s.InRange pc.work := by
        cases pc with
        | found work => exact hpc.1
        | _ => exact Shared.inRange_none s
      have hlookup := @getVirtualizationStatus_valid virtualization s pc answer hs hrange
      simp only [deleteVirtualization]
      split
      · -- the lookup has found a job, or allocated the record it answers with
        rename_i work hfound
        rw [hfound] at hlookup
        exact ⟨hlookup.1, hlookup.2, trivial⟩
      · exact ⟨hlookup.1, Shared.inRange_none _, trivial⟩
      · refine ⟨hlookup.1, ?_, trivial⟩
        cases hnext : (getVirtualizationStatus virtualization s pc answer).2 with
        | found work =>
            rw [hnext] at hlookup
            exact hlookup.2
        | _ => exact Shared.inRange_none _
  | checkFound work queue =>
      refine ⟨trivial, ?_⟩
      simp only [deleteVirtualization]
      split
      · exact ⟨Shared.inRange_none s, trivial⟩
      · exact ⟨hpc.1, trivial⟩
  | checkUsed work queue =>
      simp only [deleteVirtualization]
      split
      · -- from here on the point knows that the job is used nowhere
        rename_i hused
        exact ⟨trivial, hpc.1, hused⟩
      · exact ⟨trivial, Shared.inRange_none _, trivial⟩
  | submit work queue => exact ⟨trivial, hpc⟩
  | write work queue =>
      refine ⟨trivial, ?_⟩
      simp only [deleteVirtualization]
      split
      · exact ⟨hpc.1.mono (Action.apply_works_length_le _ _), trivial⟩
      · exact ⟨Shared.inRange_none _, trivial⟩
  | enqueue work => exact ⟨hpc.1 work rfl, Shared.inRange_none _, trivial⟩
  | done => exact ⟨trivial, Shared.inRange_none s, trivial⟩

/-- The monitor stores its own runner and its own work, and what `deleteVirtualization` stores. -/
theorem runBuildStatus_validIn {runner work : Nat} {s : Shared} {pc : MonitorPc} {answer : Answer}
    (hs : s.Valid) (hrunner : runner < s.runners.length) (hwork : work < s.works.length)
    (hpc : ∀ p, pc = .deleting p → p.Valid s) :
    (runBuildStatus runner work s pc answer).1.ValidIn s := by
  cases pc with
  | start => exact hwork
  | resubmit => exact hrunner
  | deleting p =>
      have hdelete := (@deleteVirtualization_valid
        ((s.work work).dataVirtualizationName.getD "") s p answer hs (hpc p rfl)).1
      simp only [runBuildStatus]
      split
      · split <;> exact hdelete
      · exact hdelete
  | findBuild =>
      simp only [runBuildStatus]
      repeat' split
      all_goals trivial
  | findDeployment =>
      simp only [runBuildStatus]
      repeat' split
      all_goals trivial
  | _ => trivial

/-- A task of the monitor touches its own runner and the job of that runner. -/
theorem job_validIn (job : Job) (pc : TaskPc) (answer : Answer) (s : Shared) :
    (job.run pc answer).1.ValidIn s := by
  cases job with
  | configure work =>
      cases pc <;> simp only [Job.run, configureTask] <;> (try split) <;> trivial
  | delete work name =>
      cases pc with
      | openClient => simp only [Job.run, deleteTask]; split <;> trivial
      | deleting blocks =>
          cases blocks <;> simp only [Job.run, deleteTask] <;> (try split) <;> trivial
      | _ => trivial

/-! ## The invariant -/

namespace Lifecycle

/-- Steps of others leave the job of a runner as it is. -/
theorem runnerWork_of_moved {s t : Lifecycle} {label : Label} (h : Moved s label t) {runner : Nat}
    (hrunner : runner < s.shared.runners.length) :
    t.shared.runnerWork runner = s.shared.runnerWork runner := by
  cases h with
  | publish | delete | take | idle | start => rfl
  | request | monitor | task => exact Shared.runnerWork_apply hrunner _

/-- The references of the shared objects, of the monitor and of every request. -/
structure Valid (s : Lifecycle) : Prop where
  shared : s.shared.Valid
  monitor : ∀ runner pc, s.monitor = some (runner, pc) → runner < s.shared.runners.length
  deletes : ∀ pc ∈ s.deletePoints, pc.Valid s.shared
  publishes : ∀ virtualization pc, .publish virtualization pc ∈ s.requests → s.shared.InRange pc.work

/-- Nothing is referred to at the start. -/
theorem valid_initial : Valid initial where
  shared := ⟨fun _ h => (nomatch h), fun _ h => (nomatch h), fun _ h => (nomatch h)⟩
  monitor := fun _ _ h => nomatch h
  deletes := fun _ h => nomatch h
  publishes := fun _ _ h => nomatch h

/-- The action of every step stores valid references. -/
theorem act_validIn {s : Lifecycle} (hs : Valid s) (label : Label) : (act s label).ValidIn s.shared := by
  -- a request that begins touches nothing; the others act at the point they are at
  cases label with
  | publish v => trivial
  | delete v => trivial
  | request thread answer =>
      simp only [act]
      split
      · rename_i request hrequest
        have hmem := List.mem_of_getElem? hrequest
        cases request with
        | publish v pc => exact (publishVirtualization_valid hs.shared (hs.publishes v pc hmem)).1
        | delete v pc =>
            have hpc := hs.deletes pc (mem_deletePoints.mpr (.inr ⟨v, hmem⟩))
            exact (deleteVirtualization_valid hs.shared hpc).1
      · trivial
  | monitor answer =>
      simp only [act]
      split
      · rename_i runner pc hmonitor
        have hrunner := hs.monitor runner pc hmonitor
        refine runBuildStatus_validIn hs.shared hrunner (hs.shared.runnerWork_lt hrunner) ?_
        rintro p rfl
        exact hs.deletes p (mem_deletePoints.mpr (.inl ⟨runner, hmonitor⟩))
      · trivial
  | task index answer =>
      simp only [act]
      split
      · exact job_validIn _ _ _ _
      · trivial

/-- Moving a task to another phase changes no reference. -/
theorem setPhase_valid {s : Shared} (hs : s.Valid) (index : Nat) (phase : TaskPhase) :
    (setPhase s index phase).Valid :=
  ⟨hs.runners, hs.activeJobs, hs.workQueue⟩

/-- The shared objects stay valid through a step. -/
theorem shared_valid_step {s t : Lifecycle} {label : Label} (h : Moved s label t) (hs : Valid s) :
    t.shared.Valid := by
  have hact := act_validIn hs label
  cases h with
  | publish | delete | idle => exact hs.shared
  | request hrequest =>
      rw [act_request hrequest] at hact
      exact Action.valid_apply hact hs.shared
  | take hidle hqueue =>
      refine ⟨hs.shared.runners, hs.shared.activeJobs, ?_⟩
      intro runnable hmem
      exact hs.shared.workQueue runnable (hqueue ▸ List.mem_cons_of_mem _ hmem)
  | monitor hmonitor _ =>
      rw [act_monitor hmonitor] at hact
      exact Action.valid_apply hact hs.shared
  | start => exact setPhase_valid hs.shared _ _
  | task htask hphase =>
      rw [act_task htask hphase] at hact
      exact setPhase_valid (Action.valid_apply hact hs.shared) _ _

/-- The monitor holds runners that exist. -/
theorem monitor_valid_step {s t : Lifecycle} {label : Label} (h : Moved s label t) (hs : Valid s)
    {runner : Nat} {pc : MonitorPc} (ht : t.monitor = some (runner, pc)) :
    runner < t.shared.runners.length := by
  cases h with
  | publish | delete | start => exact hs.monitor runner pc ht
  | request | task =>
      exact Nat.lt_of_lt_of_le (hs.monitor runner pc ht) (Shared.runners_length_le_apply _ _)
  | take _ hqueue =>
      cases ht
      exact hs.shared.workQueue _ (hqueue ▸ List.mem_cons_self)
  | idle => cases ht
  | monitor hmonitor _ =>
      cases ht
      exact Nat.lt_of_lt_of_le (hs.monitor runner _ hmonitor) (Shared.runners_length_le_apply _ _)

/-- Every delete request has only checked what still holds. -/
theorem deletes_valid_step {s t : Lifecycle} {label : Label} (h : Moved s label t) (hs : Valid s)
    {pc : DeletePc} (hpc : pc ∈ t.deletePoints) : pc.Valid t.shared := by
  have hframe : ∀ ref, ref < s.shared.works.length →
      (t.shared.work ref).usedBy = (s.shared.work ref).usedBy :=
    fun ref href => (work_frame_of_moved h href).2
  rcases deletePoint_of_moved h hpc with hold | rfl | ⟨v, answer, p, hp, rfl, hact⟩
  · -- a thread that has not moved keeps what it knows, since users of a job are never added
    exact (hs.deletes pc hold).mono (works_length_le_of_moved h) hframe
  · exact ⟨Shared.inRange_none _, trivial⟩
  · have hnext := (@deleteVirtualization_valid v s.shared p answer hs.shared (hs.deletes p hp)).2
    have hworks := works_of_moved h
    rw [hact] at hworks
    exact hnext.mono (Nat.le_of_eq (congrArg List.length hworks).symm)
      fun ref _ => congrArg BuildStatus.usedBy (Shared.work_congr hworks ref)

/-- Every publish request holds a job that exists. -/
theorem publishes_valid_step {s t : Lifecycle} {label : Label} (h : Moved s label t) (hs : Valid s)
    {virtualization : String} {pc : PublishPc} (hpc : .publish virtualization pc ∈ t.requests) :
    t.shared.InRange pc.work := by
  have hlen := works_length_le_of_moved h
  -- a publish that was there before refers to what still exists
  have hold : .publish virtualization pc ∈ s.requests → t.shared.InRange pc.work :=
    fun hmem => (hs.publishes virtualization pc hmem).mono hlen
  cases h with
  | publish v =>
      rcases List.mem_append.mp hpc with hmem | hmem
      · exact hold hmem
      · cases List.mem_singleton.mp hmem
        exact Shared.inRange_none _
  | delete v =>
      rcases List.mem_append.mp hpc with hmem | hmem
      · exact hold hmem
      · cases List.mem_singleton.mp hmem
  | @request thread answer request hrequest =>
      rcases List.mem_or_eq_of_mem_set hpc with hmem | hnew
      · exact hold hmem
      · cases request with
        | publish v p =>
            cases hnew
            exact (publishVirtualization_valid hs.shared
              (hs.publishes _ p (List.mem_of_getElem? hrequest))).2
        | delete v p => cases hnew
  | take | idle | monitor | start | task => exact hold hpc

/-- A step keeps the invariant: one lemma for each of its parts. -/
theorem valid_step {s t : Lifecycle} {label : Label} (hs : Valid s) (h : next s label = some t) :
    Valid t :=
  have hmoved := moved_of_next h
  { shared := shared_valid_step hmoved hs
    monitor := fun _ _ ht => monitor_valid_step hmoved hs ht
    deletes := fun _ hpc => deletes_valid_step hmoved hs hpc
    publishes := fun _ _ hpc => publishes_valid_step hmoved hs hpc }

/-- References are valid in every state a run reaches. -/
theorem valid_of_run {s : Lifecycle} {tr : List (Lifecycle × Label)}
    (hrun : system.Run initial tr s) : Valid s := by
  refine hrun.invariant_of_all ?_ ?_ rfl
  · rintro s rfl
    exact valid_initial
  · intro s label t hs hstep
    exact valid_step hs hstep

end Lifecycle

end TeiidSyndesis.OpenShift
