/-
# TeiidSyndesis.OpenShift.ConfiguredOnce — an accepted publish is configured at most once.

A publish request queues a `BuildStatus` of its own, and the monitor resubmits the runner of a job as
long as it is not settled.  Every pass of a runner looks at the status again, so what keeps the build
from being configured by two passes is the status alone: `SUBMITTED` is given to new objects only, and
the pass that finds it writes `CONFIGURING` before it hands the job to `configureService`.  An unpublish
may write into the object at any point in between.

Main results:
* `configured_of_moved`, `configured_cases` — a step configures at most one more build, and which pass;
* `submitted_of_moved` — only a new object is `SUBMITTED`, and a publish request creates it;
* `configuredOnce_step`, `configuredOnce_of_run` — the invariant: no build is configured twice;
* `configured_once` — so each configured build is that of one accepted publish.
-/
import TeiidSyndesis.OpenShift.UnpublishKept

namespace TeiidSyndesis.OpenShift

open TeiidSyndesis.Library

/-- The build a task of `configureService` configures. -/
def Job.configured : Job → Option Nat
  | .configure work => some work
  | .delete _ _ => none

theorem Job.configured_eq_some {job : Job} {work : Nat} :
    job.configured = some work ↔ job = .configure work := by
  cases job <;> simp [Job.configured]

/-- From where, and having seen what, the monitor enters the points that configure a build. -/
def MonitorPc.EnteredFrom (pc q : MonitorPc) (status : Status) : Prop :=
  match pc with
  | .configureBuild => q = .checkSubmitted ∧ status = .submitted
  | .executeConfigure => q = .configureBuild
  | _ => True

/-- Where the monitor goes next depends on the status it has just read. -/
theorem runBuildStatus_enteredFrom (runner work : Nat) (s : Shared) (pc : MonitorPc)
    (answer : Answer) :
    (runBuildStatus runner work s pc answer).2.EnteredFrom pc (s.status work) := by
  cases pc with
  | checkSubmitted =>
      show (if s.status work = .submitted then MonitorPc.configureBuild
        else .checkConfiguring).EnteredFrom _ _
      by_cases hsubmitted : s.status work = .submitted
      · rw [if_pos hsubmitted]
        exact ⟨rfl, hsubmitted⟩
      · rw [if_neg hsubmitted]
        trivial
  | configureBuild => exact rfl
  | deleting p =>
      simp only [runBuildStatus]
      split
      · split <;> trivial
      · trivial
  | findBuild | findDeployment =>
      simp only [runBuildStatus]
      repeat' split
      all_goals trivial
  | sleep | checkDeleteSubmitted | checkDeleteRequeue | checkDeleteDone | checkFailed
  | checkCancelled | checkConfiguring | checkDeploying | deploy | deployLatest | connect
  | notReady =>
      simp only [runBuildStatus]
      split <;> trivial
  | _ => trivial

namespace Lifecycle

/-- The builds handed to `configureService`, in order. -/
def configured (s : Lifecycle) : List Nat := s.shared.tasks.filterMap (·.job.configured)

/-- Moving a task to another phase configures nothing. -/
theorem configured_setPhase (s : Shared) (index : Nat) (phase : TaskPhase) :
    (setPhase s index phase).tasks.filterMap (·.job.configured) =
      s.tasks.filterMap (·.job.configured) := by
  show (s.tasks.modify index _).filterMap _ = _
  generalize s.tasks = tasks
  induction tasks generalizing index with
  | nil => simp
  | cons task tasks ih =>
      cases index with
      | zero => simp [List.filterMap_cons]
      | succ index => simp only [List.modify_succ_cons, List.filterMap_cons, ih]

/-- A task is handed over by the action of a step, and never taken back. -/
theorem configured_of_moved {s t : Lifecycle} {label : Label} (h : Moved s label t) :
    t.configured = ((act s label).apply s.shared).tasks.filterMap (·.job.configured) := by
  cases h with
  | publish => rfl
  | delete => rfl
  | request hrequest => rw [act_request hrequest]; rfl
  | take hidle hqueue => simp only [act, hidle]; rfl
  | idle hmonitor => rw [act_monitor hmonitor]; rfl
  | monitor hmonitor _ => rw [act_monitor hmonitor]; rfl
  | @start index answer task htask hphase _ =>
      obtain ⟨job, phase⟩ := task
      cases hphase
      simp only [act, htask]
      exact configured_setPhase s.shared index _
  | task htask hphase =>
      rw [act_task htask hphase]
      exact configured_setPhase _ _ _

/-- A step configures nothing new, or the monitor hands over the work of its runner. -/
theorem configured_cases {s t : Lifecycle} {label : Label} (h : Moved s label t) :
    t.configured = s.configured ∨
      ∃ runner, s.monitor = some (runner, .executeConfigure) ∧
        act s label = .submitTask (.configure (s.shared.runnerWork runner)) ∧
        t.configured = s.configured ++ [s.shared.runnerWork runner] := by
  rw [configured_of_moved h]
  cases haction : act s label with
  | submitTask job =>
      cases job with
      | configure work =>
          obtain ⟨runner, hmonitor, rfl⟩ := act_configures haction
          refine .inr ⟨runner, hmonitor, rfl, ?_⟩
          simp [Action.apply, configured, List.filterMap_append, Job.configured]
      | delete work name =>
          left
          simp [Action.apply, configured, List.filterMap_append, Job.configured]
  | _ => exact .inl rfl

/-! ## Who gives `SUBMITTED` -/

/-- The step is `addToQueue` of a publish request. -/
def AddsToQueue (s : Lifecycle) (label : Label) (virtualization : String) : Prop :=
  ∃ thread answer, label = .request thread answer ∧
    s.requests[thread]? = some (.publish virtualization .addToQueue)

/-- No program writes `SUBMITTED` into an object that is there. -/
theorem not_sets_submitted {s : Lifecycle} {label : Label} {work : Nat} :
    ¬ (act s label).Sets work .submitted := by
  intro hsets
  rcases act_sets hsets with ⟨_, _, _, hst⟩ | ⟨_, _, hst⟩ | ⟨_, _, _, _, _, _, hst, _⟩ |
    ⟨_, _, _, _, _, _, _, hjob, hjobsets⟩
  · cases hst
  · cases hst
  · simp [Status.OfMonitor] at hst
  · rcases job_sets hjob hjobsets with ⟨_, hst⟩ | ⟨_, _, ⟨hst, _⟩ | ⟨hst, _⟩⟩ <;> simp at hst

/-- The record of what OpenShift reports is never of a submitted build. -/
theorem getVirtualizationStatus_submits {virtualization : String} {s : Shared} {pc : StatusPc}
    {answer : Answer} {b : BuildStatus}
    (h : (getVirtualizationStatus virtualization s pc answer).1 = .allocate b) :
    b.status ≠ .submitted := by
  rcases getVirtualizationStatus_acts virtualization s pc answer with hact | hact
  · rw [hact] at h
    cases h
  · rw [hact] at h
    cases h
    intro hsubmitted
    have hservice := serviceStatus_status virtualization answer
    rw [hsubmitted] at hservice
    simp [Status.OfService] at hservice

/-- A publish request submits a new object only where it adds to the queue. -/
theorem publishVirtualization_submits {virtualization : String} {s : Shared} {pc : PublishPc}
    {answer : Answer} {b : BuildStatus}
    (h : (publishVirtualization virtualization s pc answer).1 = .allocate b)
    (hb : b.status = .submitted) :
    pc = .addToQueue ∧ b.openShiftName = getOpenShiftName virtualization := by
  cases pc with
  | status p =>
      refine absurd hb (getVirtualizationStatus_submits (?_ : (getVirtualizationStatus virtualization s p
        answer).1 = .allocate b))
      simp only [publishVirtualization] at h
      split at h <;> exact h
  | addToQueue =>
      cases h
      exact ⟨rfl, rfl⟩
  | _ => cases h

/-- `SUBMITTED` comes into the system with the object that `addToQueue` creates. -/
theorem addsToQueue_of_allocate {s : Lifecycle} {label : Label} {b : BuildStatus}
    (h : act s label = .allocate b) (hb : b.status = .submitted) :
    ∃ virtualization, AddsToQueue s label virtualization ∧
      b.openShiftName = getOpenShiftName virtualization := by
  -- what a deletion allocates has a status of the service
  have hdeletes : ∀ {p : DeletePc}, DeleteActs s.shared p (.allocate b) → False := by
    intro p hdelete
    cases hdelete with
    | allocate _ hservice =>
        rw [hb] at hservice
        simp [Status.OfService] at hservice
  cases label with
  | publish v => cases h
  | delete v => cases h
  | request thread answer =>
      cases hget : s.requests[thread]? with
      | none =>
          simp only [act, hget] at h
          cases h
      | some request =>
          rw [act_request hget] at h
          cases request with
          | publish v pc =>
              obtain ⟨rfl, hname⟩ := publishVirtualization_submits h hb
              exact ⟨v, ⟨thread, answer, rfl, hget⟩, hname⟩
          | delete v pc =>
              have hacts := deleteVirtualization_acts v s.shared pc answer
              rw [show (deleteVirtualization v s.shared pc answer).1 = .allocate b from h] at hacts
              exact absurd hacts hdeletes
  | monitor answer =>
      cases hmonitor : s.monitor with
      | none =>
          simp only [act, hmonitor] at h
          cases h
      | some standing =>
          obtain ⟨runner, pc⟩ := standing
          rw [act_monitor hmonitor] at h
          -- the monitor allocates inside a deletion only
          by_cases hpc : ∃ p, pc = .deleting p
          · obtain ⟨p, rfl⟩ := hpc
            have hacts := runBuildStatus_deleting_acts runner (s.shared.runnerWork runner) s.shared p
              answer
            rw [h] at hacts
            exact absurd hacts hdeletes
          · have hacts := runBuildStatus_acts runner (s.shared.runnerWork runner) s.shared answer
              fun p hp => hpc ⟨p, hp⟩
            rw [h] at hacts
            cases hacts
  | task index answer =>
      cases hget : s.shared.tasks[index]? with
      | none =>
          simp only [act, hget] at h
          cases h
      | some task =>
          obtain ⟨job, phase⟩ := task
          cases phase with
          | running pc =>
              rw [act_task hget rfl] at h
              have hacts := job_acts job pc answer
              rw [show (job.run pc answer).1 = .allocate b from h] at hacts
              cases hacts
          | _ =>
              simp only [act, hget] at h
              cases h

/-- A status is `SUBMITTED` after a step if it was, or if the step is the `addToQueue` that created the
object. -/
theorem submitted_of_moved {s t : Lifecycle} {label : Label} (h : Moved s label t) {work : Nat}
    (ht : t.status work = .submitted) :
    s.status work = .submitted ∨
      (work = s.shared.works.length ∧ (∀ job, act s label ≠ .submitTask job) ∧
        ∃ virtualization, AddsToQueue s label virtualization ∧
          (t.shared.work work).openShiftName = getOpenShiftName virtualization) := by
  rcases status_of_moved h work with hsame | hsets | ⟨b, hact, hnew, hstatus⟩
  · exact .inl (hsame ▸ ht)
  · exact absurd (ht ▸ hsets) not_sets_submitted
  · refine .inr ⟨hnew, fun job hjob => ?_, ?_⟩
    · rw [hact] at hjob
      cases hjob
    · obtain ⟨v, hadds, hname⟩ := addsToQueue_of_allocate hact (hstatus ▸ ht)
      refine ⟨v, hadds, ?_⟩
      rw [Shared.work_congr (works_of_moved h) work, hact, Action.work_allocate, if_pos hnew]
      exact hname

/-! ## The invariant -/

/-- A build that is still to be configured has not been handed to `configureService`. -/
structure ConfiguredOnce (s : Lifecycle) : Prop where
  distinct : s.configured.Nodup
  created : ∀ work ∈ s.configured, work < s.shared.works.length
  submitted : ∀ work, s.status work = .submitted → work ∉ s.configured
  /-- the monitor has read `SUBMITTED` and not written yet -/
  found : ∀ runner, s.monitor = some (runner, .configureBuild) →
    s.shared.runnerWork runner ∉ s.configured
  /-- it has written `CONFIGURING` and is about to hand the build over -/
  handed : ∀ runner, s.monitor = some (runner, .executeConfigure) →
    s.shared.runnerWork runner ∉ s.configured ∧ s.status (s.shared.runnerWork runner) ≠ .submitted

/-- Nothing is configured at the start. -/
theorem configuredOnce_initial : ConfiguredOnce initial where
  distinct := List.nodup_nil
  created := fun _ h => (List.not_mem_nil h).elim
  submitted := fun _ _ => List.not_mem_nil
  found := fun _ h => by cases h
  handed := fun _ h => by cases h

/-- A build that was not to be handed over by this step is as configured as before it. -/
theorem not_mem_configured {s t : Lifecycle} {label : Label} (h : Moved s label t) {work : Nat}
    (hwork : work ∉ s.configured)
    (hother : ∀ runner, s.monitor = some (runner, .executeConfigure) →
      act s label = .submitTask (.configure (s.shared.runnerWork runner)) →
      s.shared.runnerWork runner ≠ work) : work ∉ t.configured := by
  rcases configured_cases h with hsame | ⟨runner, hmonitor, hact, hconfigured⟩
  · rw [hsame]
    exact hwork
  · rw [hconfigured, List.mem_append, List.mem_singleton]
    rintro (hold | rfl)
    · exact hwork hold
    · exact hother runner hmonitor hact rfl

/-- Only the monitor hands builds over. -/
theorem monitor_of_configures {s : Lifecycle} {label : Label} {work : Nat}
    (h : act s label = .submitTask (.configure work)) : ∃ answer, label = .monitor answer := by
  have hacts := acts s label
  rw [h] at hacts
  cases hacts with
  | delete _ hdelete => cases hdelete
  | monitor answer _ _ _ => exact ⟨answer, rfl⟩
  | task _ hjob => cases hjob

/-- A step keeps the invariant: the pass that configures has found `SUBMITTED` and written `CONFIGURING`.
-/
theorem configuredOnce_step {s t : Lifecycle} {label : Label} (hvalid : Valid s)
    (hs : ConfiguredOnce s) (hnext : next s label = some t) : ConfiguredOnce t := by
  have h := moved_of_next hnext
  have hlen := works_length_le_of_moved h
  -- one goal for each field of the invariant, in their order
  refine ⟨?_, ?_, ?_, ?_, ?_⟩
  · rcases configured_cases h with hsame | ⟨runner, hmonitor, _, hconfigured⟩
    · rw [hsame]
      exact hs.distinct
    · rw [hconfigured]
      refine List.nodup_append.mpr ⟨hs.distinct, List.pairwise_singleton _ _, ?_⟩
      -- the build that is configured now was handed over, so it was not configured before
      rintro work hwork _ hlast rfl
      exact (hs.handed runner hmonitor).1 (List.mem_singleton.mp hlast ▸ hwork)
  · intro work hwork
    rcases configured_cases h with hsame | ⟨runner, hmonitor, _, hconfigured⟩
    · rw [hsame] at hwork
      exact Nat.lt_of_lt_of_le (hs.created work hwork) hlen
    · rw [hconfigured, List.mem_append, List.mem_singleton] at hwork
      rcases hwork with hold | rfl
      · exact Nat.lt_of_lt_of_le (hs.created work hold) hlen
      · have hrunner := hvalid.monitor runner _ hmonitor
        exact Nat.lt_of_lt_of_le (hvalid.shared.runnerWork_lt hrunner) hlen
  · intro work hwork
    rcases submitted_of_moved h hwork with hold | ⟨rfl, hnot, _⟩
    · refine not_mem_configured h (hs.submitted work hold) ?_
      rintro runner hmonitor _ rfl
      -- a pass that hands a build over has written its status
      exact (hs.handed runner hmonitor).2 hold
    · refine not_mem_configured h (fun hmem => Nat.lt_irrefl _ (hs.created _ hmem)) ?_
      intro runner _ hact
      exact absurd hact (hnot _)
  · intro runner ht
    rcases monitor_of_moved h ht with ⟨hsame, hlabel⟩ | ⟨_, hstart, _⟩ | ⟨answer, q, _, hq, _, hpc⟩
    · rw [runnerWork_of_moved h (hvalid.monitor runner _ hsame)]
      refine not_mem_configured h (hs.found runner hsame) ?_
      intro other hother _
      rw [hsame] at hother
      cases hother
    · cases hstart
    · -- the pass has just read the status
      have hentered := runBuildStatus_enteredFrom runner (s.shared.runnerWork runner) s.shared q answer
      rw [← hpc] at hentered
      obtain ⟨rfl, hsubmitted⟩ := hentered
      rw [runnerWork_of_moved h (hvalid.monitor runner _ hq)]
      refine not_mem_configured h (hs.submitted _ hsubmitted) ?_
      intro other hother _
      rw [hq] at hother
      cases hother
  · intro runner ht
    rcases monitor_of_moved h ht with ⟨hsame, hlabel⟩ | ⟨_, hstart, _⟩ | ⟨answer, q, rfl, hq, _, hpc⟩
    · -- another thread has moved, and other threads give `SUBMITTED` to new objects only
      have hrunner := hvalid.monitor runner _ hsame
      rw [runnerWork_of_moved h hrunner]
      constructor
      · refine not_mem_configured h (hs.handed runner hsame).1 ?_
        intro other _ hact
        obtain ⟨answer, hmonitor⟩ := monitor_of_configures hact
        exact absurd hmonitor (hlabel answer)
      · intro hsubmitted
        rcases submitted_of_moved h hsubmitted with hold | ⟨hnew, _⟩
        · exact (hs.handed runner hsame).2 hold
        · exact absurd hnew (Nat.ne_of_lt (hvalid.shared.runnerWork_lt hrunner))
    · cases hstart
    · -- the pass has just written `CONFIGURING`
      have hentered := runBuildStatus_enteredFrom runner (s.shared.runnerWork runner) s.shared q answer
      rw [← hpc] at hentered
      cases hentered
      have hrunner := hvalid.monitor runner _ hq
      rw [runnerWork_of_moved h hrunner]
      constructor
      · refine not_mem_configured h (hs.found runner hq) ?_
        intro other hother _
        rw [hq] at hother
        cases hother
      · have hsets : (act s (.monitor answer)).Sets (s.shared.runnerWork runner) .configuring := by
          rw [act_monitor hq]
          exact ⟨_, rfl, rfl⟩
        rw [status_eq_apply h, Action.status_of_sets hsets (hvalid.shared.runnerWork_lt hrunner)]
        decide

/-- The invariant holds of every state that is reached, with the references it rests on. -/
theorem configuredOnce_of_run {s : Lifecycle} {tr : List (Lifecycle × Label)}
    (hrun : system.Run initial tr s) : Valid s ∧ ConfiguredOnce s := by
  have hstep : ∀ u label v, Valid u ∧ ConfiguredOnce u → system.step u label v →
      Valid v ∧ ConfiguredOnce v := by
    rintro u label v ⟨hvalid, hu⟩ hnext
    exact ⟨valid_step hvalid hnext, configuredOnce_step hvalid hu hnext⟩
  exact hrun.preserves_of_all hstep ⟨valid_initial, configuredOnce_initial⟩

/-! ## Every configured build is the build of one accepted publish -/

/-- The build is not on its way to `configureService`, nor there. -/
structure Unsubmitted (s : Lifecycle) (work : Nat) : Prop where
  status : s.status work ≠ .submitted
  found : ∀ runner, s.monitor = some (runner, .configureBuild) → s.shared.runnerWork runner ≠ work
  handed : ∀ runner, s.monitor = some (runner, .executeConfigure) → s.shared.runnerWork runner ≠ work
  configured : work ∉ s.configured

/-- The step is the `addToQueue` that creates the object, for its virtualization. -/
def Submits (work : Nat) (s : Lifecycle) (label : Label) : Prop :=
  s.shared.works.length = work ∧ ∃ virtualization, AddsToQueue s label virtualization

/-- A build that was not submitted stays so, unless this step submits it. -/
theorem unsubmitted_step {s t : Lifecycle} {label : Label} {work : Nat} (hvalid : Valid s)
    (hs : Unsubmitted s work) (hnot : ¬ Submits work s label) (hnext : next s label = some t) :
    Unsubmitted t work := by
  have h := moved_of_next hnext
  refine ⟨?_, ?_, ?_, ?_⟩
  · intro hsubmitted
    rcases submitted_of_moved h hsubmitted with hold | ⟨hnew, _, v, hadds, _⟩
    · exact hs.status hold
    · exact hnot ⟨hnew.symm, v, hadds⟩
  · rintro runner ht rfl
    rcases monitor_of_moved h ht with ⟨hsame, _⟩ | ⟨_, hstart, _⟩ | ⟨answer, q, _, hq, _, hpc⟩
    · exact hs.found runner hsame (runnerWork_of_moved h (hvalid.monitor runner _ hsame)).symm
    · cases hstart
    · have hentered := runBuildStatus_enteredFrom runner (s.shared.runnerWork runner) s.shared q answer
      rw [← hpc] at hentered
      rw [runnerWork_of_moved h (hvalid.monitor runner _ hq)] at hs
      exact hs.status hentered.2
  · rintro runner ht rfl
    rcases monitor_of_moved h ht with ⟨hsame, _⟩ | ⟨_, hstart, _⟩ | ⟨answer, q, _, hq, _, hpc⟩
    · exact hs.handed runner hsame (runnerWork_of_moved h (hvalid.monitor runner _ hsame)).symm
    · cases hstart
    · have hentered := runBuildStatus_enteredFrom runner (s.shared.runnerWork runner) s.shared q answer
      rw [← hpc] at hentered
      cases hentered
      exact hs.found runner hq (runnerWork_of_moved h (hvalid.monitor runner _ hq)).symm
  · exact not_mem_configured h hs.configured fun runner hmonitor _ => hs.handed runner hmonitor

/-- Nothing is submitted at the start. -/
theorem unsubmitted_initial (work : Nat) : Unsubmitted initial work where
  status := by simp [initial, Lifecycle.status, Shared.status, Shared.work]
  found := fun _ h => by cases h
  handed := fun _ h => by cases h
  configured := List.not_mem_nil

/-- The object that `addToQueue` creates has the name of its virtualization. -/
theorem openShiftName_of_addsToQueue {s t : Lifecycle} {label : Label} {virtualization : String}
    (hadds : AddsToQueue s label virtualization) (h : Moved s label t) :
    s.shared.works.length < t.shared.works.length ∧
      (t.shared.work s.shared.works.length).openShiftName = getOpenShiftName virtualization := by
  obtain ⟨thread, answer, rfl, hrequest⟩ := hadds
  have hworks := works_of_moved h
  rw [act_request hrequest] at hworks
  refine ⟨?_, ?_⟩
  · rw [hworks]
    simp [Request.next, publishVirtualization, Action.apply]
  · rw [Shared.work_congr hworks]
    simp [Request.next, publishVirtualization, Action.work_allocate]

/-- In every run, whatever requests, tasks and remote calls do meanwhile, no build is handed to
`configureService` twice, and each is the build of one publish request, under its name. -/
theorem configured_once {s : Lifecycle} {tr : List (Lifecycle × Label)}
    (hrun : system.Run initial tr s) :
    s.configured.Nodup ∧
      ∀ work ∈ s.configured, ∃ x ∈ tr, ∃ virtualization, AddsToQueue x.1 x.2 virtualization ∧
        x.1.shared.works.length = work ∧
        (s.shared.work work).openShiftName = getOpenShiftName virtualization := by
  refine ⟨(configuredOnce_of_run hrun).2.distinct, fun work hwork => ?_⟩
  have hstep : ∀ u label v, Valid u ∧ Unsubmitted u work → ¬ Submits work u label →
      system.step u label v → Valid v ∧ Unsubmitted v work := by
    rintro u label v ⟨hvalid, hu⟩ hnot hnext
    exact ⟨valid_step hvalid hnext, unsubmitted_step hvalid hu hnot hnext⟩
  obtain ⟨x, hx, hlength, virtualization, hadds⟩ :=
    hrun.exists_marked hstep ⟨valid_initial, unsubmitted_initial work⟩
      fun hs => hs.2.configured hwork
  refine ⟨x, hx, virtualization, hadds, hlength, ?_⟩
  -- from the step that creates it on, the object keeps its name
  obtain ⟨_, _, t, _, _, hmid, hafter⟩ := hrun.split hx
  have hframe : ∀ u label v,
      work < u.shared.works.length ∧
        (u.shared.work work).openShiftName = getOpenShiftName virtualization →
      system.step u label v →
      work < v.shared.works.length ∧
        (v.shared.work work).openShiftName = getOpenShiftName virtualization := by
    rintro u label v ⟨hlt, hname⟩ hnext
    have hmoved := moved_of_next hnext
    exact ⟨Nat.lt_of_lt_of_le hlt (works_length_le_of_moved hmoved),
      (work_frame_of_moved hmoved hlt).1.trans hname⟩
  have hcreated := openShiftName_of_addsToQueue hadds (moved_of_next hmid)
  rw [hlength] at hcreated
  exact (hafter.preserves_of_all hframe hcreated).2

/-- A publish whose job the monitor passes several times. -/
def resubmittedJob : List Label := publishUntilConfiguring ++ List.replicate 20 (.monitor {})

/-- A job whose runner was resubmitted while it was configured. -/
def afterResubmission : Lifecycle := System.after next initial resubmittedJob

theorem configured_once_resubmitted :
    afterResubmission.configured.Nodup ∧
      ∀ work ∈ afterResubmission.configured,
        ∃ x ∈ System.stepsOf next initial resubmittedJob,
          ∃ virtualization, AddsToQueue x.1 x.2 virtualization ∧
            x.1.shared.works.length = work ∧
            (afterResubmission.shared.work work).openShiftName = getOpenShiftName virtualization :=
  configured_once (System.run_after (· = initial) next initial resubmittedJob)

example : afterResubmission.configured = [1] := by decide

end Lifecycle

end TeiidSyndesis.OpenShift
