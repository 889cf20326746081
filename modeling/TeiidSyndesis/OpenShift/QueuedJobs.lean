/-
# TeiidSyndesis.OpenShift.QueuedJobs — which monitored jobs are found by their name.

`getVirtualizationStatusFromQueue` looks into `activeJobs` and then, with a type test for
`BuildStatusRunner`, into the queue of `workExecutor`.  `activeJobs` holds the job whose `run` is
executing, from the first statement of `run` to the last.  Every job in the queue was put there by
`submit`, as a `FutureTask`, so the type test passes for none of them: a job that waits is not found.

Main results:
* `activeJobs_step`, `activeJobs_of_run` — in every run the registered job is the one that is executing;
* `lookup_activeJobs`, `findsMonitored_iff` — so exactly the registered jobs are found;
* `queued_job_not_found` — and one that waits is not.
-/
import TeiidSyndesis.OpenShift.UsedVirtualizations

namespace TeiidSyndesis.OpenShift

open TeiidSyndesis.Library

/-- `getVirtualizationStatusFromQueue`: the registered jobs first, then the queue. -/
def getVirtualizationStatusFromQueue (s : Shared) (openShiftName : String) : Option Nat :=
  match s.activeJobs.lookup openShiftName with
  | some work => some work
  | none => s.queuedWork openShiftName

/-! ## The job that is registered -/

/-- `run` is between its first statement and its last. -/
def MonitorPc.registered (pc : MonitorPc) : Bool := pc != .start && pc != .done

/-- Only its last statement ends `run`, and nothing leads back to its first. -/
theorem runBuildStatus_registered {runner work : Nat} {s : Shared} {pc : MonitorPc} {answer : Answer}
    (hfinish : pc ≠ .finish) (hdone : pc ≠ .done) :
    (runBuildStatus runner work s pc answer).2.registered = true := by
  cases pc with
  | deleting p =>
      simp only [runBuildStatus]
      split
      · split <;> rfl
      · rfl
  | findBuild =>
      simp only [runBuildStatus]
      repeat' split
      all_goals rfl
  | findDeployment =>
      simp only [runBuildStatus]
      repeat' split
      all_goals rfl
  | sleep | checkDeleteSubmitted | checkDeleteRequeue | checkDeleteDone | checkFailed
  | checkCancelled | checkSubmitted | checkConfiguring | checkDeploying | deploy | deployLatest
  | connect =>
      simp only [runBuildStatus]
      split <;> rfl
  | notReady dc requeue => simp only [runBuildStatus]; split <;> rfl
  | finish => exact absurd rfl hfinish
  | done => exact absurd rfl hdone
  | _ => rfl

namespace Lifecycle

/-- The entries of `activeJobs` that belong to a `run` that is executing. -/
def registeredJobs (s : Lifecycle) : List (String × Nat) :=
  match s.monitor with
  | some (runner, pc) =>
      if pc.registered then [(s.runnerName runner, s.shared.runnerWork runner)] else []
  | none => []

/-- `activeJobs` changes only where the monitor registers its job, and where it takes it out. -/
theorem activeJobs_of_act {s : Lifecycle} {label : Label}
    (hlabel : ∀ answer runner pc, label = .monitor answer → s.monitor = some (runner, pc) →
      pc ≠ .start ∧ pc ≠ .finish) :
    ((act s label).apply s.shared).activeJobs = s.shared.activeJobs := by
  have hacts := acts s label
  revert hacts
  generalize act s label = action
  intro hacts
  cases hacts with
  | skip | allocate | enqueue => rfl
  | delete _ h => cases h <;> rfl
  | task _ h => cases h <;> rfl
  | monitor answer hmonitor h _ =>
      obtain ⟨hstart, hfinish⟩ := hlabel answer _ _ rfl hmonitor
      cases h with
      | start => exact absurd rfl hstart
      | finish => exact absurd rfl hfinish
      | skip | write | configure | resubmit => rfl

/-- A monitor that stays where it is keeps its entry. -/
theorem registeredJobs_of_moved {s t : Lifecycle} {label : Label} (h : Moved s label t) (hs : Valid s)
    (hmonitor : t.monitor = s.monitor) : t.registeredJobs = s.registeredJobs := by
  unfold registeredJobs
  rw [hmonitor]
  cases hm : s.monitor with
  | none => rfl
  | some monitor =>
      obtain ⟨runner, pc⟩ := monitor
      have hlt := hs.monitor runner pc hm
      dsimp only
      rw [runnerName_of_moved h hs hlt, runnerWork_of_moved h hlt]

/-- The entries of `activeJobs` are those of the `run` that is executing. -/
theorem activeJobs_step {s t : Lifecycle} {label : Label} (hvalid : Valid s)
    (hs : s.shared.activeJobs = s.registeredJobs) (hnext : next s label = some t) :
    t.shared.activeJobs = t.registeredJobs := by
  have h := moved_of_next hnext
  have hact := (jobs_of_moved h).2
  have hkept := @registeredJobs_of_moved s t label h hvalid
  rw [hact]
  -- only the first and the last step of a job write the register
  cases h with
  | publish | delete | request | start | task =>
      rw [activeJobs_of_act (by rintro _ _ _ ⟨⟩), hs, ← hkept rfl]
  | take hidle hqueue =>
      rw [activeJobs_of_act (by simp [hidle]), hs]
      simp [registeredJobs, hidle, MonitorPc.registered]
  | idle hmonitor =>
      rw [activeJobs_of_act (by simp [hmonitor]), hs]
      simp [registeredJobs, hmonitor, MonitorPc.registered]
  | @monitor answer runner pc hmonitor hdone =>
      by_cases hstart : pc = .start
      · -- nothing is registered before, and the job after
        subst hstart
        have hempty : s.shared.activeJobs = [] := by
          rw [hs]
          simp [registeredJobs, hmonitor, MonitorPc.registered]
        rw [act_monitor hmonitor]
        simp [runBuildStatus, Action.apply, hempty, registeredJobs, MonitorPc.registered, runnerName,
          Shared.work, Shared.runnerWork]
      by_cases hfinish : pc = .finish
      · subst hfinish
        have hone : s.shared.activeJobs =
            [((s.shared.work (s.shared.runnerWork runner)).openShiftName,
              s.shared.runnerWork runner)] := by
          rw [hs]
          simp [registeredJobs, hmonitor, MonitorPc.registered, runnerName]
        rw [act_monitor hmonitor]
        simp [runBuildStatus, Action.apply, hone, registeredJobs, MonitorPc.registered]
      -- between them the job is registered under a name that no step changes
      · have hlt := hvalid.monitor runner pc hmonitor
        have hmoved : Moved s (.monitor answer) _ := .monitor hmonitor hdone
        have hregistered : pc.registered = true := by
          simp [MonitorPc.registered, hstart, hdone]
        have hname := runnerName_of_moved hmoved hvalid hlt
        have hwork := runnerWork_of_moved hmoved hlt
        rw [activeJobs_of_act (by rintro _ _ _ _ hm; cases hmonitor.symm.trans hm; exact ⟨hstart, hfinish⟩),
          hs]
        simp only [registeredJobs, hmonitor, hregistered, if_true,
          runBuildStatus_registered hfinish hdone, hname, hwork]

/-- The registered jobs, in every state that is reached. -/
theorem activeJobs_of_run {s : Lifecycle} {tr : List (Lifecycle × Label)}
    (hrun : system.Run initial tr s) : s.shared.activeJobs = s.registeredJobs := by
  have hinit : ∀ s, system.init s → Valid s ∧ s.shared.activeJobs = s.registeredJobs := by
    rintro s rfl
    exact ⟨valid_initial, rfl⟩
  have hstep : ∀ s label t, (Valid s ∧ s.shared.activeJobs = s.registeredJobs) →
      system.step s label t → Valid t ∧ t.shared.activeJobs = t.registeredJobs :=
    fun _ _ _ hs hnext => ⟨valid_step hs.1 hnext, activeJobs_step hs.1 hs.2 hnext⟩
  exact (hrun.invariant_of_all hinit hstep rfl).2

/-! ## Which jobs are found -/

/-- The look-up returns the status of a monitored job of the name where there is one, and null only
where there is none. -/
def FindsMonitored (s : Lifecycle) (openShiftName : String) : Prop :=
  match getVirtualizationStatusFromQueue s.shared openShiftName with
  | some work =>
      ∃ runner ∈ s.monitored, s.runnerName runner = openShiftName ∧
        s.shared.runnerWork runner = work
  | none => ∀ runner ∈ s.monitored, s.runnerName runner ≠ openShiftName

/-- The `run` that is executing is over a job of the name, and has registered it. -/
def Registered (s : Lifecycle) (openShiftName : String) : Prop :=
  ∃ runner pc, s.monitor = some (runner, pc) ∧ pc ≠ .start ∧ pc ≠ .done ∧
    s.runnerName runner = openShiftName

/-- The entry of the job that is executing is the only one there is. -/
theorem lookup_activeJobs {s : Lifecycle} (hs : s.shared.activeJobs = s.registeredJobs)
    {openShiftName : String} {work : Nat} :
    s.shared.activeJobs.lookup openShiftName = some work ↔
      ∃ runner pc, s.monitor = some (runner, pc) ∧ pc ≠ .start ∧ pc ≠ .done ∧
        s.runnerName runner = openShiftName ∧ s.shared.runnerWork runner = work := by
  rw [hs]
  unfold registeredJobs
  cases hmonitor : s.monitor with
  | none => simp
  | some monitor =>
      obtain ⟨runner, pc⟩ := monitor
      constructor
      · intro h
        dsimp only at h
        split at h
        · rename_i hregistered
          obtain ⟨hstart, hdone⟩ : pc ≠ .start ∧ pc ≠ .done := by
            simpa [MonitorPc.registered] using hregistered
          rw [List.lookup_cons] at h
          split at h
          · rename_i hname
            exact ⟨runner, pc, rfl, hstart, hdone, (beq_iff_eq.mp hname).symm, Option.some.inj h⟩
          · cases h
        · cases h
      · rintro ⟨_, _, hsame, hstart, hdone, rfl, rfl⟩
        cases hsame
        simp [MonitorPc.registered, hstart, hdone]

/-- In every reachable state a job is found by its name exactly if it is registered, or no job of the
name is monitored. -/
theorem findsMonitored_iff {s : Lifecycle} {tr : List (Lifecycle × Label)}
    (hrun : system.Run initial tr s) (openShiftName : String) :
    FindsMonitored s openShiftName ↔
      (∀ runner ∈ s.monitored, s.runnerName runner ≠ openShiftName) ∨
        Registered s openShiftName := by
  have hlookup := @lookup_activeJobs s (activeJobs_of_run hrun) openShiftName
  have hqueued := queuedWork_eq_none (unused_of_run hrun) openShiftName
  unfold FindsMonitored getVirtualizationStatusFromQueue
  cases hactive : s.shared.activeJobs.lookup openShiftName with
  | some work =>
      obtain ⟨runner, pc, hmonitor, hstart, hdone, hname, hwork⟩ := hlookup.mp hactive
      have hmem : runner ∈ s.monitored := mem_monitored.mpr (.inr ⟨pc, hmonitor, hdone⟩)
      exact iff_of_true ⟨runner, hmem, hname, hwork⟩
        (.inr ⟨runner, pc, hmonitor, hstart, hdone, hname⟩)
  | none =>
      dsimp only
      rw [hqueued]
      refine ⟨.inl, fun h => h.resolve_right ?_⟩
      rintro ⟨runner, pc, hmonitor, hstart, hdone, hname⟩
      rw [hlookup.mpr ⟨runner, pc, hmonitor, hstart, hdone, hname, rfl⟩] at hactive
      cases hactive

/-- One publish request, up to the hand-over of its job. -/
def published : Lifecycle :=
  System.after next initial (.publish "v" :: List.replicate 6 (.request 0 {}))

/-- A second publish request is handed over while the job of the first one is executing. -/
def twoPublished : Lifecycle :=
  System.after next initial
    (.publish "v" :: List.replicate 6 (.request 0 {}) ++ List.replicate 3 (.monitor {}) ++
      .publish "w" :: List.replicate 6 (.request 1 {}))

/-- The job that is executing is found, the one that waits is not. -/
theorem findsMonitored_iff_twoPublished :
    FindsMonitored twoPublished "dv-v" ∧ ¬FindsMonitored twoPublished "dv-w" := by
  have hrun := System.run_after (· = initial) next initial
    (.publish "v" :: List.replicate 6 (.request 0 {}) ++ List.replicate 3 (.monitor {}) ++
      .publish "w" :: List.replicate 6 (.request 1 {}))
  obtain ⟨pc, hmonitor, hregistered⟩ :
      ∃ pc, twoPublished.monitor = some (0, pc) ∧ pc.registered = true := ⟨_, rfl, rfl⟩
  obtain ⟨hstart, hdone⟩ : pc ≠ .start ∧ pc ≠ .done := by
    simpa [MonitorPc.registered] using hregistered
  constructor
  · exact (findsMonitored_iff hrun "dv-v").mpr (.inr ⟨0, pc, hmonitor, hstart, hdone, by decide⟩)
  · intro h
    rcases (findsMonitored_iff hrun "dv-w").mp h with hnone | ⟨runner, _, hother, _, _, hname⟩
    · exact hnone 1 (by decide) (by decide)
    · obtain rfl : 0 = runner := congrArg Prod.fst (Option.some.inj (hmonitor.symm.trans hother))
      exact absurd hname (by decide)

/-- A job that has just been handed over waits in the queue, and is not found. -/
theorem queued_job_not_found :
    ¬ ∀ (tr : List (Lifecycle × Label)) (s : Lifecycle), system.Run initial tr s →
      ∀ openShiftName, FindsMonitored s openShiftName := by
  intro h
  have hnone : FindsMonitored published "dv-v" :=
    h _ _ (System.run_after (· = initial) next initial _) "dv-v"
  exact absurd rfl (hnone 0 (by decide))

end Lifecycle

end TeiidSyndesis.OpenShift
