/-
# TeiidSyndesis.OpenShift.MonitoredJobs — one monitored job for each virtualization.

A `BuildStatusRunner` is monitored while it waits in `workExecutor` or its `run` is executing.
`publishVirtualization` turns a request down only in status `BUILDING`, and the queue scan of
`deleteVirtualization` looks for a `BuildStatusRunner` where `submit` has put a `FutureTask`, so
neither keeps a second runner out.  What is left is exact: a runner once monitored leaves only by
ending, the monitor resubmits only the runner it executes, and so two runners of one name appear
exactly when a new one is handed over while another is monitored.

Main results:
* `monitored_of_moved` — a step brings at most one runner under monitoring, and which;
* `mem_monitored_of_enqueued` — a runner that is handed over is monitored then;
* `oneJob_step`, `oneJob_iff` — so one job for each virtualization, exactly if none is handed over while
  another of its name is monitored;
* `two_publishes_monitored` — and two that are.
-/
import TeiidSyndesis.OpenShift.LifecycleValid

namespace TeiidSyndesis.OpenShift

open TeiidSyndesis.Library

namespace Lifecycle

/-! ## Monitored runners -/

/-- The runner whose `run` has not returned. -/
def executing (s : Lifecycle) : List Nat :=
  match s.monitor with
  | some (_, .done) | none => []
  | some (runner, _) => [runner]

/-- The runners queued in `workExecutor` or running. -/
def monitored (s : Lifecycle) : List Nat :=
  s.shared.workQueue.map Runnable.runner ++ s.executing

/-- The name of a runner's job. -/
def runnerName (s : Lifecycle) (runner : Nat) : String :=
  (s.shared.work (s.shared.runnerWork runner)).openShiftName

/-- At most one runner is monitored for any OpenShift name. -/
def OneJob (s : Lifecycle) : Prop :=
  ∀ r ∈ s.monitored, ∀ r' ∈ s.monitored, s.runnerName r = s.runnerName r' → r = r'

instance (s : Lifecycle) : Decidable (OneJob s) :=
  inferInstanceAs (Decidable (∀ r ∈ s.monitored, ∀ r' ∈ s.monitored,
    s.runnerName r = s.runnerName r' → r = r'))

/-- A new runner is handed to `workExecutor` only while none of its name is monitored. -/
def enqueuesFresh (s : Lifecycle) (label : Label) : Bool :=
  match enqueues s label with
  | some work =>
      s.monitored.all fun r => s.runnerName r != (s.shared.work work).openShiftName
  | none => true

/-- The runner that is executing. -/
theorem mem_executing {s : Lifecycle} {runner : Nat} :
    runner ∈ s.executing ↔ ∃ pc, s.monitor = some (runner, pc) ∧ pc ≠ .done := by
  unfold executing
  constructor
  · intro h
    split at h
    · cases h
    · cases h
    · rename_i r pc hpc hmonitor
      rw [List.mem_singleton.mp h]
      exact ⟨pc, hmonitor, hpc⟩
  · rintro ⟨pc, hmonitor, hpc⟩
    rw [hmonitor]
    cases pc <;> first | exact absurd rfl hpc | exact List.mem_singleton_self _

/-- A runner is monitored in the queue, or while it is executing. -/
theorem mem_monitored {s : Lifecycle} {runner : Nat} :
    runner ∈ s.monitored ↔
      (∃ runnable ∈ s.shared.workQueue, runnable.runner = runner) ∨
        ∃ pc, s.monitor = some (runner, pc) ∧ pc ≠ .done := by
  unfold monitored
  rw [List.mem_append, List.mem_map, mem_executing]

/-- A monitored runner was created before. -/
theorem monitored_lt {s : Lifecycle} (hs : Valid s) {runner : Nat} (h : runner ∈ s.monitored) :
    runner < s.shared.runners.length := by
  rcases mem_monitored.mp h with ⟨runnable, hmem, rfl⟩ | ⟨pc, hmonitor, _⟩
  · exact hs.shared.workQueue runnable hmem
  · exact hs.monitor runner pc hmonitor

/-- A runner keeps its name. -/
theorem runnerName_of_moved {s t : Lifecycle} {label : Label} (h : Moved s label t) (hs : Valid s)
    {runner : Nat} (hrunner : runner < s.shared.runners.length) :
    t.runnerName runner = s.runnerName runner := by
  unfold runnerName
  rw [runnerWork_of_moved h hrunner]
  exact (work_frame_of_moved h (hs.shared.runnerWork_lt hrunner)).1

/-! ## What a step does to the monitored runners -/

/-- After its action a thread has queued a new runner, or resubmitted the one it executes. -/
theorem mem_workQueue_of_apply {action : Action} {s : Shared} {runnable : Runnable}
    (h : runnable ∈ (action.apply s).workQueue) :
    runnable ∈ s.workQueue ∨
      (∃ work, action = .submitRunner work ∧ runnable = .futureTask s.runners.length) ∨
      ∃ runner, action = .resubmit runner ∧ runnable = .futureTask runner := by
  cases action with
  | submitRunner work =>
      rcases List.mem_append.mp h with hold | hnew
      · exact .inl hold
      · exact .inr (.inl ⟨work, rfl, List.mem_singleton.mp hnew⟩)
  | resubmit runner =>
      rcases List.mem_append.mp h with hold | hnew
      · exact .inl hold
      · exact .inr (.inr ⟨runner, rfl, List.mem_singleton.mp hnew⟩)
  | _ => exact .inl h

/-- What is queued was queued, or submitted in this step. -/
theorem workQueue_of_moved {s t : Lifecycle} {label : Label} (h : Moved s label t)
    {runnable : Runnable} (hmem : runnable ∈ t.shared.workQueue) :
    runnable ∈ ((act s label).apply s.shared).workQueue := by
  cases h with
  | publish | delete => exact hmem
  | request hrequest => rw [act_request hrequest]; exact hmem
  | take hidle hqueue =>
      simp only [act, hidle, Action.apply, hqueue]
      exact List.mem_cons_of_mem _ hmem
  | idle hmonitor => rw [act_monitor hmonitor]; exact hmem
  | monitor hmonitor _ => rw [act_monitor hmonitor]; exact hmem
  | @start index answer task hget hphase _ =>
      obtain ⟨job, phase⟩ := task
      cases hphase
      simp only [act, hget]
      exact hmem
  | task hget hphase => rw [act_task hget hphase]; exact hmem

/-- A runner monitored after a step was monitored before, or is the new one. -/
theorem monitored_of_moved {s t : Lifecycle} {label : Label} (h : Moved s label t) {runner : Nat}
    (ht : runner ∈ t.monitored) :
    runner ∈ s.monitored ∨
      ∃ work, act s label = .submitRunner work ∧ runner = s.shared.runners.length := by
  rcases mem_monitored.mp ht with ⟨runnable, hmem, rfl⟩ | ⟨pc, hmonitor, hpc⟩
  · rcases mem_workQueue_of_apply (workQueue_of_moved h hmem) with
      hold | ⟨work, hact, rfl⟩ | ⟨runner, hact, rfl⟩
    · exact .inl (mem_monitored.mpr (.inl ⟨runnable, hold, rfl⟩))
    · exact .inr ⟨work, hact, rfl⟩
    · exact .inl (mem_monitored.mpr (.inr ⟨_, act_resubmits hact, by simp⟩))
  · rcases monitor_of_moved h hmonitor with ⟨hsame, _⟩ | ⟨_, _, hqueued⟩ | ⟨_, q, _, hq, hdone, _⟩
    · exact .inl (mem_monitored.mpr (.inr ⟨pc, hsame, hpc⟩))
    · exact .inl (mem_monitored.mpr (.inl hqueued))
    · exact .inl (mem_monitored.mpr (.inr ⟨q, hq, hdone⟩))

/-- The step that hands over a new runner, and what it leaves: the queue with the runner at its end
and a monitor that is still executing whatever it executed. -/
theorem enqueued_of_moved {s t : Lifecycle} {label : Label} (h : Moved s label t) {work : Nat}
    (henqueues : enqueues s label = some work) :
    act s label = .submitRunner work ∧ t.shared.runners = s.shared.runners ++ [work] ∧
      t.shared.workQueue = s.shared.workQueue ++ [.futureTask s.shared.runners.length] ∧
      ∀ runner ∈ s.executing, runner ∈ t.executing := by
  cases h with
  | publish | delete => cases henqueues
  | take hidle _ => simp [enqueues, deletePoint, hidle] at henqueues
  | idle hmonitor => simp [enqueues, deletePoint, hmonitor, MonitorPc.deletePoint] at henqueues
  | start | task => cases henqueues
  | @request thread answer request hrequest =>
      rw [act_request hrequest]
      have hact : (request.next s.shared answer).1 = .submitRunner work := by
        cases request with
        | publish v pc =>
            cases pc <;> simp [enqueues, deletePoint, hrequest, Request.deletePoint] at henqueues
            rw [henqueues]
            rfl
        | delete v pc =>
            cases pc <;> simp [enqueues, deletePoint, hrequest, Request.deletePoint] at henqueues
            rw [henqueues]
            rfl
      rw [hact]
      exact ⟨rfl, rfl, rfl, fun _ hmem => hmem⟩
  | @monitor answer runner pc hmonitor _ =>
      rw [act_monitor hmonitor]
      obtain rfl : pc = .deleting (.enqueue work) := by
        cases pc with
        | deleting p =>
            cases p <;> simp [enqueues, deletePoint, hmonitor, MonitorPc.deletePoint] at henqueues
            rw [henqueues]
        | _ => simp [enqueues, deletePoint, hmonitor, MonitorPc.deletePoint] at henqueues
      refine ⟨rfl, rfl, rfl, ?_⟩
      -- the monitor hands over a new runner from a `run` that will still resubmit itself
      intro r hr
      obtain ⟨_, hr, _⟩ := mem_executing.mp hr
      rw [hmonitor] at hr
      cases hr
      exact mem_executing.mpr ⟨.resubmit, rfl, by simp⟩

/-- The runner that is handed over is monitored, together with all that were. -/
theorem mem_monitored_of_enqueued {s t : Lifecycle} {label : Label} (h : Moved s label t) {work : Nat}
    (henqueues : enqueues s label = some work) :
    s.shared.runners.length ∈ t.monitored ∧ ∀ r ∈ s.monitored, r ∈ t.monitored := by
  obtain ⟨_, _, hqueue, hexecuting⟩ := enqueued_of_moved h henqueues
  constructor
  · refine mem_monitored.mpr (.inl ⟨.futureTask s.shared.runners.length, ?_, rfl⟩)
    rw [hqueue]
    exact List.mem_append_right _ (List.mem_singleton_self _)
  · intro r hr
    rcases mem_monitored.mp hr with ⟨runnable, hmem, hrunner⟩ | hmonitor
    · refine mem_monitored.mpr (.inl ⟨runnable, ?_, hrunner⟩)
      rw [hqueue]
      exact List.mem_append_left _ hmem
    · exact List.mem_append_right _ (hexecuting r (mem_executing.mpr hmonitor))

/-- The new runner has the name of the job it is handed over for. -/
theorem runnerName_of_enqueued {s t : Lifecycle} {label : Label} (h : Moved s label t) {work : Nat}
    (henqueues : enqueues s label = some work) :
    t.runnerName s.shared.runners.length = (s.shared.work work).openShiftName := by
  obtain ⟨hact, hrunners, _⟩ := enqueued_of_moved h henqueues
  have hworks : t.shared.works = s.shared.works := by
    rw [works_of_moved h, hact]
    rfl
  have href : t.shared.runnerWork s.shared.runners.length = work := by
    unfold Shared.runnerWork
    rw [hrunners]
    simp
  unfold runnerName
  rw [href, Shared.work_congr hworks]

/-- A step keeps one job for each name exactly if the runner it hands over is fresh. -/
theorem oneJob_step {s t : Lifecycle} {label : Label} (hvalid : Valid s) (hs : OneJob s)
    (hnext : next s label = some t) : OneJob t ↔ enqueuesFresh s label = true := by
  have h := moved_of_next hnext
  have hname : ∀ r ∈ s.monitored, t.runnerName r = s.runnerName r :=
    fun r hr => runnerName_of_moved h hvalid (monitored_lt hvalid hr)
  cases henqueues : enqueues s label with
  -- nothing is enqueued: no runner is new, and none changes its name
  | none =>
      have hfresh : enqueuesFresh s label = true := by simp only [enqueuesFresh, henqueues]
      have hold : ∀ r ∈ t.monitored, r ∈ s.monitored := by
        intro r hr
        rcases monitored_of_moved h hr with hmem | ⟨work, hact, _⟩
        · exact hmem
        · rw [act_submitsRunner hact] at henqueues
          cases henqueues
      refine iff_of_true ?_ hfresh
      intro r hr r' hr' heq
      rw [hname r (hold r hr), hname r' (hold r' hr')] at heq
      exact hs r (hold r hr) r' (hold r' hr') heq
  -- the new runner is the one the guard speaks of
  | some work =>
      obtain ⟨hnew, hkept⟩ := mem_monitored_of_enqueued h henqueues
      have hnewName := runnerName_of_enqueued h henqueues
      have hlt : ∀ r ∈ s.monitored, r ≠ s.shared.runners.length :=
        fun r hr => Nat.ne_of_lt (monitored_lt hvalid hr)
      simp only [enqueuesFresh, henqueues, List.all_eq_true, bne_iff_ne]
      constructor
      · -- a monitored runner of the same name would be a second one
        intro ht r hr heq
        refine hlt r hr (ht r (hkept r hr) _ hnew ?_)
        rw [hname r hr, hnewName, heq]
      · -- of two runners of one name, both are old, or both are the new one
        intro hfresh r hr r' hr' heq
        rcases monitored_of_moved h hr with hmem | ⟨_, _, rfl⟩ <;>
          rcases monitored_of_moved h hr' with hmem' | ⟨_, _, rfl⟩
        · rw [hname r hmem, hname r' hmem'] at heq
          exact hs r hmem r' hmem' heq
        · rw [hname r hmem, hnewName] at heq
          exact absurd heq (hfresh r hmem)
        · rw [hname r' hmem', hnewName] at heq
          exact absurd heq.symm (hfresh r' hmem')
        · rfl

/-- At most one runner of a name is monitored at every moment of a run exactly if every runner the
run hands over is fresh. -/
theorem oneJob_iff {s : Lifecycle} {tr : List (Lifecycle × Label)}
    (hrun : system.Run initial tr s) :
    (OneJob s ∧ ∀ x ∈ tr, OneJob x.1) ↔
      System.Guarded (fun s label => enqueuesFresh s label = true) tr := by
  have hinitial : OneJob initial := by
    intro r hr
    cases hr
  have hvalid : ∀ s label t, Valid s → system.step s label t → Valid t :=
    fun _ _ _ hs hstep => valid_step hs hstep
  have hexact : ∀ s label t, Valid s → OneJob s → system.step s label t →
      (OneJob t ↔ enqueuesFresh s label = true) :=
    fun _ _ _ hs hone hstep => oneJob_step hs hone hstep
  exact hrun.visited_iff hvalid hexact valid_initial hinitial

theorem oneJob_iff_onePublish :
    (OneJob (System.after next initial (.publish "v" :: List.replicate 6 (.request 0 {}))) ∧
      ∀ x ∈ System.stepsOf next initial (.publish "v" :: List.replicate 6 (.request 0 {})),
        OneJob x.1) ↔
      System.Guarded (fun s label => enqueuesFresh s label = true)
        (System.stepsOf next initial (.publish "v" :: List.replicate 6 (.request 0 {}))) :=
  oneJob_iff (System.run_after _ next initial _)

/-- Two publish requests of one virtualization: neither finds a build. -/
theorem two_publishes_monitored :
    ¬ ∀ (tr : List (Lifecycle × Label)) (s : Lifecycle), system.Run initial tr s → OneJob s := by
  intro h
  have hrun := System.run_after (· = initial) next initial
    (.publish "v" :: .publish "v" ::
      (List.replicate 6 (.request 0 {}) ++ List.replicate 6 (.request 1 {})))
  exact absurd (h _ _ hrun) (by decide)

end Lifecycle

end TeiidSyndesis.OpenShift
