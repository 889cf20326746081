/-
# TeiidSyndesis.OpenShift.UnpublishKept — when an accepted unpublish stays one.

`deleteVirtualization` writes `DELETE_SUBMITTED` into an object that other threads may be working on.
A configure task that has not ended writes `BUILDING` or `FAILED` over it, and a monitor pass that
has read an older status goes on to write its own.  The marks of an unpublish are safe exactly when
they are written outside such work: no configure task of the job is pending, and the pass of the
monitor over the job stands at a point from which the status it is about to see settles it.

Main results:
* `settles_next` — a pass from such a point leaves the status alone;
* `accepted_of_submitted` — a mark that is written safely is an accepted unpublish;
* `accepted_step` — which every step keeps;
* `unpublish_kept` — so in every run whose marks are written safely;
* `unpublish_undone` — and one whose mark is not.
-/
import TeiidSyndesis.OpenShift.LifecycleValid

namespace TeiidSyndesis.OpenShift

open TeiidSyndesis.Library

/-! ## Monitor passes that leave a status alone -/

/-- From here the pass over a job with `status` writes no status of its own. -/
def MonitorPc.settles (pc : MonitorPc) (status : Status) : Bool :=
  match pc with
  | .checkDeleteRequeue => status == .deleteRequeue || status == .deleteDone
  | .checkDeleteDone => status == .deleteDone
  | .start | .sleep | .checkDeleteSubmitted | .deleting _ | .removeSyndesisConnection
  | .deployLatest | .notReady _ _ | .resubmit | .finish | .done => true
  | _ => false

/-- A point that settles a status settles the end of a deletion. -/
theorem MonitorPc.settles_deleteDone {pc : MonitorPc} {status : Status}
    (h : pc.settles status = true) : pc.settles .deleteDone = true := by
  cases pc <;> first | rfl | cases h

/-- A point that settles a status writes none itself. -/
theorem MonitorPc.not_writesStatus_of_settles {pc : MonitorPc} {status : Status}
    (h : pc.settles status = true) : pc.writesStatus = false := by
  cases pc <;> first | rfl | cases h

/-- A pass that settles the status it finds goes on settling it. -/
theorem settles_next {runner work : Nat} {s : Shared} {pc : MonitorPc} {answer : Answer}
    (hpc : pc.settles (s.status work) = true) (hstatus : (s.status work).Unpublish) :
    (runBuildStatus runner work s pc answer).2.settles
      (((runBuildStatus runner work s pc answer).1.apply s).status work) = true := by
  -- one case for each point of the runner; those that are not settled contradict `hpc`
  cases pc with
  | sleep => simp only [runBuildStatus]; split <;> rfl
  | checkDeleteSubmitted =>
      simp only [runBuildStatus, Action.apply]
      split
      · rfl
      · -- one of the other two marks, which the checks that follow catch
        rename_i hnot
        rcases hstatus with h | h | h
        · exact absurd h hnot
        · rw [h]; rfl
        · rw [h]; rfl
  | checkDeleteRequeue =>
      simp only [runBuildStatus, Action.apply]
      split
      · rfl
      · rename_i hnot
        simpa [MonitorPc.settles, hnot] using hpc
  | checkDeleteDone =>
      have hdone : s.status work = .deleteDone := by simpa [MonitorPc.settles] using hpc
      simp only [runBuildStatus, Action.apply, if_pos hdone]
      rfl
  | deleting p =>
      simp only [runBuildStatus]
      split
      · split <;> rfl
      · rfl
  | deployLatest => simp only [runBuildStatus]; split <;> rfl
  | notReady dc requeue => simp only [runBuildStatus]; split <;> rfl
  | start | removeSyndesisConnection | resubmit | finish | done => rfl
  | _ => cases hpc

/-! ## Marks, and the steps that write them safely -/

namespace Lifecycle

/-- The mark of an unpublish the step is about to write, and the object it writes it into: the
thread stands at the write of `DELETE_SUBMITTED`, or a client call of a delete task raises. -/
def marks (s : Lifecycle) (label : Label) : Option (Nat × Status) :=
  match s.deletePoint label, label with
  | some (.write work _), _ => some (work, .deleteSubmitted)
  | _, .task index answer =>
      match s.shared.tasks[index]? with
      | some ⟨.delete work _, .running (.deleting (_ :: _))⟩ =>
          if answer.call = .kubernetesClientException then some (work, .deleteRequeue) else none
      | _ => none
  | _, _ => none

/-- A configure task of `work` is queued or running. -/
def ConfigurePending (s : Lifecycle) (work : Nat) : Prop :=
  ∃ task ∈ s.shared.tasks, task.job = .configure work ∧ task.phase ≠ .finished

instance (s : Lifecycle) (work : Nat) : Decidable (ConfigurePending s work) :=
  inferInstanceAs (Decidable (∃ task ∈ s.shared.tasks,
    task.job = .configure work ∧ task.phase ≠ .finished))

/-- The monitor is not working on `work`, or its pass settles `status`. -/
def monitorSettles (s : Lifecycle) (work : Nat) (status : Status) : Bool :=
  match s.monitor with
  | some (runner, pc) => s.shared.runnerWork runner != work || pc.settles status
  | none => true

instance (status : Status) : Decidable status.Unpublish :=
  inferInstanceAs (Decidable (_ ∨ _))

/-- The step writes no mark over work in progress: `DELETE_SUBMITTED` is written when no configure
task of the job is pending and the monitor settles it, `DELETE_REQUEUE` into an accepted job when
the monitor settles it. -/
def marksSettled (s : Lifecycle) (label : Label) : Bool :=
  match marks s label with
  | some (work, .deleteSubmitted) =>
      monitorSettles s work .deleteSubmitted && !decide (ConfigurePending s work)
  | some (work, status) => !decide (s.status work).Unpublish || monitorSettles s work status
  | none => true

/-- Who writes the first mark. -/
theorem marks_deleteSubmitted {s : Lifecycle} {label : Label} {work : Nat}
    (h : (act s label).Sets work .deleteSubmitted) :
    marks s label = some (work, .deleteSubmitted) := by
  obtain ⟨queue, hpoint⟩ := deletePoint_of_sets h
  simp only [marks, hpoint]

/-- `DELETE_REQUEUE` is written by a delete task, where a client call raises. -/
theorem marks_deleteRequeue {s : Lifecycle} {label : Label} {work : Nat}
    (h : (act s label).Sets work .deleteRequeue) :
    marks s label = some (work, .deleteRequeue) := by
  rcases act_sets h with ⟨_, _, _, hst⟩ | ⟨_, _, hst⟩ | ⟨_, _, _, _, _, _, hst, _⟩ |
    ⟨index, answer, job, pc, rfl, hget, _, hjob, hsets⟩
  · cases hst
  · cases hst
  · simp [Status.OfMonitor] at hst
  · rcases job_sets hjob hsets with ⟨_, hst⟩ | ⟨name, rfl, ⟨_, hcall, block, blocks, rfl⟩ | ⟨hst, _⟩⟩
    · simp at hst
    · simp [marks, deletePoint, hget, hcall]
    · cases hst

/-- A first mark is written where the guard allows it. -/
theorem settled_of_submitted {s : Lifecycle} {label : Label} {work : Nat}
    (hguard : marksSettled s label = true) (h : (act s label).Sets work .deleteSubmitted) :
    monitorSettles s work .deleteSubmitted = true ∧ ¬ ConfigurePending s work := by
  simp only [marksSettled, marks_deleteSubmitted h] at hguard
  simpa using hguard

/-- A second mark is written where the guard allows it. -/
theorem settled_of_requeue {s : Lifecycle} {label : Label} {work : Nat}
    (hguard : marksSettled s label = true) (h : (act s label).Sets work .deleteRequeue)
    (hstatus : (s.status work).Unpublish) : monitorSettles s work .deleteRequeue = true := by
  simp only [marksSettled, marks_deleteRequeue h] at hguard
  simpa [hstatus] using hguard

/-- The pass over the job, if there is one, settles. -/
theorem settles_of_monitorSettles {s : Lifecycle} {work runner : Nat} {pc : MonitorPc}
    {status : Status} (h : monitorSettles s work status = true)
    (hmonitor : s.monitor = some (runner, pc)) (hwork : s.shared.runnerWork runner = work) :
    pc.settles status = true := by
  simpa [monitorSettles, hmonitor, hwork] using h

/-! ## The invariant of an accepted unpublish -/

/-- The status is a mark, and nothing that is on its way writes over it. -/
structure Accepted (s : Lifecycle) (work : Nat) : Prop where
  created : work < s.shared.works.length
  status : (s.status work).Unpublish
  unused : (s.shared.work work).usedBy = []
  /-- no task that configures the build, and writes the outcome over the mark, is pending -/
  configured : ¬ ConfigurePending s work
  /-- the monitor is at no point from which it would -/
  monitor : ∀ runner pc, s.monitor = some (runner, pc) → s.shared.runnerWork runner = work →
    pc.settles (s.status work) = true

/-- Once none is pending, a new configure task comes from the monitor. -/
theorem configurePending_of_moved {s t : Lifecycle} {label : Label} (h : Moved s label t)
    {work : Nat} (ht : ConfigurePending t work) :
    ConfigurePending s work ∨
      ∃ runner, s.monitor = some (runner, .executeConfigure) ∧
        s.shared.runnerWork runner = work := by
  obtain ⟨task, hmem, hjob, hphase⟩ := ht
  rcases task_of_moved h hmem with hold | ⟨hact, _⟩ | ⟨old, hold, hsame, hrunning⟩
  · exact .inl ⟨task, hold, hjob, hphase⟩
  · rw [hjob] at hact
    exact .inr (act_configures hact)
  · exact .inl ⟨old, hold, hsame.trans hjob, hrunning⟩

/-- The status after a step is the one its action leaves. -/
theorem status_eq_apply {s t : Lifecycle} {label : Label} (h : Moved s label t) (work : Nat) :
    t.status work = ((act s label).apply s.shared).status work :=
  congrArg BuildStatus.status (Shared.work_congr (works_of_moved h) work)

/-- A safe write of `DELETE_SUBMITTED` accepts the unpublish. -/
theorem accepted_of_submitted {s t : Lifecycle} {label : Label} (hs : Valid s)
    (hguard : marksSettled s label = true) (h : Moved s label t) {work : Nat}
    (hsets : (act s label).Sets work .deleteSubmitted) : Accepted t work := by
  obtain ⟨hmonitor, hconfigured⟩ := settled_of_submitted hguard hsets
  -- the point that writes the mark has a checked job
  obtain ⟨queue, hpoint⟩ := deletePoint_of_sets hsets
  obtain ⟨hrange, hunused⟩ := hs.deletes _ (mem_of_deletePoint hpoint)
  have hlt : work < s.shared.works.length := hrange work rfl
  have hstatus : t.status work = .deleteSubmitted :=
    (status_eq_apply h work).trans (Action.status_of_sets hsets hlt)
  refine ⟨Nat.lt_of_lt_of_le hlt (works_length_le_of_moved h), .inl hstatus,
    (work_frame_of_moved h hlt).2.trans hunused, ?_, ?_⟩
  · intro hpending
    rcases configurePending_of_moved h hpending with hold | ⟨runner, hrunner, hwork⟩
    · exact hconfigured hold
    · cases settles_of_monitorSettles hmonitor hrunner hwork
  · intro runner pc hpc hwork
    rw [hstatus]
    rcases monitor_of_moved h hpc with ⟨hsame, _⟩ | ⟨_, rfl, _⟩ | ⟨answer, q, rfl, hq, _, rfl⟩
    · rw [runnerWork_of_moved h (hs.monitor runner pc hsame)] at hwork
      exact settles_of_monitorSettles hmonitor hsame hwork
    · rfl
    · -- the monitor marks the job from within its own call of `deleteVirtualization`
      obtain ⟨p, rfl⟩ : ∃ p, q = .deleting p := by
        simp only [deletePoint, hq, Option.bind_some] at hpoint
        cases q <;> cases hpoint
        exact ⟨_, rfl⟩
      simp only [runBuildStatus]
      split
      · split <;> rfl
      · rfl

/-- A step writes only marks into an accepted job. -/
theorem unpublish_of_sets {s : Lifecycle} {label : Label} {work : Nat} {status : Status}
    (hs : Accepted s work) (h : (act s label).Sets work status) : status.Unpublish := by
  rcases act_sets h with ⟨_, _, hused, _⟩ | ⟨_, _, rfl⟩ |
    ⟨_, runner, pc, _, hmonitor, hwork, _, hwrites⟩ | ⟨_, _, job, _, _, hget, _, hjob, hsets⟩
  · exact absurd hs.unused hused
  · exact .inl rfl
  · -- a pass over the job would have to stand where it settles the mark
    have hpc := hs.monitor runner pc hmonitor hwork.symm
    rw [MonitorPc.not_writesStatus_of_settles hpc] at hwrites
    cases hwrites
  · rcases job_sets hjob hsets with ⟨rfl, _⟩ | ⟨_, _, ⟨rfl, _⟩ | ⟨rfl, _⟩⟩
    · exact absurd ⟨_, List.mem_of_getElem? hget, rfl, by simp⟩ hs.configured
    · exact .inr (.inl rfl)
    · exact .inr (.inr rfl)

/-- A step leaves the status, or writes the other mark. -/
theorem accepted_status {s t : Lifecycle} {label : Label} (h : Moved s label t) {work : Nat}
    (hs : Accepted s work) :
    t.status work = s.status work ∨
      ((act s label).Sets work (t.status work) ∧ (t.status work).Unpublish) := by
  rcases status_of_moved h work with hsame | hsets | ⟨_, _, hnew, _⟩
  · exact .inl hsame
  · exact .inr ⟨hsets, unpublish_of_sets hs hsets⟩
  · exact absurd hnew (Nat.ne_of_lt hs.created)

/-- A pass of the monitor that has not moved settles the mark the step has written. -/
theorem settles_of_step {s t : Lifecycle} {label : Label} (h : Moved s label t)
    (hguard : marksSettled s label = true) {work runner : Nat} {pc : MonitorPc}
    (hs : Accepted s work) (hmonitor : s.monitor = some (runner, pc))
    (hwork : s.shared.runnerWork runner = work) : pc.settles (t.status work) = true := by
  have hpc := hs.monitor runner pc hmonitor hwork
  rcases accepted_status h hs with hsame | ⟨hsets, hmark⟩
  · rw [hsame]
    exact hpc
  · rcases hmark with hst | hst | hst <;> rw [hst] at hsets ⊢
    · exact settles_of_monitorSettles (settled_of_submitted hguard hsets).1 hmonitor hwork
    · exact settles_of_monitorSettles (settled_of_requeue hguard hsets hs.status) hmonitor hwork
    · exact MonitorPc.settles_deleteDone hpc

/-- A step keeps what is accepted. -/
theorem accepted_step {s t : Lifecycle} {label : Label} (hvalid : Valid s)
    (hguard : marksSettled s label = true) (hnext : next s label = some t) {work : Nat}
    (hs : Accepted s work) : Accepted t work := by
  have h := moved_of_next hnext
  refine ⟨Nat.lt_of_lt_of_le hs.created (works_length_le_of_moved h), ?_,
    (work_frame_of_moved h hs.created).2.trans hs.unused, ?_, ?_⟩
  · rcases accepted_status h hs with hsame | ⟨_, hmark⟩
    · rw [hsame]
      exact hs.status
    · exact hmark
  · intro hpending
    rcases configurePending_of_moved h hpending with hold | ⟨runner, hmonitor, hwork⟩
    · exact hs.configured hold
    · cases hs.monitor runner _ hmonitor hwork
  · intro runner pc hpc hwork
    rcases monitor_of_moved h hpc with ⟨hsame, _⟩ | ⟨_, rfl, _⟩ | ⟨answer, q, rfl, hq, _, rfl⟩
    -- another thread has moved, the monitor has taken the job, or its own pass goes on
    · rw [runnerWork_of_moved h (hvalid.monitor runner pc hsame)] at hwork
      exact settles_of_step h hguard hs hsame hwork
    · rfl
    · rw [runnerWork_of_moved h (hvalid.monitor runner q hq)] at hwork
      rw [status_eq_apply h, act_monitor hq, hwork]
      exact settles_next (hs.monitor runner q hq hwork) hs.status

/-- In a run that writes the marks of an unpublish outside work in progress, an accepted unpublish
is never undone. -/
theorem unpublish_kept {tr₁ tr₂ : List (Lifecycle × Label)} {s s₁ s₂ : Lifecycle} {label : Label}
    {work : Nat} (hbefore : system.Run initial tr₁ s) (hstep : system.step s label s₁)
    (haccept : (act s label).Sets work .deleteSubmitted) (hafter : system.Run s₁ tr₂ s₂)
    (hsettled : System.Guarded (fun s label => marksSettled s label = true)
      ((s, label) :: tr₂)) :
    (s₂.status work).Unpublish := by
  obtain ⟨hhead, htail⟩ := System.guarded_cons.mp hsettled
  have hvalid := valid_of_run hbefore
  have hstart : Valid s₁ ∧ Accepted s₁ work :=
    ⟨valid_step hvalid hstep, accepted_of_submitted hvalid hhead (moved_of_next hstep) haccept⟩
  have hend : Valid s₂ ∧ Accepted s₂ work := by
    refine @System.Run.preserves _ _ _ _ (fun s => Valid s ∧ Accepted s work) ?_ _ _ _ hafter htail
      hstart
    rintro s label t ⟨hv, ha⟩ hguard hst
    exact ⟨valid_step hv hst, accepted_step hv hguard hst ha⟩
  exact hend.2.status

/-! ## A configure task that ends late -/

/-- A publish request, the monitor pass that configures it, the start of its configure task, and a
second pass that announces the job as active. -/
def publishUntilConfiguring : List Label :=
  .publish "v" :: List.replicate 6 (.request 0 {}) ++ List.replicate 14 (.monitor {}) ++
    .task 0 {} :: List.replicate 3 (.monitor {})

/-- An unpublish request up to the write of `DELETE_SUBMITTED`. -/
def unpublishUntilMarked : List Label := .delete "v" :: List.replicate 4 (.request 1 {})

/-- The configure task has ended when the unpublish is about to be marked. -/
def configureEndsFirst : List Label :=
  publishUntilConfiguring ++ List.replicate 2 (.task 0 {}) ++ unpublishUntilMarked

def markedAfterConfigure : Lifecycle := System.after next initial configureEndsFirst

/-- The unpublish is marked while the configure task is running. -/
def markedWhileConfiguring : Lifecycle :=
  System.after next initial (publishUntilConfiguring ++ unpublishUntilMarked)

theorem unpublish_kept_afterConfigure :
    ((System.after next (System.after next markedAfterConfigure [.request 1 {}])
      [.monitor {}]).status 1).Unpublish := by
  have hbefore : system.Run initial _ markedAfterConfigure :=
    System.run_after _ next initial configureEndsFirst
  have hstep : system.step markedAfterConfigure (.request 1 {})
      (System.after next markedAfterConfigure [.request 1 {}]) := rfl
  have haccept : (act markedAfterConfigure (.request 1 {})).Sets 1 .deleteSubmitted := by decide
  exact unpublish_kept hbefore hstep haccept (System.run_after _ next _ [.monitor {}]) (by decide)

/-- A configure task that ends after the mark writes `BUILDING` over it. -/
theorem unpublish_undone :
    ¬ ∀ (tr₁ tr₂ : List (Lifecycle × Label)) (s s₁ s₂ : Lifecycle) (label : Label) (work : Nat),
      system.Run initial tr₁ s → system.step s label s₁ →
      (act s label).Sets work .deleteSubmitted → system.Run s₁ tr₂ s₂ →
      (s₂.status work).Unpublish := by
  intro h
  have hbefore : system.Run initial _ markedWhileConfiguring :=
    System.run_after _ next initial (publishUntilConfiguring ++ unpublishUntilMarked)
  have hstep : system.step markedWhileConfiguring (.request 1 {})
      (System.after next markedWhileConfiguring [.request 1 {}]) := rfl
  have haccept : (act markedWhileConfiguring (.request 1 {})).Sets 1 .deleteSubmitted := by decide
  have hafter := System.run_after (· = initial) next
    (System.after next markedWhileConfiguring [.request 1 {}]) [.task 0 {}, .task 0 {}]
  exact absurd (h _ _ _ _ _ _ 1 hbefore hstep haccept hafter) (by decide)

end Lifecycle

end TeiidSyndesis.OpenShift
