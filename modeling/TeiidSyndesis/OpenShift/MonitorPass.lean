/-
# TeiidSyndesis.OpenShift.MonitorPass — one `run` of a `BuildStatusRunner` from its start to its end.

A pass is the monitor thread's steps over one job with nothing in between, every call answered
arbitrarily.  It always ends.  When it ends without resubmitting itself the job is settled, or its
build no longer exists and the job is dropped on purpose, or a call has raised: the catch clause only
logs and the job is dropped as it is.

Main results:
* `runBuildStatus_rank` — every point of the monitor has a rank, and each step lowers it;
* `pass_ends` — so a pass ends, whatever is answered;
* `runBuildStatus_knows` — what the monitor knows of the status at each point;
* `ends_of_pass`, `Pass.settled` — so how a pass ends;
* `pass_settles` — without resubmission, and where no call raises: settled, or its build is gone.
-/
import TeiidSyndesis.OpenShift.LifecycleValid

namespace TeiidSyndesis.OpenShift

open TeiidSyndesis.Library

/-! ## Points and answers -/

/-- The call made at the point ends the pass in the catch clause, or interrupts its sleep. -/
def MonitorPc.raises (pc : MonitorPc) (answer : Answer) : Bool :=
  match pc with
  | .sleep | .removeSyndesisConnection | .findBuild | .deployLatest | .connect =>
      answer.call != .returns
  -- a missing deployment config is dereferenced
  | .deploy | .findDeployment => answer.call != .returns || answer.deploymentConfig.isNone
  | .deleting (.status .service) =>
      answer.call == .exception || answer.call == .error || answer.usedIn.isNone
  | _ => false

/-- The build of the job no longer exists. -/
def MonitorPc.buildGone (pc : MonitorPc) (answer : Answer) : Bool :=
  pc == .findBuild && answer.call == .returns && answer.build.isNone

/-- The Syndesis connection is removed. -/
def MonitorPc.removes (pc : MonitorPc) (answer : Answer) : Bool :=
  pc == .removeSyndesisConnection && answer.call == .returns

/-- The pass resubmits its runner. -/
def MonitorPc.resubmits (pc : MonitorPc) (_answer : Answer) : Bool := pc == .resubmit

/-- A status in which no job is monitored. -/
def Status.Terminal (status : Status) : Prop :=
  status = .running ∨ status = .failed ∨ status = .cancelled

instance (status : Status) : Decidable status.Terminal := inferInstanceAs (Decidable (_ ∨ _))

/-- The steps of a pass that are left at a point, at most. -/
def StatusPc.rank : StatusPc → Nat
  | .active => 3
  | .queued => 2
  | .service => 1
  | .found _ | .raised => 0

/-- How far `deleteVirtualization` is from its end. -/
def DeletePc.rank : DeletePc → Nat
  | .findActive => 12
  | .findQueued => 11
  | .status pc => 7 + pc.rank
  | .checkFound _ _ => 6
  | .checkUsed _ _ => 5
  | .submit _ _ => 4
  | .write _ _ => 3
  | .enqueue _ => 2
  | .done => 1

/-- How far a pass is from its end. -/
def MonitorPc.rank : MonitorPc → Nat
  | .start => 40
  | .sleep => 39
  | .checkDeleteSubmitted => 38
  | .checkDeleteRequeue => 37
  | .checkDeleteDone => 36
  | .checkFailed => 35
  | .checkCancelled => 34
  | .checkSubmitted => 33
  | .checkConfiguring => 32
  | .findBuild | .configureBuild => 31
  | .checkDeploying | .executeConfigure => 30
  | .deploy | .findDeployment => 29
  | .deploymentName _ | .connect | .notProgressing _ => 28
  | .deploying | .running | .notReady _ _ | .buildCancelled _ | .buildFailed _ => 27
  | .deployLatest => 26
  | .deleting pc => 3 + pc.rank
  | .removeSyndesisConnection => 3
  | .resubmit => 2
  | .finish => 1
  | .done => 0

/-- Reading a status comes nearer to its end. -/
theorem getVirtualizationStatus_rank (virtualization : String) (s : Shared) (pc : StatusPc)
    (answer : Answer) :
    (getVirtualizationStatus virtualization s pc answer).2.rank ≤ pc.rank - 1 := by
  cases pc with
  | active => simp only [getVirtualizationStatus]; split <;> simp [StatusPc.rank]
  | queued => simp only [getVirtualizationStatus]; split <;> simp [StatusPc.rank]
  | service => simp only [getVirtualizationStatus]; split <;> simp [StatusPc.rank]
  | found work => exact Nat.le_refl 0
  | raised => exact Nat.le_refl 0

/-- A step of a deletion comes nearer to its end. -/
theorem deleteVirtualization_rank {virtualization : String} {s : Shared} {pc : DeletePc}
    {answer : Answer} (hpc : pc ≠ .done) :
    (deleteVirtualization virtualization s pc answer).2.rank < pc.rank := by
  cases pc with
  | findActive => simp only [deleteVirtualization]; split <;> simp [DeletePc.rank]
  | findQueued =>
      simp only [deleteVirtualization]
      split <;> simp [DeletePc.rank, StatusPc.rank]
  | status p =>
      have hrank := getVirtualizationStatus_rank virtualization s p answer
      simp only [deleteVirtualization]
      split
      · simp only [DeletePc.rank]
        omega
      · simp only [DeletePc.rank]
        omega
      · rename_i hfound hraised
        -- the two points of rank zero are where the lookup has ended
        have hpos : p.rank ≠ 0 := by
          intro hzero
          cases p <;> simp [StatusPc.rank] at hzero
          · exact hfound _ rfl
          · exact hraised rfl
        simp only [DeletePc.rank]
        omega
  | checkFound work queue => simp only [deleteVirtualization]; split <;> simp [DeletePc.rank]
  | checkUsed work queue => simp only [deleteVirtualization]; split <;> simp [DeletePc.rank]
  | submit work queue => simp [deleteVirtualization, DeletePc.rank]
  | write work queue => simp only [deleteVirtualization]; split <;> simp [DeletePc.rank]
  | enqueue work => simp [deleteVirtualization, DeletePc.rank]
  | done => exact absurd rfl hpc

/-- Every step of a pass brings it closer to its end. -/
theorem runBuildStatus_rank {runner work : Nat} {s : Shared} {pc : MonitorPc} {answer : Answer}
    (hpc : pc ≠ .done) : (runBuildStatus runner work s pc answer).2.rank < pc.rank := by
  -- every point is followed by one of a smaller rank; within the deletion its own points count down
  cases pc with
  | deleting p =>
      by_cases hp : p = .done
      · subst hp
        simp [runBuildStatus, deleteVirtualization, MonitorPc.rank, DeletePc.rank]
      · have hrank := @deleteVirtualization_rank ((s.work work).dataVirtualizationName.getD "") s p
          answer hp
        simp only [runBuildStatus]
        split
        · split <;> simp only [MonitorPc.rank] <;> omega
        · simp only [MonitorPc.rank]
          omega
  | findBuild =>
      simp only [runBuildStatus]
      repeat' split
      all_goals simp [MonitorPc.rank]
  | findDeployment =>
      simp only [runBuildStatus]
      repeat' split
      all_goals simp [MonitorPc.rank]
  | deploy => simp only [runBuildStatus]; split <;> simp [MonitorPc.rank]
  | checkDeleteRequeue =>
      simp only [runBuildStatus]; split <;> simp [MonitorPc.rank, DeletePc.rank]
  | sleep | checkDeleteSubmitted | checkDeleteDone | checkFailed | checkCancelled | checkSubmitted
  | checkConfiguring | checkDeploying | deployLatest | connect =>
      simp only [runBuildStatus]; split <;> simp [MonitorPc.rank]
  | notReady dc requeue => simp only [runBuildStatus]; split <;> simp [MonitorPc.rank]
  | done => exact absurd rfl hpc
  | _ => simp [runBuildStatus, MonitorPc.rank]

/-- What the status is at the points where the rest of a pass depends on it. -/
def MonitorPc.Knows (pc : MonitorPc) (status : Status) : Prop :=
  match pc with
  | .finish | .done => status.Terminal
  | .removeSyndesisConnection => status = .deleteDone
  | .notReady _ false => status = .failed
  | .deleting (.status .raised) => False
  | _ => True

/-- A status is not read only where a call has raised. -/
theorem getVirtualizationStatus_raised {virtualization : String} {s : Shared} {pc : StatusPc}
    {answer : Answer} (h : (getVirtualizationStatus virtualization s pc answer).2 = .raised)
    (hpc : pc ≠ .raised) : MonitorPc.raises (.deleting (.status pc)) answer = true := by
  cases pc with
  | active => simp only [getVirtualizationStatus] at h; split at h <;> cases h
  | queued => simp only [getVirtualizationStatus] at h; split at h <;> cases h
  | service =>
      simp only [getVirtualizationStatus] at h
      split at h
      · rename_i hraised
        rcases hraised with hcall | hcall | ⟨_, hused⟩
        · simp [MonitorPc.raises, hcall]
        · simp [MonitorPc.raises, hcall]
        · simp [MonitorPc.raises, hused]
      · cases h
  | found work => cases h
  | raised => exact absurd rfl hpc

/-- The status lookup inside `deleteVirtualization` ends the call where it raises. -/
theorem deleteVirtualization_ne_raised (virtualization : String) (s : Shared) (pc : DeletePc)
    (answer : Answer) : (deleteVirtualization virtualization s pc answer).2 ≠ .status .raised := by
  cases pc with
  | status p =>
      simp only [deleteVirtualization]
      split
      · simp
      · simp
      · rename_i hraised
        intro h
        exact hraised (DeletePc.status.inj h)
  | findActive => simp only [deleteVirtualization]; split <;> simp
  | findQueued => simp only [deleteVirtualization]; split <;> simp
  | checkFound ref queue => simp only [deleteVirtualization]; split <;> simp
  | checkUsed ref queue => simp only [deleteVirtualization]; split <;> simp
  | write ref queue => simp only [deleteVirtualization]; split <;> simp
  | _ => simp [deleteVirtualization]

/-- A deletion that breaks off at its status has raised there. -/
theorem deleteVirtualization_raised {virtualization : String} {s : Shared} {pc : StatusPc}
    {answer : Answer} (h : (deleteVirtualization virtualization s (.status pc) answer).2 = .done) :
    (getVirtualizationStatus virtualization s pc answer).2 = .raised := by
  simp only [deleteVirtualization] at h
  split at h
  · cases h
  · assumption
  · cases h

/-- Inside a deletion nothing is known of the status. -/
theorem knows_deleting {p : DeletePc} (hp : p ≠ .status .raised) (status : Status) :
    (MonitorPc.deleting p).Knows status := by
  cases p with
  | status q => cases q <;> first | exact absurd rfl hp | trivial
  | _ => trivial

/-- `deleteVirtualization` is left early only by an exception of the status lookup. -/
theorem deleting_knows {runner work : Nat} {s : Shared} {p : DeletePc} {answer : Answer}
    {status : Status} (hp : p ≠ .status .raised) :
    (runBuildStatus runner work s (.deleting p) answer).2.Knows status ∨
      MonitorPc.raises (.deleting p) answer = true := by
  have hne := deleteVirtualization_ne_raised ((s.work work).dataVirtualizationName.getD "") s p answer
  simp only [runBuildStatus]
  split
  · rename_i hdone
    split
    · rename_i q
      have hq : q ≠ .raised := fun h => hp (congrArg DeletePc.status h)
      exact .inr (getVirtualizationStatus_raised (deleteVirtualization_raised hdone) hq)
    · exact .inl trivial
  · exact .inl (knows_deleting hne status)

/-- An exit of a pass is explained by the status, or by the step that takes it. -/
theorem runBuildStatus_knows {runner work : Nat} {s : Shared} {pc : MonitorPc} {answer : Answer}
    (hwork : work < s.works.length) (hdone : pc ≠ .done) (hpc : pc.Knows (s.status work)) :
    (runBuildStatus runner work s pc answer).2.Knows
        (((runBuildStatus runner work s pc answer).1.apply s).status work) ∨
      pc.resubmits answer = true ∨ pc.removes answer = true ∨ pc.buildGone answer = true ∨
      pc.raises answer = true := by
  have hwrite : ∀ fields status, fields.status = some status →
      ((Action.write work fields).apply s).status work = status :=
    fun fields status h => Action.status_of_sets ⟨fields, rfl, h⟩ hwork
  -- a point with a remote call goes on where the call returns, and raises where it does not
  cases pc with
  | start => exact .inl trivial
  | sleep =>
      cases hcall : answer.call with
      | returns => simp [runBuildStatus, hcall, MonitorPc.Knows]
      | _ => simp [MonitorPc.raises, hcall]
  | checkDeleteSubmitted => simp only [runBuildStatus]; split <;> exact .inl trivial
  | checkDeleteRequeue => simp only [runBuildStatus]; split <;> exact .inl trivial
  | checkDeleteDone =>
      simp only [runBuildStatus]
      split
      · rename_i hstatus
        exact .inl hstatus
      · exact .inl trivial
  | checkFailed =>
      simp only [runBuildStatus]
      split
      · rename_i hstatus
        exact .inl (.inr (.inl hstatus))
      · exact .inl trivial
  | checkCancelled =>
      simp only [runBuildStatus]
      split
      · rename_i hstatus
        exact .inl (.inr (.inr hstatus))
      · exact .inl trivial
  | checkSubmitted => simp only [runBuildStatus]; split <;> exact .inl trivial
  | checkConfiguring => simp only [runBuildStatus]; split <;> exact .inl trivial
  | deleting p =>
      have hp : p ≠ .status .raised := by
        rintro rfl
        exact hpc
      rcases deleting_knows hp with hknows | hraises
      · exact .inl hknows
      · exact .inr (.inr (.inr (.inr hraises)))
  | removeSyndesisConnection =>
      cases hcall : answer.call with
      | returns => exact .inr (.inr (.inl (by simp [MonitorPc.removes, hcall])))
      | _ => simp [MonitorPc.raises, hcall]
  | configureBuild => exact .inl trivial
  | executeConfigure => exact .inl trivial
  | findBuild =>
      cases hcall : answer.call with
      | returns =>
          cases hbuild : answer.build with
          | none => simp [MonitorPc.buildGone, hcall, hbuild]
          | some build =>
              simp only [runBuildStatus, hcall, hbuild, if_true]
              repeat' split
              all_goals exact .inl trivial
      | _ => simp [MonitorPc.raises, hcall]
  | checkDeploying => simp only [runBuildStatus]; split <;> exact .inl trivial
  | deploy =>
      cases hcall : answer.call with
      | returns =>
          cases hdc : answer.deploymentConfig with
          | none => simp [MonitorPc.raises, hcall, hdc]
          | some dc => simp [runBuildStatus, hcall, hdc, MonitorPc.Knows]
      | _ => simp [MonitorPc.raises, hcall]
  | deploymentName dc => exact .inl trivial
  | deploying => exact .inl trivial
  | deployLatest =>
      cases hcall : answer.call with
      | returns => simp [runBuildStatus, hcall, MonitorPc.Knows]
      | _ => simp [MonitorPc.raises, hcall]
  | findDeployment =>
      cases hcall : answer.call with
      | returns =>
          cases hdc : answer.deploymentConfig with
          | none => simp [MonitorPc.raises, hcall, hdc]
          | some dc =>
              simp only [runBuildStatus, hcall, hdc]
              repeat' split
              all_goals exact .inl trivial
      | _ => simp [MonitorPc.raises, hcall]
  | connect =>
      cases hcall : answer.call with
      | returns => simp [runBuildStatus, hcall, MonitorPc.Knows]
      | _ => simp [MonitorPc.raises, hcall]
  | running => exact .inl (.inl (hwrite _ _ rfl))
  | notProgressing dc => exact .inl (hwrite _ _ rfl)
  | notReady dc requeue =>
      cases requeue with
      | true => exact .inl trivial
      | false =>
          -- the message alone is written, `FAILED` stands since the point before
          refine .inl (.inr (.inl ?_))
          have hfailed : s.status work = .failed := hpc
          simp only [runBuildStatus, Shared.status, Action.work_write]
          split
          · exact hfailed
          · exact hfailed
  | buildCancelled build => exact .inl (.inr (.inr (hwrite _ _ rfl)))
  | buildFailed build => exact .inl (.inr (.inl (hwrite _ _ rfl)))
  | resubmit => exact .inr (.inl rfl)
  | finish => exact .inl hpc
  | done => exact absurd rfl hdone

/-! ## Passes -/

namespace Lifecycle

/-- The steps of the monitor over the job of `runner` up to the end of its `run`, each with the point
it is taken at and the answer it gets. -/
inductive Pass (runner : Nat) : Lifecycle → List (MonitorPc × Answer) → Lifecycle → Prop
  | done {s : Lifecycle} (hmonitor : s.monitor = some (runner, .done)) : Pass runner s [] s
  | step {s t u : Lifecycle} {pc : MonitorPc} {answer : Answer} {tr : List (MonitorPc × Answer)}
      (hmonitor : s.monitor = some (runner, pc)) (hpc : pc ≠ .done)
      (hnext : next s (.monitor answer) = some t) (hrest : Pass runner t tr u) :
      Pass runner s ((pc, answer) :: tr) u

/-- Some step of the pass is of the kind. -/
def Took (kind : MonitorPc → Answer → Bool) (tr : List (MonitorPc × Answer)) : Prop :=
  ∃ x ∈ tr, kind x.1 x.2 = true

instance (kind : MonitorPc → Answer → Bool) (tr : List (MonitorPc × Answer)) :
    Decidable (Took kind tr) :=
  inferInstanceAs (Decidable (∃ x ∈ tr, kind x.1 x.2 = true))

/-- The job is settled: it has a terminal status, or its deletion is done and the Syndesis
connection removed. -/
def Settled (tr : List (MonitorPc × Answer)) (status : Status) : Prop :=
  status.Terminal ∨ (status = .deleteDone ∧ Took MonitorPc.removes tr)

instance (tr : List (MonitorPc × Answer)) (status : Status) : Decidable (Settled tr status) :=
  inferInstanceAs (Decidable (_ ∨ _))

/-- The first step has taken its call. -/
theorem took_head {kind : MonitorPc → Answer → Bool} {pc : MonitorPc} {answer : Answer}
    (h : kind pc answer = true) (tr : List (MonitorPc × Answer)) :
    Took kind ((pc, answer) :: tr) :=
  ⟨(pc, answer), List.mem_cons_self, h⟩

/-- What a pass has taken later, it has taken. -/
theorem Took.cons {kind : MonitorPc → Answer → Bool} {tr : List (MonitorPc × Answer)}
    (h : Took kind tr) (x : MonitorPc × Answer) : Took kind (x :: tr) := by
  obtain ⟨y, hy, hkind⟩ := h
  exact ⟨y, List.mem_cons_of_mem x hy, hkind⟩

/-- How a pass ends does not depend on how it begins. -/
theorem Settled.cons {tr : List (MonitorPc × Answer)} {status : Status} (h : Settled tr status)
    (x : MonitorPc × Answer) : Settled (x :: tr) status := by
  rcases h with hterminal | ⟨hdone, hremoved⟩
  · exact .inl hterminal
  · exact .inr ⟨hdone, hremoved.cons x⟩

/-- A step of the monitor, where it is in a pass. -/
theorem monitorStep_eq {s : Lifecycle} {runner : Nat} {pc : MonitorPc}
    (hmonitor : s.monitor = some (runner, pc)) (hpc : pc ≠ .done) (answer : Answer) :
    next s (.monitor answer) = some
      { s with
        shared :=
          (runBuildStatus runner (s.shared.runnerWork runner) s.shared pc answer).1.apply s.shared
        monitor :=
          some (runner,
            (runBuildStatus runner (s.shared.runnerWork runner) s.shared pc answer).2) } := by
  simp only [next, monitorStep, hmonitor]

/-- Every pass ends, whatever the environment answers. -/
theorem pass_ends {runner : Nat} (answers : Nat → Answer) {n : Nat} {s : Lifecycle} {pc : MonitorPc}
    (hmonitor : s.monitor = some (runner, pc)) (hrank : pc.rank ≤ n) :
    ∃ tr t, Pass runner s tr t ∧ tr.map Prod.snd = (List.range tr.length).map answers := by
  -- on a bound of the rank, which every step lowers
  induction n generalizing s pc answers with
  | zero =>
      obtain rfl : pc = .done := by
        cases pc <;> simp [MonitorPc.rank] at hrank
        rfl
      exact ⟨[], s, .done hmonitor, rfl⟩
  | succ n ih =>
      by_cases hpc : pc = .done
      · subst hpc
        exact ⟨[], s, .done hmonitor, rfl⟩
      · have hlt := @runBuildStatus_rank runner (s.shared.runnerWork runner) s.shared pc (answers 0) hpc
        obtain ⟨m, hnext, hm⟩ : ∃ m, next s (.monitor (answers 0)) = some m ∧ m.monitor =
            some (runner,
              (runBuildStatus runner (s.shared.runnerWork runner) s.shared pc (answers 0)).2) :=
          ⟨_, monitorStep_eq hmonitor hpc (answers 0), rfl⟩
        obtain ⟨tr, t, hpass, htr⟩ := ih (fun i => answers (i + 1)) hm (by omega)
        refine ⟨(pc, answers 0) :: tr, t, .step hmonitor hpc hnext hpass, ?_⟩
        rw [List.map_cons, htr, List.length_cons, List.range_succ_eq_map, List.map_cons,
          List.map_map]
        rfl

/-- The `finally` block leaves the status alone. -/
theorem status_of_finish {runner : Nat} {s t : Lifecycle} {tr : List (MonitorPc × Answer)}
    (hpass : Pass runner s tr t) (hmonitor : s.monitor = some (runner, .finish)) (work : Nat) :
    t.status work = s.status work := by
  cases hpass with
  | done _ => rfl
  | step hm hpc hnext hrest =>
      rw [hmonitor] at hm
      cases hm
      rw [monitorStep_eq hmonitor hpc] at hnext
      cases hnext
      cases hrest with
      | done => rfl
      | step hm hpc =>
          cases hm
          exact absurd rfl hpc

/-- The monitor runs a job that exists. -/
theorem Valid.runsAt {s : Lifecycle} (h : Valid s) {runner : Nat} {pc : MonitorPc}
    (hmonitor : s.monitor = some (runner, pc)) :
    s.shared.RunsAt runner (s.shared.runnerWork runner) :=
  ⟨h.monitor runner pc hmonitor, rfl, h.shared.runnerWork_lt (h.monitor runner pc hmonitor)⟩

/-- How a pass over `work` can end. -/
def Ends (tr : List (MonitorPc × Answer)) (status : Status) : Prop :=
  Took MonitorPc.resubmits tr ∨ Settled tr status ∨ Took MonitorPc.buildGone tr ∨
    Took MonitorPc.raises tr

/-- One step more at the front. -/
theorem Ends.cons {tr : List (MonitorPc × Answer)} {status : Status} (h : Ends tr status)
    (x : MonitorPc × Answer) : Ends (x :: tr) status := by
  rcases h with h | h | h | h
  · exact .inl (h.cons x)
  · exact .inr (.inl (h.cons x))
  · exact .inr (.inr (.inl (h.cons x)))
  · exact .inr (.inr (.inr (h.cons x)))

/-- A pass ends as it may from where it stands, by induction over its steps. -/
theorem ends_of_pass {runner work : Nat} {s t : Lifecycle} {tr : List (MonitorPc × Answer)}
    (hpass : Pass runner s tr t) {pc : MonitorPc} (hmonitor : s.monitor = some (runner, pc))
    (hruns : s.shared.RunsAt runner work) (hknows : pc.Knows (s.status work)) :
    Ends tr (t.status work) := by
  induction hpass generalizing pc with
  | done hdone =>
      rw [hmonitor] at hdone
      cases hdone
      exact .inr (.inl (.inl hknows))
  | @step s m t pc' answer tr hm hpc hnext hrest ih =>
      rw [hmonitor] at hm
      cases hm
      rw [monitorStep_eq hmonitor hpc, hruns.runnerWork_eq] at hnext
      cases hnext
      rcases @runBuildStatus_knows runner work s.shared pc' answer hruns.work_lt hpc hknows with
        hnext | hstep | hstep | hstep | hstep
      · exact (ih rfl (hruns.apply _) hnext).cons _
      · exact .inl (took_head hstep tr)
      · -- the connection is removed, and the `finally` block keeps `DELETE_DONE`
        refine .inr (.inl (.inr ⟨?_, took_head hstep tr⟩))
        obtain rfl : pc' = .removeSyndesisConnection := by
          simp [MonitorPc.removes] at hstep
          exact hstep.1
        rw [status_of_finish hrest rfl]
        exact hknows
      · exact .inr (.inr (.inl (took_head hstep tr)))
      · exact .inr (.inr (.inr (took_head hstep tr)))

/-- A pass that takes no resubmit and meets no raised call leaves the job settled, or was over a build
that is gone. -/
theorem Pass.settled {runner : Nat} {s t : Lifecycle} {tr : List (MonitorPc × Answer)}
    (hpass : Pass runner s tr t) (hvalid : Valid s) (hstart : s.monitor = some (runner, .start))
    (hresubmit : ¬ Took MonitorPc.resubmits tr) (hraise : ¬ Took MonitorPc.raises tr) :
    Settled tr (t.status (s.shared.runnerWork runner)) ∨ Took MonitorPc.buildGone tr := by
  rcases ends_of_pass hpass hstart (hvalid.runsAt hstart) trivial with h | h | h | h
  · exact absurd h hresubmit
  · exact .inl h
  · exact .inr h
  · exact absurd h hraise

/-- A `run` ends whatever its environment answers, and when it ends without resubmitting itself and
no call has raised, the job is settled or its build no longer exists. -/
theorem pass_settles {trace : List (Lifecycle × Label)} {runner : Nat} {s : Lifecycle}
    (hrun : system.Run initial trace s) (hstart : s.monitor = some (runner, .start)) :
    (∀ answers : Nat → Answer, ∃ tr t, Pass runner s tr t ∧
        tr.map Prod.snd = (List.range tr.length).map answers) ∧
      ∀ tr t, Pass runner s tr t → ¬ Took MonitorPc.resubmits tr → ¬ Took MonitorPc.raises tr →
        Settled tr (t.status (s.shared.runnerWork runner)) ∨ Took MonitorPc.buildGone tr := by
  constructor
  · intro answers
    exact pass_ends answers hstart (Nat.le_refl _)
  · intro tr t hpass hresubmit hraise
    exact hpass.settled (valid_of_run hrun) hstart hresubmit hraise

/-- The steps the monitor takes with these answers, and where they lead. -/
def passOf (s : Lifecycle) : List Answer → List (MonitorPc × Answer) × Lifecycle
  | [] => ([], s)
  | answer :: answers =>
      match s.monitor, next s (.monitor answer) with
      | some (_, pc), some t => ((pc, answer) :: (passOf t answers).1, (passOf t answers).2)
      | _, _ => ([], s)

/-- A pass belongs to the runner the monitor holds. -/
theorem Pass.monitor {runner : Nat} {s t : Lifecycle} {tr : List (MonitorPc × Answer)}
    (h : Pass runner s tr t) : ∃ pc, s.monitor = some (runner, pc) := by
  cases h with
  | done hmonitor => exact ⟨_, hmonitor⟩
  | step hmonitor => exact ⟨_, hmonitor⟩

/-- Steps that lead to the end of `run`, and not past it, are a pass. -/
theorem pass_passOf {runner : Nat} {s : Lifecycle} {answers : List Answer}
    (hend : (passOf s answers).2.monitor = some (runner, .done))
    (hsteps : ∀ x ∈ (passOf s answers).1, x.1 ≠ .done) :
    Pass runner s (passOf s answers).1 (passOf s answers).2 := by
  induction answers generalizing s with
  | nil => exact .done hend
  | cons answer answers ih =>
      unfold passOf at hend hsteps ⊢
      cases hmonitor : s.monitor with
      | none =>
          simp only [hmonitor] at hend hsteps ⊢
          cases hend
      | some monitor =>
          obtain ⟨r, pc⟩ := monitor
          cases hnext : next s (.monitor answer) with
          | none =>
              simp only [hmonitor, hnext] at hend hsteps ⊢
              exact .done (hmonitor.trans hend)
          | some t =>
              simp only [hmonitor, hnext] at hend hsteps ⊢
              have hpc : pc ≠ .done := hsteps _ List.mem_cons_self
              have hrest := ih hend fun x hx => hsteps x (List.mem_cons_of_mem _ hx)
              -- the runner stays the one whose `run` ends
              obtain ⟨pc', hpc'⟩ := hrest.monitor
              have ht := monitorStep_eq hmonitor hpc answer
              rw [hnext] at ht
              cases ht
              cases hpc'
              exact .step hmonitor hpc hnext hrest

/-- The monitor has taken the job of a publish request. -/
def publishTaken : List Label :=
  .publish "v" :: List.replicate 6 (.request 0 {}) ++ [.monitor {}]

/-- The job has been configured, and the monitor has taken it again. -/
def buildingTaken : List Label :=
  publishTaken ++ List.replicate 13 (.monitor {}) ++ List.replicate 3 (.task 0 {}) ++ [.monitor {}]

/-- What the monitor is answered when the build of the job has failed. -/
def buildFailedAnswers : List Answer :=
  (List.range 12).map fun i =>
    if i = 9 then { build := some { name := "v-1", phase := .failed } } else {}

/-- A build that has failed. -/
theorem pass_settles_buildFailed :
    Settled (passOf (System.after next initial buildingTaken) buildFailedAnswers).1 .failed ∨
      Took MonitorPc.buildGone
        (passOf (System.after next initial buildingTaken) buildFailedAnswers).1 :=
  (pass_settles (System.run_after (· = initial) next initial buildingTaken) rfl).2 _ _
    (@pass_passOf 0 _ buildFailedAnswers rfl (by decide)) (by decide) (by decide)

/-- What the monitor is answered when the lookup of the build raises. -/
def lookupRaisesAnswers : List Answer :=
  (List.range 11).map fun i => if i = 9 then { call := .exception } else {}

/-- A job is dropped in status `BUILDING` when its build has been deleted, and when a call raises. -/
theorem building_dropped :
    (¬ ∀ (trace : List (Lifecycle × Label)) (s : Lifecycle) (runner : Nat),
      system.Run initial trace s → s.monitor = some (runner, .start) →
      ∀ tr t, Pass runner s tr t → ¬ Took MonitorPc.resubmits tr → ¬ Took MonitorPc.raises tr →
        Settled tr (t.status (s.shared.runnerWork runner))) ∧
      ¬ ∀ (trace : List (Lifecycle × Label)) (s : Lifecycle) (runner : Nat),
        system.Run initial trace s → s.monitor = some (runner, .start) →
        ∀ tr t, Pass runner s tr t → ¬ Took MonitorPc.resubmits tr →
          ¬ Took MonitorPc.buildGone tr → Settled tr (t.status (s.shared.runnerWork runner)) := by
  have hrun := System.run_after (· = initial) next initial buildingTaken
  constructor
  · intro h
    have hpass : Pass 0 (System.after next initial buildingTaken) _ _ :=
      @pass_passOf 0 _ (List.replicate 11 {}) rfl (by decide)
    exact absurd (h _ _ 0 hrun rfl _ _ hpass (by decide) (by decide)) (by decide)
  · intro h
    have hpass : Pass 0 (System.after next initial buildingTaken) _ _ :=
      @pass_passOf 0 _ lookupRaisesAnswers rfl (by decide)
    exact absurd (h _ _ 0 hrun rfl _ _ hpass (by decide) (by decide)) (by decide)

end Lifecycle

end TeiidSyndesis.OpenShift
