/-
# TeiidSyndesis.OpenShift.PublishMilestones — what a running publish has been through.

`RUNNING` is written at one point of the monitor, but the points before it are entered in several ways: a
pass may start at any status the object has got, the status is read again for every comparison, and
requests and tasks write into it in between.  Nevertheless no publish is reported as running before, one
after the other, its build has been seen completed, its deployment has been created, a deployment has been
seen ready and the calls for its services and its connection in Syndesis have returned.  The latter returns
without a connection where the jdbc service is not found; the monitor does not look at the difference.

Main results: `runBuildStatus_deploysFrom` — from where, and on what answer, each point is entered;
`staged` — the four points of entry are passed in order; `running_published` — the whole run.
-/
import TeiidSyndesis.Library.Milestones
import TeiidSyndesis.OpenShift.ConfiguredOnce

namespace TeiidSyndesis.OpenShift

open TeiidSyndesis.Library

/-! ## What the monitor has been told -/

/-- A build is listed as completed. -/
def Answer.Completed (answer : Answer) : Prop :=
  answer.call = .returns ∧ ∃ build, answer.build = some build ∧ build.phase.isCompleted = true

/-- The deployment was created. -/
def Answer.Deployed (answer : Answer) : Prop :=
  answer.call = .returns ∧ ∃ dc, answer.deploymentConfig = some dc

/-- The deployment is ready. -/
def Answer.Ready (answer : Answer) : Prop :=
  answer.call = .returns ∧ ∃ dc, answer.deploymentConfig = some dc ∧ isDeploymentInReadyState dc = true

/-- From where, and on what answer, the monitor enters the points of a deployment. -/
def MonitorPc.DeploysFrom (pc q : MonitorPc) (status : Status) (answer : Answer) : Prop :=
  match pc with
  | .checkDeploying => q = .findBuild ∧ answer.Completed
  | .deploy => q = .checkDeploying
  | .deploymentName _ => q = .deploy ∧ answer.Deployed
  | .deploying => ∃ dc, q = .deploymentName dc
  | .findDeployment => q = .checkDeploying ∧ status = .deploying
  | .connect => q = .findDeployment ∧ answer.Ready
  | .running => q = .connect ∧ answer.call = .returns
  | _ => True

/-- Where the points behind the build are entered from, and on what answer. -/
theorem runBuildStatus_deploysFrom (runner work : Nat) (s : Shared) (pc : MonitorPc)
    (answer : Answer) :
    (runBuildStatus runner work s pc answer).2.DeploysFrom pc (s.status work) answer := by
  cases pc with
  | findBuild =>
      simp only [runBuildStatus]
      split
      · rename_i hcall
        split
        · trivial
        · rename_i build hbuild
          by_cases hcompleted : build.phase.isCompleted = true
          · rw [if_pos hcompleted]
            exact ⟨rfl, hcall, build, hbuild, hcompleted⟩
          · rw [if_neg hcompleted]
            split
            · trivial
            · split <;> trivial
      · trivial
  | checkDeploying =>
      show (if s.status work = .deploying then MonitorPc.findDeployment else .deploy).DeploysFrom _ _ _
      by_cases hdeploying : s.status work = .deploying
      · rw [if_pos hdeploying]
        exact ⟨rfl, hdeploying⟩
      · rw [if_neg hdeploying]
        exact rfl
  | deploy =>
      simp only [runBuildStatus]
      split
      · rename_i dc hcall hdc
        exact ⟨rfl, hcall, dc, hdc⟩
      · trivial
  | deploymentName dc => exact ⟨dc, rfl⟩
  | findDeployment =>
      simp only [runBuildStatus]
      split
      · rename_i dc hcall hdc
        split
        · rename_i hready
          exact ⟨rfl, hcall, dc, hdc, hready⟩
        · split <;> trivial
      · trivial
  | connect =>
      show (if answer.call = .returns then MonitorPc.running else .finish).DeploysFrom _ _ _
      by_cases hcall : answer.call = .returns
      · rw [if_pos hcall]
        exact ⟨rfl, hcall⟩
      · rw [if_neg hcall]
        trivial
  | deleting p =>
      simp only [runBuildStatus]
      split
      · split <;> trivial
      · trivial
  | sleep | checkDeleteSubmitted | checkDeleteRequeue | checkDeleteDone | checkFailed
  | checkCancelled | checkSubmitted | checkConfiguring | deployLatest | notReady =>
      simp only [runBuildStatus]
      split <;> trivial
  | _ => trivial

/-- The points at which the monitor writes that a job is deploying, and that it is running. -/
theorem runBuildStatus_deploys {runner work ref : Nat} {s : Shared} {pc : MonitorPc} {answer : Answer}
    (hwrites : pc.writesStatus = true) {status : Status}
    (h : (runBuildStatus runner work s pc answer).1.Sets ref status) :
    (status = .deploying → pc = .deploying) ∧ (status = .running → pc = .running) := by
  cases pc with
  | configureBuild | deploying | running | notProgressing dc | buildCancelled build
  | buildFailed build =>
      have hstatus := (Action.sets_write h).2
      cases hstatus
      exact ⟨fun h => by cases h <;> rfl, fun h => by cases h <;> rfl⟩
  | _ => cases hwrites

namespace Lifecycle

/-! ## The stages of a publish -/

/-- The monitor stands at one of the points in a pass over the job. -/
def At (s : Lifecycle) (work : Nat) (points : MonitorPc → Prop) : Prop :=
  ∃ runner pc, s.monitor = some (runner, pc) ∧ s.shared.runnerWork runner = work ∧ points pc

/-- The monitor takes a step from the point, in a pass over the job, on such an answer. -/
def Answered (work : Nat) (pc : MonitorPc) (answers : Answer → Prop) (s : Lifecycle) (label : Label) :
    Prop :=
  ∃ runner answer, label = .monitor answer ∧ s.monitor = some (runner, pc) ∧
    s.shared.runnerWork runner = work ∧ answers answer

/-- The stages of the job: its build is completed, its deployment is there, the deployment is ready, and
the job is running. -/
def stage (work : Nat) : Nat → Lifecycle → Prop
  | 0, _ => True
  | 1, s => s.At work fun pc => pc = .checkDeploying ∨ pc = .deploy
  | 2, s => s.status work = .deploying ∨
      s.At work fun pc => pc = .findDeployment ∨ pc = .deploying ∨ ∃ dc, pc = .deploymentName dc
  | 3, s => s.At work fun pc => pc = .connect
  | 4, s => s.status work = .running ∨ s.At work fun pc => pc = .running
  | _, _ => False

/-- The steps that enter them. -/
def entry (work : Nat) : Nat → Lifecycle → Label → Prop
  | 0 => Answered work .findBuild Answer.Completed
  | 1 => Answered work .deploy Answer.Deployed
  | 2 => Answered work .findDeployment Answer.Ready
  | 3 => Answered work .connect (·.call = .returns)
  | _ => fun _ _ => False

/-- A runner that is at such a point was there, or has just got there. -/
theorem at_of_moved {s t : Lifecycle} {label : Label} (hs : Valid s) (h : Moved s label t) {work : Nat}
    {points : MonitorPc → Prop} (hstart : ¬ points .start) (ht : t.At work points) :
    s.At work points ∨
      ∃ runner answer pc, label = .monitor answer ∧ s.monitor = some (runner, pc) ∧
        s.shared.runnerWork runner = work ∧
          ∃ q, points q ∧ q.DeploysFrom pc (s.status work) answer := by
  obtain ⟨runner, q, hmonitor, hwork, hq⟩ := ht
  rcases monitor_of_moved h hmonitor with ⟨hsame, _⟩ | ⟨_, rfl, _⟩ | ⟨answer, pc, rfl, hat, _, rfl⟩
  · have hrunner := runnerWork_of_moved h (hs.monitor runner q hsame)
    exact .inl ⟨runner, q, hsame, hrunner.symm.trans hwork, hq⟩
  · exact absurd hq hstart
  · have hrunner := (runnerWork_of_moved h (hs.monitor runner pc hat)).symm.trans hwork
    have hfrom := runBuildStatus_deploysFrom runner (s.shared.runnerWork runner) s.shared pc answer
    rw [hrunner] at hfrom hq
    exact .inr ⟨runner, answer, pc, rfl, hat, hrunner, _, hq, hfrom⟩

/-- Only the monitor writes that a job is deploying or running. -/
theorem status_deploys_of_moved {s t : Lifecycle} {label : Label} (h : Moved s label t) {work : Nat}
    (hwork : work < s.shared.works.length) :
    (t.status work = .deploying → s.status work = .deploying ∨ s.At work (· = .deploying)) ∧
      (t.status work = .running → s.status work = .running ∨ s.At work (· = .running)) := by
  rcases status_of_moved h work with hsame | hsets | ⟨_, _, hnew, _⟩
  · rw [hsame]
    exact ⟨.inl, .inl⟩
  · rcases act_sets hsets with ⟨_, _, _, hst⟩ | ⟨_, _, hst⟩ |
      ⟨answer, runner, pc, rfl, hmonitor, hrunner, _, hwrites⟩ | ⟨_, _, _, _, _, _, _, hjob, hjobsets⟩
    · simp [hst]
    · simp [hst]
    · rw [act_monitor hmonitor] at hsets
      obtain ⟨hdeploying, hrunning⟩ := runBuildStatus_deploys hwrites hsets
      exact ⟨fun ht => .inr ⟨runner, pc, hmonitor, hrunner.symm, hdeploying ht⟩,
        fun ht => .inr ⟨runner, pc, hmonitor, hrunner.symm, hrunning ht⟩⟩
    · rcases job_sets hjob hjobsets with ⟨_, hst | hst⟩ | ⟨_, _, ⟨hst, _⟩ | ⟨hst, _⟩⟩ <;> simp [hst]
  · exact absurd hnew (Nat.ne_of_lt hwork)

/-- The first stage is entered with a completed build. -/
theorem completed_of_moved {s t : Lifecycle} {label : Label} (hs : Valid s) (h : Moved s label t)
    {work : Nat} (ht : stage work 1 t) :
    stage work 1 s ∨ Answered work .findBuild Answer.Completed s label := by
  rcases at_of_moved hs h (by simp) ht with hold | ⟨runner, answer, pc, rfl, hat, hrunner, q, hq, hfrom⟩
  · exact .inl hold
  · rcases hq with rfl | rfl
    · obtain ⟨rfl, hcompleted⟩ := hfrom
      exact .inr ⟨runner, answer, rfl, hat, hrunner, hcompleted⟩
    · exact .inl ⟨runner, pc, hat, hrunner, .inl hfrom⟩

/-- The second stage is entered from the first, when the deployment was created. -/
theorem deployed_of_moved {s t : Lifecycle} {label : Label} (hs : Valid s) (h : Moved s label t)
    {work : Nat} (hwork : work < s.shared.works.length) (ht : stage work 2 t) :
    stage work 2 s ∨ (stage work 1 s ∧ Answered work .deploy Answer.Deployed s label) := by
  rcases ht with hdeploying | ht
  · rcases (status_deploys_of_moved h hwork).1 hdeploying with hold | ⟨runner, pc, hat, hrunner, hpc⟩
    · exact .inl (.inl hold)
    · exact .inl (.inr ⟨runner, pc, hat, hrunner, .inr (.inl hpc)⟩)
  · rcases at_of_moved hs h (by simp) ht with hold |
      ⟨runner, answer, pc, rfl, hat, hrunner, q, hq, hfrom⟩
    · exact .inl (.inr hold)
    · rcases hq with rfl | rfl | ⟨dc, rfl⟩
      -- the status that the pass has just read
      · exact .inl (.inl hfrom.2)
      · exact .inl (.inr ⟨runner, pc, hat, hrunner, .inr (.inr hfrom)⟩)
      · obtain ⟨rfl, hdeployed⟩ := hfrom
        exact .inr ⟨⟨runner, _, hat, hrunner, .inr rfl⟩, runner, answer, rfl, hat, hrunner, hdeployed⟩

/-- The third stage is entered from the second, when the deployment is ready. -/
theorem ready_of_moved {s t : Lifecycle} {label : Label} (hs : Valid s) (h : Moved s label t)
    {work : Nat} (ht : stage work 3 t) :
    stage work 3 s ∨ (stage work 2 s ∧ Answered work .findDeployment Answer.Ready s label) := by
  rcases at_of_moved hs h (by simp) ht with hold |
    ⟨runner, answer, pc, rfl, hat, hrunner, q, rfl, rfl, hready⟩
  · exact .inl hold
  · exact .inr ⟨.inr ⟨runner, _, hat, hrunner, .inl rfl⟩, runner, answer, rfl, hat, hrunner, hready⟩

/-- The last stage is entered from the third, when the calls have returned. -/
theorem running_of_moved {s t : Lifecycle} {label : Label} (hs : Valid s) (h : Moved s label t)
    {work : Nat} (hwork : work < s.shared.works.length) (ht : stage work 4 t) :
    stage work 4 s ∨ (stage work 3 s ∧ Answered work .connect (·.call = .returns) s label) := by
  rcases ht with hrunning | ht
  · rcases (status_deploys_of_moved h hwork).2 hrunning with hold | hat
    · exact .inl (.inl hold)
    · exact .inl (.inr hat)
  · rcases at_of_moved hs h (by simp) ht with hold |
      ⟨runner, answer, pc, rfl, hat, hrunner, q, rfl, rfl, hcall⟩
    · exact .inl (.inr hold)
    · exact .inr ⟨⟨runner, _, hat, hrunner, rfl⟩, runner, answer, rfl, hat, hrunner, hcall⟩

/-- The four stages are entered in this order, whatever steps others take in between. -/
theorem staged (work : Nat) :
    System.Staged system (fun s => Valid s ∧ work < s.shared.works.length) (stage work) (entry work) := by
  rintro n s label t ⟨hs, hwork⟩ hnext ht
  have h := moved_of_next hnext
  rcases n with _ | _ | _ | _ | n
  · exact (completed_of_moved hs h ht).imp_right fun hentry => ⟨trivial, hentry⟩
  · exact deployed_of_moved hs h hwork ht
  · exact ready_of_moved hs h ht
  · exact running_of_moved hs h hwork ht
  · exact ht.elim

/-! ## From the publish on -/

/-- The object that `addToQueue` has just created is in no stage. -/
theorem not_stage_of_addsToQueue {s t : Lifecycle} {label : Label} (hs : Valid s)
    (h : next s label = some t) {virtualization : String} (hadds : AddsToQueue s label virtualization)
    (n : Nat) : ¬ stage s.shared.works.length (n + 1) t := by
  obtain ⟨thread, answer, rfl, hrequest⟩ := hadds
  have hmoved := moved_of_next h
  have hsubmitted : t.status s.shared.works.length = .submitted := by
    have hwork := Shared.work_congr (works_of_moved hmoved) s.shared.works.length
    show (t.shared.work s.shared.works.length).status = .submitted
    rw [hwork, act_request hrequest]
    simp [Request.next, publishVirtualization, Action.work_allocate]
  -- the monitor stands in a pass over an older object
  have hat : ∀ points, ¬ points MonitorPc.start → ¬ t.At s.shared.works.length points := by
    intro points hstart ht
    rcases at_of_moved hs hmoved hstart ht with ⟨runner, pc, hmonitor, hwork, _⟩ | ⟨_, _, _, hlabel, _⟩
    · have hlt := hs.shared.runnerWork_lt (hs.monitor runner pc hmonitor)
      omega
    · cases hlabel
  rcases n with _ | _ | _ | _ | n
  · exact hat _ (by simp)
  · rintro (hdeploying | ht)
    · rw [hsubmitted] at hdeploying
      cases hdeploying
    · exact hat _ (by simp) ht
  · exact hat _ (by simp)
  · rintro (hrunning | ht)
    · rw [hsubmitted] at hrunning
      cases hrunning
    · exact hat _ (by simp) ht
  · exact id

/-- In every run, whatever requests, tasks and remote calls do meanwhile: where a publish is reported as
running, its build has been seen completed since it was queued, then its deployment has been created, then
the deployment has been seen ready, and then the calls for its services and its connection have returned. -/
theorem running_published {s : Lifecycle} {tr : List (Lifecycle × Label)}
    (hrun : system.Run initial tr s) {x : Lifecycle × Label} (hx : x ∈ tr) {virtualization : String}
    (hadds : AddsToQueue x.1 x.2 virtualization)
    (hrunning : s.status x.1.shared.works.length = .running) :
    ∃ completed deployed ready connected,
      [x, completed, deployed, ready, connected].Sublist tr ∧
        Answered x.1.shared.works.length .findBuild Answer.Completed completed.1 completed.2 ∧
        Answered x.1.shared.works.length .deploy Answer.Deployed deployed.1 deployed.2 ∧
        Answered x.1.shared.works.length .findDeployment Answer.Ready ready.1 ready.2 ∧
        Answered x.1.shared.works.length .connect (·.call = .returns) connected.1 connected.2 := by
  obtain ⟨before, after, t, rfl, hbefore, hnext, hafter⟩ := hrun.split hx
  have hvalid := valid_of_run hbefore
  have hcreated := (openShiftName_of_addsToQueue hadds (moved_of_next hnext)).1
  -- the object of the request exists from now on
  have hkeep : ∀ u label v, Valid u ∧ x.1.shared.works.length < u.shared.works.length →
      system.step u label v → Valid v ∧ x.1.shared.works.length < v.shared.works.length := by
    rintro u label v ⟨hu, hlt⟩ hstep
    exact ⟨valid_step hu hstep,
      Nat.lt_of_lt_of_le hlt (works_length_le_of_moved (moved_of_next hstep))⟩
  -- it was in no stage when the run went on, and ends in the last one
  have hpassed : System.Passed (entry x.1.shared.works.length) 4 after :=
    hafter.passed hkeep (staged _) ⟨valid_step hvalid hnext, hcreated⟩
      (not_stage_of_addsToQueue hvalid hnext hadds) (.inl hrunning)
  obtain ⟨steps, hsub, hlength, hentries⟩ := hpassed
  obtain ⟨completed, rest, rfl⟩ := List.exists_of_length_succ steps hlength
  obtain ⟨deployed, ready, connected, rfl⟩ := List.length_eq_three.mp (Nat.succ.inj hlength)
  refine ⟨completed, deployed, ready, connected, ?_, hentries 0 _ rfl, hentries 1 _ rfl,
    hentries 2 _ rfl, hentries 3 _ rfl⟩
  exact (hsub.cons_cons x).trans (List.sublist_append_right before (x :: after))

/-- OpenShift completes the build, and makes the deployment available. -/
def availableAnswer : Answer where
  build := some { name := "v-1", phase := .complete }
  deploymentConfig :=
    some { name := "v", conditions := [{ type := "Available", status := "True" }] }

/-- A publish that is configured, and passed until it is running. -/
def publishUntilRunning : List Label :=
  .publish "v" :: List.replicate 6 (.request 0 {}) ++ List.replicate 14 (.monitor {}) ++
    List.replicate 3 (.task 0 {}) ++ List.replicate 60 (.monitor availableAnswer)

/-- Before its `addToQueue`. -/
def beforePublish : Lifecycle := System.after next initial (publishUntilRunning.take 5)

theorem running_published_available :
    ∃ completed deployed ready connected,
      [(beforePublish, .request 0 {}), completed, deployed, ready, connected].Sublist
          (System.stepsOf next initial publishUntilRunning) ∧
        Answered 1 .findBuild Answer.Completed completed.1 completed.2 ∧
        Answered 1 .deploy Answer.Deployed deployed.1 deployed.2 ∧
        Answered 1 .findDeployment Answer.Ready ready.1 ready.2 ∧
        Answered 1 .connect (·.call = .returns) connected.1 connected.2 := by
  have hadds : AddsToQueue beforePublish (.request 0 {}) "v" := ⟨0, {}, rfl, by decide⟩
  have hx : (beforePublish, .request 0 {}) ∈ System.stepsOf next initial publishUntilRunning := by decide
  exact running_published (System.run_after (· = initial) next initial publishUntilRunning) hx hadds
    (by decide)

end Lifecycle

end TeiidSyndesis.OpenShift
