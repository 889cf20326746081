/-
# TeiidSyndesis.OpenShift.Lifecycle — publishing and unpublishing as a system of threads.

Four kinds of threads share the `BuildStatus` objects: request threads (`publishVirtualization`,
`deleteVirtualization`), the one monitor thread of `workExecutor` (`BuildStatusRunner.run`), and the
configure and delete tasks of `configureService`.  Each method is a program: a function from the
shared objects, the thread's program point and the answer of the environment to the one shared
action it takes there and its next point.  A step of the system lets one thread take one action, so
a run is an arbitrary interleaving of reads and writes; every remote call is answered arbitrarily.

Three things are not modelled because no control flow reads them: log lines, `lastUpdated` (it only
delays the monitor) and the publish configuration beyond the name of the virtualization.

The programs are `publishVirtualization`, `deleteVirtualization`, `runBuildStatus`, `configureTask` and
`deleteTask`; `next` lets the thread of a label take its action, and `system` has all runs.
-/
import TeiidSyndesis.Library.Transition
import TeiidSyndesis.OpenShift.BuildStatus

namespace TeiidSyndesis.OpenShift

open TeiidSyndesis.Library

/-! ## The resources a delete task removes -/

/-- The kinds of objects a virtualization has. -/
inductive ResourceKind
  | route
  | service
  | build
  | pod
  | imageStream
  | replicationController
  | deploymentConfig
  | secret
  | buildConfig
  deriving DecidableEq, Repr

/-- A client call that deletes one named object, or every object with the application label. -/
inductive Selector
  | withName (kind : ResourceKind) (name : String)
  | withLabel (kind : ResourceKind) (application : String)
  deriving DecidableEq, Repr

/-- The name of its secret. -/
def secretName (openShiftName : String) : String := openShiftName ++ "-secret"

/-- The `try` blocks of `deleteVDBServiceResources`, in order.  A call that raises skips the rest of
its own block only. -/
def deleteBlocks (openShiftName : String) : List (List Selector) :=
  [ [ .withName .route (openShiftName ++ "-odata"),
      .withName .service (openShiftName ++ "-jdbc"),
      .withName .service (openShiftName ++ "-odata"),
      .withName .service (openShiftName ++ "-pg") ],
    [ .withLabel .build openShiftName ],
    [ .withLabel .pod openShiftName ],
    [ .withLabel .imageStream openShiftName ],
    [ .withLabel .replicationController openShiftName ],
    [ .withName .deploymentConfig openShiftName ],
    [ .withName .secret (secretName openShiftName) ],
    [ .withLabel .buildConfig openShiftName ],
    [ .withLabel .replicationController openShiftName ],
    [ .withLabel .imageStream openShiftName ] ]

/-! ## Shared objects -/

/-- An element of the queue of `workExecutor`: `submit` wraps its runnable in a `FutureTask`,
`execute` would queue the runnable itself. -/
inductive Runnable
  | futureTask (runner : Nat)
  | buildStatusRunner (runner : Nat)
  deriving DecidableEq, Repr

/-- The `BuildStatusRunner` whose `run` an element of the queue calls. -/
def Runnable.runner : Runnable → Nat
  | .futureTask runner => runner
  | .buildStatusRunner runner => runner

/-- What `configureService` is handed: the runnable of `configureBuild` or the callable of
`deleteVirtualization`. -/
inductive Job
  | configure (work : Nat)
  | delete (work : Nat) (openShiftName : String)
  deriving DecidableEq, Repr

/-- Program points of the tasks of `configureService`. -/
inductive TaskPc
  | configuring
  | configured
  | configureFailed (message : Option String)
  | openClient
  | deleting (blocks : List (List Selector))
  deriving DecidableEq, Repr

/-- Whether a task has run. -/
inductive TaskPhase
  | queued
  | running (pc : TaskPc)
  | finished
  deriving DecidableEq, Repr

/-- A task of the executor. -/
structure Task where
  job : Job
  phase : TaskPhase := .queued
  deriving DecidableEq, Repr

/-- The objects all threads see.  A reference to a `BuildStatus` or a `BuildStatusRunner` is its
position in the list of all those ever created; `runners` holds the work of each runner. -/
structure Shared where
  works : List BuildStatus := []
  runners : List Nat := []
  workQueue : List Runnable := []
  activeJobs : List (String × Nat) := []
  tasks : List Task := []
  deriving DecidableEq, Repr

namespace Shared

/-- The object behind a reference. -/
def work (s : Shared) (ref : Nat) : BuildStatus := s.works.getD ref { openShiftName := "" }

/-- The status of the object. -/
def status (s : Shared) (ref : Nat) : Status := (s.work ref).status

/-- The object of a runner. -/
def runnerWork (s : Shared) (runner : Nat) : Nat := s.runners.getD runner 0

/-- The scan of `workExecutor.getQueue()` for a `BuildStatusRunner` of the name. -/
def queuedWork (s : Shared) (openShiftName : String) : Option Nat :=
  s.workQueue.findSome? fun runnable =>
    match runnable with
    | .futureTask _ => none
    | .buildStatusRunner runner =>
        if (s.work (s.runnerWork runner)).openShiftName = openShiftName then
          some (s.runnerWork runner)
        else none

end Shared

/-- The one effect a thread has on the shared objects in one step. -/
inductive Action
  | skip
  | allocate (work : BuildStatus)
  | write (work : Nat) (fields : Fields)
  | submitRunner (work : Nat)
  | resubmit (runner : Nat)
  | putActive (openShiftName : String) (work : Nat)
  | removeActive (openShiftName : String)
  | submitTask (job : Job)
  deriving DecidableEq, Repr

/-- What an action does to the shared objects. -/
def Action.apply (action : Action) (s : Shared) : Shared :=
  match action with
  | .skip => s
  | .allocate work => { s with works := s.works ++ [work] }
  | .write work fields => { s with works := s.works.modify work (·.write fields) }
  | .submitRunner work =>
      { s with
        runners := s.runners ++ [work]
        workQueue := s.workQueue ++ [.futureTask s.runners.length] }
  | .resubmit runner => { s with workQueue := s.workQueue ++ [.futureTask runner] }
  | .putActive openShiftName work =>
      { s with
        activeJobs := (openShiftName, work) :: s.activeJobs.filter (·.1 ≠ openShiftName) }
  | .removeActive openShiftName =>
      { s with activeJobs := s.activeJobs.filter (·.1 ≠ openShiftName) }
  | .submitTask job => { s with tasks := s.tasks ++ [{ job := job }] }

/-! ## Answers of the environment -/

/-- How a remote call ends.  The catch clauses of the source tell three kinds of throwables apart:
`KubernetesClientException`, other exceptions, and errors. -/
inductive Call
  | returns
  | kubernetesClientException
  | exception
  | error
  deriving DecidableEq, Repr

/-- What the environment answers in one step; a program point reads the parts its calls ask for. -/
structure Answer where
  call : Call := .returns
  service : ServiceView := {}
  /-- the integrations using a running virtualization, or `none` when the lookup raises -/
  usedIn : Option (List String) := some []
  build : Option Build := none
  deploymentConfig : Option DeploymentConfig := none
  buildName : String := ""
  message : Option String := none
  deriving DecidableEq, Repr

/-! ## Programs of the request threads -/

/-- Program points of `getVirtualizationStatus`. -/
inductive StatusPc
  | active
  | queued
  | service
  | found (work : Nat)
  | raised
  deriving DecidableEq, Repr

/-- The record `getVirtualizationStatus` builds when no job is monitored. -/
def serviceStatus (virtualization : String) (answer : Answer) : BuildStatus :=
  let openShiftName := getOpenShiftName virtualization
  let status : BuildStatus :=
    if answer.call = .returns then getVDBService openShiftName answer.service
    else { openShiftName := openShiftName }
  let status := { status with dataVirtualizationName := some virtualization }
  if status.status = .running then { status with usedBy := answer.usedIn.getD [] } else status

def getVirtualizationStatus (virtualization : String) (s : Shared) (pc : StatusPc)
    (answer : Answer) : Action × StatusPc :=
  match pc with
  | .active =>
      match s.activeJobs.lookup (getOpenShiftName virtualization) with
      | some work => (.skip, .found work)
      | none => (.skip, .queued)
  | .queued =>
      match s.queuedWork (getOpenShiftName virtualization) with
      | some work => (.skip, .found work)
      | none => (.skip, .service)
  | .service =>
      let status := serviceStatus virtualization answer
      -- only a KubernetesClientException is caught; a failing integration lookup also escapes
      if answer.call = .exception ∨ answer.call = .error ∨
          (status.status = .running ∧ answer.usedIn = none) then
        (.skip, .raised)
      else (.allocate status, .found s.works.length)
  | .found work => (.skip, .found work)
  | .raised => (.skip, .raised)

/-- Program points of `publishVirtualization`. -/
inductive PublishPc
  | status (pc : StatusPc)
  | check (work : Nat)
  | addToQueue
  | enqueue (work : Nat)
  | done
  deriving DecidableEq, Repr

def publishVirtualization (virtualization : String) (s : Shared) (pc : PublishPc)
    (answer : Answer) : Action × PublishPc :=
  match pc with
  | .status pc =>
      let (action, next) := getVirtualizationStatus virtualization s pc answer
      match next with
      | .found work => (action, .check work)
      | .raised => (action, .done)
      | next => (action, .status next)
  | .check work => (.skip, if s.status work = .building then .done else .addToQueue)
  | .addToQueue =>
      (.allocate
        { openShiftName := getOpenShiftName virtualization
          dataVirtualizationName := some virtualization
          status := .submitted
          statusMessage := some "Submitted build for configuration" },
        .enqueue s.works.length)
  | .enqueue work => (.submitRunner work, .done)
  | .done => (.skip, .done)

/-- Program points of `deleteVirtualization`; `queue` remembers that no monitored job was found. -/
inductive DeletePc
  | findActive
  | findQueued
  | status (pc : StatusPc)
  | checkFound (work : Nat) (queue : Bool)
  | checkUsed (work : Nat) (queue : Bool)
  | submit (work : Nat) (queue : Bool)
  | write (work : Nat) (queue : Bool)
  | enqueue (work : Nat)
  | done
  deriving DecidableEq, Repr

def usedMessage (virtualization : String) (usedIn : List String) : String :=
  "The virtualization \"" ++ virtualization ++ "\" is currently used in integration(s) \"" ++
    "[" ++ ", ".intercalate usedIn ++ "]" ++
    "\" thus can not be deleted. The unpublish has been CANCELED"

def deleteVirtualization (virtualization : String) (s : Shared) (pc : DeletePc)
    (answer : Answer) : Action × DeletePc :=
  match pc with
  | .findActive =>
      match s.activeJobs.lookup (getOpenShiftName virtualization) with
      | some work => (.skip, .checkFound work false)
      | none => (.skip, .findQueued)
  | .findQueued =>
      match s.queuedWork (getOpenShiftName virtualization) with
      | some work => (.skip, .checkFound work false)
      | none => (.skip, .status .active)
  | .status pc =>
      let (action, next) := getVirtualizationStatus virtualization s pc answer
      match next with
      | .found work => (action, .checkFound work true)
      | .raised => (action, .done)
      | next => (action, .status next)
  | .checkFound work queue =>
      (.skip, if s.status work = .notFound then .done else .checkUsed work queue)
  | .checkUsed work queue =>
      if (s.work work).usedBy = [] then (.skip, .submit work queue)
      else
        (.write work
          { status := some .cancelled
            statusMessage := some (some (usedMessage virtualization (s.work work).usedBy)) },
          .done)
  | .submit work queue =>
      -- the task is handed over before the status is written
      (.submitTask (.delete work (getOpenShiftName virtualization)), .write work queue)
  | .write work queue =>
      (.write work
        { status := some .deleteSubmitted, statusMessage := some (some "delete submitted") },
        if queue then .enqueue work else .done)
  | .enqueue work => (.submitRunner work, .done)
  | .done => (.skip, .done)

/-! ## The program of the monitor thread -/

/-- Program points of `BuildStatusRunner.run`. -/
inductive MonitorPc
  | start
  | sleep
  | checkDeleteSubmitted
  | checkDeleteRequeue
  | checkDeleteDone
  | checkFailed
  | checkCancelled
  | checkSubmitted
  | checkConfiguring
  | deleting (pc : DeletePc)
  | removeSyndesisConnection
  | configureBuild
  | executeConfigure
  | findBuild
  | checkDeploying
  | deploy
  | deploymentName (dc : String)
  | deploying
  | deployLatest
  | findDeployment
  | connect
  | running
  | notProgressing (dc : DeploymentConfig)
  | notReady (dc : DeploymentConfig) (requeue : Bool)
  | buildCancelled (build : Build)
  | buildFailed (build : Build)
  | resubmit
  | finish
  | done
  deriving DecidableEq, Repr

/-- What the monitor reports of a deployment that is not ready. -/
def notReadyMessage (dc : DeploymentConfig) : Option String :=
  match getDeploymentConfigStatus dc with
  | some cond => cond.message
  | none => some "Available condition not found in the Deployment Config"

/-- `BuildStatusRunner.run` for a runner and its work.  Every exception ends in the catch clause,
which only logs, and from there in the `finally` block (`finish`). -/
def runBuildStatus (runner work : Nat) (s : Shared) (pc : MonitorPc) (answer : Answer) :
    Action × MonitorPc :=
  match pc with
  | .start => (.putActive (s.work work).openShiftName work, .sleep)
  | .sleep => (.skip, if answer.call = .returns then .checkDeleteSubmitted else .finish)
  | .checkDeleteSubmitted =>
      (.skip, if s.status work = .deleteSubmitted then .resubmit else .checkDeleteRequeue)
  | .checkDeleteRequeue =>
      (.skip, if s.status work = .deleteRequeue then .deleting .findActive else .checkDeleteDone)
  | .checkDeleteDone =>
      (.skip, if s.status work = .deleteDone then .removeSyndesisConnection else .checkFailed)
  | .checkFailed => (.skip, if s.status work = .failed then .finish else .checkCancelled)
  | .checkCancelled => (.skip, if s.status work = .cancelled then .finish else .checkSubmitted)
  | .checkSubmitted =>
      (.skip, if s.status work = .submitted then .configureBuild else .checkConfiguring)
  | .checkConfiguring => (.skip, if s.status work = .configuring then .resubmit else .findBuild)
  | .deleting pc =>
      let (action, next) :=
        deleteVirtualization ((s.work work).dataVirtualizationName.getD "") s pc answer
      -- `deleteVirtualization` returns, or raises out of the status lookup
      match next with
      | .done =>
          match pc with
          | .status _ => (action, .finish)
          | _ => (action, .resubmit)
      | next => (action, .deleting next)
  | .removeSyndesisConnection => (.skip, .finish)
  | .configureBuild => (.write work { status := some .configuring }, .executeConfigure)
  | .executeConfigure => (.submitTask (.configure work), .resubmit)
  | .findBuild =>
      if answer.call = .returns then
        match answer.build with
        | none => (.skip, .finish)
        | some build =>
            if build.phase.isCompleted then (.skip, .checkDeploying)
            else if build.phase.isCancelled then (.skip, .buildCancelled build)
            else if build.phase.isFailed then (.skip, .buildFailed build)
            else (.skip, .resubmit)
      else (.skip, .finish)
  | .checkDeploying => (.skip, if s.status work = .deploying then .findDeployment else .deploy)
  | .deploy =>
      -- the message is written before `createSecret` and `createDeploymentConfig` are called
      (.write work { statusMessage := some (some "build completed, deployment started") },
        match answer.call, answer.deploymentConfig with
        | .returns, some dc => .deploymentName dc.name
        | _, _ => .finish)
  | .deploymentName dc => (.write work { deploymentName := some dc }, .deploying)
  | .deploying => (.write work { status := some .deploying }, .deployLatest)
  | .deployLatest => (.skip, if answer.call = .returns then .resubmit else .finish)
  | .findDeployment =>
      match answer.call, answer.deploymentConfig with
      | .returns, some dc =>
          if isDeploymentInReadyState dc then (.skip, .connect)
          else if isDeploymentProgressing dc then (.skip, .notReady dc true)
          else (.skip, .notProgressing dc)
      -- a missing deployment config is dereferenced
      | _, _ => (.skip, .finish)
  | .connect => (.skip, if answer.call = .returns then .running else .finish)
  | .running => (.write work { status := some .running }, .finish)
  | .notProgressing dc => (.write work { status := some .failed }, .notReady dc false)
  | .notReady dc requeue =>
      (.write work { statusMessage := some (notReadyMessage dc) },
        if requeue then .resubmit else .finish)
  | .buildCancelled build =>
      (.write work { status := some .cancelled, statusMessage := some build.message }, .finish)
  | .buildFailed build =>
      (.write work { status := some .failed, statusMessage := some build.message }, .finish)
  | .resubmit => (.resubmit runner, .finish)
  | .finish => (.removeActive (s.work work).openShiftName, .done)
  | .done => (.skip, .done)

/-! ## The programs of the tasks -/

/-- The runnable of `configureBuild` from its first program point. -/
def configureTask (work : Nat) (pc : TaskPc) (answer : Answer) : Action × TaskPhase :=
  match pc with
  | .configuring =>
      match answer.call with
      | .returns =>
          (.write work
            { name := some answer.buildName
              statusMessage := some (some "Build Running")
              publishPodName := some (answer.buildName ++ "-build") },
            .running .configured)
      | .kubernetesClientException | .exception => (.skip, .running (.configureFailed answer.message))
      -- the catch clause takes exceptions only
      | .error => (.skip, .finished)
  | .configured => (.write work { status := some .building }, .finished)
  | .configureFailed message =>
      (.write work { status := some .failed, statusMessage := some message }, .finished)
  -- the points of a delete task
  | pc => (.skip, .running pc)

/-- The callable of `deleteVirtualization`: one step for each block of
`deleteVDBServiceResources`, and one for the status written after all of them. -/
def deleteTask (work : Nat) (openShiftName : String) (pc : TaskPc) (answer : Answer) :
    Action × TaskPhase :=
  match pc with
  | .openClient =>
      if answer.call = .returns then (.skip, .running (.deleting (deleteBlocks openShiftName)))
      else (.skip, .finished)
  | .deleting (_ :: blocks) =>
      match answer.call with
      | .returns => (.skip, .running (.deleting blocks))
      | .kubernetesClientException =>
          (.write work { status := some .deleteRequeue }, .running (.deleting blocks))
      | .exception | .error => (.skip, .finished)
  | .deleting [] => (.write work { status := some .deleteDone }, .finished)
  -- the points of a configure task
  | pc => (.skip, .running pc)

def Job.start : Job → TaskPc
  | .configure _ => .configuring
  | .delete _ _ => .openClient

def Job.run (job : Job) (pc : TaskPc) (answer : Answer) : Action × TaskPhase :=
  match job with
  | .configure work => configureTask work pc answer
  | .delete work openShiftName => deleteTask work openShiftName pc answer

/-- The task is running. -/
def Task.isRunning (task : Task) : Bool :=
  match task.phase with
  | .running _ => true
  | _ => false

/-! ## The system -/

/-- A request thread: the method it runs, its argument and its program point. -/
inductive Request
  | publish (virtualization : String) (pc : PublishPc)
  | delete (virtualization : String) (pc : DeletePc)
  deriving DecidableEq, Repr

def Request.next (request : Request) (s : Shared) (answer : Answer) : Action × Request :=
  match request with
  | .publish virtualization pc =>
      let (action, next) := publishVirtualization virtualization s pc answer
      (action, .publish virtualization next)
  | .delete virtualization pc =>
      let (action, next) := deleteVirtualization virtualization s pc answer
      (action, .delete virtualization next)

/-- All threads and what they share; `monitor` is the runner the single thread of `workExecutor`
is executing. -/
structure Lifecycle where
  shared : Shared := {}
  monitor : Option (Nat × MonitorPc) := none
  requests : List Request := []
  deriving DecidableEq, Repr

namespace Lifecycle

abbrev status (s : Lifecycle) (work : Nat) : Status := s.shared.status work

inductive Label
  /-- a publish request arrives -/
  | publish (virtualization : String)
  /-- an unpublish request arrives -/
  | delete (virtualization : String)
  /-- a request thread takes its next step -/
  | request (thread : Nat) (answer : Answer)
  /-- the monitor thread takes a job, or the next step of the one it has -/
  | monitor (answer : Answer)
  /-- a task starts, or takes its next step -/
  | task (index : Nat) (answer : Answer)
  deriving DecidableEq, Repr

/-- A request thread takes its next step. -/
def requestStep (s : Lifecycle) (thread : Nat) (answer : Answer) : Option Lifecycle :=
  s.requests[thread]?.map fun request =>
    let (action, next) := Request.next request s.shared answer
    { s with shared := action.apply s.shared, requests := s.requests.set thread next }

/-- `workExecutor` runs one job at a time, in the order they were submitted. -/
def monitorStep (s : Lifecycle) (answer : Answer) : Option Lifecycle :=
  match s.monitor with
  | none =>
      match s.shared.workQueue with
      | [] => none
      | runnable :: rest =>
          some
            { s with
              shared := { s.shared with workQueue := rest }
              monitor := some (runnable.runner, .start) }
  | some (_, .done) => some { s with monitor := none }
  | some (runner, pc) =>
      let (action, next) :=
        runBuildStatus runner (s.shared.runnerWork runner) s.shared pc answer
      some { s with shared := action.apply s.shared, monitor := some (runner, next) }

/-- `configureService` has three threads and takes its tasks in the order they were submitted. -/
def mayStart (tasks : List Task) (index : Nat) : Bool :=
  ((tasks.take index).all fun task => task.phase != .queued) &&
    decide (tasks.countP Task.isRunning < 3)

/-- A task moves on. -/
def setPhase (s : Shared) (index : Nat) (phase : TaskPhase) : Shared :=
  { s with tasks := s.tasks.modify index fun task => { task with phase := phase } }

/-- A task takes its next step. -/
def taskStep (s : Lifecycle) (index : Nat) (answer : Answer) : Option Lifecycle :=
  match s.shared.tasks[index]? with
  | none => none
  | some task =>
      match task.phase with
      | .queued =>
          if mayStart s.shared.tasks index then
            some { s with shared := setPhase s.shared index (.running task.job.start) }
          else none
      | .running pc =>
          let (action, phase) := task.job.run pc answer
          some { s with shared := setPhase (action.apply s.shared) index phase }
      | .finished => none

def next (s : Lifecycle) (label : Label) : Option Lifecycle :=
  match label with
  | .publish virtualization =>
      some { s with requests := s.requests ++ [.publish virtualization (.status .active)] }
  | .delete virtualization =>
      some { s with requests := s.requests ++ [.delete virtualization .findActive] }
  | .request thread answer => requestStep s thread answer
  | .monitor answer => monitorStep s answer
  | .task index answer => taskStep s index answer

/-- No requests and no jobs. -/
def initial : Lifecycle := {}

/-- Publishing and unpublishing, from a server that has just started. -/
def system : System Lifecycle Label := .ofNext (· = initial) next

end Lifecycle

end TeiidSyndesis.OpenShift
