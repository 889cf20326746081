/-
# TeiidSyndesis.OpenShift.BuildStatus — the published state of a virtualization.

The `BuildStatus` record that the publish and unpublish jobs share, the parts of the OpenShift
objects the client reads (builds, deployment configs with their conditions, replication
controllers), and `getVDBService`, which derives a status from them when no job is monitored.

Times are kept as the code compares them: a completion time in milliseconds, the current time in
epoch seconds.  Routes and log lines are read by no function modelled here.
-/
import Mathlib.Data.List.Basic

namespace TeiidSyndesis.OpenShift

/-! ## Statuses -/

/-- `BuildStatus.Status`. -/
inductive Status
  | notFound
  | submitted
  | configuring
  | building
  | deploying
  | running
  | failed
  | cancelled
  | deleteSubmitted
  | deleteRequeue
  | deleteDone
  deriving DecidableEq, Repr

/-- `BuildStatus`; a field that is `none` is null in the source. -/
structure BuildStatus where
  openShiftName : String
  dataVirtualizationName : Option String := none
  status : Status := .notFound
  statusMessage : Option String := none
  name : Option String := none
  deploymentName : Option String := none
  publishPodName : Option String := none
  usedBy : List String := []
  deriving DecidableEq, Repr

/-- The fields a thread writes into a `BuildStatus` in one step; `none` leaves a field as it is. -/
structure Fields where
  status : Option Status := none
  statusMessage : Option (Option String) := none
  name : Option String := none
  deploymentName : Option String := none
  publishPodName : Option String := none
  deriving DecidableEq, Repr

namespace BuildStatus

def write (work : BuildStatus) (fields : Fields) : BuildStatus :=
  { work with
    status := fields.status.getD work.status
    statusMessage := fields.statusMessage.getD work.statusMessage
    name := fields.name.or work.name
    deploymentName := fields.deploymentName.or work.deploymentName
    publishPodName := fields.publishPodName.or work.publishPodName }

@[simp]
theorem write_status (work : BuildStatus) (fields : Fields) :
    (work.write fields).status = fields.status.getD work.status := rfl

@[simp]
theorem write_openShiftName (work : BuildStatus) (fields : Fields) :
    (work.write fields).openShiftName = work.openShiftName := rfl

@[simp]
theorem write_usedBy (work : BuildStatus) (fields : Fields) :
    (work.write fields).usedBy = work.usedBy := rfl

end BuildStatus

/-- The OpenShift name of a virtualization.  Names are validated to ASCII letters, digits and
hyphens, on which `toLowerCase` maps letter by letter. -/
def getOpenShiftName (name : String) : String :=
  "dv-" ++ String.ofList (name.toList.map Char.toLower)

/-! ## The OpenShift objects the client reads -/

/-- The phase of an OpenShift build. -/
inductive BuildPhase
  | new
  | pending
  | running
  | complete
  | failed
  | error
  | cancelled
  deriving DecidableEq, Repr

namespace BuildPhase

def isCompleted (phase : BuildPhase) : Bool := phase == .complete

def isCancelled (phase : BuildPhase) : Bool := phase == .cancelled

def isFailed (phase : BuildPhase) : Bool := phase == .failed || phase == .error

end BuildPhase

structure Build where
  name : String
  phase : BuildPhase
  message : Option String := none
  /-- epoch milliseconds -/
  completionTimestamp : Int := 0
  deriving DecidableEq, Repr

structure DeploymentCondition where
  type : String
  status : String
  message : Option String := none
  deriving DecidableEq, Repr

structure DeploymentConfig where
  name : String
  conditions : List DeploymentCondition := []
  observedGeneration : Nat := 0
  deriving DecidableEq, Repr

def isDeploymentInReadyState (dc : DeploymentConfig) : Bool :=
  dc.conditions.any fun cond => cond.type == "Available" && cond.status == "True"

/-- A deployment counts as progressing until its fourth generation, whatever its conditions say. -/
def isDeploymentProgressing (dc : DeploymentConfig) : Bool :=
  (dc.conditions.any fun cond => cond.type == "Progressing" && cond.status == "True") ||
    decide (dc.observedGeneration < 4)

def getDeploymentConfigStatus (dc : DeploymentConfig) : Option DeploymentCondition :=
  dc.conditions.find? fun cond => cond.type == "Available"

/-! ## The status derived from OpenShift -/

/-- What OpenShift answers to the reads of `getVDBService`. -/
structure ServiceView where
  /-- builds labelled with the application, in the order the API lists them -/
  builds : List Build := []
  deploymentConfig : Option DeploymentConfig := none
  /-- replica counts of the replication controllers labelled with the application -/
  replicas : List Nat := []
  /-- epoch seconds -/
  now : Int := 0
  deriving DecidableEq, Repr

/-- Seconds are floored, as `Instant.getEpochSecond` floors them. -/
def completedLongAgo (view : ServiceView) (build : Build) : Bool :=
  decide (view.now - (build.completionTimestamp + 15000) / 1000 > 0)

/-- The branch of `getVDBService` for a completed build. -/
def completedBuildStatus (view : ServiceView) (build : Build) (status : BuildStatus) :
    BuildStatus :=
  match view.deploymentConfig with
  | some dc =>
      let deployed := if isDeploymentInReadyState dc then Status.running else .deploying
      { status with
        deploymentName := some dc.name
        status := if isDeploymentProgressing dc then deployed else .failed
        statusMessage :=
          match getDeploymentConfigStatus dc with
          | some cond => cond.message
          | none =>
              some "Available condition not found in deployment, delete the service and re-deploy?" }
  | none =>
      if completedLongAgo view build then
        { status with
          statusMessage :=
            some "Build Completed, but no deployment found. Reason unknown, please redeploy"
          status := .failed }
      else
        { status with
          statusMessage := some "Build Completed, Waiting for deployment."
          status := .deploying }

def getVDBService (openShiftName : String) (view : ServiceView) : BuildStatus :=
  let status : BuildStatus := { openShiftName := openShiftName }
  match view.builds with
  | build :: _ =>
      let status := { status with name := some build.name }
      if build.phase.isCancelled then
        { status with status := .cancelled, statusMessage := build.message }
      else if build.phase.isFailed then
        { status with status := .failed, statusMessage := build.message }
      else if build.phase.isCompleted then completedBuildStatus view build status
      else { status with status := .building, statusMessage := build.message }
  | [] =>
      -- a dangling replication controller is found after a delete
      match view.replicas with
      | 0 :: _ =>
          { status with
            statusMessage :=
              some "Build Completed, but no deployment found. Reason unknown, please redeploy"
            status := .failed }
      | _ => status

/-- A status that `getVDBService` can report. -/
def Status.OfService (status : Status) : Prop :=
  status = .notFound ∨ status = .building ∨ status = .deploying ∨ status = .running ∨
    status = .failed ∨ status = .cancelled

theorem completedBuildStatus_ofService (view : ServiceView) (build : Build)
    (status : BuildStatus) : (completedBuildStatus view build status).status.OfService := by
  unfold completedBuildStatus Status.OfService
  cases view.deploymentConfig with
  | some dc =>
      by_cases hp : isDeploymentProgressing dc <;>
        by_cases hr : isDeploymentInReadyState dc <;> simp [hp, hr]
  | none => by_cases h : completedLongAgo view build <;> simp [h]

theorem getVDBService_ofService (openShiftName : String) (view : ServiceView) :
    (getVDBService openShiftName view).status.OfService := by
  unfold getVDBService
  cases hb : view.builds with
  | cons build builds =>
      by_cases hc : build.phase.isCancelled
      · simp [hc, Status.OfService]
      by_cases hf : build.phase.isFailed
      · simp [hc, hf, Status.OfService]
      by_cases hd : build.phase.isCompleted
      · simpa [hc, hf, hd] using completedBuildStatus_ofService view build _
      · simp [hc, hf, hd, Status.OfService]
  | nil =>
      dsimp only
      split <;> simp [Status.OfService]

end TeiidSyndesis.OpenShift
