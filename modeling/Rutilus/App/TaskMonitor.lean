import Rutilus.App.Boundary
import Rutilus.Engine.OperationEngine

/-!
# The Task monitor

One poll of an operation that waits for a Task of the BMC: read the Task, store
what was seen, and move the operation when the Task has ended. All steps of one
poll are stamped with the instant the sweep started at, which the caller passes
in.
-/

namespace Rutilus.App.TaskMonitor

open Rutilus.Domain Rutilus.Lib Rutilus.Store Rutilus.Engine

inductive TaskMonitorError where
  | operationNotFound (operationId : OperationId)
  | notWaitingRemote (operationId : OperationId) (state : OperationState)
  | emptyTargets (operationId : OperationId)
  | store (source : OperationRepositoryError)
  | remoteTaskStore (source : Fault)
  | remoteTaskObservation (operationId : OperationId)
      (source : RemoteTask.Error)
  | verifier (source : BoundaryError)
  | audit (source : BoundaryError)
  deriving DecidableEq, Repr

inductive TaskPoll where
  | stillRunning (operation : Operation)
  | deferred (operation : Operation)
  | terminal (operation : Operation)
  deriving DecidableEq, Repr

abbrev M : Type → Type := ExceptT TaskMonitorError (Prog site)

def engineError (operationId : OperationId) : EngineError → TaskMonitorError
  | .notFound _ => .operationNotFound operationId
  | .invalidTransition operationId source =>
      .notWaitingRemote operationId source.fromState
  | .stateChanged operationId _ observed =>
      .notWaitingRemote operationId observed
  | .store source => .store source
  | .emptyTargets | .tooManyTargets _ => .emptyTargets operationId

variable (actor : AuditActor) (origin : DeploymentPosture)

def applyStep (operationId : OperationId) (event : OperationEvent)
    (now : Instant) : M Operation :=
  orThrow (apply operationId event now) (engineError operationId)

def recordOutcome (endpointId : EndpointId) (source : OperationSource)
    (outcome : AuditOutcome) (occurredAt : Instant) : M Unit :=
  let attribution := executionAttribution actor origin source
  orThrow (appendAuditEvent
    { context :=
        { endpointId, redfishOperation := .pollRemoteTask
          actor := attribution.1, origin := attribution.2 }
      sequence := 2, outcome, occurredAt }) .audit

def recordFailure (endpointId : EndpointId) (source : OperationSource)
    (failure : AuditFailure) (verification : AuditFailureVerification)
    (occurredAt : Instant) : M Unit :=
  recordOutcome actor origin endpointId source (.failed failure verification)
    occurredAt

def recordSuccess (endpointId : EndpointId) (source : OperationSource)
    (occurredAt : Instant) : M Unit :=
  recordOutcome actor origin endpointId source .succeeded occurredAt

/-- The outcome cannot be proven. -/
def resolveUnknown (operationId : OperationId) (endpointId : EndpointId)
    (source : OperationSource) (now : Instant) : M TaskPoll := do
  let finalOperation ← applyStep operationId .outcomeUnknown now
  recordFailure actor origin endpointId source .redfishDiscoveryFailed
    .inconclusive now
  return .terminal finalOperation

def verifyTarget (operationId : OperationId) (endpointId : EndpointId)
    (command : RedfishCommand) (source : OperationSource) (now : Instant) :
    M TaskPoll := do
  match ← (verify endpointId command : Prog site _) with
  | .ok .confirmed =>
    let finalOperation ← applyStep operationId .verificationPassed now
    recordSuccess actor origin endpointId source now
    return .terminal finalOperation
  | .ok .mismatched =>
    let finalOperation ← applyStep operationId .failed now
    recordFailure actor origin endpointId source .coreResourceReadFailed
      .rejected now
    return .terminal finalOperation
  | .error verifierError =>
    let _ ← applyStep operationId .outcomeUnknown now
    recordFailure actor origin endpointId source .coreResourceReadFailed
      .inconclusive now
    throw (.verifier verifierError)

/-- The row after an observation; a percentage out of range is dropped. -/
def updatedRow (task : RemoteTask) (observation : TaskObservation)
    (state : RemoteTaskState) (now : Instant) :
    Except RemoteTask.Error RemoteTask :=
  RemoteTask.tryFromParts task.operationId task.endpointId task.taskUri
    (observation.taskMonitorUri.or task.taskMonitorUri) state
    observation.message
    (observation.percentComplete.filter fun percent => percent ≤ 100) now

/-- What an ended Task means: only `completed` is verified, the other three
prove the write did not achieve its result. -/
def concludeTask (operation : Operation) (task : RemoteTask)
    (state : RemoteTaskState) (now : Instant) : M TaskPoll := do
  if state = .completed then
    let _ ← applyStep operation.id .remoteTaskCompleted now
    verifyTarget actor origin operation.id task.endpointId operation.command
      operation.source now
  else
    let finalOperation ← applyStep operation.id .failed now
    recordFailure actor origin task.endpointId operation.source
      .redfishDiscoveryFailed .rejected now
    return .terminal finalOperation

def observe (operation : Operation) (task : RemoteTask)
    (observation : TaskObservation) (now : Instant) : M TaskPoll := do
  match observation.state with
  | none =>
    resolveUnknown actor origin operation.id task.endpointId operation.source
      now
  | some state =>
    match updatedRow task observation state now with
    | .error source =>
      throw (.remoteTaskObservation task.operationId source)
    | .ok updated =>
      orThrow (saveRemoteTask updated) .remoteTaskStore
      if state.isTerminal then
        concludeTask actor origin operation task state now
      else return .stillRunning operation

def poll (operationId : OperationId) (now : Instant) : M TaskPoll := do
  match ← orThrow (OperationStore.findOperation operationId) .store with
  | none => throw (.operationNotFound operationId)
  | some operation =>
    if operation.state = .waitingRemote then
      match operation.targets with
      | [] => throw (.emptyTargets operationId)
      | target :: _ =>
        match ← orThrow (findRemoteTask operationId) .remoteTaskStore with
        | none =>
          resolveUnknown actor origin operationId target.endpointId
            operation.source now
        | some task =>
          match ← (outside (.readTask target.endpointId task.taskUri) :
              Prog site _) with
          | .error _ => return .deferred operation
          | .ok none =>
            resolveUnknown actor origin operationId target.endpointId
              operation.source now
          | .ok (some observation) =>
            observe actor origin operation task observation now
    else throw (.notWaitingRemote operationId operation.state)

def recoverTasks : M (List Operation) :=
  orThrow (OperationStore.listOperations (some .waitingRemote)) .store

end Rutilus.App.TaskMonitor
