import Rutilus.App.Boundary
import Rutilus.Engine.OperationEngine

/-!
# The operation executor

`executeOperation` starts queued work and resumes work a crash left in
`validating`, where the write was provably never issued. `recoverOperation`
resolves work a crash left in `running` or `verifying`, where the write may
have landed and the response is lost: it never dispatches again, it re-reads
and decides. The state is stored before each action it stands for.
-/

namespace Rutilus.App.Executor

open Rutilus.Domain Rutilus.Lib Rutilus.Store Rutilus.Engine

inductive ExecutorError where
  | operationNotFound (operationId : OperationId)
  | notQueued (operationId : OperationId) (state : OperationState)
  | notRecoverable (operationId : OperationId) (state : OperationState)
  | emptyTargets (operationId : OperationId)
  | store (source : OperationRepositoryError)
  | endpointPreflight (source : Fault)
  | capabilityPreflight (source : Fault)
  | remoteTask (source : Fault)
  | artifactPreflight (source : Fault)
  | gateway (source : DispatchError)
  | updateGateway (source : DispatchError)
  | verifier (source : BoundaryError)
  | auditStart (source : BoundaryError)
  | auditTerminal (source : BoundaryError)
  deriving DecidableEq, Repr

inductive CapabilityPreflight where
  | usable
  | unsupported
  | unconfirmed
  deriving DecidableEq, Repr

/-- The posture the executor runs in: its own actor and origin. -/
structure Posture where
  actor : AuditActor
  origin : DeploymentPosture

/-- What the terminal fact of an execution shares with its start fact. -/
structure StartedAudit where
  context : AuditContext
  terminalSequence : Nat
  startedAt : Instant

abbrev M : Type → Type := ExceptT ExecutorError (Prog site)

/-- The later of two observed times. -/
def atOrAfter (previous observed : Instant) : Instant := max previous observed

/-- In the recovery paths an operation that moved is not recoverable. -/
def guardRecoveryRace : ExecutorError → ExecutorError
  | .notQueued operationId state => .notRecoverable operationId state
  | error => error

def engineError (operationId : OperationId) : EngineError → ExecutorError
  | .notFound _ => .operationNotFound operationId
  | .invalidTransition operationId source =>
      .notQueued operationId source.fromState
  | .stateChanged operationId _ observed => .notQueued operationId observed
  | .store source => .store source
  | .emptyTargets | .tooManyTargets _ => .emptyTargets operationId

variable (posture : Posture)

def startAudit (endpointId : EndpointId) (command : RedfishCommand)
    (source : OperationSource) : M StartedAudit := do
  let (actor, origin) :=
    executionAttribution posture.actor posture.origin source
  let context : AuditContext :=
    { endpointId, redfishOperation := commandAuditOperation command
      actor, origin }
  let startedAt ← (now : Prog site _)
  orThrow (appendAuditEvent
    { context, sequence := 1, outcome := .started, occurredAt := startedAt })
    .auditStart
  return { context, terminalSequence := 2, startedAt }

def recordOutcome (started : StartedAudit) (outcome : AuditOutcome) :
    M Unit := do
  let observed ← (now : Prog site _)
  orThrow (appendAuditEvent
    { context := started.context, sequence := started.terminalSequence
      outcome, occurredAt := atOrAfter started.startedAt observed })
    .auditTerminal

def recordFailure (started : StartedAudit) (failure : AuditFailure)
    (verification : AuditFailureVerification) : M Unit :=
  recordOutcome started (.failed failure verification)

def recordSuccess (started : StartedAudit) : M Unit :=
  recordOutcome started .succeeded

def endpointExists (endpointId : EndpointId) : M Bool := do
  let found ← orThrow (outside (.findEndpoint endpointId)) .endpointPreflight
  return found.isSome

/-- What the observed state of the required capability means. -/
def classifyCapability : Option CapabilityState → CapabilityPreflight
  | some .supported => .usable
  | some .notCompiled | some .notAdvertised | some .schemaIncompatible
  | some .readOnly => .unsupported
  | some .unauthorized | some .temporarilyUnavailable | none => .unconfirmed

/-- The pre-flight answer a capability ledger gives for a command. -/
def preflightOf (command : RedfishCommand)
    (entries : Option (List CapabilityLedgerEntry)) : CapabilityPreflight :=
  classifyCapability
    (entries.bind (requiredCapabilityState (requiredCapability command)))

def capabilityPreflight (command : RedfishCommand) (endpointId : EndpointId) :
    M CapabilityPreflight := do
  let entries ←
    orThrow (outside (.capabilities endpointId)) .capabilityPreflight
  return preflightOf command entries

/-- One stored step, stamped with a fresh clock reading. -/
def applyStep (operationId : OperationId) (event : OperationEvent) :
    M Operation := do
  let stamp ← (now : Prog site _)
  orThrow (apply operationId event stamp) (engineError operationId)

def applyStepIfCurrent (operationId : OperationId)
    (expectedState : OperationState) (event : OperationEvent) :
    M Operation := do
  let stamp ← (now : Prog site _)
  orThrow (applyIfCurrent operationId expectedState event stamp)
    (engineError operationId)

def recoverStep (operationId : OperationId) (event : OperationEvent) :
    M Operation :=
  orThrow (applyStep operationId event) guardRecoveryRace

def recoverStepIfCurrent (operationId : OperationId)
    (expectedState : OperationState) (event : OperationEvent) : M Operation :=
  orThrow (applyStepIfCurrent operationId expectedState event)
    guardRecoveryRace

/-- A provable refusal: the operation fails, nothing was dispatched. -/
def refuse (operationId : OperationId) (started : StartedAudit)
    (failure : AuditFailure) : M Operation := do
  let finalOperation ← applyStep operationId .failed
  recordFailure started failure .rejected
  return finalOperation

inductive UpdateArtifactResolutionError where
  | lookup (source : Fault)
  | missing
  | notReady
  | unreadable
  deriving DecidableEq, Repr

def resolveUpdateArtifact (artifactId : ArtifactId) :
    ExceptT UpdateArtifactResolutionError (Prog site)
      UpdateArtifactPayload := do
  match ← orThrow (outside (.findArtifact artifactId)) .lookup with
  | none => throw .missing
  | some artifact =>
    if artifact.state ≠ .ready then throw .notReady
    else do
      let bytes ← orThrow (outside (.readArtifactBytes artifact.id))
        fun _ => UpdateArtifactResolutionError.unreadable
      return { artifactId := artifact.id, name := artifact.name, bytes }

/-- Re-read the target and store the terminal state it proves. -/
def verifyTarget (operationId : OperationId) (endpointId : EndpointId)
    (command : RedfishCommand) (started : StartedAudit) : M Operation := do
  match ← (verify endpointId command : Prog site _) with
  | .ok .confirmed =>
    let finalOperation ← applyStep operationId .verificationPassed
    recordSuccess started
    return finalOperation
  | .ok .mismatched =>
    let finalOperation ← applyStep operationId .failed
    recordFailure started .coreResourceReadFailed .rejected
    return finalOperation
  | .error source =>
    let _ ← applyStep operationId .outcomeUnknown
    recordFailure started .coreResourceReadFailed .inconclusive
    throw (.verifier source)

/-- What the answer to a dispatch leads to. A Task row is stored before the
step that makes the operation wait for it. -/
def driveOutcome (operationId : OperationId) (endpointId : EndpointId)
    (command : RedfishCommand) (started : StartedAudit)
    (outcome : Except DispatchError CommandOutcome)
    (wrapError : DispatchError → ExecutorError) : M Operation := do
  match outcome with
  | .ok (.asyncTaskAccepted taskLocation) =>
    let checkedAt ← (now : Prog site _)
    let task :=
      RemoteTask.new operationId endpointId taskLocation none checkedAt
    match ← (saveRemoteTask task : Prog site _) with
    | .error source =>
      let _ ← applyStep operationId .outcomeUnknown
      recordFailure started .redfishDiscoveryFailed .inconclusive
      throw (.remoteTask source)
    | .ok () => applyStep operationId .remoteTaskStarted
  | .ok .rejected =>
    let finalOperation ← applyStep operationId .failed
    recordFailure started .redfishDiscoveryFailed .rejected
    return finalOperation
  | .ok .accepted =>
    let _ ← applyStep operationId .executionAccepted
    verifyTarget operationId endpointId command started
  | .error source =>
    match source.verdict with
    | .notExecuted =>
      let _ ← applyStep operationId .failed
      recordFailure started .redfishDiscoveryFailed .rejected
      throw (wrapError source)
    | .outcomeUnknown =>
      let _ ← applyStep operationId .outcomeUnknown
      recordFailure started .redfishDiscoveryFailed .inconclusive
      throw (wrapError source)

def dispatchAndVerify (operationId : OperationId) (endpointId : EndpointId)
    (command : RedfishCommand) (started : StartedAudit)
    (artifact : Option UpdateArtifactPayload) : M Operation :=
  match command with
  | .update (.startUpdate payload) =>
    match artifact with
    | none => refuse operationId started .endpointPersistenceFailed
    | some artifact => do
      let outcome ←
        (outside (.executeUpdate endpointId artifact payload.pushUri) :
          Prog site _)
      driveOutcome operationId endpointId command started outcome
        .updateGateway
  | _ => do
    let outcome ← (outside (.execute endpointId command) : Prog site _)
    driveOutcome operationId endpointId command started outcome .gateway

/-- The last two stored steps before the dispatch, and the dispatch. -/
def validateAndDispatch (operationId : OperationId) (state : OperationState)
    (endpointId : EndpointId) (command : RedfishCommand)
    (started : StartedAudit) (artifact : Option UpdateArtifactPayload) :
    M Operation := do
  if state = .queued then
    let _ ← applyStep operationId .validationStarted
  let _ ← applyStep operationId .validationPassed
  dispatchAndVerify operationId endpointId command started artifact

/-- The last pre-flight check: an update needs a ready artifact. -/
def resolveAndDispatch (operationId : OperationId) (state : OperationState)
    (endpointId : EndpointId) (command : RedfishCommand)
    (started : StartedAudit) : M Operation :=
  match command with
  | .update (.startUpdate payload) => do
    match ← (resolveUpdateArtifact payload.artifactId).run with
    | .ok artifact =>
      validateAndDispatch operationId state endpointId command started
        (some artifact)
    | .error (.lookup source) => throw (.artifactPreflight source)
    | .error _ => refuse operationId started .endpointPersistenceFailed
  | _ =>
    validateAndDispatch operationId state endpointId command started none

/-- The capability check; a proven lack is classified before the refusal, in a
write of its own. -/
def checkAndDispatch (operationId : OperationId) (state : OperationState)
    (endpointId : EndpointId) (command : RedfishCommand)
    (started : StartedAudit) : M Operation := do
  match ← capabilityPreflight command endpointId with
  | .usable =>
    resolveAndDispatch operationId state endpointId command started
  | .unsupported =>
    orThrow (OperationStore.recordFailureKind operationId
      .capabilityUnsupported) .store
    refuse operationId started .capabilityUnsupported
  | .unconfirmed => refuse operationId started .redfishDiscoveryFailed

def executeOperation (operationId : OperationId) : M Operation := do
  match ← orThrow (OperationStore.findOperation operationId) .store with
  | none => throw (.operationNotFound operationId)
  | some operation =>
    if operation.state = .queued ∨ operation.state = .validating then
      match operation.targets with
      | [] => throw (.emptyTargets operationId)
      | target :: _ =>
        let started ← startAudit posture target.endpointId operation.command
          operation.source
        if ← endpointExists target.endpointId then
          checkAndDispatch operationId operation.state target.endpointId
            operation.command started
        else refuse operationId started .endpointPersistenceFailed
    else throw (.notQueued operationId operation.state)

/-- Decide an operation found running with no Task: the dispatch answer is
lost and only a re-read is left. -/
def judgeRunning (operationId : OperationId) (endpointId : EndpointId)
    (command : RedfishCommand) (started : StartedAudit) : M Operation := do
  match ← (verify endpointId command : Prog site _) with
  | .ok .confirmed =>
    if recoveryJudgementProvesEffect command then
      let _ ← recoverStep operationId .executionAccepted
      let finalOperation ← recoverStep operationId .verificationPassed
      recordSuccess started
      return finalOperation
    else
      let finalOperation ←
        recoverStepIfCurrent operationId .running .outcomeUnknown
      recordFailure started .coreResourceReadFailed .inconclusive
      return finalOperation
  | .ok .mismatched =>
    let finalOperation ← recoverStepIfCurrent operationId .running .failed
    recordFailure started .coreResourceReadFailed .inconclusive
    return finalOperation
  | .error source =>
    let _ ← recoverStepIfCurrent operationId .running .outcomeUnknown
    recordFailure started .coreResourceReadFailed .inconclusive
    throw (.verifier source)

def recoverOperation (operationId : OperationId) : M Operation := do
  match ← orThrow (OperationStore.findOperation operationId) .store with
  | none => throw (.operationNotFound operationId)
  | some operation =>
    if operation.state = .running ∨ operation.state = .verifying then
      match operation.targets with
      | [] => throw (.emptyTargets operationId)
      | target :: _ =>
        if operation.state = .running then
          match ← orThrow (findRemoteTask operationId) .remoteTask with
          | some _ => recoverStep operationId .remoteTaskStarted
          | none =>
            let started ← startAudit posture target.endpointId
              operation.command operation.source
            judgeRunning operationId target.endpointId operation.command
              started
        else
          let started ← startAudit posture target.endpointId
            operation.command operation.source
          orThrow (verifyTarget operationId target.endpointId
            operation.command started) guardRecoveryRace
    else throw (.notRecoverable operationId operation.state)

end Rutilus.App.Executor
