import Rutilus.Store.Operations

/-!
# The boundary of the operation drivers

What the executor and the Task monitor call: the two stores, and everything
outside them, which is the BMC behind the gateway, the endpoint, capability and
artifact repositories, the audit trail and the clock. The outside answers are
arbitrary; the stores answer as they are modelled.
-/

namespace Rutilus.App

open Rutilus.Domain Rutilus.Lib Rutilus.Store

/-! ## Audit facts -/

inductive AuditActor where
  | system
  | localOperator
  | user
  deriving DecidableEq, Repr

inductive DeploymentPosture where
  | standalone
  | site
  | center
  deriving DecidableEq, Repr

/-- Who is accountable for an execution: at a site, the center's dispatch for
an offer of the center, else the posture's own actor. -/
def executionAttribution (baseActor : AuditActor)
    (baseOrigin : DeploymentPosture) (source : OperationSource) :
    AuditActor × DeploymentPosture :=
  match baseOrigin, source with
  | .site, .center => (.system, baseOrigin)
  | _, _ => (baseActor, baseOrigin)

inductive AuditFailure where
  | endpointPersistenceFailed
  | capabilityUnsupported
  | redfishDiscoveryFailed
  | coreResourceReadFailed
  deriving DecidableEq, Repr

inductive AuditFailureVerification where
  | rejected
  | inconclusive
  deriving DecidableEq, Repr

inductive AuditOutcome where
  | started
  | succeeded
  | failed (failure : AuditFailure) (verification : AuditFailureVerification)
  deriving DecidableEq, Repr

/-- The context an operation's audit facts share. -/
structure AuditContext where
  endpointId : EndpointId
  redfishOperation : AuditRedfishOperation
  actor : AuditActor
  origin : DeploymentPosture
  deriving DecidableEq, Repr

structure AuditEvent where
  context : AuditContext
  sequence : Nat
  outcome : AuditOutcome
  occurredAt : Instant
  deriving DecidableEq, Repr

/-! ## The outside -/

inductive CommandOutcome where
  | accepted
  | asyncTaskAccepted (taskLocation : TaskUri)
  | rejected
  deriving DecidableEq, Repr

/-- The two verdicts a failed dispatch is classified into. -/
inductive DispatchVerdict where
  | notExecuted
  | outcomeUnknown
  deriving DecidableEq, Repr

inductive VerificationVerdict where
  | confirmed
  | mismatched
  deriving DecidableEq, Repr

/-- An error of the gateway's verifier or Task reader, or of the audit trail;
nothing reads its content. -/
structure BoundaryError where
  text : String
  deriving DecidableEq, Repr

/-- A dispatch error with the verdict its boundary gives it. -/
structure DispatchError where
  verdict : DispatchVerdict
  text : String
  deriving DecidableEq, Repr

inductive ArtifactState where
  | uploading
  | ready
  | failed
  deriving DecidableEq, Repr

structure Artifact where
  id : ArtifactId
  name : String
  state : ArtifactState
  deriving DecidableEq, Repr

structure UpdateArtifactPayload where
  artifactId : ArtifactId
  name : String
  bytes : List UInt8
  deriving DecidableEq, Repr

/-- What one read of a Task shows; `none` is a wire state this build cannot
classify. -/
structure TaskObservation where
  state : Option RemoteTaskState
  message : Option String
  percentComplete : Option Nat
  taskMonitorUri : Option TaskUri
  deriving DecidableEq, Repr

inductive OutsideReq where
  | now
  | findEndpoint (endpointId : EndpointId)
  | capabilities (endpointId : EndpointId)
  | findArtifact (artifactId : ArtifactId)
  | readArtifactBytes (artifactId : ArtifactId)
  | execute (endpointId : EndpointId) (command : RedfishCommand)
  | executeUpdate (endpointId : EndpointId) (artifact : UpdateArtifactPayload)
      (pushUri : Option String)
  | verify (endpointId : EndpointId) (command : RedfishCommand)
  | readTask (endpointId : EndpointId) (taskUri : TaskUri)
  | appendAuditEvent (event : AuditEvent)

/-- `findEndpoint` answers with the row's identity, the only part of the row a
driver looks at. -/
abbrev OutsideReq.Resp : OutsideReq → Type
  | .now => Instant
  | .findEndpoint _ => Except Fault (Option EndpointId)
  | .capabilities _ => Except Fault (Option (List CapabilityLedgerEntry))
  | .findArtifact _ => Except Fault (Option Artifact)
  | .readArtifactBytes _ => Except BoundaryError (List UInt8)
  | .execute .. => Except DispatchError CommandOutcome
  | .executeUpdate .. => Except DispatchError CommandOutcome
  | .verify .. => Except BoundaryError VerificationVerdict
  | .readTask .. => Except BoundaryError (Option TaskObservation)
  | .appendAuditEvent _ => Except BoundaryError Unit

/-! ## The whole boundary -/

inductive SiteReq where
  | operations (q : OperationStoreReq)
  | tasks (q : RemoteTaskStoreReq)
  | outside (q : OutsideReq)

abbrev SiteReq.Resp : SiteReq → Type
  | .operations q => q.Resp
  | .tasks q => q.Resp
  | .outside q => q.Resp

abbrev site : Sig := ⟨SiteReq, SiteReq.Resp⟩

instance : Sub operationStore site where
  inj := .operations
  back := fun _ r => r

/-- One call of the task store. -/
abbrev tasks (q : RemoteTaskStoreReq) : Prog site q.Resp :=
  .call (.tasks q) .ret

/-- One call outside the stores. -/
abbrev outside (q : OutsideReq) : Prog site q.Resp :=
  .call (.outside q) .ret

abbrev now : Prog site Instant := outside .now

abbrev saveRemoteTask (task : RemoteTask) : Prog site (Except Fault Unit) :=
  tasks (.saveRemoteTask task)

abbrev findRemoteTask (operationId : OperationId) :
    Prog site (Except Fault (Option RemoteTask)) :=
  tasks (.findRemoteTask operationId)

abbrev verify (endpointId : EndpointId) (command : RedfishCommand) :
    Prog site (Except BoundaryError VerificationVerdict) :=
  outside (.verify endpointId command)

abbrev appendAuditEvent (event : AuditEvent) :
    Prog site (Except BoundaryError Unit) :=
  outside (.appendAuditEvent event)

end Rutilus.App
