import Rutilus.Domain.Operation
import Rutilus.Domain.Report

/-!
# What a site and its center exchange

The frames of the center protocol as both sides read them, and the records that
carry them: the inbox entry of an offered operation with its small state
machine, and the outbox entry of a queued envelope. An identity, a command or
an expiry arrives as text; `none` is a text that does not parse.
-/

namespace Rutilus.Domain

structure OutboxEntryId where
  uuid : Nat
  deriving DecidableEq, Repr

structure CredentialId where
  uuid : Nat
  deriving DecidableEq, Repr

/-! ## Frames -/

inductive OperationRejectedReason where
  | unspecified
  | endpointMissing
  | capabilityMissing
  | credentialInvalid
  | targetStateChanged
  | expired
  | notAuthorized
  | invalidCommand
  deriving DecidableEq, Repr

structure OperationOffer where
  operationId : Option OperationId
  endpointId : Option EndpointId
  siteId : Option InstanceId
  command : Option RedfishCommand
  target : String
  expiresAt : Option Instant
  actorContext : String
  deriving DecidableEq, Repr

/-- The messages; what no side acts on by itself is `content`. -/
inductive EnvelopeMessage where
  | operationOffer (offer : OperationOffer)
  | operationAccepted (operationId : Option OperationId) (acceptedAt : Instant)
  | operationRejected (operationId : Option OperationId)
      (reason : OperationRejectedReason) (detail : String)
  | operationProgress (operationId : Option OperationId) (state : String)
      (detail : String)
  | operationCompleted (operationId : Option OperationId) (succeeded : Bool)
      (summary : String)
  | endpointSnapshot (snapshot : EndpointSnapshot)
  | resourceDelta (delta : ResourceDelta)
  | eventBatch (events : List EventRecord)
  | artifactManifest (manifest : ArtifactManifest)
  | artifactChunk (chunk : ArtifactChunk)
  | ack (sequence : Nat)
  | heartbeat (sentAt : Instant)
  | content (payload : Payload)
  deriving DecidableEq, Repr

structure Envelope where
  sequence : Nat
  ackedSequence : Nat
  message : Option EnvelopeMessage
  deriving DecidableEq, Repr

/-! ## The inbox entry of an offer -/

inductive InboxEntryState where
  | received
  | accepted
  | rejected
  | completed
  deriving DecidableEq, Repr

def InboxEntryState.isTerminal : InboxEntryState → Bool
  | .rejected | .completed => true
  | .received | .accepted => false

inductive InboxEvent where
  | accepted
  | rejected
  | completed
  deriving DecidableEq, Repr

/-- The only state an event is legal in. -/
def InboxEvent.fromState : InboxEvent → InboxEntryState
  | .accepted | .rejected => .received
  | .completed => .accepted

def InboxEvent.toState : InboxEvent → InboxEntryState
  | .accepted => .accepted
  | .rejected => .rejected
  | .completed => .completed

structure InvalidInboxTransition where
  fromState : InboxEntryState
  event : InboxEvent
  deriving DecidableEq, Repr

def inboxTransition (current : InboxEntryState) (event : InboxEvent) :
    Except InvalidInboxTransition InboxEntryState :=
  match current, event with
  | .received, .accepted => .ok .accepted
  | .received, .rejected => .ok .rejected
  | .received, .completed => .error ⟨.received, .completed⟩
  | .accepted, .completed => .ok .completed
  | .accepted, .accepted => .error ⟨.accepted, .accepted⟩
  | .accepted, .rejected => .error ⟨.accepted, .rejected⟩
  | .rejected, event => .error ⟨.rejected, event⟩
  | .completed, event => .error ⟨.completed, event⟩

/-- The conditional update of the store follows the matrix: an event leads out
of its one state, and nowhere else. -/
theorem inboxTransition_eq (current : InboxEntryState) (event : InboxEvent) :
    inboxTransition current event =
      if current = event.fromState then .ok event.toState
      else .error ⟨current, event⟩ := by
  cases current <;> cases event <;> rfl

structure InboxEntry where
  operationId : OperationId
  instanceId : InstanceId
  payload : Envelope
  state : InboxEntryState
  expiresAt : Instant
  receivedAt : Instant
  deriving DecidableEq, Repr

def InboxEntry.new (operationId : OperationId) (instanceId : InstanceId)
    (payload : Envelope) (expiresAt receivedAt : Instant) : InboxEntry :=
  { operationId, instanceId, payload, state := .received, expiresAt
    receivedAt }

def InboxEntry.isExpired (entry : InboxEntry) (now : Instant) : Bool :=
  entry.expiresAt < now

inductive IdempotencyDecision where
  | proceed
  | inProgress
  | alreadyResolved (state : InboxEntryState)
  deriving DecidableEq, Repr

def decideInboxDuplicate : Option InboxEntryState → IdempotencyDecision
  | none => .proceed
  | some .received | some .accepted => .inProgress
  | some state => .alreadyResolved state

/-! ## The outbox entry of an envelope -/

inductive OutboxEntryState where
  | pending
  | acked
  deriving DecidableEq, Repr

/-- A queued envelope; `none` is a stored text that no longer parses. -/
structure OutboxEntry where
  id : OutboxEntryId
  instanceId : InstanceId
  sequence : Int
  payload : Option Envelope
  state : OutboxEntryState
  createdAt : Instant
  ackedAt : Option Instant
  deriving DecidableEq, Repr

def OutboxEntry.new (id : OutboxEntryId) (instanceId : InstanceId)
    (sequence : Int) (payload : Envelope) (createdAt : Instant) : OutboxEntry :=
  { id, instanceId, sequence, payload := some payload, state := .pending
    createdAt, ackedAt := none }

/-- What rehydration accepts: the state matches the ack time, and the ack time
does not precede the creation time. -/
def OutboxEntry.isValid (entry : OutboxEntry) : Bool :=
  match entry.state, entry.ackedAt with
  | .pending, none => true
  | .acked, some ackedAt => entry.createdAt ≤ ackedAt
  | _, _ => false

/-- The operation an offer is about; no other message names one here. -/
def payloadOperationId (payload : Option Envelope) : Option OperationId :=
  match payload with
  | some ⟨_, _, some (.operationOffer offer)⟩ => offer.operationId
  | _ => none

end Rutilus.Domain
