import Rutilus.Store.Inbox
import Rutilus.Store.Outbox

/-!
# The site's side of the center protocol

What the site does with an operation offer and how it reports the operations it
accepted. Three tables are written one after the other, with no transaction
around them: the inbox entry of the offer, the operation, and the queued reply.
Every reply goes through the outbox, never directly to the wire.

The rechecks read the site's own records (endpoint, capability ledger,
credentials, projection); what they find may change between two deliveries of
one offer, so their answers are arbitrary here.
-/

namespace Rutilus.App.CenterSync

open Rutilus.Domain Rutilus.Lib Rutilus.Store

/-! ## The boundary -/

/-- A managed endpoint, as far as the rechecks look at it. -/
structure Endpoint where
  credentialId : CredentialId
  deriving DecidableEq, Repr

/-- An endpoint of the projection with the `@odata.id`s of its resources. -/
structure InventoryItem where
  endpointId : EndpointId
  odataIds : List String
  deriving DecidableEq, Repr

/-- The reads of the rechecks, and a fresh target identity. -/
inductive RecheckReq where
  | findEndpoint (endpointId : EndpointId)
  | capabilities (endpointId : EndpointId)
  | listCredentials
  | inventory
  | generateTargetId

abbrev RecheckReq.Resp : RecheckReq → Type
  | .findEndpoint _ => Except Fault (Option Endpoint)
  | .capabilities _ => Except Fault (Option (List CapabilityLedgerEntry))
  | .listCredentials => Except Fault (List CredentialId)
  | .inventory => Except Fault (List InventoryItem)
  | .generateTargetId => TargetId

/-- The progress map of the running process: the operations still to be
reported, each with the state last reported. -/
inductive ProgressReq where
  | insert (operationId : OperationId) (state : Option OperationState)
  | forget (operationId : OperationId)
  | reported (operationId : OperationId)
  | known
  | discoveryDone
  | finishDiscovery

abbrev ProgressReq.Resp : ProgressReq → Type
  | .insert .. => Unit
  | .forget _ => Unit
  | .reported _ => Option OperationState
  | .known => List OperationId
  | .discoveryDone => Bool
  | .finishDiscovery => Unit

inductive SyncReq where
  | inbox (q : InboxReq)
  | operations (q : OperationStoreReq)
  | findFailureKind (operationId : OperationId)
  | outbox (q : OutboxReq)
  | progress (q : ProgressReq)
  | recheck (q : RecheckReq)
  | now

abbrev SyncReq.Resp : SyncReq → Type
  | .inbox q => q.Resp
  | .operations q => q.Resp
  | .findFailureKind _ => Except OperationRepositoryError (Option FailureKind)
  | .outbox q => q.Resp
  | .progress q => q.Resp
  | .recheck q => q.Resp
  | .now => Instant

abbrev sync : Sig := ⟨SyncReq, SyncReq.Resp⟩

inductive CenterSyncError where
  | inbox (source : InboxRepositoryError)
  | operation (source : OperationRepositoryError)
  | outbox (source : OutboxRepositoryError)
  | endpoint (source : Fault)
  | capability (source : Fault)
  | credential (source : Fault)
  | inventory (source : Fault)
  deriving DecidableEq, Repr

abbrev M : Type → Type := ExceptT CenterSyncError (Prog sync)

/-- One call of the boundary. -/
abbrev call (q : SyncReq) : Prog sync q.Resp := .call q .ret

def advance (operationId : OperationId) (event : InboxEvent) : M Unit := do
  let _ ← orThrow (call (.inbox (.advance operationId event))) .inbox
  return ()

def findOperation (operationId : OperationId) : M (Option Operation) :=
  orThrow (call (.operations (.findOperation operationId))) .operation

def enqueueOutboxEntry (instanceId : InstanceId) (message : EnvelopeMessage) :
    M OutboxEntry := do
  let createdAt ← (call .now : Prog sync _)
  orThrow (call (.outbox (.enqueue instanceId message createdAt))) .outbox

def insertProgress (operationId : OperationId)
    (state : Option OperationState) : M Unit :=
  (call (.progress (.insert operationId state)) : Prog sync _)

def forgetProgress (operationId : OperationId) : M Unit :=
  (call (.progress (.forget operationId)) : Prog sync _)

/-! ## The rechecks -/

inductive OfferDecision where
  | accept (command : RedfishCommand)
  | reject (reason : OperationRejectedReason) (detail : String)
  deriving DecidableEq, Repr

inductive OfferOutcome where
  | dropped
  | accepted
  | rejected (reason : OperationRejectedReason) (detail : String)
  | duplicateProgress
  deriving DecidableEq, Repr

/-- Whether the ledger shows the capability a command needs as usable. -/
def capabilityUsable (command : RedfishCommand)
    (entries : Option (List CapabilityLedgerEntry)) : Bool :=
  entries.bind (requiredCapabilityState (requiredCapability command)) =
    some .supported

/-- Whether a target is a resource of the endpoint's projection or lies below
one. -/
def targetKnown (target : String) (endpointId : EndpointId)
    (items : List InventoryItem) : Bool :=
  items.any fun item => item.endpointId = endpointId &&
    item.odataIds.any fun odataId =>
      target = odataId || target.startsWith (odataId ++ "/")

def decideOffer (offer : OperationOffer) (entry : InboxEntry)
    (endpointId : EndpointId) (now : Instant) : M OfferDecision := do
  match ← orThrow (call (.recheck (.findEndpoint endpointId))) .endpoint with
  | none => return .reject .endpointMissing "the endpoint is no longer managed"
  | some endpoint => match offer.command with
    | none =>
      return .reject .invalidCommand
        "the command payload is not a valid RedfishCommand"
    | some command =>
      let entries ←
        orThrow (call (.recheck (.capabilities endpointId))) .capability
      if !capabilityUsable command entries then
        return .reject .capabilityMissing
          s!"the {(requiredCapability command).asStr} capability is not usable"
      else
        let credentials ←
          orThrow (call (.recheck .listCredentials)) .credential
        if !credentials.contains endpoint.credentialId then
          return .reject .credentialInvalid
            "the endpoint credential is no longer stored"
        else
          let items ← orThrow (call (.recheck .inventory)) .inventory
          if !targetKnown offer.target endpointId items then
            return .reject .targetStateChanged
              "the target is not in the endpoint's last-known projection"
          else if entry.isExpired now then
            return .reject .expired
              "the offer expired before it could be applied"
          else return .accept command

/-! ## Handling an offer -/

/-- A time as the wire carries it, in whole seconds. -/
def second : Instant := 1000000000

def unixTimestamp (t : Instant) : Int := t / second

/-- The decision and its record: an accepted offer becomes an operation under
the offer's own id, then the reply is queued, then the entry advances. -/
def decideAndRecord (instanceId : InstanceId) (offer : OperationOffer)
    (entry : InboxEntry) (endpointId : EndpointId) (now : Instant) :
    M OfferOutcome := do
  match ← decideOffer offer entry endpointId now with
  | .accept command =>
    let targetId ← (call (.recheck .generateTargetId) : Prog sync _)
    let operation := Operation.new entry.operationId .center
      [⟨targetId, endpointId⟩] command now
    orThrow (call (.operations (.createOperation operation))) .operation
    insertProgress entry.operationId none
    let _ ← enqueueOutboxEntry instanceId
      (.operationAccepted (some entry.operationId) (unixTimestamp now))
    advance entry.operationId .accepted
    return .accepted
  | .reject reason detail =>
    let _ ← enqueueOutboxEntry instanceId
      (.operationRejected (some entry.operationId) reason detail)
    advance entry.operationId .rejected
    return .rejected reason detail

def completedSummary (operation : Operation) : M String := do
  if operation.state ≠ .failed then return operation.state.asStr
  else match ← orThrow (call (.findFailureKind operation.id)) .operation with
    | some .capabilityUnsupported => return "failed-unsupported"
    | none => return operation.state.asStr

/-- Queue the terminal report of an operation. -/
def enqueueCompleted (instanceId : InstanceId) (operation : Operation) :
    M Unit := do
  let summary ← completedSummary operation
  let _ ← enqueueOutboxEntry instanceId
    (.operationCompleted (some operation.id) (operation.state = .succeeded)
      summary)
  return ()

def enqueueProgress (instanceId : InstanceId) (operation : Operation)
    (detail : String) : M Unit := do
  let _ ← enqueueOutboxEntry instanceId
    (.operationProgress (some operation.id) operation.state.asStr detail)
  return ()

/-- A duplicate of an offer still in progress: answered from the operation, or
decided again where there is none. -/
def replyToInProgressDuplicate (instanceId : InstanceId)
    (offer : OperationOffer) (entry : InboxEntry) (endpointId : EndpointId)
    (now : Instant) : M OfferOutcome := do
  match ← findOperation entry.operationId with
  | none => decideAndRecord instanceId offer entry endpointId now
  | some operation =>
    if operation.state.isTerminal then do
      enqueueCompleted instanceId operation
      advance entry.operationId .accepted
      advance entry.operationId .completed
      forgetProgress entry.operationId
      return .duplicateProgress
    else do
      enqueueProgress instanceId operation
        "duplicate offer; the operation is already in progress"
      advance entry.operationId .accepted
      insertProgress entry.operationId (some operation.state)
      return .duplicateProgress

/-- What a rejected offer is answered when it is delivered again: the current
reason, or a generic one when the offer would now pass. -/
def OfferDecision.refusal : OfferDecision → OperationRejectedReason × String
  | .accept _ =>
      (.unspecified, "the offer was already rejected and cannot be revived")
  | .reject reason detail => (reason, detail)

/-- A duplicate of a finished offer. -/
def replyToResolvedDuplicate (instanceId : InstanceId) (offer : OperationOffer)
    (entry : InboxEntry) (endpointId : EndpointId) (state : InboxEntryState)
    (now : Instant) : M OfferOutcome := do
  match state with
  | .rejected =>
    let decision ← decideOffer offer entry endpointId now
    let reason := decision.refusal.1
    let detail := decision.refusal.2
    let _ ← enqueueOutboxEntry instanceId
      (.operationRejected (some entry.operationId) reason detail)
    return .rejected reason detail
  | .completed => match ← findOperation entry.operationId with
    | some operation =>
      enqueueCompleted instanceId operation
      return .duplicateProgress
    | none =>
      let _ ← enqueueOutboxEntry instanceId
        (.operationCompleted (some entry.operationId) false
          "the recorded outcome is unavailable")
      return .duplicateProgress
  | .received | .accepted =>
    replyToInProgressDuplicate instanceId offer entry endpointId now

/-- The entry an offer is recorded as. An expiry that does not parse is pinned
one second before the receipt. -/
def entryOf (instanceId : InstanceId) (operationId : OperationId)
    (offer : OperationOffer) (received : Envelope) (now : Instant) :
    InboxEntry :=
  .new operationId instanceId received (offer.expiresAt.getD (now - second)) now

/-- `now` is the clock reading of the receipt. -/
def handleOffer (instanceId : InstanceId) (offer : OperationOffer)
    (received : Envelope) (now : Instant) : M OfferOutcome := do
  if offer.siteId ≠ some instanceId then return .dropped
  else match offer.operationId, offer.endpointId with
    | some operationId, some endpointId =>
      let entry := entryOf instanceId operationId offer received now
      match ← orThrow (call (.inbox (.insert entry))) .inbox with
      | .created => decideAndRecord instanceId offer entry endpointId now
      | .duplicateInProgress =>
        replyToInProgressDuplicate instanceId offer entry endpointId now
      | .duplicateResolved state =>
        replyToResolvedDuplicate instanceId offer entry endpointId state now
    | _, _ => return .dropped

/-! ## Reporting -/

/-- The repair of an entry whose acceptance a crash cut short. -/
def repairEntry (operationId : OperationId) (state : InboxEntryState) :
    M Unit :=
  if state = .received then advance operationId .accepted else pure ()

def reportOpenEntry (instanceId : InstanceId) (operation : Operation) :
    M Unit := do
  match ← orThrow (call (.inbox (.findByOperation operation.id))) .inbox with
  | none => return ()
  | some entry =>
    if entry.state.isTerminal then return ()
    else
      repairEntry operation.id entry.state
      if operation.state.isTerminal then
        enqueueCompleted instanceId operation
        advance operation.id .completed
        forgetProgress operation.id
      else
        let reported ←
          (call (.progress (.reported operation.id)) : Prog sync _)
        if reported = some operation.state then return ()
        else
          enqueueProgress instanceId operation ""
          insertProgress operation.id (some operation.state)

/-- The states of the discovery scan, in-flight first. -/
def centerReportStates : List OperationState :=
  [.queued, .validating, .running, .waitingRemote, .verifying,
    .succeeded, .failed, .unknown, .cancelled]

/-- The discovery scan of one state. -/
def discover (instanceId : InstanceId) (state : OperationState) : M Unit := do
  let operations ←
    orThrow (call (.operations (.listOperations (some state)))) .operation
  operations.forM fun operation =>
    if operation.source = .center then reportOpenEntry instanceId operation
    else pure ()

/-- The report of one operation of the progress map. -/
def reportKnown (instanceId : InstanceId) (operationId : OperationId) :
    M Unit := do
  match ← orThrow (call (.inbox (.findByOperation operationId))) .inbox with
  | none => forgetProgress operationId
  | some entry =>
    if entry.state.isTerminal then forgetProgress operationId
    else match ← findOperation operationId with
      | none => forgetProgress operationId
      | some operation => reportOpenEntry instanceId operation

def reportCenterOperations (instanceId : InstanceId) : M Unit := do
  let discoveryDone ← (call (.progress .discoveryDone) : Prog sync _)
  if !discoveryDone then
    centerReportStates.forM (discover instanceId)
    (call (.progress .finishDiscovery) : Prog sync _)
  else
    let known ← (call (.progress .known) : Prog sync _)
    known.forM (reportKnown instanceId)

end Rutilus.App.CenterSync
