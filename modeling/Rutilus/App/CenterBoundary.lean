import Rutilus.App.CenterSync
import Rutilus.Domain.User

/-!
# The boundary of the center

What the center's dispatch and its reply tracking call: the operation records,
the outbox with one queue for each site, the inbox that keeps the receipts, and
three reads whose answers change under them at any time (the projection of an
endpoint, the resources of an endpoint, the role of a principal).

An offer's target, expiry and addressed site are stored nowhere but in the
queued offer itself; `offerFacts` reads them back from a row.
-/

namespace Rutilus.App.CenterBoundary

open Rutilus.Domain Rutilus.Domain.User Rutilus.Lib Rutilus.Store

/-- A projected endpoint, as far as dispatch and tracking look at it. -/
structure EndpointProjection where
  siteId : Option InstanceId
  deriving DecidableEq, Repr

inductive CenterReq where
  | operations (q : OperationStoreReq)
  | listOperationsForEndpoint (state : Option OperationState)
      (endpointId : EndpointId)
  | outbox (q : OutboxReq)
  | inbox (q : InboxReq)
  | findEndpointProjection (endpointId : EndpointId)
  | hasResource (endpointId : EndpointId) (odataId : String)
  | findRoleAssignment (principalId : PrincipalId)
  | generateOperationId
  | generateTargetId
  | absorbedReceiptOperationId

abbrev CenterReq.Resp : CenterReq → Type
  | .operations q => q.Resp
  | .listOperationsForEndpoint .. =>
      Except OperationRepositoryError (List Operation)
  | .outbox q => q.Resp
  | .inbox q => q.Resp
  | .findEndpointProjection _ => Except Fault (Option EndpointProjection)
  | .hasResource .. => Except Fault Bool
  | .findRoleAssignment _ => Except Fault (Option RoleAssignment)
  | .generateOperationId => OperationId
  | .generateTargetId => TargetId
  | .absorbedReceiptOperationId => OperationId

abbrev center : Sig := ⟨CenterReq, CenterReq.Resp⟩

/-- One call of the boundary. -/
abbrev call (q : CenterReq) : Prog center q.Resp := .call q .ret

/-- The operations on an endpoint, in acceptance order. -/
def listOperationsForEndpoint (t : OperationTable)
    (state : Option OperationState) (endpointId : EndpointId) :
    Except OperationRepositoryError (List Operation) :=
  ((t.rows.filter fun row => state.all (row.state = ·) &&
    row.targets.any fun target => target.endpointId = endpointId).insertionSort
      acceptedBefore).mapM mapStoredOperation

/-! ## Offer facts -/

/-- What an offer row says about the dispatch it belongs to. -/
structure OfferFact where
  operationId : OperationId
  siteId : Option InstanceId
  target : String
  expiresAt : Instant
  entryId : OutboxEntryId
  sequence : Int
  deriving DecidableEq, Repr

/-- The facts of an offer row; an expiry that cannot be read is the epoch. -/
def offerFacts (entry : OutboxEntry) : Option OfferFact :=
  match entry.payload with
  | some ⟨_, _, some (.operationOffer offer)⟩ =>
      offer.operationId.map fun operationId =>
        { operationId, siteId := offer.siteId, target := offer.target
          expiresAt := offer.expiresAt.getD 0, entryId := entry.id
          sequence := entry.sequence }
  | _ => none

/-- The facts of a row name the operation its payload is about. -/
theorem offerFacts_operationId {entry : OutboxEntry} {fact : OfferFact}
    (h : offerFacts entry = some fact) :
    payloadOperationId entry.payload = some fact.operationId := by
  unfold offerFacts at h
  split at h
  · next offer hpayload =>
      obtain ⟨operationId, hid, rfl⟩ := Option.map_eq_some_iff.mp h
      rw [hpayload]
      exact hid
  · cases h

/-- A row about an operation has facts. -/
theorem offerFacts_of_operationId {entry : OutboxEntry} {X : OperationId}
    (h : payloadOperationId entry.payload = some X) :
    ∃ fact, offerFacts entry = some fact ∧ fact.operationId = X := by
  unfold payloadOperationId at h
  split at h
  · next offer hpayload =>
      unfold offerFacts
      rw [hpayload]
      simp only [h, Option.map_some, Option.some.injEq, exists_eq_left']
  · cases h

/-- What the facts of a row say depends on its payload only. -/
theorem offerFacts_of_payload {entry entry' : OutboxEntry} {fact : OfferFact}
    (hpayload : entry'.payload = entry.payload)
    (h : offerFacts entry' = some fact) :
    ∃ fact', offerFacts entry = some fact' ∧
      fact'.operationId = fact.operationId ∧ fact'.target = fact.target := by
  unfold offerFacts at h ⊢
  rw [hpayload] at h
  split at h
  · obtain ⟨operationId, hid, rfl⟩ := Option.map_eq_some_iff.mp h
    exact ⟨_, Option.map_eq_some_iff.mpr ⟨operationId, hid, rfl⟩, rfl, rfl⟩
  · cases h

end Rutilus.App.CenterBoundary

/-!
## Reply tracking

What the center does with a site's reply about an operation: it reads the
record, makes sure that the reply comes from the site the offer was addressed
to, walks the record through the events the reply stands for, and stores the
state it ended in if that is another one. Events that do not apply are
absorbed. A reply that is not credited leaves a receipt and nothing else.
-/

namespace Rutilus.App.CenterTracking

open Rutilus.Domain Rutilus.Lib Rutilus.Store Rutilus.App.CenterBoundary

inductive TrackingError where
  | operation (source : OperationRepositoryError)
  | projection (source : Fault)
  | outbox (source : OutboxRepositoryError)
  | inbox (source : InboxRepositoryError)
  deriving DecidableEq, Repr

abbrev M : Type → Type := ExceptT TrackingError (Prog center)

/-! ## What a reply stands for -/

/-- The tracking target of a reply. -/
inductive ReplyTarget where
  | running
  | waitingRemote
  | failed
  | unsupported
  | cancelled
  | unknown
  | succeeded
  deriving DecidableEq, Repr

/-- The events that lead to the target from wherever the record lags. -/
def ReplyTarget.events : ReplyTarget → List OperationEvent
  | .running => [.validationStarted, .validationPassed]
  | .waitingRemote =>
      [.validationStarted, .validationPassed, .remoteTaskStarted]
  | .failed | .unsupported => [.failed]
  | .cancelled => [.cancellationRequested]
  | .unknown => [.validationStarted, .validationPassed, .outcomeUnknown]
  | .succeeded => [.validationStarted, .validationPassed,
      .remoteTaskCompleted, .executionAccepted, .verificationPassed]

def replyOperationId : Option EnvelopeMessage → Option OperationId
  | some (.operationAccepted operationId _) => operationId
  | some (.operationRejected operationId _ _) => operationId
  | some (.operationProgress operationId _ _) => operationId
  | some (.operationCompleted operationId _ _) => operationId
  | _ => none

/-- The state a product code names. -/
def parseState (code : String) : Option OperationState :=
  [.queued, .validating, .running, .waitingRemote, .verifying, .succeeded,
    .failed, .unknown, .cancelled].find? fun s : OperationState =>
      s.asStr = code

/-- The summary code of an unsupported write, alone or before a colon. -/
def isUnsupportedSummary (summary : String) : Bool :=
  match ("failed-unsupported".toList.isPrefixOf? summary.toList) with
  | some [] => true
  | some (c :: _) => c = ':'
  | none => false

def replyTarget : Option EnvelopeMessage → Option ReplyTarget
  | some (.operationAccepted ..) => some .running
  | some (.operationProgress _ state _) =>
      if parseState state = some .waitingRemote then some .waitingRemote
      else some .running
  | some (.operationRejected ..) => some .failed
  | some (.operationCompleted _ succeeded summary) =>
      if succeeded then some .succeeded
      else if isUnsupportedSummary summary then some .unsupported
      else match parseState summary with
        | some .cancelled => some .cancelled
        | some .unknown => some .unknown
        | _ => some .failed
  | _ => none

/-- The phases a reply leads its receipt through. -/
def replyEvents : Option EnvelopeMessage → List InboxEvent
  | some (.operationAccepted ..) | some (.operationProgress ..) => [.accepted]
  | some (.operationRejected ..) => [.rejected]
  | some (.operationCompleted ..) => [.accepted, .completed]
  | _ => []

/-! ## Receipts -/

/-- Store the reply as the receipt of an operation, in its first phase. -/
def recordReply (site : InstanceId) (envelope : Envelope)
    (operationId : OperationId) (now : Instant) : M Unit := do
  let _ ← orThrow (call (.inbox (.insert
    (.new operationId site envelope now now)))) .inbox
  return ()

/-- Lead a stored receipt through some phases, up to the first one that is
refused. -/
def advanceReceipt (operationId : OperationId) :
    List InboxEvent → Prog center Unit
  | [] => .ret ()
  | event :: events => do
    match ← call (.inbox (.advance operationId event)) with
    | .ok _ => advanceReceipt operationId events
    | .error _ => return ()

/-- Store the reply as the receipt of an operation in the phase it stands for,
or lead the stored receipt there. -/
def logReply (site : InstanceId) (envelope : Envelope)
    (operationId : OperationId) (now : Instant) : M Unit := do
  let events := replyEvents envelope.message
  let phase := (events.getLast?.map InboxEvent.toState).getD .received
  let entry : InboxEntry :=
    ⟨operationId, site, envelope, phase, now, now⟩
  match ← orThrow (call (.inbox (.insert entry))) .inbox with
  | .created => return ()
  | _ => (advanceReceipt operationId events : Prog center Unit)

/-! ## Credit -/

/-- The site the newest offer of an operation in a site's own queue names. -/
def offerSiteFromOfferFacts (operationId : OperationId) (site : InstanceId) :
    M (Option InstanceId) := do
  let entry ← orThrow
    (call (.outbox (.findOfferByOperation site operationId))) .outbox
  return (entry.bind offerFacts).bind OfferFact.siteId

/-- The site an operation's offer was addressed to: the projection of its
endpoint where that names the replying site, else the offer in the replying
site's queue. -/
def offerSite (operation : Operation) (site : InstanceId) :
    M (Option InstanceId) := do
  match operation.targets.head? with
  | none => return none
  | some target =>
    match ← orThrow (call (.findEndpointProjection target.endpointId))
        .projection with
    | some projection =>
      if projection.siteId = some site then return projection.siteId
      else offerSiteFromOfferFacts operation.id site
    | none => offerSiteFromOfferFacts operation.id site

/-- The state a record is in after some events, those that do not apply left
out. -/
def absorb (state : OperationState) (events : List OperationEvent) :
    OperationState :=
  events.foldl (fun s e => ((transition s e).toOption).getD s) state

def recordUnsupported (operationId : OperationId) (target : ReplyTarget) :
    M Unit :=
  if target = .unsupported then
    orThrow (call (.operations
      (.recordFailureKind operationId .capabilityUnsupported))) .operation
  else pure ()

/-- Only a changed state is written. -/
def storeState (operation : Operation) (state : OperationState)
    (now : Instant) : M Unit :=
  if state ≠ operation.state then
    orThrow (call (.operations
      (.applyTransition operation.id state now))) .operation
  else pure ()

/-- A reply of the addressed site. -/
def creditReply (site : InstanceId) (envelope : Envelope)
    (operation : Operation) (target : ReplyTarget) (now : Instant) :
    M Unit := do
  recordUnsupported operation.id target
  storeState operation (absorb operation.state target.events) now
  logReply site envelope operation.id now

/-- Handle one reply; an id that does not parse is filed under one derived
from its text. -/
def onReply (site : InstanceId) (envelope : Envelope) (now : Instant) :
    M Unit := do
  match replyOperationId envelope.message with
  | none =>
    let receiptId ← (call .absorbedReceiptOperationId : Prog center _)
    recordReply site envelope receiptId now
  | some operationId => match replyTarget envelope.message with
    | none => return ()
    | some target =>
      match ← orThrow (call (.operations (.findOperation operationId)))
          .operation with
      | none => recordReply site envelope operationId now
      | some operation =>
        let expected ← offerSite operation site
        if expected ≠ some site then
          recordReply site envelope operationId now
        else creditReply site envelope operation target now

end Rutilus.App.CenterTracking
