import Mathlib.Data.List.DropRight
import Rutilus.App.CenterBoundary
import Rutilus.Engine.OperationEngine

/-!
# Dispatch

The center's only way to write: an operation record under a fresh id, then an
offer of that id in the queue of the site the endpoint belongs to. A dispatch
that finds an undecided operation of the same endpoint, command and target
returns that one instead, and queues its offer again where none was queued or
the last one has expired. The target is not part of the record; it is read back
from the offers.
-/

namespace Rutilus.App.CenterDispatch

open Rutilus.Domain Rutilus.Domain.User Rutilus.Lib Rutilus.Store
  Rutilus.Engine Rutilus.App.CenterBoundary Rutilus.App.CenterSync

/-! ## Target keys -/

/-- The value of an ASCII hex digit. -/
def hexDigit (byte : UInt8) : Option UInt8 :=
  if 0x30 ≤ byte ∧ byte ≤ 0x39 then some (byte - 0x30)
  else if 0x61 ≤ byte ∧ byte ≤ 0x66 then some (byte - 0x61 + 10)
  else if 0x41 ≤ byte ∧ byte ≤ 0x46 then some (byte - 0x41 + 10)
  else none

/-- Replace each percent escape by its byte; an invalid escape stays. -/
def percentDecode : List UInt8 → List UInt8
  | 0x25 :: high :: low :: rest => match hexDigit high, hexDigit low with
    | some h, some l => (h * 16 + l) :: percentDecode rest
    | _, _ => 0x25 :: percentDecode (high :: low :: rest)
  | byte :: rest => byte :: percentDecode rest
  | [] => []

/-- A continuation byte. -/
def isContinuation (byte : UInt8) : Bool := byte &&& 0xC0 = 0x80

/-- The second byte of a three-byte sequence. -/
def isSecondOfThree (first second : UInt8) : Bool :=
  if first = 0xE0 then 0xA0 ≤ second ∧ second ≤ 0xBF
  else if first = 0xED then 0x80 ≤ second ∧ second ≤ 0x9F
  else isContinuation second

/-- The second byte of a four-byte sequence. -/
def isSecondOfFour (first second : UInt8) : Bool :=
  if first = 0xF0 then 0x90 ≤ second ∧ second ≤ 0xBF
  else if first = 0xF4 then 0x80 ≤ second ∧ second ≤ 0x8F
  else isContinuation second

/-- The character of a sequence of payload bits, six to a byte. -/
def charOf (lead : UInt8) (rest : List UInt8) : Char :=
  Char.ofNat (rest.foldl (fun n byte => n * 64 + (byte &&& 0x3F).toNat)
    lead.toNat)

def replacement : Char := Char.ofNat 0xFFFD

/-- Decoding that puts one replacement character for each longest prefix that
no valid sequence continues. -/
def fromUtf8Lossy : List UInt8 → List Char
  | [] => []
  | a :: rest =>
    if a < 0x80 then charOf a [] :: fromUtf8Lossy rest
    else if 0xC2 ≤ a ∧ a ≤ 0xDF then match rest with
      | b :: rest' =>
        if isContinuation b then
          charOf (a &&& 0x1F) [b] :: fromUtf8Lossy rest'
        else replacement :: fromUtf8Lossy (b :: rest')
      | [] => [replacement]
    else if 0xE0 ≤ a ∧ a ≤ 0xEF then match rest with
      | b :: rest' =>
        if isSecondOfThree a b then match rest' with
          | c :: rest'' =>
            if isContinuation c then
              charOf (a &&& 0x0F) [b, c] :: fromUtf8Lossy rest''
            else replacement :: fromUtf8Lossy (c :: rest'')
          | [] => [replacement]
        else replacement :: fromUtf8Lossy (b :: rest')
      | [] => [replacement]
    else if 0xF0 ≤ a ∧ a ≤ 0xF4 then match rest with
      | b :: rest' =>
        if isSecondOfFour a b then match rest' with
          | c :: rest'' =>
            if isContinuation c then match rest'' with
              | d :: rest''' =>
                if isContinuation d then
                  charOf (a &&& 0x07) [b, c, d] :: fromUtf8Lossy rest'''
                else replacement :: fromUtf8Lossy (d :: rest''')
              | [] => [replacement]
            else replacement :: fromUtf8Lossy (c :: rest'')
          | [] => [replacement]
        else replacement :: fromUtf8Lossy (b :: rest')
      | [] => [replacement]
    else replacement :: fromUtf8Lossy rest

/-- The key of a target: decoded, in lower case, without trailing slashes. -/
def canonicalTargetKey (target : String) : List Char :=
  ((fromUtf8Lossy (percentDecode
    (target.toList.flatMap String.utf8EncodeChar))).map
      Char.toLower).rdropWhile (· = '/')

example : canonicalTargetKey "/Redfish/v1/%53ystems/1/" =
    canonicalTargetKey "/redfish/v1/Systems/1" := by decide +kernel

/-! ## Requests -/

structure CenterOperationRequest where
  siteId : InstanceId
  endpointId : EndpointId
  targetODataId : String
  command : RedfishCommand
  actor : PrincipalId
  deriving DecidableEq, Repr

structure DispatchedOperation where
  operationId : OperationId
  expiresAt : Instant
  deriving DecidableEq, Repr

inductive CenterDispatchError where
  | notAuthorized
  | unknownEndpoint (endpointId : EndpointId)
  | endpointNotInSite (endpointId : EndpointId) (siteId : InstanceId)
  | unknownTarget (endpointId : EndpointId) (target : String)
  | unknownOutcomePending (operationId : OperationId)
  | projection (source : Fault)
  | operation (source : OperationRepositoryError)
  | outbox (source : OutboxRepositoryError)
  | role (source : Fault)
  deriving DecidableEq, Repr

abbrev M : Type → Type := ExceptT CenterDispatchError (Prog center)

/-- How long an offer stays actionable. -/
def centerOfferTtl : Instant := 15 * 60 * second

/-- How many pending offers a scan reads. -/
def centerDispatchOfferScanLimit : Nat := 256

/-- The states of an undecided operation, scanned one at a time. -/
def idempotencyCandidateStates : List OperationState :=
  [.queued, .validating, .running, .waitingRemote, .verifying]

def allowsDispatch (role : User.Role) (assignmentSite : Option InstanceId)
    (targetSite : InstanceId) : Bool :=
  match role with
  | .administrator => true
  | .operator => assignmentSite = none ∨ assignmentSite = some targetSite
  | .viewer => false

/-! ## Queueing an offer -/

def enqueueOffer (request : CenterOperationRequest)
    (operationId : OperationId) (expiresAt now : Instant) : M OutboxEntry :=
  let offer : OperationOffer :=
    { operationId := some operationId, endpointId := some request.endpointId
      siteId := some request.siteId, command := some request.command
      target := request.targetODataId
      expiresAt := some (unixTimestamp expiresAt * second)
      actorContext := toString request.actor.uuid }
  orThrow (call (.outbox (.enqueue request.siteId (.operationOffer offer)
    now))) .outbox

def acknowledgeAll (now : Instant) : List OutboxEntryId → M Unit
  | [] => return ()
  | entryId :: entryIds => do
    orThrow (call (.outbox (.acknowledge entryId now))) .outbox
    acknowledgeAll now entryIds

/-- The facts of the pending offers of a site. -/
def pendingFacts (siteId : InstanceId) : M (List OfferFact) := do
  let entries ← orThrow (call (.outbox
    (.listPending siteId centerDispatchOfferScanLimit))) .outbox
  return entries.filterMap offerFacts

/-- Retire every pending offer of an operation but the newest. -/
def settleDuplicateOffers (request : CenterOperationRequest)
    (operationId : OperationId) (now : Instant) : M Unit := do
  let facts ← pendingFacts request.siteId
  let rows := (facts.filter fun fact => fact.operationId = operationId)
    |>.insertionSort fun a b => a.sequence ≤ b.sequence
  acknowledgeAll now ((rows.reverse.drop 1).map OfferFact.entryId)

def deliverRetry (request : CenterOperationRequest)
    (operationId : OperationId) (now : Instant) : M DispatchedOperation := do
  let expiresAt := now + centerOfferTtl
  let _ ← enqueueOffer request operationId expiresAt now
  settleDuplicateOffers request operationId now
  return ⟨operationId, expiresAt⟩

/-! ## Candidates -/

inductive CandidateVerdict where
  | resolved (dispatched : DispatchedOperation)
  | neverEnqueued
  | differentTarget
  deriving DecidableEq, Repr

/-- The fact with the greatest sequence, the last of equals. -/
def newestFact (facts : List OfferFact) : Option OfferFact :=
  facts.foldl (fun newest fact => match newest with
    | none => some fact
    | some best => if best.sequence ≤ fact.sequence then some fact
        else some best) none

/-- The verdict on a candidate whose newest offer is known; `stale` are the
rows to retire once it has expired. -/
def judgeOffer (request : CenterOperationRequest) (operationId : OperationId)
    (newest : OfferFact) (stale : List OutboxEntryId) (now : Instant) :
    M CandidateVerdict := do
  if canonicalTargetKey newest.target ≠
      canonicalTargetKey request.targetODataId then
    return .differentTarget
  else if newest.expiresAt < now then do
    acknowledgeAll now stale
    let dispatched ← deliverRetry request operationId now
    return .resolved dispatched
  else return .resolved ⟨operationId, newest.expiresAt⟩

def resolveCandidate (request : CenterOperationRequest)
    (operationId : OperationId) (pending : List OfferFact) (now : Instant) :
    M CandidateVerdict := do
  let rows := pending.filter fun fact => fact.operationId = operationId
  match newestFact rows with
  | some newest =>
    judgeOffer request operationId newest (rows.map OfferFact.entryId) now
  | none =>
    let entry ← orThrow (call (.outbox
      (.findOfferByOperationAcrossInstances operationId))) .outbox
    match entry.bind offerFacts with
    | none => return .neverEnqueued
    | some directed =>
      judgeOffer request operationId directed [directed.entryId] now

/-- A center operation on the endpoint and with the command of a request. -/
def isOfRequest (request : CenterOperationRequest) (operation : Operation) :
    Bool :=
  operation.source = .center &&
    (operation.targets.head?.any fun target =>
      target.endpointId = request.endpointId) &&
    operation.command = request.command

/-- One query for each of the given states, in order. -/
def listForEndpoint (endpointId : EndpointId) :
    List OperationState → M (List Operation)
  | [] => return []
  | state :: states => do
    let found ← orThrow
      (call (.listOperationsForEndpoint (some state) endpointId)) .operation
    let rest ← listForEndpoint endpointId states
    return found ++ rest

/-- The undecided operations of a request, oldest first. -/
def candidatesOf (request : CenterOperationRequest)
    (operations : List Operation) : List OperationId :=
  ((operations.filter fun operation => isOfRequest request operation &&
    !operation.state.isTerminal).insertionSort recoveredBefore).map
      Operation.id

/-- The first candidate that is the request's own dispatch. -/
def resolveFirst (request : CenterOperationRequest) (facts : List OfferFact)
    (now : Instant) :
    List OperationId → M (Option DispatchedOperation)
  | [] => return none
  | operationId :: operationIds => do
    match ← resolveCandidate request operationId facts now with
    | .resolved dispatched => do
      settleDuplicateOffers request operationId now
      return some dispatched
    | _ => resolveFirst request facts now operationIds

/-- The only candidate, which the pending scan does not know. -/
def resolveSingle (request : CenterOperationRequest)
    (operationId : OperationId) (facts : List OfferFact) (now : Instant) :
    M (Option DispatchedOperation) := do
  match ← resolveCandidate request operationId facts now with
  | .resolved dispatched => do
    settleDuplicateOffers request operationId now
    return some dispatched
  | .differentTarget => return none
  | .neverEnqueued => do
    let dispatched ← deliverRetry request operationId now
    return some dispatched

def resolveCandidates (request : CenterOperationRequest)
    (candidates : List OperationId) (facts : List OfferFact)
    (now : Instant) : M (Option DispatchedOperation) :=
  match candidates with
  | [operationId] =>
    if !facts.any (fun fact => fact.operationId = operationId) then
      resolveSingle request operationId facts now
    else resolveFirst request facts now [operationId]
  | _ => resolveFirst request facts now candidates

def findUndecided (request : CenterOperationRequest) (now : Instant) :
    M (Option DispatchedOperation) := do
  let operations ←
    listForEndpoint request.endpointId idempotencyCandidateStates
  let candidates := candidatesOf request operations
  if candidates.isEmpty then return none
  else
    let facts ← pendingFacts request.siteId
    resolveCandidates request candidates facts now

/-- The first operation among some that ended unknown on the request's
target. -/
def confirmUnknown (request : CenterOperationRequest) :
    List OperationId → M (Option OperationId)
  | [] => return none
  | operationId :: operationIds => do
    let entry ← orThrow (call (.outbox
      (.findOfferByOperationAcrossInstances operationId))) .outbox
    if (entry.bind offerFacts).any fun fact =>
        canonicalTargetKey fact.target =
          canonicalTargetKey request.targetODataId then
      return some operationId
    else confirmUnknown request operationIds

def findUnknownOutcome (request : CenterOperationRequest) :
    M (Option OperationId) := do
  let unknown ← orThrow (call (.listOperationsForEndpoint (some .unknown)
    request.endpointId)) .operation
  confirmUnknown request (((unknown.filter (isOfRequest request)).insertionSort
    recoveredBefore).map Operation.id)

/-! ## Dispatch -/

/-- The record precedes the offer. -/
def createAndOffer (request : CenterOperationRequest) (now : Instant) :
    M DispatchedOperation := do
  let operationId ← (call .generateOperationId : Prog center _)
  let targetId ← (call .generateTargetId : Prog center _)
  let expiresAt := now + centerOfferTtl
  let operation := Operation.new operationId .center
    [⟨targetId, request.endpointId⟩] request.command now
  orThrow (call (.operations (.createOperation operation))) .operation
  let _ ← enqueueOffer request operationId expiresAt now
  return ⟨operationId, expiresAt⟩

/-- An authorized and routed request: the undecided operation of its key, the
refusal because of an unknown outcome, or a new operation. -/
def dispatchRouted (request : CenterOperationRequest) (now : Instant) :
    M DispatchedOperation := do
  match ← findUndecided request now with
  | some existing => return existing
  | none => match ← findUnknownOutcome request with
    | some operationId => throw (.unknownOutcomePending operationId)
    | none => createAndOffer request now

/-- The offer is addressed to one site, so the endpoint must be that site's. -/
def route (request : CenterOperationRequest) (now : Instant) :
    M DispatchedOperation := do
  match ← orThrow (call (.findEndpointProjection request.endpointId))
      .projection with
  | none => throw (.unknownEndpoint request.endpointId)
  | some endpoint =>
    if endpoint.siteId ≠ some request.siteId then
      throw (.endpointNotInSite request.endpointId request.siteId)
    else
      let known ← orThrow (call (.hasResource request.endpointId
        request.targetODataId)) .projection
      if !known then
        throw (.unknownTarget request.endpointId request.targetODataId)
      else dispatchRouted request now

def dispatch (request : CenterOperationRequest) (now : Instant) :
    M DispatchedOperation := do
  match ← orThrow (call (.findRoleAssignment request.actor)) .role with
  | none => throw .notAuthorized
  | some assignment =>
    if !allowsDispatch assignment.role assignment.siteId request.siteId then
      throw .notAuthorized
    else route request now

end Rutilus.App.CenterDispatch
