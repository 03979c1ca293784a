import Rutilus.App.CenterBoundary
import Rutilus.App.CenterDispatch

/-!
# The center under dispatches and replies

The center's tables with one dispatch at a time and any number of replies under
way, call by call; the sites acknowledge queued offers, and the center retires
expired ones, at any point. A call may fail, and a crash loses everything but
the tables. The projection, the resources and the roles answer anew at every
call, so an endpoint may change its site between any two of them.

Three things are not part of the product. `offered` remembers every offer that
was queued and for which site, `minted` which request an operation was created
for, and a task remembers what it has seen so far.
-/

namespace Rutilus.App.CenterSystem

open Rutilus.Domain Rutilus.Domain.User Rutilus.Lib Rutilus.Store
  Rutilus.App.CenterBoundary Rutilus.App.CenterDispatch Rutilus.App.CenterTracking

structure World where
  operations : OperationTable
  outbox : OutboxTable
  inbox : InboxTable
  offered : List (OperationId × InstanceId)
  minted : List (OperationId × CenterOperationRequest)

/-- The choices of one call. -/
structure Oracle where
  fault : Option Fault
  entryId : OutboxEntryId
  projection : Except Fault (Option EndpointProjection)
  resource : Except Fault Bool
  role : Except Fault (Option RoleAssignment)
  operationId : OperationId
  targetId : TargetId

/-- The effect of one call on the tables. -/
def answer (o : Oracle) : (q : CenterReq) → World → q.Resp × World
  | .operations q, w =>
      ((runOperationStore o.fault q w.operations).1,
        { w with operations := (runOperationStore o.fault q w.operations).2 })
  | .listOperationsForEndpoint state endpointId, w => match o.fault with
    | some f => (.error (.fault f), w)
    | none => (listOperationsForEndpoint w.operations state endpointId, w)
  | .outbox q, w =>
      ((runOutbox o.fault o.entryId q w.outbox).1,
        { w with outbox := (runOutbox o.fault o.entryId q w.outbox).2 })
  | .inbox q, w =>
      ((runInbox o.fault q w.inbox).1,
        { w with inbox := (runInbox o.fault q w.inbox).2 })
  | .findEndpointProjection _, w => (o.projection, w)
  | .hasResource .., w => (o.resource, w)
  | .findRoleAssignment _, w => (o.role, w)
  | .generateOperationId, w => (o.operationId, w)
  | .generateTargetId, w => (o.targetId, w)
  | .absorbedReceiptOperationId, w => (o.operationId, w)

/-- The offer a landed enqueue queued. -/
def offerOf : (q : CenterReq) → q.Resp → List (OperationId × InstanceId)
  | .outbox (.enqueue siteId message _), .ok _ =>
      (payloadOperationId (some ⟨0, 0, some message⟩)).toList.map
        fun operationId => (operationId, siteId)
  | _, _ => []

/-- The operation a landed creation made for a request. -/
def mintOf (request : Option CenterOperationRequest) :
    (q : CenterReq) → q.Resp → List (OperationId × CenterOperationRequest)
  | .operations (.createOperation operation), .ok () =>
      request.toList.map fun request => (operation.id, request)
  | _, _ => []

/-- One call made for a request, or for a reply. -/
def perform (request : Option CenterOperationRequest) (o : Oracle)
    (q : CenterReq) (w : World) : q.Resp × World :=
  let r := answer o q w
  (r.1, { r.2 with
    offered := w.offered ++ offerOf q r.1
    minted := w.minted ++ mintOf request q r.1 })

/-- A generated identity is a new one. -/
def World.isFresh (w : World) (operationId : OperationId) : Bool :=
  !w.operations.has operationId &&
    !w.offered.any (fun offer => offer.1 = operationId) &&
    !w.minted.any fun mint => mint.1 = operationId

/-- What the identities of a call have to be. -/
def allowed (o : Oracle) (w : World) : CenterReq → Bool
  | .generateOperationId => w.isFresh o.operationId
  | _ => true

/-! ## Tasks -/

/-- A dispatch under way; `undecided` are the undecided operations of its key
when it began, `confirming` that it has turned to the unknown ones. -/
structure DispatchTask where
  request : CenterOperationRequest
  now : Instant
  undecided : List OperationId
  confirming : Bool
  rest : Prog center (Except CenterDispatchError DispatchedOperation)

/-- A reply under way; `projected` is that the projection named its site. -/
structure ReplyTask where
  site : InstanceId
  envelope : Envelope
  now : Instant
  projected : Bool
  rest : Prog center (Except TrackingError Unit)

structure State where
  world : World
  dispatch : Option DispatchTask
  replies : List ReplyTask

def init : State := ⟨⟨.empty, .empty, .empty, [], []⟩, none, []⟩

/-- Two requests for the same write: endpoint, command and target. -/
def sameKey (a b : CenterOperationRequest) : Bool :=
  a.endpointId = b.endpointId ∧ a.command = b.command ∧
    canonicalTargetKey a.targetODataId = canonicalTargetKey b.targetODataId

def World.requestOf (w : World) (operationId : OperationId) :
    Option CenterOperationRequest :=
  (w.minted.find? fun mint => mint.1 = operationId).map Prod.snd

/-- The undecided center operations on the endpoint and with the command of a
request. -/
def World.undecidedOf (w : World) (request : CenterOperationRequest) :
    List OperationId :=
  (w.operations.rows.filter fun row => row.source = .center &&
    row.targets.any (fun target => target.endpointId = request.endpointId) &&
    row.command = request.command && !row.state.isTerminal).map OperationRow.id

/-- Those of them that were created for the request's own key. -/
def World.undecidedUnder (w : World) (request : CenterOperationRequest) :
    List OperationId :=
  (w.undecidedOf request).filter fun operationId =>
    (w.requestOf operationId).any (sameKey request)

/-- Whether a call turns to the unknown outcomes. -/
def isConfirming : CenterReq → Bool
  | .listOperationsForEndpoint (some .unknown) _ => true
  | _ => false

/-- Whether an answer names a site as the endpoint's. -/
def names (site : InstanceId) : (q : CenterReq) → q.Resp → Bool
  | .findEndpointProjection _, .ok (some projection) =>
      projection.siteId = some site
  | _, _ => false

inductive Label where
  | dispatch (request : CenterOperationRequest) (now : Instant)
  | dispatchCall (o : Oracle)
  | dispatchDone
  | reply (site : InstanceId) (envelope : Envelope) (now : Instant)
  | replyCall (i : Nat) (o : Oracle)
  | acknowledge (entryId : OutboxEntryId) (ackedAt : Instant)
  | crash

def beginDispatch (w : World) (request : CenterOperationRequest)
    (now : Instant) : DispatchTask :=
  ⟨request, now, w.undecidedUnder request, false,
    (CenterDispatch.dispatch request now).run⟩

/-- One step; `none` where the label does not apply. -/
def next (s : State) : Label → Option State
  | .dispatch request now => match s.dispatch with
    | none =>
        some { s with dispatch := some (beginDispatch s.world request now) }
    | some _ => none
  | .dispatchCall o => match s.dispatch with
    | some ⟨request, now, undecided, confirming, .call q k⟩ =>
        if allowed o s.world q then
          let r := perform (some request) o q s.world
          some { s with
            world := r.2
            dispatch := some ⟨request, now, undecided,
              confirming || isConfirming q, k r.1⟩ }
        else none
    | _ => none
  | .dispatchDone => match s.dispatch with
    | some ⟨_, _, _, _, .ret _⟩ => some { s with dispatch := none }
    | _ => none
  | .reply site envelope now =>
      some { s with replies := s.replies ++
        [⟨site, envelope, now, false, (onReply site envelope now).run⟩] }
  | .replyCall i o => match s.replies[i]? with
    | some ⟨site, envelope, now, projected, .call q k⟩ =>
        let r := perform none o q s.world
        some { s with
          world := r.2
          replies := s.replies.set i ⟨site, envelope, now,
            projected || names site q r.1, k r.1⟩ }
    | _ => none
  | .acknowledge entryId ackedAt =>
      match ackOutboxEntry s.world.outbox entryId ackedAt with
      | .ok (_, outbox) => some { s with world := { s.world with outbox } }
      | .error _ => none
  | .crash => some { s with dispatch := none, replies := [] }

/-- An offer in the queue of another site than the request's, for the
request's target, that has expired. -/
def isExpiredElsewhere (request : CenterOperationRequest) (now : Instant)
    (entry : OutboxEntry) : Bool :=
  entry.instanceId ≠ request.siteId && (offerFacts entry).any fun fact =>
    canonicalTargetKey fact.target =
      canonicalTargetKey request.targetODataId && fact.expiresAt < now

/-- The dispatch under way looks up the newest offer of a candidate and finds
it expired in another site's queue. -/
def State.misroutes (s : State) : Label → Bool
  | .dispatchCall o => match s.dispatch with
    | some ⟨request, now, _, false,
        .call (.outbox (.findOfferByOperationAcrossInstances X)) _⟩ =>
        o.fault = none &&
          match findOfferByOperationAcrossInstances s.world.outbox X with
          | .ok (some entry, _) => isExpiredElsewhere request now entry
          | _ => false
    | _ => false
  | _ => false

/-- A dispatch begins while an undecided operation of its endpoint and command
was never queued for any site, and that one is not the only undecided one or
was created for another target. -/
def State.strands (s : State) : Label → Bool
  | .dispatch request _ => (s.world.undecidedOf request).any fun X =>
      !(s.world.outbox.rows.any fun row => row.operationId = some X) &&
        !(s.world.undecidedOf request = [X] &&
          (s.world.requestOf X).any (sameKey request))
  | _ => false

/-- A reply moves while a dispatch is under way. -/
def State.interrupts (s : State) : Label → Bool
  | .replyCall .. => s.dispatch.isSome
  | _ => false

end Rutilus.App.CenterSystem
