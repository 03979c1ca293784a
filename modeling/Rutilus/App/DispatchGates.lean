import Rutilus.App.CenterSystem
import Rutilus.Domain.Binding

/-!
# Dispatches side by side

The center holds one gate for each site. A dispatch takes the gate of the site
it addresses, makes sure that the site's binding is in force and runs to its
end; a revocation of the binding takes the same gate. Dispatches to different
sites run side by side, call by call, and replies, acknowledgements and reports
of the sites move between any two calls.

An endpoint belongs to the site that reported it. Another site gets it once the
owner's binding is revoked, or once the owner has deleted it. What a dispatch
reads of an endpoint is its owner at that moment.

A dispatch under way remembers four things that are not part of the product:
whether it was blocked when it began, the identity it has generated, whether it
has found the endpoint at its site, and whether an answer denied it something.
-/

namespace Rutilus.App.DispatchGates

open Rutilus.Domain Rutilus.Domain.User Rutilus.Lib Rutilus.Store
  Rutilus.App.CenterBoundary Rutilus.App.CenterDispatch
  Rutilus.App.CenterTracking Rutilus.App.CenterSystem

/-! ## Unknown outcomes -/

/-- Some queue holds an offer of an operation for a target. -/
def aimsAt (w : CenterSystem.World) (X : OperationId) (key : List Char) : Bool :=
  w.outbox.rows.any fun row => (offerFacts row.entry).any fun fact =>
    fact.operationId = X && canonicalTargetKey fact.target = key

/-- The center's operations on the endpoint and with the command of a request
that ended unknown and were offered for its target. -/
def unknownUnder (w : CenterSystem.World) (request : CenterOperationRequest) :
    List OperationId :=
  (w.operations.rows.filter fun row => row.source = .center &&
    row.state = .unknown &&
    row.targets.any (fun target => target.endpointId = request.endpointId) &&
    row.command = request.command &&
    aimsAt w row.id (canonicalTargetKey request.targetODataId)).map
      OperationRow.id

/-! ## The system -/

structure DispatchTask where
  request : CenterOperationRequest
  now : Instant
  blocked : Bool
  issued : Option OperationId
  routed : Bool
  denied : Bool
  rest : Prog center (Except CenterDispatchError DispatchedOperation)

structure State where
  world : CenterSystem.World
  owners : EndpointId → Option InstanceId
  bindings : InstanceId → Option CenterBindingState
  dispatches : List DispatchTask
  replies : List ReplyTask

def init : State :=
  ⟨⟨.empty, .empty, .empty, [], []⟩, fun _ => none, fun _ => none, [], []⟩

/-- A dispatch to the site is under way. -/
def State.gateHeld (s : State) (site : InstanceId) : Bool :=
  s.dispatches.any fun task => task.request.siteId = site

def State.isRevoked (s : State) (site : InstanceId) : Bool :=
  s.bindings site = some .revoked

/-- The identity a call hands out. -/
def issues : (q : CenterReq) → q.Resp → Option OperationId
  | .generateOperationId, operationId => some operationId
  | _, _ => none

/-- An answer that ends a dispatch: a refusal of the request, or a call that
failed. -/
def denies (request : CenterOperationRequest) : (q : CenterReq) → q.Resp → Bool
  | .findRoleAssignment _, .ok (some assignment) =>
      !allowsDispatch assignment.role assignment.siteId request.siteId
  | .findRoleAssignment _, _ => true
  | .findEndpointProjection _, .ok (some endpoint) =>
      endpoint.siteId ≠ some request.siteId
  | .findEndpointProjection _, _ => true
  | .hasResource .., .ok known => !known
  | .hasResource .., .error _ => true
  | .operations (.createOperation _), .error _ => true
  | .listOperationsForEndpoint .., .error _ => true
  | .outbox (.enqueue ..), .error _ => true
  | .outbox (.listPending ..), .error _ => true
  | .outbox (.findOfferByOperationAcrossInstances _), .error _ => true
  | .outbox (.acknowledge ..), .error _ => true
  | _, _ => false

/-- Identities are generated once, and the projection says whose the endpoint
is. -/
def State.allowed (s : State) (o : CenterSystem.Oracle) : CenterReq → Bool
  | .generateOperationId => s.world.isFresh o.operationId &&
      !s.dispatches.any fun task => task.issued = some o.operationId
  | .findEndpointProjection endpointId => match o.projection with
      | .ok endpoint =>
          endpoint = (s.owners endpointId).map fun site => ⟨some site⟩
      | .error _ => true
  | _ => true

inductive Label where
  | dispatch (request : CenterOperationRequest) (now : Instant)
  | dispatchCall (i : Nat) (o : CenterSystem.Oracle)
  | dispatchDone (i : Nat)
  | reply (site : InstanceId) (envelope : Envelope) (now : Instant)
  | replyCall (i : Nat) (o : CenterSystem.Oracle)
  | acknowledge (entryId : OutboxEntryId) (ackedAt : Instant)
  | report (endpointId : EndpointId) (site : InstanceId)
  | delete (endpointId : EndpointId) (site : InstanceId)
  | bind (site : InstanceId)
  | revoke (site : InstanceId)
  | crash

def beginDispatch (w : CenterSystem.World) (request : CenterOperationRequest)
    (now : Instant) : DispatchTask :=
  ⟨request, now, !(unknownUnder w request).isEmpty, none, false, false,
    (CenterDispatch.dispatch request now).run⟩

/-- The site an endpoint belongs to after a report; `none` where the report is
ignored. -/
def State.reported (s : State) (endpointId : EndpointId) (site : InstanceId) :
    Option State :=
  let claimed := { s with
    owners := Function.update s.owners endpointId (some site) }
  match s.owners endpointId with
  | none => some claimed
  | some owner =>
      if owner = site || s.isRevoked owner then some claimed else none

def State.deleted (s : State) (endpointId : EndpointId) (site : InstanceId) :
    Option State :=
  match s.owners endpointId with
  | none => none
  | some owner =>
      if owner = site || s.isRevoked owner then
        some { s with owners := Function.update s.owners endpointId none }
      else none

/-- One step; `none` where the label does not apply. -/
def next (s : State) : Label → Option State
  | .dispatch request now =>
      if s.bindings request.siteId = some .bound &&
          !s.gateHeld request.siteId then
        some { s with
          dispatches := s.dispatches ++ [beginDispatch s.world request now] }
      else none
  | .dispatchCall i o => match s.dispatches[i]? with
    | some ⟨request, now, blocked, issued, routed, denied, .call q k⟩ =>
        if s.allowed o q then
          let r := CenterSystem.perform (some request) o q s.world
          some { s with
            world := r.2
            dispatches := s.dispatches.set i ⟨request, now, blocked,
              (issues q r.1).or issued,
              routed || names request.siteId q r.1,
              denied || denies request q r.1, k r.1⟩ }
        else none
    | _ => none
  | .dispatchDone i => match s.dispatches[i]? with
    | some ⟨_, _, _, _, _, _, .ret _⟩ =>
        some { s with dispatches := s.dispatches.eraseIdx i }
    | _ => none
  | .reply site envelope now =>
      some { s with replies := s.replies ++
        [⟨site, envelope, now, false, (onReply site envelope now).run⟩] }
  | .replyCall i o => match s.replies[i]? with
    | some ⟨site, envelope, now, projected, .call q k⟩ =>
        if s.allowed o q then
          let r := CenterSystem.perform none o q s.world
          some { s with
            world := r.2
            replies := s.replies.set i ⟨site, envelope, now,
              projected || names site q r.1, k r.1⟩ }
        else none
    | _ => none
  | .acknowledge entryId ackedAt =>
      match ackOutboxEntry s.world.outbox entryId ackedAt with
      | .ok (_, outbox) => some { s with world := { s.world with outbox } }
      | .error _ => none
  | .report endpointId site => s.reported endpointId site
  | .delete endpointId site => s.deleted endpointId site
  | .bind site =>
      if s.isRevoked site then none
      else some { s with
        bindings := Function.update s.bindings site (some .bound) }
  | .revoke site =>
      if s.gateHeld site || (s.bindings site).isNone then none
      else some { s with
        bindings := Function.update s.bindings site (some .revoked) }
  | .crash => some { s with dispatches := [], replies := [] }

/-- A report takes an endpoint to another site than the one a dispatch under
way has found it at. -/
def State.uproots (s : State) : Label → Bool
  | .report endpointId site => s.dispatches.any fun task => task.routed &&
      task.request.endpointId = endpointId && task.request.siteId ≠ site
  | _ => false

end Rutilus.App.DispatchGates
