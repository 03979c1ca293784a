import Rutilus.App.CenterSync

/-!
# The site under offers

The three tables of the site with its one sync loop, which handles at most one
offer or report at a time, call by call. Between any two calls the rest of the
site moves: the drivers store steps of operations, operations of the site's own
are submitted, content is queued, queued envelopes are acknowledged. A call may
fail, and the process may crash at any point and lose everything but the tables.

A delivery brings the clock reading of its receipt and what its rechecks will
find. `accepts` is not part of the product: it records which deliveries had
their operation created, in order.
-/

namespace Rutilus.App.SyncSite

open Rutilus.Domain Rutilus.Lib Rutilus.Store Rutilus.App.CenterSync

/-- What the rechecks of one delivery find. -/
structure Reads where
  endpoint : Except Fault (Option Endpoint)
  capabilities : Except Fault (Option (List CapabilityLedgerEntry))
  credentials : Except Fault (List CredentialId)
  inventory : Except Fault (List InventoryItem)
  targetId : TargetId

def Reads.answer (reads : Reads) : (q : RecheckReq) → q.Resp
  | .findEndpoint _ => reads.endpoint
  | .capabilities _ => reads.capabilities
  | .listCredentials => reads.credentials
  | .inventory => reads.inventory
  | .generateTargetId => reads.targetId

/-- A report makes no rechecks. -/
def Reads.none : Reads :=
  ⟨.error .database, .error .database, .error .database, .error .database, ⟨0⟩⟩

/-- Whether every recheck of an offer passes. -/
def Reads.pass (reads : Reads) (offer : OperationOffer) (now : Instant) :
    Bool :=
  match reads.endpoint, offer.endpointId, offer.command, reads.capabilities,
      reads.credentials, reads.inventory with
  | .ok (some endpoint), some endpointId, some command, .ok entries,
      .ok credentials, .ok items =>
        capabilityUsable command entries &&
          credentials.contains endpoint.credentialId &&
          targetKnown offer.target endpointId items &&
          !decide (offer.expiresAt.getD (now - second) < now)
  | _, _, _, _, _, _ => false

/-- The memory of the running process. -/
structure Progress where
  lastProgress : List (OperationId × Option OperationState)
  discoveryDone : Bool

def Progress.start : Progress := ⟨[], false⟩

def Progress.remove (p : Progress) (operationId : OperationId) : Progress :=
  { p with lastProgress := p.lastProgress.filter fun e => e.1 ≠ operationId }

def runProgress : (q : ProgressReq) → Progress → q.Resp × Progress
  | .insert operationId state, p =>
      ((), ⟨(p.remove operationId).lastProgress ++ [(operationId, state)],
        p.discoveryDone⟩)
  | .forget operationId, p => ((), p.remove operationId)
  | .reported operationId, p =>
      ((p.lastProgress.find? fun e => e.1 = operationId).bind (·.2), p)
  | .known, p => (p.lastProgress.map (·.1), p)
  | .discoveryDone, p => (p.discoveryDone, p)
  | .finishDiscovery, p => ((), { p with discoveryDone := true })

structure World where
  operations : OperationTable
  inbox : InboxTable
  outbox : OutboxTable
  progress : Progress
  accepts : List (OperationId × OperationOffer)

/-- The choices of one call. -/
structure Oracle where
  fault : Option Fault
  clock : Instant
  entryId : OutboxEntryId

/-- The unit of work of the sync loop: one delivery, or one report. -/
structure Task where
  offer : Option OperationOffer
  reads : Reads
  rest : Prog sync Unit

def findFailureKind (t : OperationTable) (operationId : OperationId) :
    Option FailureKind :=
  (t.find operationId).bind OperationRow.failureKind

/-- The effect of one call on the tables. -/
def answer (reads : Reads) (o : Oracle) :
    (q : SyncReq) → World → q.Resp × World
  | .inbox q, w =>
      ((runInbox o.fault q w.inbox).1,
        { w with inbox := (runInbox o.fault q w.inbox).2 })
  | .operations q, w =>
      ((runOperationStore o.fault q w.operations).1,
        { w with operations := (runOperationStore o.fault q w.operations).2 })
  | .findFailureKind operationId, w => match o.fault with
    | some f => (.error (.fault f), w)
    | none => (.ok (findFailureKind w.operations operationId), w)
  | .outbox q, w =>
      ((runOutbox o.fault o.entryId q w.outbox).1,
        { w with outbox := (runOutbox o.fault o.entryId q w.outbox).2 })
  | .progress q, w =>
      ((runProgress q w.progress).1,
        { w with progress := (runProgress q w.progress).2 })
  | .recheck q, w => (reads.answer q, w)
  | .now, w => (o.clock, w)

/-- The delivery a landed creation belongs to. -/
def acceptOf (offer : Option OperationOffer) :
    (q : SyncReq) → q.Resp → List (OperationId × OperationOffer)
  | .operations (.createOperation operation), .ok () =>
      offer.toList.map fun offer => (operation.id, offer)
  | _, _ => []

/-- One call made by a task. -/
def perform (task : Task) (o : Oracle) (q : SyncReq) (w : World) :
    q.Resp × World :=
  let r := answer task.reads o q w
  (r.1, { r.2 with accepts := w.accepts ++ acceptOf task.offer q r.1 })

structure State where
  world : World
  task : Option Task

def init : State := ⟨⟨.empty, .empty, .empty, .start, []⟩, none⟩

/-- The program of a delivery or a report; its result is only logged. -/
def ofProgram {α : Type} (p : M α) : Prog sync Unit := do
  let _ ← p.run
  return ()

/-- The operation id of the offer under way. -/
def State.handled (s : State) : Option OperationId :=
  s.task.bind fun task => task.offer.bind OperationOffer.operationId

/-- An operation of the site's own, which no offer is about. -/
def World.isOwn (w : World) (operationId : OperationId) : Bool :=
  (w.operations.find operationId).any fun row => row.source ≠ .center

inductive Label where
  | deliver (received : Envelope) (now : Instant) (reads : Reads)
  | report
  | call (o : Oracle)
  | finish
  | crash
  | drive (operationId : OperationId) (newState : OperationState)
      (now : Instant)
  | classify (operationId : OperationId) (kind : FailureKind)
  | submit (id : OperationId) (source : OperationSource)
      (targets : List OperationTarget) (command : RedfishCommand)
      (createdAt : Instant)
  | queue (entryId : OutboxEntryId) (payload : Payload) (createdAt : Instant)
  | acknowledge (entryId : OutboxEntryId) (ackedAt : Instant)

/-- One step; `none` where the label does not apply. -/
def next (instanceId : InstanceId) (s : State) : Label → Option State
  | .deliver received now reads => match s.task, received.message with
    | none, some (.operationOffer offer) =>
        if offer.operationId.any s.world.isOwn then none
        else some { s with task := some ⟨some offer, reads,
          ofProgram (handleOffer instanceId offer received now)⟩ }
    | _, _ => none
  | .report => match s.task with
    | none => some { s with task := some ⟨none, .none,
        ofProgram (reportCenterOperations instanceId)⟩ }
    | some _ => none
  | .call o => match s.task with
    | some ⟨offer, reads, .call q k⟩ =>
        let r := perform ⟨offer, reads, .call q k⟩ o q s.world
        some ⟨r.2, some ⟨offer, reads, k r.1⟩⟩
    | _ => none
  | .finish => match s.task with
    | some ⟨_, _, .ret _⟩ => some { s with task := none }
    | _ => none
  | .crash => some ⟨{ s.world with progress := .start }, none⟩
  | .drive operationId newState now =>
      match applyTransition s.world.operations operationId newState now with
      | .ok operations => some { s with world := { s.world with operations } }
      | .error _ => none
  | .classify operationId kind =>
      match recordFailureKind s.world.operations operationId kind with
      | .ok operations => some { s with world := { s.world with operations } }
      | .error _ => none
  | .submit id source targets command createdAt =>
      -- a generated identity is none that an offer brought
      if source = .center ∨ s.world.operations.has id ∨ s.world.inbox.has id ∨
          s.handled = some id then none
      else match createOperation s.world.operations
          (.new id source targets command createdAt) with
        | .ok operations => some { s with world := { s.world with operations } }
        | .error _ => none
  | .queue entryId payload createdAt =>
      match Store.enqueueOutboxEntry s.world.outbox entryId instanceId
          (.content payload) createdAt with
      | .ok (_, outbox) => some { s with world := { s.world with outbox } }
      | .error _ => none
  | .acknowledge entryId ackedAt =>
      match ackOutboxEntry s.world.outbox entryId ackedAt with
      | .ok (_, outbox) => some { s with world := { s.world with outbox } }
      | .error _ => none

/-! ## Replies -/

/-- The message a row carries. -/
def messageOf (row : OutboxRow) : Option EnvelopeMessage :=
  row.entry.payload.bind Envelope.message

def isRejectionOf (operationId : OperationId) (row : OutboxRow) : Bool :=
  match messageOf row with
  | some (.operationRejected id _ _) => id = some operationId
  | _ => false

def isAcceptanceOf (operationId : OperationId) (row : OutboxRow) : Bool :=
  match messageOf row with
  | some (.operationAccepted id _) => id = some operationId
  | _ => false

/-- How many rejections of an operation were queued. -/
def World.rejections (w : World) (operationId : OperationId) : Nat :=
  w.outbox.rows.countP (isRejectionOf operationId)

/-- How many acceptances of an operation were queued. -/
def World.acceptances (w : World) (operationId : OperationId) : Nat :=
  w.outbox.rows.countP (isAcceptanceOf operationId)

/-- An offer that passes every recheck comes in while a rejection of its
operation is queued and its entry is still received: the rejection was
interrupted between its two writes. -/
def State.revives (s : State) : Label → Bool
  | .deliver ⟨_, _, some (.operationOffer offer)⟩ now reads =>
      offer.operationId.any fun X =>
        reads.pass offer now && 0 < s.world.rejections X &&
          inboxState s.world.inbox X = some .received
  | _ => false

end Rutilus.App.SyncSite
