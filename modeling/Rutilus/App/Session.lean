import Rutilus.Lib.Prog
import Rutilus.Store.Outbox

/-!
# A site and its center on a connection

The site's side of the connection is a loop: flush the queue, then handle one
received frame after the other. Its calls are the listing and the
acknowledgement of queued rows and the sending of a frame; what it has sent on
this connection and not yet seen acknowledged is its variable `sent`. The
center's side takes one frame after the other, hands a content frame to its
consumer and, once that returns, sends an acknowledgement with the frame's
sequence.

A connection carries frames in order in both directions. Either side may leave
it at any point, and the site may be on a new one while the center still works
through an old one. Meanwhile reports and replies are queued, and a superseded
artifact transfer is retired; handling an offer is such work too.

`Link.sent` and `Link.handed` are not part of the product: they remember the
entries a connection ever sent, and those the center was handed.
-/

namespace Rutilus.App.Session

open Rutilus.Domain Rutilus.Lib Rutilus.Store

/-- Entries with their sequences, in the order they were sent. -/
abbrev Sent : Type := List (OutboxEntryId × Int)

inductive LinkReq where
  | listPending (instanceId : InstanceId) (limit : Nat)
  | acknowledge (entryId : OutboxEntryId) (ackedAt : Instant)
  | send (entryId : OutboxEntryId) (envelope : Envelope)

inductive TransportError where
  | closed
  deriving DecidableEq, Repr

abbrev LinkReq.Resp : LinkReq → Type
  | .listPending .. => Except OutboxRepositoryError (List OutboxEntry)
  | .acknowledge .. => Except OutboxRepositoryError Unit
  | .send .. => Except TransportError Unit

abbrev linkSig : Sig := ⟨LinkReq, LinkReq.Resp⟩

inductive SyncError where
  | transport (source : TransportError)
  | outbox (source : OutboxRepositoryError)
  | sequenceOverflow (sequence : Int)
  deriving DecidableEq, Repr

abbrev M : Type → Type := ExceptT SyncError (Prog linkSig)

abbrev call (q : LinkReq) : Prog linkSig q.Resp := .call q .ret

/-! ## The site's loop -/

/-- Which queue is flushed, and how many rows at once. -/
structure Config where
  instanceId : InstanceId
  flushLimit : Nat

/-- Send the listed entries; a row that no longer parses or whose sequence
cannot be sent is passed over, and so is one that is on its way already. -/
def flushEntries (peerAcked : Nat) : Sent → List OutboxEntry → M Sent
  | sent, [] => return sent
  | sent, entry :: entries =>
    if sent.any (fun p => p.1 = entry.id) then
      flushEntries peerAcked sent entries
    else match entry.payload with
      | none => flushEntries peerAcked sent entries
      | some envelope =>
        if entry.sequence < 0 then flushEntries peerAcked sent entries
        else do
          orThrow (call (.send entry.id { envelope with
            sequence := entry.sequence.toNat
            ackedSequence := peerAcked })) .transport
          flushEntries peerAcked (sent ++ [(entry.id, entry.sequence)]) entries

def flushOutbox (c : Config) (peerAcked : Nat) (sent : Sent) : M Sent := do
  let pending ← orThrow (call (.listPending c.instanceId c.flushLimit)) .outbox
  flushEntries peerAcked sent pending

/-- The acknowledgement is cumulative: the head goes as long as it is covered. -/
def ackOutbox (ackedSequence : Nat) (now : Instant) : Sent → M Sent
  | [] => return []
  | (entryId, sequence) :: sent =>
    if sequence < 0 then throw (.sequenceOverflow sequence)
    else if ackedSequence < sequence.toNat then
      return (entryId, sequence) :: sent
    else do
      orThrow (call (.acknowledge entryId now)) .outbox
      ackOutbox ackedSequence now sent

/-- One received frame. The reply to an offer is queued by then. -/
def handleFrame (c : Config) (peerAcked : Nat) (envelope : Envelope)
    (now : Instant) (sent : Sent) : M Sent :=
  match envelope.message with
  | some (.ack sequence) => do
    let sent ← ackOutbox sequence now sent
    flushOutbox c peerAcked sent
  | some (.operationOffer _) => flushOutbox c peerAcked sent
  | _ => return sent

/-! ## The connection -/

/-- A connection. `up` are the frames on their way to the center, each with the
entry it was built from; `down` those on their way to the site. -/
structure Link where
  sent : Sent
  up : List (Option OutboxEntryId × Envelope)
  handed : Sent
  processing : Option Envelope
  peerAcked : Nat
  down : List Envelope
  isOpen : Bool

def Link.new : Link := ⟨[], [], [], none, 0, [], true⟩

/-- What a call does; a frame whose sending fails may have left all the same. -/
def perform (fault : Option Fault) (lost : Bool) :
    (q : LinkReq) → OutboxTable × Link → q.Resp × (OutboxTable × Link)
  | .listPending instanceId limit, v =>
      let r := runOutbox fault ⟨0⟩ (.listPending instanceId limit) v.1
      (r.1, (r.2, v.2))
  | .acknowledge entryId ackedAt, v =>
      let r := runOutbox fault ⟨0⟩ (.acknowledge entryId ackedAt) v.1
      (r.1, (r.2, v.2))
  | .send entryId envelope, v =>
      let sending := { v.2 with
        sent := v.2.sent ++ [(entryId, (envelope.sequence : Int))]
        up := v.2.up ++ [(some entryId, envelope)] }
      match fault, lost with
      | none, _ => (.ok (), (v.1, sending))
      | some _, false => (.error .closed, (v.1, sending))
      | some _, true => (.error .closed, v)

/-- Whether the center hands a frame to its consumer. -/
def isContent (envelope : Envelope) : Bool :=
  match envelope.message with
  | some (.ack _) => false
  | some (.heartbeat _) => false
  | some _ => true
  | none => false

/-- One frame at the center; `none` is an entry the frame was not built from. -/
def Link.receive (link : Link) : Option Link :=
  match link.isOpen, link.processing, link.up with
  | true, none, (entryId, envelope) :: up =>
      let taken := { link with
        up, peerAcked := max link.peerAcked envelope.sequence }
      if isContent envelope then
        some { taken with
          processing := some envelope
          handed := link.handed ++ (entryId.toList.map fun entryId =>
            (entryId, (envelope.sequence : Int))) }
      else some taken
  | _, _, _ => none

/-- The consumer returned; the acknowledgement follows. -/
def Link.confirm (link : Link) : Option Link :=
  match link.isOpen, link.processing with
  | true, some envelope => some { link with
      processing := none
      down := link.down ++
        [⟨0, link.peerAcked, some (.ack envelope.sequence)⟩] }
  | _, _ => none

/-! ## The system -/

/-- The site's loop on a connection. -/
structure SiteLoop where
  link : Nat
  peerAcked : Nat
  rest : Prog linkSig (Except SyncError Sent)

structure State where
  outbox : OutboxTable
  site : Option SiteLoop
  links : List Link

inductive Label where
  | connect
  | siteCall (fault : Option Fault) (lost : Bool)
  | siteReceive (now : Instant)
  | heartbeat (now : Instant)
  | siteEnd
  | centerReceive (i : Nat)
  | centerConfirm (i : Nat)
  | centerSend (i : Nat) (envelope : Envelope)
  | centerEnd (i : Nat)
  | work (fault : Option Fault) (entryId : OutboxEntryId) (q : OutboxReq)
  | retire (entryId : OutboxEntryId) (now : Instant)

/-- What the site queues: replies and reports. -/
def isReport : EnvelopeMessage → Bool
  | .operationAccepted .. => true
  | .operationRejected .. => true
  | .operationProgress .. => true
  | .operationCompleted .. => true
  | .endpointSnapshot _ => true
  | .resourceDelta _ => true
  | .eventBatch _ => true
  | .artifactManifest _ => true
  | .artifactChunk _ => true
  | _ => false

/-- The other work at the queue: everything but acknowledgements, with new
identities. -/
def isWork (s : State) (entryId : OutboxEntryId) : OutboxReq → Bool
  | .enqueue _ message _ => isReport message &&
      !s.links.any fun link => link.sent.any fun p => p.1 = entryId
  | .acknowledge .. => false
  | _ => true

/-- A pending frame of an artifact transfer. -/
def isArtifactFrame (row : OutboxRow) : Bool :=
  row.entry.state = .pending &&
    match row.entry.payload with
    | some ⟨_, _, some (.artifactManifest _)⟩ => true
    | some ⟨_, _, some (.artifactChunk _)⟩ => true
    | _ => false

/-- The frames of the center other than acknowledgements. -/
def isAck (envelope : Envelope) : Bool :=
  match envelope.message with
  | some (.ack _) => true
  | _ => false

def setLink (s : State) (i : Nat) (link : Option Link) : Option State :=
  link.map fun link => { s with links := s.links.set i link }

/-- One step; `none` where the label does not apply. -/
def next (c : Config) (s : State) : Label → Option State
  | .connect => match s.site with
    | none => some { s with
        site := some ⟨s.links.length, 0, (flushOutbox c 0 []).run⟩
        links := s.links ++ [.new] }
    | some _ => none
  | .siteCall fault lost => match s.site with
    | some ⟨i, peerAcked, .call q k⟩ => s.links[i]?.map fun link =>
        let r := perform fault lost q (s.outbox, link)
        { s with
          outbox := r.2.1
          site := some ⟨i, peerAcked, k r.1⟩
          links := s.links.set i r.2.2 }
    | _ => none
  | .siteReceive now => match s.site with
    | some ⟨i, peerAcked, .ret (.ok sent)⟩ => s.links[i]?.bind fun link =>
        match link.down with
        | [] => none
        | envelope :: down =>
            let peerAcked := max peerAcked envelope.sequence
            some { s with
              site := some ⟨i, peerAcked,
                (handleFrame c peerAcked envelope now sent).run⟩
              links := s.links.set i { link with down } }
    | _ => none
  | .heartbeat now => match s.site with
    | some ⟨i, peerAcked, .ret (.ok _)⟩ =>
        setLink s i (s.links[i]?.map fun link => { link with
          up := link.up ++ [(none, ⟨0, peerAcked, some (.heartbeat now)⟩)] })
    | _ => none
  | .siteEnd => some { s with site := none }
  | .centerReceive i => setLink s i (s.links[i]?.bind Link.receive)
  | .centerConfirm i => setLink s i (s.links[i]?.bind Link.confirm)
  | .centerSend i envelope =>
      if isAck envelope then none
      else setLink s i (s.links[i]?.map fun link =>
        { link with down := link.down ++ [envelope] })
  | .centerEnd i => setLink s i (s.links[i]?.map fun link =>
      { link with isOpen := false })
  | .work fault entryId q =>
      if isWork s entryId q then
        some { s with outbox := (runOutbox fault entryId q s.outbox).2 }
      else none
  | .retire entryId now =>
      if (s.outbox.find entryId).any isArtifactFrame then
        match ackOutboxEntry s.outbox entryId now with
        | .ok (_, outbox) => some { s with outbox }
        | .error _ => none
      else none

/-- A queue to start from: sequences are not repeated within an instance, and
every row that still parses is a reply or a report. -/
def start (s : State) : Prop :=
  s.site = none ∧ s.links = [] ∧
    (∀ a ∈ s.outbox.rows, ∀ b ∈ s.outbox.rows,
      a.entry.instanceId = b.entry.instanceId →
        a.entry.sequence = b.entry.sequence → a.id = b.id) ∧
    ∀ row ∈ s.outbox.rows, ∀ envelope, row.entry.payload = some envelope →
      envelope.message.any isReport = true

end Rutilus.App.Session

/-!
## The center's side of a connection

The center's loop mirrors the site's: it flushes the queue of the site, takes
one frame after the other and flushes again after each. Content goes to the
consumer and is acknowledged once that returns. An acknowledgement comes as a
frame of its own and also as a number on every frame; both retire queued
entries.

A queued offer is sent while it has not expired. An expired one is retired
instead, since the site would refuse it; an offer whose expiry does not parse
counts as expired since 1970. Before each frame the loop asks the registry
whether this connection is still the current one of its site.
-/

namespace Rutilus.App.CenterSession

open Rutilus.Domain Rutilus.Lib Rutilus.Store
open Rutilus.App.Session (Sent TransportError Config isContent)

/-- `send` carries the entry its frame was built from, if any. -/
inductive SessionReq where
  | now
  | isCurrent
  | listPending (instanceId : InstanceId) (limit : Nat)
  | acknowledge (entryId : OutboxEntryId) (ackedAt : Instant)
  | send (entryId : Option OutboxEntryId) (envelope : Envelope)
  | onFrame (envelope : Envelope) (receivedAt : Instant)

inductive ConsumerError where
  | failed
  deriving DecidableEq, Repr

abbrev SessionReq.Resp : SessionReq → Type
  | .now => Instant
  | .isCurrent => Bool
  | .listPending .. => Except OutboxRepositoryError (List OutboxEntry)
  | .acknowledge .. => Except OutboxRepositoryError Unit
  | .send .. => Except TransportError Unit
  | .onFrame .. => Except ConsumerError Unit

abbrev sessionSig : Sig := ⟨SessionReq, SessionReq.Resp⟩

inductive CenterInboundEngineError where
  | transport (source : TransportError)
  | outbox (source : OutboxRepositoryError)
  | consumer (source : ConsumerError)
  deriving DecidableEq, Repr

abbrev M : Type → Type := ExceptT CenterInboundEngineError (Prog sessionSig)

abbrev call (q : SessionReq) : Prog sessionSig q.Resp := .call q .ret

/-- When an offer expires; other messages do not. -/
def offerExpiry : EnvelopeMessage → Option Instant
  | .operationOffer offer => some (offer.expiresAt.getD 0)
  | _ => none

/-- Send the listed entries, while the connection is current. -/
def flushEntries (peerAcked : Nat) (now : Instant) :
    Sent → List OutboxEntry → M Sent
  | sent, [] => return sent
  | sent, entry :: entries => do
    if !(← (liftM (call .isCurrent) : M Bool)) then return sent
    else if sent.any (fun p => p.1 = entry.id) then
      flushEntries peerAcked now sent entries
    else match entry.payload with
      | none => flushEntries peerAcked now sent entries
      | some envelope =>
        if entry.sequence < 0 then flushEntries peerAcked now sent entries
        else match envelope.message with
          | none => flushEntries peerAcked now sent entries
          | some message =>
            if (offerExpiry message).any fun expiresAt => expiresAt < now then do
              orThrow (call (.acknowledge entry.id now)) .outbox
              flushEntries peerAcked now sent entries
            else do
              orThrow (call (.send (some entry.id) { envelope with
                sequence := entry.sequence.toNat
                ackedSequence := peerAcked })) .transport
              flushEntries peerAcked now (sent ++ [(entry.id, entry.sequence)])
                entries

def flushOutbox (c : Config) (peerAcked : Nat) (sent : Sent) : M Sent := do
  let pending ← orThrow (call (.listPending c.instanceId c.flushLimit)) .outbox
  let now ← (liftM (call .now) : M Instant)
  flushEntries peerAcked now sent pending

/-- The head goes as long as it is covered; one that was never wireable goes
without a word. -/
def ackEntries (ackedSequence : Nat) (now : Instant) : Sent → M Sent
  | [] => return []
  | (entryId, sequence) :: sent =>
    if sequence < 0 then ackEntries ackedSequence now sent
    else if ackedSequence < sequence.toNat then
      return (entryId, sequence) :: sent
    else do
      orThrow (call (.acknowledge entryId now)) .outbox
      ackEntries ackedSequence now sent

def ackOutbox (ackedSequence : Nat) (sent : Sent) : M Sent := do
  let now ← (liftM (call .now) : M Instant)
  ackEntries ackedSequence now sent

/-- What the message of a frame asks for. -/
def handleMessage (envelope : Envelope) (now : Instant) (sent : Sent) :
    M Sent :=
  match envelope.message with
  | some (.ack sequence) => ackOutbox sequence sent
  | some (.heartbeat _) => return sent
  | none => return sent
  | some _ => do
    orThrow (call (.onFrame envelope now)) .consumer
    return sent

/-- One received frame. -/
def handleFrame (c : Config) (peerAcked : Nat) (envelope : Envelope)
    (sent : Sent) : M Sent := do
  let now ← (liftM (call .now) : M Instant)
  let sent ← handleMessage envelope now sent
  let sent ← ackOutbox envelope.ackedSequence sent
  if isContent envelope then
    orThrow (call (.send none
      ⟨0, peerAcked, some (.ack envelope.sequence)⟩)) .transport
  flushOutbox c peerAcked sent

end Rutilus.App.CenterSession
