import Mathlib.Algebra.GroupWithZero.Nat
import Rutilus.Domain.Event
import Rutilus.Lib.Prog
import Rutilus.Store.Artifacts
import Rutilus.Store.Events
import Rutilus.Store.Outbox

/-!
# The site reports its events and artifacts

A report round reads the cursor of its stream, lists what lies after it, queues
it in the outbox and only then moves the cursor. The event stream reports one
bounded batch a round. The artifact stream distributes every ready artifact
after the cursor, each as a manifest and its chunks, and moves the cursor once
at the end; a file that is missing, unreadable or not what the manifest says
stops the round without moving it.

A distribution first retires what earlier ones left in the queue. The file is
read by a task of its own that hands over one chunk after the other and checks
size and digest at the end; on any failure the entries queued so far are retired
again.
-/

namespace Rutilus.Report.SiteReports

open Rutilus.Domain Rutilus.Lib Rutilus.Store

/-! ## Reading a file -/

inductive IoErrorKind where
  | notFound
  | permissionDenied
  | isADirectory
  | other
  deriving DecidableEq, Repr

inductive ArtifactReadFailure where
  | io (source : IoErrorKind)
  | sizeMismatch (readBytes declaredBytes : Nat)
  | digestMismatch (expected actual : Digest)
  deriving DecidableEq, Repr

/-- The reader's loop: fill a buffer of `chunkBytes`, hand it over, and go on
unless the file ended in it. -/
def readChunks (chunkBytes : Nat) : Nat → Bytes → List Bytes
  | 0, _ => []
  | fuel + 1, rest =>
    let chunk := rest.take chunkBytes
    if chunk.isEmpty then []
    else if chunk.length < chunkBytes then [chunk]
    else chunk :: readChunks chunkBytes fuel (rest.drop chunkBytes)

/-- What the reading task hands over, and how it ends. `failure` is an error of
the file system and the number of chunks read before it. -/
def readArtifact (sha : Bytes → Digest) (file : Option Bytes)
    (declaredBytes : Nat) (expectedDigest : Digest) (chunkBytes : Nat)
    (failure : Option (Nat × IoErrorKind)) :
    List Bytes × Except ArtifactReadFailure Unit :=
  match file, failure with
  | none, _ => ([], .error (.io .notFound))
  | some _, some (0, kind) => ([], .error (.io kind))
  | some bytes, failure =>
    if bytes.length ≠ declaredBytes then
      ([], .error (.sizeMismatch bytes.length declaredBytes))
    else
      let chunks := readChunks chunkBytes (bytes.length + 1) bytes
      match failure with
      | some (read, kind) => (chunks.take read, .error (.io kind))
      | none =>
        let totalRead := (chunks.map List.length).sum
        if totalRead ≠ declaredBytes then
          (chunks, .error (.sizeMismatch totalRead declaredBytes))
        else if sha chunks.flatten ≠ expectedDigest then
          (chunks, .error (.digestMismatch expectedDigest (sha chunks.flatten)))
        else (chunks, .ok ())

/-! ## The boundary -/

structure Config where
  instanceId : InstanceId
  eventBatchLimit : Nat
  artifactChunkBytes : Nat
  deriving DecidableEq, Repr

/-- `completed` is no call of the product: it marks, for the runs, the point at
which a round notes an artifact as distributed. -/
inductive ReportReq where
  | now
  | outbox (q : OutboxReq)
  | readArtifact (artifactId : ArtifactId) (declaredBytes : Nat)
      (expectedDigest : Digest) (chunkBytes : Nat)
  | findArtifact (artifactId : ArtifactId)
  | listArtifactsByState (state : ArtifactState)
  | getArtifactCursor
  | setArtifactCursor (cursor : SyncCursor ArtifactId)
  | completed (artifactId : ArtifactId)
  | contains (eventId : EventId)
  | listAfter (after : EventId) (limit : Nat)
  | listRecent (limit : Nat)
  | getEventCursor
  | setEventCursor (cursor : SyncCursor EventId)

abbrev ReportReq.Resp : ReportReq → Type
  | .now => Instant
  | .outbox q => q.Resp
  | .readArtifact .. => List Bytes × Except ArtifactReadFailure Unit
  | .findArtifact _ => Except ArtifactRepositoryError (Option Artifact)
  | .listArtifactsByState _ => Except ArtifactRepositoryError (List Artifact)
  | .getArtifactCursor => Except Fault (Option (SyncCursor ArtifactId))
  | .setArtifactCursor _ => Except Fault Unit
  | .completed _ => Unit
  | .contains _ => Except EventRepositoryError Bool
  | .listAfter .. => Except EventRepositoryError (List Event)
  | .listRecent _ => Except EventRepositoryError (List Event)
  | .getEventCursor => Except Fault (Option (SyncCursor EventId))
  | .setEventCursor _ => Except Fault Unit

abbrev reportSig : Sig := ⟨ReportReq, ReportReq.Resp⟩

inductive ReportError where
  | cursor (source : Fault)
  | outbox (source : OutboxRepositoryError)
  | events (source : EventRepositoryError)
  | artifact (source : ArtifactRepositoryError)
  | invalidCursor (stream : SyncStream)
  | sequenceOverflow (sequence : Nat)
  | cancelled
  | artifactRead (artifactId : ArtifactId) (source : IoErrorKind)
  | artifactFileMissing (artifactId : ArtifactId)
  | artifactFileUnreadable (artifactId : ArtifactId) (source : IoErrorKind)
  | artifactSizeMismatch (artifactId : ArtifactId)
      (readBytes declaredBytes : Nat)
  | artifactDigestMismatch (artifactId : ArtifactId) (expected actual : Digest)
  deriving DecidableEq, Repr

abbrev M : Type → Type := ExceptT ReportError (Prog reportSig)

abbrev call (q : ReportReq) : Prog reportSig q.Resp := .call q .ret

def enqueueOutboxEntry (c : Config) (message : EnvelopeMessage) :
    M OutboxEntry := do
  let createdAt ← (call .now : Prog reportSig _)
  orThrow (call (.outbox (.enqueue c.instanceId message createdAt))) .outbox

/-! ## Distributing one artifact -/

def mapArtifactReadFailure (artifactId : ArtifactId) :
    ArtifactReadFailure → ReportError
  | .sizeMismatch readBytes declaredBytes =>
      .artifactSizeMismatch artifactId readBytes declaredBytes
  | .digestMismatch expected actual =>
      .artifactDigestMismatch artifactId expected actual
  | .io .notFound => .artifactFileMissing artifactId
  | .io .permissionDenied => .artifactFileUnreadable artifactId .permissionDenied
  | .io .isADirectory => .artifactFileUnreadable artifactId .isADirectory
  | .io .other => .artifactRead artifactId .other

/-- At most as many entries as one artifact has at this chunk size. -/
def artifactSetSizeBound (chunkBytes : Nat) : Nat :=
  (artifactMaxSizeBytes + chunkBytes - 1) / chunkBytes + 1

def entryCarriesArtifact (entry : OutboxEntry) (artifactId : ArtifactId) :
    Bool :=
  match entry.payload.bind Envelope.message with
  | some (.artifactManifest manifest) => manifest.artifactId = some artifactId
  | some (.artifactChunk chunk) => chunk.artifactId = some artifactId
  | _ => false

/-- Acknowledge entries one after the other. -/
def acknowledgeAll (now : Instant) : List OutboxEntryId → M Unit
  | [] => return ()
  | entryId :: entryIds => do
    orThrow (call (.outbox (.acknowledge entryId now))) .outbox
    acknowledgeAll now entryIds

/-- The scan repeats while it finds something in a full window. A round may be
cancelled at any call; one that outlasts its `passes` is. -/
def retirePasses (c : Config) (artifactId : ArtifactId) (now : Instant) :
    Nat → M Unit
  | 0 => throw .cancelled
  | passes + 1 => do
    let bound := artifactSetSizeBound c.artifactChunkBytes
    let pending ← orThrow (call (.outbox (.listPending c.instanceId bound)))
      .outbox
    let stale := pending.filter fun entry => entryCarriesArtifact entry artifactId
    acknowledgeAll now (stale.map OutboxEntry.id)
    if stale.isEmpty ∨ pending.length < bound then return ()
    else retirePasses c artifactId now passes

def retirePendingArtifactEntries (c : Config) (passes : Nat)
    (artifactId : ArtifactId) : M Unit := do
  let now ← (call .now : Prog reportSig _)
  retirePasses c artifactId now passes

def manifestOf (artifact : Artifact) : EnvelopeMessage :=
  .artifactManifest
    { artifactId := some artifact.id, name := artifact.name
      totalBytes := artifact.sizeBytes, sha256 := artifact.sha256 }

def maxU32 : Nat := 4294967295

/-- Queue the chunks from an index on. The ledger of queued entries survives a
failure. -/
def enqueueChunks (c : Config) (artifactId : ArtifactId)
    (ledger : List OutboxEntryId) :
    Nat → List Bytes →
      Prog reportSig (List OutboxEntryId × Except ReportError Unit)
  | _, [] => return (ledger, .ok ())
  | index, data :: chunks =>
    if maxU32 < index then
      return (ledger, .error (.sequenceOverflow index))
    else do
      match ← (enqueueOutboxEntry c (.artifactChunk
          { artifactId := some artifactId, index, data })).run with
      | .error e => return (ledger, .error e)
      | .ok entry =>
        enqueueChunks c artifactId (ledger ++ [entry.id]) (index + 1) chunks

/-- The manifest goes first, once a chunk was read; the reader's own end comes
last. -/
def enqueueSet (c : Config) (artifact : Artifact) (chunks : List Bytes)
    (result : Except ArtifactReadFailure Unit) :
    Prog reportSig (List OutboxEntryId × Except ReportError Unit) :=
  let result := result.mapError (mapArtifactReadFailure artifact.id)
  match chunks with
  | [] => return ([], result)
  | _ :: _ => do
    match ← (enqueueOutboxEntry c (manifestOf artifact)).run with
    | .error e => return ([], .error e)
    | .ok manifest =>
      let (ledger, outcome) ←
        enqueueChunks c artifact.id [manifest.id] 0 chunks
      return (ledger, do outcome; result)

def distributeArtifact (c : Config) (passes : Nat) (artifact : Artifact) :
    M Unit := do
  retirePendingArtifactEntries c passes artifact.id
  let (chunks, result) ← (call (.readArtifact artifact.id artifact.sizeBytes
    artifact.sha256 c.artifactChunkBytes) : Prog reportSig _)
  let (ledger, outcome) ← (enqueueSet c artifact chunks result :
    Prog reportSig _)
  match outcome with
  | .ok () => return ()
  | .error e =>
    if !ledger.isEmpty then
      let now ← (call .now : Prog reportSig _)
      acknowledgeAll now ledger
    throw e

/-! ## The artifact stream -/

inductive ArtifactStreamOutcome where
  | complete
  | stalled (artifactId : ArtifactId)
  deriving DecidableEq, Repr

/-- The failures that cannot heal within a round. -/
def isPersistent : ReportError → Bool
  | .artifactFileMissing _ | .artifactSizeMismatch .. |
    .artifactDigestMismatch .. | .artifactFileUnreadable .. => true
  | _ => false

/-- Whether an artifact lies after the anchor of the cursor, given by its
creation time and identity. -/
def afterAnchor (anchor : Option (Instant × ArtifactId)) (artifact : Artifact) :
    Bool :=
  match anchor with
  | none => true
  | some (createdAt, id) => createdAt < artifact.createdAt ∨
      artifact.createdAt = createdAt ∧ id.uuid < artifact.id.uuid

/-- The anchor a cursor stands for; a cursor that does not parse and an artifact
that is gone both reset the stream. -/
def anchorOf (cursor : Option (SyncCursor ArtifactId)) :
    M (Option (Instant × ArtifactId)) :=
  match cursor.bind SyncCursor.cursorValue with
  | none => return none
  | some id => do
    match ← orThrow (call (.findArtifact id)) .artifact with
    | none => return none
    | some artifact => return some (artifact.createdAt, id)

/-- The loop of a round: the newest distributed artifact, or the one the stream
stopped at. -/
def distributeAll (c : Config) (passes : Nat) :
    Option ArtifactId → List Artifact →
      M (Option ArtifactId ⊕ ArtifactId)
  | newest, [] => return .inl newest
  | _, artifact :: artifacts => do
    match ← ExceptT.lift (distributeArtifact c passes artifact).run with
    | .error e => if isPersistent e then return .inr artifact.id else throw e
    | .ok () =>
      (call (.completed artifact.id) : Prog reportSig _)
      distributeAll c passes (some artifact.id) artifacts

def reportArtifacts (c : Config) (passes : Nat) : M ArtifactStreamOutcome := do
  let cursor ← orThrow (call .getArtifactCursor) .cursor
  let anchor ← anchorOf cursor
  let ready ← orThrow (call (.listArtifactsByState .ready)) .artifact
  match ← distributeAll c passes none (ready.filter (afterAnchor anchor)) with
  | .inr artifactId => return .stalled artifactId
  | .inl none => return .complete
  | .inl (some newest) =>
    let now ← (call .now : Prog reportSig _)
    orThrow (call (.setArtifactCursor
      ⟨c.instanceId, .artifact, some newest, now⟩)) .cursor
    return .complete

/-! ## The event stream -/

def wireSeverity : EventSeverity → WireEventSeverity
  | .ok => .ok
  | .warning => .warning
  | .critical => .critical

/-- The record of an event on the wire: its time in whole seconds. -/
def recordOf (event : Event) : EventRecord :=
  { eventId := some event.id
    messageId := event.messageId.text
    severity := wireSeverity event.severity
    target := ""
    occurredAtUnix := event.eventTimestamp.unixTimestamp
    payloadJson := []
    endpointId := some event.endpointId }

/-- The events of a round and the identity the cursor moves to. Without a
usable anchor it is the bounded tail, newest first. -/
def selectEvents (c : Config) (cursor : Option (SyncCursor EventId)) :
    M (List Event × Option EventId) :=
  let recent : M (List Event × Option EventId) := do
    let events ← orThrow (call (.listRecent c.eventBatchLimit)) .events
    return (events, events.head?.map Event.id)
  match cursor.bind SyncCursor.cursorValue with
  | none => recent
  | some anchor => do
    if ← orThrow (call (.contains anchor)) .events then
      let events ← orThrow (call (.listAfter anchor c.eventBatchLimit)) .events
      return (events, events.getLast?.map Event.id)
    else recent

def reportEventBatch (c : Config) : M Unit := do
  let cursor ← orThrow (call .getEventCursor) .cursor
  let (events, newestId) ← selectEvents c cursor
  if events.isEmpty then return ()
  let _ ← enqueueOutboxEntry c (.eventBatch (events.map recordOf))
  let now ← (call .now : Prog reportSig _)
  match newestId with
  | none => throw (.invalidCursor .event)
  | some newest =>
    orThrow (call (.setEventCursor
      ⟨c.instanceId, .event, some newest, now⟩)) .cursor

end Rutilus.Report.SiteReports
