import Rutilus.Domain.Center
import Rutilus.Domain.Event
import Rutilus.Lib.Prog
import Rutilus.Store.Events
import Rutilus.Store.Projection

/-!
# The center consumes a report

One content frame of a site: an endpoint, a resource change, a batch of events,
or a piece of an artifact. Every consumer first compares the frame's sequence
with the cursor of its stream, then decodes the frame, then writes, and then
advances the cursor. A frame that cannot be decoded, and a write the store
refuses as a conflict, are logged and passed over: the cursor advances. Only a
failing boundary leaves the cursor where it is, and the frame comes again.

Neither the writes nor the cursor share a transaction, so the center may stop
between any two calls.
-/

namespace Rutilus.Report.CenterProjection

open Rutilus.Domain Rutilus.Lib Rutilus.Store

/-! ## The boundary -/

inductive ProjectionReq where
  | getCursor (site : InstanceId) (stream : SyncStream)
  | setCursor (cursor : SyncCursor Nat)
  | upsertEndpoint (projection : EndpointProjectionWrite) (site : InstanceId)
      (now : Instant)
  | deleteEndpoint (endpointId : EndpointId) (site : InstanceId)
  | upsertResource (projection : ResourceProjectionWrite) (site : InstanceId)
      (now : Instant)
  | deleteResource (endpointId : EndpointId) (odataId : String)
      (site : InstanceId)
  | findEndpointProjections (endpointIds : List EndpointId)
  | generateEventId
  | upsertEvents (events : List Event) (site : InstanceId)
  | declareArtifact (artifact : Artifact) (site : InstanceId)
  | findArtifact (artifactId : ArtifactId)
  | findArtifactSite (artifactId : ArtifactId)
  | updateArtifact (artifactId : ArtifactId) (uploadedBytes : Nat)
      (state : ArtifactState) (now : Instant)
  | writeChunkAt (artifactId : ArtifactId) (offset : Nat) (data : Bytes)
  | hashArtifactFile (artifactId : ArtifactId)

/-- The projected endpoints among those asked for, each with its owner. -/
abbrev Owners : Type := List (EndpointId × Option InstanceId)

abbrev ProjectionReq.Resp : ProjectionReq → Type
  | .getCursor .. => Except Fault (Option (SyncCursor Nat))
  | .setCursor _ => Except Fault Unit
  | .upsertEndpoint .. => Except ProjectionRepositoryError ProjectionWriteOutcome
  | .deleteEndpoint .. => Except ProjectionRepositoryError ProjectionWriteOutcome
  | .upsertResource .. => Except ProjectionRepositoryError ProjectionWriteOutcome
  | .deleteResource .. => Except ProjectionRepositoryError ProjectionWriteOutcome
  | .findEndpointProjections _ => Except ProjectionRepositoryError Owners
  | .generateEventId => EventId
  | .upsertEvents .. => Except ProjectionRepositoryError Unit
  | .declareArtifact .. => Except ProjectionRepositoryError Unit
  | .findArtifact _ => Except ArtifactRepositoryError (Option Artifact)
  | .findArtifactSite _ => Except ProjectionRepositoryError (Option InstanceId)
  | .updateArtifact .. => Except ArtifactRepositoryError Unit
  | .writeChunkAt .. => Except Fault Unit
  | .hashArtifactFile _ => Except Fault Digest

abbrev projectionSig : Sig := ⟨ProjectionReq, ProjectionReq.Resp⟩

inductive CenterProjectionError where
  | projection (source : ProjectionRepositoryError)
  | artifact (source : ArtifactRepositoryError)
  | artifactFile (artifactId : ArtifactId) (source : Option Fault)
  | cursor (source : Fault)
  deriving DecidableEq, Repr

abbrev M : Type → Type := ExceptT CenterProjectionError (Prog projectionSig)

abbrev call (q : ProjectionReq) : Prog projectionSig q.Resp := .call q .ret

/-! ## Cursors -/

/-- Whether a frame is new for its stream. A missing cursor and one that does
not parse both let the frame through. -/
def passesCursor (site : InstanceId) (stream : SyncStream) (sequence : Nat) :
    M Bool := do
  match ← orThrow (call (.getCursor site stream)) .cursor with
  | none => return true
  | some cursor => match cursor.cursorValue with
    | none => return true
    | some processed => return processed < sequence

def advanceCursor (site : InstanceId) (stream : SyncStream) (sequence : Nat)
    (now : Instant) : M Unit :=
  orThrow (call (.setCursor ⟨site, stream, some sequence, now⟩)) .cursor

/-- The reason goes to the log. -/
def absorbFrame (site : InstanceId) (sequence : Nat) (stream : SyncStream)
    (now : Instant) (_reason : String) : M Unit :=
  advanceCursor site stream sequence now

def settleOutcome (_outcome : ProjectionWriteOutcome) (site : InstanceId)
    (sequence : Nat) (stream : SyncStream) (now : Instant) : M Unit :=
  advanceCursor site stream sequence now

/-! ## Endpoints and resources -/

def decodeEndpoint (snapshot : EndpointSnapshot) :
    Except String EndpointProjectionWrite := do
  let some endpointId := snapshot.endpointId
    | .error "unparseable endpoint id"
  let trustMode ← match snapshot.trust with
    | .systemCa => pure CenterTrustMode.systemCa
    | .pinnedCertificate => pure .pinnedCertificate
    | .unspecified | .unknown => .error "unspecified or unknown trust mode"
  return { endpointId, displayName := snapshot.displayName
           address := snapshot.address, trustMode
           refreshGeneration := snapshot.refreshGeneration
           health := snapshot.health }

inductive DecodedDelta where
  | deleteEndpoint (endpointId : EndpointId)
  | deleteResource (endpointId : EndpointId) (odataId : String)
  | upsertResource (projection : ResourceProjectionWrite)
  deriving DecidableEq, Repr

/-- An empty text of the wire is an absent value. -/
def nonEmpty (text : String) : Option String :=
  if text.isEmpty then none else some text

def decodeResource (endpointId : EndpointId) (resource : ResourceSummary)
    (delta : ResourceDelta) : Except String ResourceProjectionWrite := do
  let some feature := resource.feature
    | .error "unknown resource feature code"
  let some payload := delta.payloadJson
    | .error "resource payload is not valid UTF-8"
  let some observedAt :=
      OffsetDateTime.fromUnixTimestamp delta.observedAtUnix
    | .error "unparseable observation timestamp"
  return { endpointId, odataId := resource.odataId, feature
           odataType := nonEmpty resource.odataType
           etag := nonEmpty resource.etag
           generation := resource.generation
           payload := some payload
           observedAt := observedAt.instant }

def decodeDelta (delta : ResourceDelta) : Except String DecodedDelta := do
  let some endpointId := delta.endpointId
    | .error "unparseable endpoint id"
  match delta.op, delta.resource with
  | .delete, none => return .deleteEndpoint endpointId
  | .delete, some resource =>
      return .deleteResource endpointId resource.odataId
  | .upsert, some resource =>
      return .upsertResource (← decodeResource endpointId resource delta)
  | .upsert, none => .error "an upsert delta must carry its resource"
  | .unspecified, _ => .error "unspecified delta operation"
  | .unknown, _ => .error "unknown delta operation code"

def consumeEndpoint (site : InstanceId) (sequence : Nat)
    (snapshot : EndpointSnapshot) (now : Instant) : M Unit := do
  if !(← passesCursor site .endpoint sequence) then return ()
  match decodeEndpoint snapshot with
  | .error reason => absorbFrame site sequence .endpoint now reason
  | .ok projection =>
    let outcome ← orThrow (call (.upsertEndpoint projection site now))
      .projection
    settleOutcome outcome site sequence .endpoint now

/-- The store write of a decoded delta. -/
def writeDelta (decoded : DecodedDelta) (site : InstanceId) (now : Instant) :
    M ProjectionWriteOutcome :=
  match decoded with
  | .deleteEndpoint endpointId =>
      orThrow (call (.deleteEndpoint endpointId site)) .projection
  | .deleteResource endpointId odataId =>
      orThrow (call (.deleteResource endpointId odataId site)) .projection
  | .upsertResource projection =>
      orThrow (call (.upsertResource projection site now)) .projection

def consumeResourceDelta (site : InstanceId) (sequence : Nat)
    (delta : ResourceDelta) (now : Instant) : M Unit := do
  if !(← passesCursor site .endpoint sequence) then return ()
  match decodeDelta delta with
  | .error reason => absorbFrame site sequence .endpoint now reason
  | .ok decoded =>
    let outcome ← writeDelta decoded site now
    settleOutcome outcome site sequence .endpoint now

/-! ## Events -/

def centerAbsorbedEventMessageId : String := "Center.1.0.EventAbsorbed"

/-- The namespace of the center's own rows. -/
def isReserved (messageId : MessageId) : Bool :=
  "Center.".toList.isPrefixOf messageId.text.toList

def decodeEvent (record : EventRecord) (now : Instant) :
    Except String Event := do
  let some id := record.eventId | .error "unparseable event id"
  let some endpointId := record.endpointId
    | .error "unparseable endpoint id"
  let messageId ← (MessageId.parse record.messageId).mapError
    fun _ => "unusable message id"
  if isReserved messageId then
    .error "reserved message id namespace"
  let severity ← match record.severity with
    | .ok => pure EventSeverity.ok
    | .warning => pure .warning
    | .critical => pure .critical
    | .unspecified | .unknown => .error "unspecified or unknown severity"
  let some eventTimestamp :=
      OffsetDateTime.fromUnixTimestamp record.occurredAtUnix
    | .error "unparseable occurrence timestamp"
  (Event.new id endpointId messageId severity none eventTimestamp now).mapError
    fun _ => "event timestamp is after the receive time"

/-- The row that stands for an event the site may not report; identities are
shown as their numbers. -/
def absorptionDeadLetter (id : EventId) (event : Event) (site : InstanceId)
    (reason : String) : Except String Event := do
  let messageId ← (MessageId.parse centerAbsorbedEventMessageId).mapError
    fun _ => "the reserved absorption message id is not usable"
  (Event.new id event.endpointId messageId .warning
    (some ("event absorbed: endpoint " ++ toString event.endpointId.uuid ++
      ", message id " ++ event.messageId.text ++ ", reported by site " ++
      toString site.uuid ++ ": " ++ reason))
    event.eventTimestamp event.observedAt).mapError
      fun _ => "the absorption dead-letter row cannot be built"

/-- The dead letter of an absorbed event, with a fresh identity. -/
def absorbEvent (event : Event) (site : InstanceId) (reason : String) :
    Prog projectionSig (Option Event) := do
  let id ← call .generateEventId
  return (absorptionDeadLetter id event site reason).toOption

/-- The record an event leads to: itself where the site owns the endpoint,
else its dead letter. -/
def recordOf (owners : Owners) (site : InstanceId) (event : Event) :
    Prog projectionSig (Option Event) :=
  match owners.lookup event.endpointId with
  | some owner =>
      if owner = some site then return some event
      else absorbEvent event site "the endpoint belongs to another site"
  | none => absorbEvent event site "the endpoint is not projected"

def recordsOf (owners : Owners) (site : InstanceId) :
    List Event → Prog projectionSig (List Event)
  | [] => return []
  | event :: events => do
    let record ← recordOf owners site event
    let records ← recordsOf owners site events
    return record.toList ++ records

/-- The decodable events of a batch. -/
def decodedEvents (records : List EventRecord) (now : Instant) : List Event :=
  records.filterMap fun record => (decodeEvent record now).toOption

def consumeEventBatch (site : InstanceId) (sequence : Nat)
    (records : List EventRecord) (now : Instant) : M Unit := do
  if !(← passesCursor site .event sequence) then return ()
  let events := decodedEvents records now
  let owners ← orThrow (call (.findEndpointProjections
    (events.map Event.endpointId).dedup)) .projection
  let records ← (recordsOf owners site events : Prog projectionSig _)
  if !records.isEmpty then
    orThrow (call (.upsertEvents records site)) .projection
  advanceCursor site .event sequence now

/-! ## Artifacts -/

/-- The size the center takes every chunk but the last to have. -/
def centerArtifactChunkSize : Nat := 1024 * 1024

def maxU64 : Nat := 18446744073709551615

def decodeManifest (manifest : ArtifactManifest) (now : Instant) :
    Except String Artifact := do
  let some artifactId := manifest.artifactId
    | .error "unparseable artifact id"
  if manifest.totalBytes = 0 then
    .error "a zero-byte artifact cannot be transferred"
  if artifactMaxSizeBytes < manifest.totalBytes then
    .error "the artifact exceeds the 2 GiB declared-size cap"
  let name ← (parseLabel manifest.name).mapError
    fun _ => "unusable artifact name"
  if manifest.sha256.length ≠ 32 then
    .error "the digest is not 32 bytes"
  return Artifact.new artifactId name manifest.totalBytes manifest.sha256 now

def consumeArtifactManifest (site : InstanceId) (sequence : Nat)
    (manifest : ArtifactManifest) (now : Instant) : M Unit := do
  if !(← passesCursor site .artifact sequence) then return ()
  match decodeManifest manifest now with
  | .error reason => absorbFrame site sequence .artifact now reason
  | .ok artifact =>
    orThrow (call (.declareArtifact artifact site)) .projection
    advanceCursor site .artifact sequence now

/-- The whole file is hashed; the row becomes ready only on the declared
digest. -/
def finalizeArtifact (artifactId : ArtifactId) (sizeBytes : Nat)
    (now : Instant) : M Unit := do
  let digest ← orThrow (call (.hashArtifactFile artifactId))
    fun e => .artifactFile artifactId (some e)
  match ← orThrow (call (.findArtifact artifactId)) .artifact with
  | none => throw (.artifactFile artifactId none)
  | some artifact =>
    let state := if digest = artifact.sha256 then .ready else .failed
    orThrow (call (.updateArtifact artifactId sizeBytes state now)) .artifact

/-- The bytes of a chunk whose place is known: the file first, then the row,
then the cursor. -/
def storeChunk (site : InstanceId) (sequence : Nat) (artifact : Artifact)
    (artifactId : ArtifactId) (offset : Nat) (data : Bytes) (now : Instant) :
    M Unit := do
  orThrow (call (.writeChunkAt artifactId offset data))
    fun e => .artifactFile artifactId (some e)
  if offset + data.length < artifact.sizeBytes then
    orThrow (call (.updateArtifact artifactId (offset + data.length)
      .uploading now)) .artifact
  else finalizeArtifact artifactId (offset + data.length) now
  advanceCursor site .artifact sequence now

/-- A chunk of a transfer that is still open. -/
def placeChunk (site : InstanceId) (sequence : Nat) (artifact : Artifact)
    (artifactId : ArtifactId) (index : Nat) (data : Bytes) (now : Instant) :
    M Unit :=
  let offset := index * centerArtifactChunkSize
  if data.isEmpty then advanceCursor site .artifact sequence now
  else if maxU64 < offset + data.length then
    absorbFrame site sequence .artifact now
      "the chunk would overflow the progress"
  else if artifact.sizeBytes < offset + data.length then
    absorbFrame site sequence .artifact now
      "the chunk would exceed the declared size"
  else if offset + data.length ≤ artifact.uploadedBytes then
    -- covered by the persisted progress
    advanceCursor site .artifact sequence now
  else if offset ≠ artifact.uploadedBytes then
    absorbFrame site sequence .artifact now
      "the chunk is out of order or straddles the persisted progress"
  else storeChunk site sequence artifact artifactId offset data now

def consumeArtifactChunk (site : InstanceId) (sequence : Nat)
    (chunk : ArtifactChunk) (now : Instant) : M Unit := do
  if !(← passesCursor site .artifact sequence) then return ()
  match chunk.artifactId with
  | none => absorbFrame site sequence .artifact now "unparseable artifact id"
  | some artifactId =>
    match ← orThrow (call (.findArtifact artifactId)) .artifact with
    | none =>
      absorbFrame site sequence .artifact now
        "a chunk arrived before its manifest"
    | some artifact =>
      let owner ← orThrow (call (.findArtifactSite artifactId)) .projection
      if owner ≠ some site then
        absorbFrame site sequence .artifact now
          "the artifact belongs to another site"
      else if artifact.state.isTerminal then
        absorbFrame site sequence .artifact now
          "a chunk arrived for a finished artifact"
      else
        placeChunk site sequence artifact artifactId chunk.index chunk.data now

/-! ## Frames -/

def onFrame (site : InstanceId) (sequence : Nat) (message : EnvelopeMessage)
    (now : Instant) : M Unit :=
  match message with
  | .endpointSnapshot snapshot => consumeEndpoint site sequence snapshot now
  | .resourceDelta delta => consumeResourceDelta site sequence delta now
  | .eventBatch records => consumeEventBatch site sequence records now
  | .artifactManifest manifest =>
      consumeArtifactManifest site sequence manifest now
  | .artifactChunk chunk => consumeArtifactChunk site sequence chunk now
  | _ => return ()

end Rutilus.Report.CenterProjection
