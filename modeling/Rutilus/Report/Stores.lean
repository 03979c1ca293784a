import Rutilus.Lib.Runs
import Rutilus.Lib.Splice
import Rutilus.Report.CenterProjection
import Rutilus.Report.SiteReports

/-!
# What the report calls do

The durable state of the two sides, as far as the reports touch it, and the
effect of each call on it. A call may fail; a failed call has no effect, but a
failed write to a file may have landed in part. What the environment decides
(a failure, the clock, a generated identity) is an oracle of the call.

The hash function is a parameter: nothing depends on which it is.
-/

namespace Rutilus.Report

open Rutilus.Domain Rutilus.Lib Rutilus.Store

variable (sha : Bytes → Digest)

/-! ## The center -/

structure CenterStore where
  projection : ProjectionTables
  events : EventTable
  artifacts : ArtifactTable
  files : ArtifactId → Option Bytes
  cursors : CursorTable Nat

def CenterStore.empty : CenterStore :=
  ⟨.empty, .empty, .empty, fun _ => none, .empty⟩

/-- `landed` is how much of a failing file write was written. -/
structure CenterOracle where
  fault : Option Fault
  landed : Nat
  eventId : EventId
  deriving DecidableEq, Repr

/-- The file after a write; a missing file is created first. -/
def writeFile (files : ArtifactId → Option Bytes) (artifactId : ArtifactId)
    (offset : Nat) (data : Bytes) : ArtifactId → Option Bytes :=
  fun id => if id = artifactId then
    some (writeAt 0 ((files artifactId).getD []) offset data)
  else files id

/-- The answer of a projection write and the center after it. -/
def projected (w : CenterStore) (r : ProjectionWrite) :
    Except ProjectionRepositoryError ProjectionWriteOutcome × CenterStore :=
  match r with
  | .ok (outcome, t) => (.ok outcome, { w with projection := t })
  | .error e => (.error e, w)

open CenterProjection in
def performCenter (o : CenterOracle) :
    (q : ProjectionReq) → CenterStore → q.Resp × CenterStore
  | .getCursor site stream, w => match o.fault with
    | some f => (.error f, w)
    | none => (.ok (getSyncCursor w.cursors site stream), w)
  | .setCursor cursor, w => match o.fault with
    | some f => (.error f, w)
    | none => (.ok (), { w with cursors := setSyncCursor w.cursors cursor })
  | .upsertEndpoint projection site now, w => match o.fault with
    | some f => (.error (.fault f), w)
    | none => projected w
        (upsertEndpointProjection w.projection projection site now)
  | .deleteEndpoint endpointId site, w => match o.fault with
    | some f => (.error (.fault f), w)
    | none => projected w
        (deleteEndpointProjection w.projection endpointId site)
  | .upsertResource projection site now, w => match o.fault with
    | some f => (.error (.fault f), w)
    | none => projected w
        (upsertResourceProjection w.projection projection site now)
  | .deleteResource endpointId odataId site, w => match o.fault with
    | some f => (.error (.fault f), w)
    | none => projected w
        (deleteResourceProjection w.projection endpointId odataId site)
  | .findEndpointProjections endpointIds, w => match o.fault with
    | some f => (.error (.fault f), w)
    | none => (.ok (endpointIds.filterMap fun id =>
        (findEndpointProjection w.projection id).map fun owner => (id, owner)),
        w)
  | .generateEventId, w => (o.eventId, w)
  | .upsertEvents events site, w => match o.fault with
    | some f => (.error (.fault f), w)
    | none => match appendCenterEvents w.events site events with
      | .ok t => (.ok (), { w with events := t })
      | .error _ => (.error .event, w)
  | .declareArtifact artifact site, w => match o.fault with
    | some f => (.error (.fault f), w)
    | none => match declareArtifact w.artifacts artifact (some site) with
      | .ok (_, t) => (.ok (), { w with artifacts := t })
      | .error e => (.error (.artifact e), w)
  | .findArtifact artifactId, w => match o.fault with
    | some f => (.error (.fault f), w)
    | none => (findArtifact w.artifacts artifactId, w)
  | .findArtifactSite artifactId, w => match o.fault with
    | some f => (.error (.fault f), w)
    | none => (.ok (findArtifactSite w.artifacts artifactId), w)
  | .updateArtifact artifactId uploadedBytes state now, w =>
    match o.fault with
    | some f => (.error (.fault f), w)
    | none => match updateArtifact w.artifacts artifactId uploadedBytes state
        now with
      | .ok (_, t) => (.ok (), { w with artifacts := t })
      | .error e => (.error e, w)
  | .writeChunkAt artifactId offset data, w => match o.fault with
    | some f =>
      (.error f, { w with
        files := writeFile w.files artifactId offset (data.take o.landed) })
    | none =>
      (.ok (), { w with files := writeFile w.files artifactId offset data })
  | .hashArtifactFile artifactId, w => match o.fault with
    | some f => (.error f, w)
    | none => match w.files artifactId with
      | some file => (.ok (sha file), w)
      | none => (.error .database, w)

/-! ## The site -/

structure SiteStore where
  outbox : OutboxTable
  artifacts : ArtifactTable
  files : ArtifactId → Option Bytes
  artifactCursors : CursorTable ArtifactId
  completed : List ArtifactId
  events : EventTable
  eventCursors : CursorTable EventId

def SiteStore.empty : SiteStore :=
  ⟨.empty, .empty, fun _ => none, .empty, [], .empty, .empty⟩

/-- `readFailure` is an error of the file system while a file is read. -/
structure SiteOracle where
  fault : Option Fault
  clock : Instant
  entryId : OutboxEntryId
  readFailure : Option (Nat × SiteReports.IoErrorKind)
  deriving DecidableEq, Repr

open SiteReports in
def performSite (instanceId : InstanceId) (o : SiteOracle) :
    (q : ReportReq) → SiteStore → q.Resp × SiteStore
  | .now, w => (o.clock, w)
  | .outbox q, w =>
      let r := runOutbox o.fault o.entryId q w.outbox
      (r.1, { w with outbox := r.2 })
  | .readArtifact artifactId declaredBytes expectedDigest chunkBytes, w =>
      (readArtifact sha (w.files artifactId) declaredBytes expectedDigest
        chunkBytes o.readFailure, w)
  | .findArtifact artifactId, w => match o.fault with
    | some f => (.error (.fault f), w)
    | none => (findArtifact w.artifacts artifactId, w)
  | .listArtifactsByState state, w => match o.fault with
    | some f => (.error (.fault f), w)
    | none => (listArtifactsByState w.artifacts state, w)
  | .getArtifactCursor, w => match o.fault with
    | some f => (.error f, w)
    | none => (.ok (getSyncCursor w.artifactCursors instanceId .artifact), w)
  | .setArtifactCursor cursor, w => match o.fault with
    | some f => (.error f, w)
    | none => (.ok (), { w with
        artifactCursors := setSyncCursor w.artifactCursors cursor })
  | .completed artifactId, w =>
      ((), { w with completed := w.completed ++ [artifactId] })
  | .contains eventId, w => match o.fault with
    | some f => (.error (.fault f), w)
    | none => (.ok (findEvent w.events eventId).isSome, w)
  | .listAfter after limit, w => match o.fault with
    | some f => (.error (.fault f), w)
    | none => (listEventsAfter w.events after limit, w)
  | .listRecent limit, w => match o.fault with
    | some f => (.error (.fault f), w)
    | none => (.ok (listRecentEvents w.events limit), w)
  | .getEventCursor, w => match o.fault with
    | some f => (.error f, w)
    | none => (.ok (getSyncCursor w.eventCursors instanceId .event), w)
  | .setEventCursor cursor, w => match o.fault with
    | some f => (.error f, w)
    | none => (.ok (), { w with
        eventCursors := setSyncCursor w.eventCursors cursor })

end Rutilus.Report

/-!
## The center serves many sites

Any number of sites send frames, of any content and in any order; each frame is
consumed by a task of its own, cut short at any call. Meanwhile the operator
registers sites, a site binds itself with its code, and the operator revokes
bindings. A registration generates the identity of its site, so no row has it
yet.
-/

namespace Rutilus.Report.Fleet

open Rutilus.Domain Rutilus.Lib Rutilus.Store

/-- The rest of a frame's consumption. -/
structure Consumer where
  site : InstanceId
  rest : CenterProjection.M Unit

structure State where
  center : CenterStore
  consumers : List Consumer

def initial : State := ⟨.empty, []⟩

inductive Label where
  | register (id : CenterBindingId) (centerUrl : String) (site : InstanceId)
      (code : BindingCode) (expiresAt createdAt : Instant)
  | bind (id : CenterBindingId) (code : BindingCode)
      (fingerprint : Option CertificateFingerprint) (now : Instant)
  | revoke (id : CenterBindingId)
  | deliver (site : InstanceId) (sequence : Nat) (message : EnvelopeMessage)
      (now : Instant)
  | call (i : Nat) (o : CenterOracle)
  | drop (i : Nat)

def State.withBindings (s : State) (bindings : BindingTable) : State :=
  { s with center := { s.center with
      projection := { s.center.projection with bindings } } }

variable (sha : Bytes → Digest)

def next (s : State) : Label → Option State
  | .register id centerUrl site code expiresAt createdAt =>
    let bindings := s.center.projection.bindings
    if bindings.rows.any fun row => row.siteInstanceId = site then none
    else
      let binding := .newPending sha id centerUrl site code expiresAt createdAt
      match createBinding (fun _ => true) bindings binding with
      | .error _ => none
      | .ok bindings => some (s.withBindings bindings)
  | .bind id code fingerprint now =>
    match bindWithCode sha s.center.projection.bindings id code fingerprint
        now with
    | .error _ => none
    | .ok bindings => some (s.withBindings bindings)
  | .revoke id => match revokeBinding s.center.projection.bindings id with
    | .error _ => none
    | .ok (_, bindings) => some (s.withBindings bindings)
  | .deliver site sequence message now => some { s with
      consumers := s.consumers ++
        [⟨site, CenterProjection.onFrame site sequence message now⟩] }
  | .call i o => match s.consumers[i]? with
    | some ⟨site, .call q k⟩ =>
        let r := performCenter sha o q s.center
        some ⟨r.2, s.consumers.set i ⟨site, k r.1⟩⟩
    | _ => none
  | .drop i => some { s with consumers := s.consumers.eraseIdx i }

abbrev Reachable (s : State) : Prop :=
  Reach (fun s => s = initial) (Next (next sha)) s

end Rutilus.Report.Fleet

/-!
## The frames of a site's projection, delivered again

The endpoint and resource frames of one site in the order of its outbox, each
with a larger sequence than the one before. They are delivered in that order;
before a frame was consumed, it and all the frames before it may be delivered
again, any number of times. The center consumes one frame at a time. It may
fail at any call, and lose the consumption between any two.

`latest` is not part of the product: it is the number of the newest frame whose
write went through, counted from one.

`timeless` forgets the times the center stamps on its rows: they are the times
of the delivery, not of the frame.
-/

namespace Rutilus.Store

open Rutilus.Lib

def EndpointRow.timeless (row : EndpointRow) : EndpointRow :=
  { row with createdAt := 0, updatedAt := 0 }

def AddressRow.timeless (row : AddressRow) : AddressRow :=
  { row with createdAt := 0 }

def TrustRow.timeless (row : TrustRow) : TrustRow := { row with trustedAt := 0 }

def ResourceRow.timeless (row : ResourceRow) : ResourceRow :=
  { row with createdAt := 0 }

theorem EndpointRow.timeless_id (row : EndpointRow) :
    row.timeless.id = row.id := rfl

theorem AddressRow.timeless_address (row : AddressRow) :
    row.timeless.address = row.address := rfl

theorem TrustRow.timeless_endpointId (row : TrustRow) :
    row.timeless.endpointId = row.endpointId := rfl

theorem ResourceRow.timeless_key (row : ResourceRow) :
    row.timeless.key = row.key := rfl

def ProjectionTables.timeless (t : ProjectionTables) : ProjectionTables :=
  { t with
    endpoints := t.endpoints.map EndpointRow.timeless EndpointRow.timeless_id
    addresses :=
      t.addresses.map AddressRow.timeless AddressRow.timeless_address
    trusts := t.trusts.map TrustRow.timeless TrustRow.timeless_endpointId
    resources := t.resources.map ResourceRow.timeless ResourceRow.timeless_key }

def SyncCursor.timeless {ν : Type} (cursor : SyncCursor ν) : SyncCursor ν :=
  { cursor with updatedAt := 0 }

theorem SyncCursor.timeless_key {ν : Type} (cursor : SyncCursor ν) :
    cursor.timeless.key = cursor.key := rfl

end Rutilus.Store

namespace Rutilus.Report

open Rutilus.Store

def CenterStore.timeless (w : CenterStore) : CenterStore :=
  { w with
    projection := w.projection.timeless
    cursors := w.cursors.map SyncCursor.timeless SyncCursor.timeless_key }

end Rutilus.Report

namespace Rutilus.Report.Replay

open Rutilus.Domain Rutilus.Lib Rutilus.Store Rutilus.Report
open Rutilus.Report.CenterProjection

structure Frame where
  sequence : Nat
  message : EnvelopeMessage
  deriving DecidableEq, Repr

/-- The frames of the projection. -/
def isProjection : EnvelopeMessage → Bool
  | .endpointSnapshot _ | .resourceDelta _ => true
  | _ => false

/-- A site's frames and the center before any of them. -/
structure Setup where
  site : InstanceId
  start : CenterStore
  frames : List Frame
  ordered : frames.Pairwise fun f g => f.sequence < g.sequence
  projection : ∀ f ∈ frames, isProjection f.message = true

variable (sha : Bytes → Digest)

/-! ## Once -/

/-- A call at which nothing goes wrong. -/
def undisturbed : CenterOracle := ⟨none, 0, ⟨0⟩⟩

def deliverOnce (site : InstanceId) (f : Frame) (now : Instant)
    (w : CenterStore) : CenterStore :=
  (Prog.run (performCenter sha undisturbed)
    (onFrame site f.sequence f.message now) w).2

/-- The center after each frame was delivered once, in order. -/
def deliverAll (site : InstanceId) (clock : Nat → Instant) :
    List Frame → CenterStore → CenterStore
  | [], w => w
  | f :: frames, w =>
    deliverAll site (fun n => clock (n + 1)) frames
      (deliverOnce sha site f (clock 0) w)

/-! ## Again and again -/

structure State where
  center : CenterStore
  consumed : Nat
  task : Option (Nat × M Unit)
  latest : Nat

def initial (T : Setup) : State := ⟨T.start, 0, none, 0⟩

inductive Label where
  | deliver (i : Nat) (now : Instant)
  | call (o : CenterOracle)
  | finish
  | crash

/-- A projection write that went through. -/
def landed : (q : ProjectionReq) → q.Resp → Bool
  | .upsertEndpoint .., .ok _ => true
  | .deleteEndpoint .., .ok _ => true
  | .upsertResource .., .ok _ => true
  | .deleteResource .., .ok _ => true
  | _, _ => false

variable (T : Setup)

def next (s : State) : Label → Option State
  | .deliver i now => match s.task, T.frames[i]? with
    | none, some f =>
      if s.consumed < i then none
      else some { s with
        task := some (i, onFrame T.site f.sequence f.message now) }
    | _, _ => none
  | .call o => match s.task with
    | some (i, .call q k) =>
      let r := performCenter sha o q s.center
      some { s with
        center := r.2
        task := some (i, k r.1)
        latest := if landed q r.1 then i + 1 else s.latest }
    | _ => none
  | .finish => match s.task with
    | some (i, .ret (.ok ())) => some { s with
        consumed := max s.consumed (i + 1)
        task := none }
    | _ => none
  | .crash => some { s with task := none }

abbrev Reachable (s : State) : Prop :=
  Reach (fun s => s = initial T) (Next (next sha T)) s

end Rutilus.Report.Replay

/-!
## An artifact on its way to the center

One artifact of a site with its file. The site distributes it again and again,
and every frame a distribution queues may be delivered to the center at any
later point, in any order, any number of times, by several consumers at once.
A distribution may be cut at any call, and the center may lose any consumer, or
all of them, between any two calls.

Three parts of the state are not part of the product: `produced` remembers every
frame that was ever queued, `Task.placed` where a consumer wrote its bytes, and
`written` all those places with the index of the chunk.
-/

namespace Rutilus.Report.Transfer

open Rutilus.Domain Rutilus.Lib Rutilus.Store Rutilus.Report

/-- The site's settings, its artifact and the artifact's file. The name and the
digest were parsed when the artifact was declared. -/
structure Setup where
  config : SiteReports.Config
  artifact : Artifact
  file : Bytes
  name_parsed : parseLabel artifact.name = .ok artifact.name
  digest_length : artifact.sha256.length = 32

/-- A frame the center is consuming. -/
structure Task where
  message : EnvelopeMessage
  placed : Option Nat
  rest : CenterProjection.M Unit

structure State where
  site : SiteStore
  round : Option (SiteReports.M Unit)
  produced : List (Nat × EnvelopeMessage)
  center : CenterStore
  tasks : List Task
  written : List (Nat × Nat)

def initial (T : Setup) : State where
  site := { SiteStore.empty with
    files := fun id => if id = T.artifact.id then some T.file else none }
  round := none
  produced := []
  center := .empty
  tasks := []
  written := []

/-- What the environment decides: the site begins, continues or cuts a
distribution, or does other work on its queue; a produced frame is delivered;
a consumer makes its next call; the center loses one consumer or all. -/
inductive Label where
  | distribute (passes : Nat)
  | siteCall (o : SiteOracle)
  | siteStop
  | queue (fault : Option Fault) (entryId : OutboxEntryId) (q : OutboxReq)
  | deliver (i : Nat) (now : Instant)
  | centerCall (j : Nat) (o : CenterOracle)
  | centerDrop (j : Nat)
  | centerCrash

/-- The frame an answered call has queued. -/
def queued : (q : SiteReports.ReportReq) → q.Resp →
    List (Nat × EnvelopeMessage)
  | .outbox (.enqueue _ message _), .ok entry =>
      [(entry.sequence.toNat, message)]
  | _, _ => []

/-- The offset a call writes file bytes at. -/
def writeOffset : CenterProjection.ProjectionReq → Option Nat
  | .writeChunkAt _ offset _ => some offset
  | _ => none

/-- The index of a chunk frame. -/
def chunkIndex : EnvelopeMessage → Option Nat
  | .artifactChunk chunk => some chunk.index
  | _ => none

/-- The consumer after a call. -/
def Task.after (task : Task) (q : CenterProjection.ProjectionReq)
    (rest : CenterProjection.M Unit) : Task :=
  { task with placed := (writeOffset q).or task.placed, rest }

/-- What a call of a consumer adds to the written places. -/
def Task.writes (task : Task) (q : CenterProjection.ProjectionReq) :
    List (Nat × Nat) :=
  match chunkIndex task.message, writeOffset q with
  | some index, some offset => [(index, offset)]
  | _, _ => []

variable (sha : Bytes → Digest) (T : Setup)

def next (s : State) : Label → Option State
  | .distribute passes => match s.round with
    | some _ => none
    | none => some { s with
        round := some (SiteReports.distributeArtifact T.config passes
          T.artifact) }
  | .siteCall o => match s.round with
    | some (.call q k) =>
        let r := performSite sha T.config.instanceId o q s.site
        some { s with
          site := r.2
          round := some (k r.1)
          produced := s.produced ++ queued q r.1 }
    | _ => none
  | .siteStop => some { s with round := none }
  | .queue fault entryId q => some { s with
      site := { s.site with
        outbox := (runOutbox fault entryId q s.site.outbox).2 } }
  | .deliver i now => match s.produced[i]? with
    | none => none
    | some (sequence, message) => some { s with
        tasks := s.tasks ++ [⟨message, none, CenterProjection.onFrame
          T.config.instanceId sequence message now⟩] }
  | .centerCall j o => match s.tasks[j]? with
    | some ⟨message, placed, .call q k⟩ =>
        let task : Task := ⟨message, placed, .call q k⟩
        let r := performCenter sha o q s.center
        some { s with
          center := r.2
          tasks := s.tasks.set j (task.after q (k r.1))
          written := s.written ++ task.writes q }
    | _ => none
  | .centerDrop j => some { s with tasks := s.tasks.eraseIdx j }
  | .centerCrash => some { s with tasks := [] }

abbrev Reachable (s : State) : Prop :=
  Reach (fun s => s = initial T) (Next (next sha T)) s

end Rutilus.Report.Transfer
