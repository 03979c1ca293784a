import Mathlib.Data.String.Basic
import Rutilus.Domain.Command
import Rutilus.Domain.Resource
import Rutilus.Lib.Runs
import Rutilus.Lib.Table
import Rutilus.Store.Operations

/-!
# The resource snapshot store

The `resources`, `resource_snapshots` and `resource_decode_failures` tables. A
commit appends one complete generation of an endpoint in one transaction: it
reuses the resources that are known by their `@odata.id`, inserts the others, one
snapshot each, and the records of the members that could not be decoded. Reading
takes the snapshots of the latest generation and checks them again.

The column of a record's extended information is JSON; here a row holds the
entries.
-/

namespace Rutilus.Store.Resources

open Rutilus.Domain hiding ResourceFeature
open Rutilus.Domain.Resource Rutilus.Lib

/-! ## Rows -/

/-- A row of `endpoints`, as far as it is read here. -/
structure EndpointModel where
  id : EndpointId
  createdAt : Instant
  deriving DecidableEq, Repr

structure ResourceModel where
  id : ResourceId
  endpointId : EndpointId
  odataId : String
  feature : String
  createdAt : Instant
  deriving DecidableEq, Repr

structure SnapshotModel where
  resourceId : ResourceId
  generation : Nat
  odataType : Option String
  etag : Option String
  typedPayloadJson : String
  observedAt : Instant
  deriving DecidableEq, Repr

def SnapshotModel.key (row : SnapshotModel) : ResourceId × Nat :=
  (row.resourceId, row.generation)

structure DecodeFailureModel where
  endpointId : EndpointId
  generation : Nat
  odataUri : String
  odataType : Option String
  feature : String
  oemNamespace : Option String
  errorSummary : String
  extendedInfo : List ResourceExtendedInfo
  deriving DecidableEq, Repr

def DecodeFailureModel.key (row : DecodeFailureModel) :
    EndpointId × Nat × String :=
  (row.endpointId, row.generation, row.odataUri)

structure Tables where
  endpoints : Table EndpointId EndpointModel EndpointModel.id
  resources : Table ResourceId ResourceModel ResourceModel.id
  snapshots : Table (ResourceId × Nat) SnapshotModel SnapshotModel.key
  decodeFailures : Table (EndpointId × Nat × String) DecodeFailureModel
    DecodeFailureModel.key

inductive StoredResourceSnapshotError where
  | unknownFeature
  | invalidODataId (source : ExactTextError)
  | invalidODataType (source : ResourceODataTypeError)
  | invalidEtag (source : ExactTextError)
  | invalidPayload (source : ResourceSnapshotPayloadError)
  | invalidGeneration (source : RefreshGenerationError)
  | resourcePredatesEndpoint
  | snapshotPredatesResource (resourceId : ResourceId)
  | emptyGeneration
  | mixedObservationTimes
  | invalidServiceRootCount (actual : Nat)
  deriving DecidableEq, Repr

inductive StoredResourceDecodeFailureError where
  | unknownFeature
  | invalidODataUri (source : ExactTextError)
  | invalidODataType (source : ResourceODataTypeError)
  | invalidDecodeFailure (source : ResourceDecodeFailureError)
  deriving DecidableEq, Repr

inductive ResourceSnapshotRepositoryError where
  | coordinate
  | emptyGeneration (endpointId : EndpointId)
  | duplicateODataId (endpointId : EndpointId) (odataId : ResourceODataId)
  | serviceRootMissing (endpointId : EndpointId)
  | multipleServiceRoots (endpointId : EndpointId)
  | endpointNotFound (endpointId : EndpointId)
  | observationPredatesEndpoint (endpointId : EndpointId)
  | featureChanged (endpointId : EndpointId) (odataId : ResourceODataId)
      (stored observed : ResourceFeature)
  | generationExhausted (endpointId : EndpointId)
  | corrupt (endpointId : EndpointId) (source : StoredResourceSnapshotError)
  | corruptDecodeFailures (endpointId : EndpointId)
      (source : StoredResourceDecodeFailureError)
  | database
  deriving DecidableEq

variable {canonicalize : Canonicalize}

/-- One observation that awaits its generation. -/
structure NewResourceSnapshot (canonicalize : Canonicalize) where
  feature : ResourceFeature
  odataId : ResourceODataId
  odataType : Option ResourceODataType
  etag : Option ResourceEtag
  payload : ResourceSnapshotPayload canonicalize
  deriving DecidableEq

abbrev Outcome (α : Type) : Type := Except ResourceSnapshotRepositoryError α

/-! ## Checks before the commit -/

/-- The first `@odata.id` that comes again. -/
def firstRepeated :
    List ResourceODataId → List (NewResourceSnapshot canonicalize) →
      Option ResourceODataId
  | _, [] => none
  | seen, observation :: rest =>
    if observation.odataId ∈ seen then some observation.odataId
    else firstRepeated (observation.odataId :: seen) rest

def validateObservations (endpointId : EndpointId)
    (observations : List (NewResourceSnapshot canonicalize)) : Outcome Unit :=
  if observations.isEmpty then .error (.emptyGeneration endpointId)
  else match firstRepeated [] observations with
    | some odataId => .error (.duplicateODataId endpointId odataId)
    | none => match observations.countP fun o => o.feature = .serviceRoot with
      | 0 => .error (.serviceRootMissing endpointId)
      | 1 => .ok ()
      | _ => .error (.multipleServiceRoots endpointId)

/-- The resources of an endpoint by their `@odata.id`. -/
def existing (t : Tables) (endpointId : EndpointId) (odataId : String) :
    Option ResourceModel :=
  t.resources.rows.find? fun row =>
    row.endpointId = endpointId ∧ row.odataId = odataId

def validateStableFeatures (endpointId : EndpointId)
    (existing : String → Option ResourceModel) :
    List (NewResourceSnapshot canonicalize) → Outcome Unit
  | [] => .ok ()
  | observation :: rest => match existing observation.odataId.text with
    | none => validateStableFeatures endpointId existing rest
    | some model => match ResourceFeature.fromStr model.feature with
      | none => .error (.corrupt endpointId .unknownFeature)
      | some stored =>
        if stored = observation.feature then
          validateStableFeatures endpointId existing rest
        else .error (.featureChanged endpointId observation.odataId stored
          observation.feature)

/-- The snapshots of an endpoint with their resources, in the order of the
table. -/
def joined (t : Tables) (endpointId : EndpointId) :
    List (SnapshotModel × ResourceModel) :=
  t.snapshots.rows.filterMap fun snapshot =>
    ((t.resources.find snapshot.resourceId).filter
      fun row => row.endpointId = endpointId).map (snapshot, ·)

def latestGeneration (t : Tables) (endpointId : EndpointId) : Option Nat :=
  ((joined t endpointId).map fun row => row.1.generation).max?

def mapGeneration (endpointId : EndpointId) (value : Nat) :
    Outcome RefreshGeneration :=
  (RefreshGeneration.new value).mapError fun source =>
    .corrupt endpointId (.invalidGeneration source)

def nextGeneration (t : Tables) (endpointId : EndpointId) :
    Outcome RefreshGeneration :=
  match latestGeneration t endpointId with
  | none => mapGeneration endpointId 1
  | some latest => match mapGeneration endpointId latest with
    | .error e => .error e
    | .ok current => (RefreshGeneration.new (current.get + 1)).mapError
        fun _ => .generationExhausted endpointId

/-! ## Inserts -/

/-- Identities are unique, and so is an `@odata.id` within its endpoint. -/
def insertResource (t : Tables) (row : ResourceModel) : Outcome Tables :=
  if t.resources.has row.id ∨ (existing t row.endpointId row.odataId).isSome then
    .error .database
  else .ok { t with resources := t.resources.insertNew row }

def insertSnapshot (t : Tables) (row : SnapshotModel) : Outcome Tables :=
  if t.snapshots.has row.key then .error .database
  else .ok { t with snapshots := t.snapshots.insertNew row }

/-- The rows of an observation. -/
def resourceModel (id : ResourceId) (endpointId : EndpointId)
    (observation : NewResourceSnapshot canonicalize) (createdAt : Instant) :
    ResourceModel :=
  ⟨id, endpointId, observation.odataId.text, observation.feature.asStr, createdAt⟩

def snapshotModel (resourceId : ResourceId) (generation : RefreshGeneration)
    (observation : NewResourceSnapshot canonicalize) (observedAt : Instant) :
    SnapshotModel :=
  ⟨resourceId, generation.get, observation.odataType.map (·.text),
    observation.etag.map (·.text), observation.payload.text, observedAt⟩

def toDomainSnapshot (resourceId : ResourceId) (endpointId : EndpointId)
    (generation : RefreshGeneration)
    (observation : NewResourceSnapshot canonicalize) (observedAt : Instant) :
    ResourceSnapshot canonicalize :=
  ⟨resourceId, endpointId, observation.feature, observation.odataId,
    observation.odataType, observation.etag, observation.payload, observedAt,
    generation⟩

/-- The resource an observation is of: a known one, or a new one. -/
def resourceFor (t : Tables) (endpointId : EndpointId)
    (known : Option ResourceModel) (id : ResourceId)
    (observation : NewResourceSnapshot canonicalize) (observedAt : Instant) :
    Outcome (ResourceId × Tables) :=
  match known with
  | some model => .ok (model.id, t)
  | none =>
    (insertResource t (resourceModel id endpointId observation observedAt)).map
      fun t => (id, t)

/-- The loop of a commit; `fresh` makes up the identities. -/
def insertObservations (endpointId : EndpointId)
    (generation : RefreshGeneration) (observedAt : Instant)
    (existing : String → Option ResourceModel) (fresh : Nat → ResourceId) :
    Nat → Tables → List (NewResourceSnapshot canonicalize) →
      Outcome (List (ResourceSnapshot canonicalize) × Tables)
  | _, t, [] => .ok ([], t)
  | n, t, observation :: rest => do
    let (resourceId, t) ← resourceFor t endpointId
      (existing observation.odataId.text) (fresh n) observation observedAt
    let t ← insertSnapshot t
      (snapshotModel resourceId generation observation observedAt)
    let (snapshots, t) ← insertObservations endpointId generation observedAt
      existing fresh (n + 1) t rest
    .ok (toDomainSnapshot resourceId endpointId generation observation
      observedAt :: snapshots, t)

def decodeFailureModel (endpointId : EndpointId)
    (generation : RefreshGeneration) (failure : ResourceDecodeFailure) :
    DecodeFailureModel :=
  ⟨endpointId, generation.get, failure.odataUri.text,
    failure.odataType.map (·.text), failure.feature.asStr, failure.oemNamespace,
    failure.errorSummary, failure.extendedInfo⟩

def insertDecodeFailure (endpointId : EndpointId)
    (generation : RefreshGeneration) (t : Tables)
    (failure : ResourceDecodeFailure) : Outcome Tables :=
  let row := decodeFailureModel endpointId generation failure
  if t.decodeFailures.has row.key then .error .database
  else .ok { t with decodeFailures := t.decodeFailures.insertNew row }

/-! ## The commit -/

def byODataId (a b : ResourceSnapshot canonicalize) : Bool :=
  a.odataId.text ≤ b.odataId.text

/-- The generation as it was committed, in the order of the `@odata.id`s. -/
def commitResourceGeneration (t : Tables) (endpointId : EndpointId)
    (observations : List (NewResourceSnapshot canonicalize))
    (decodeFailures : List ResourceDecodeFailure) (observedAt : Instant)
    (fresh : Nat → ResourceId) :
    Outcome (List (ResourceSnapshot canonicalize) × Tables) := do
  validateObservations endpointId observations
  match t.endpoints.find endpointId with
  | none => .error (.endpointNotFound endpointId)
  | some endpointModel =>
    if observedAt < endpointModel.createdAt then
      .error (.observationPredatesEndpoint endpointId)
    else
      let generation ← nextGeneration t endpointId
      validateStableFeatures endpointId (existing t endpointId) observations
      let (snapshots, t) ← insertObservations endpointId generation observedAt
        (existing t endpointId) fresh 0 t observations
      let t ← decodeFailures.foldlM
        (insertDecodeFailure endpointId generation) t
      .ok (snapshots.mergeSort byODataId, t)

/-- Under the write gate. What fails leaves nothing. -/
def transact {α : Type} (fault : Option Fault) (t : Tables)
    (body : Outcome (α × Tables)) : Outcome α × Tables :=
  match fault with
  | some .coordinate => (.error .coordinate, t)
  | some .database => (.error .database, t)
  | none => match body with
    | .error e => (.error e, t)
    | .ok (a, t') => (.ok a, t')

/-! ## Reading -/

def mapStoredType (endpointId : EndpointId) :
    Option String → Outcome (Option ResourceODataType)
  | none => .ok none
  | some value => match ResourceODataType.parse value with
    | .error e => .error (.corrupt endpointId (.invalidODataType e))
    | .ok odataType => .ok (some odataType)

def mapStoredEtag (endpointId : EndpointId) :
    Option String → Outcome (Option ResourceEtag)
  | none => .ok none
  | some value => match ResourceEtag.parse value with
    | .error e => .error (.corrupt endpointId (.invalidEtag e))
    | .ok etag => .ok (some etag)

variable (canonicalize) in
def mapStoredSnapshot (endpointId : EndpointId) (endpointCreatedAt : Instant)
    (generation : RefreshGeneration) (resource : ResourceModel)
    (snapshot : SnapshotModel) : Outcome (ResourceSnapshot canonicalize) :=
  if resource.createdAt < endpointCreatedAt then
    .error (.corrupt endpointId .resourcePredatesEndpoint)
  else if snapshot.observedAt < resource.createdAt then
    .error (.corrupt endpointId (.snapshotPredatesResource resource.id))
  else match ResourceFeature.fromStr resource.feature with
    | none => .error (.corrupt endpointId .unknownFeature)
    | some feature => match ResourceODataId.parse resource.odataId with
      | .error e => .error (.corrupt endpointId (.invalidODataId e))
      | .ok odataId =>
        match ResourceSnapshotPayload.parse canonicalize
            snapshot.typedPayloadJson with
        | .error e => .error (.corrupt endpointId (.invalidPayload e))
        | .ok payload => do
          let odataType ← mapStoredType endpointId snapshot.odataType
          let etag ← mapStoredEtag endpointId snapshot.etag
          .ok ⟨resource.id, endpointId, feature, odataId, odataType, etag, payload,
            snapshot.observedAt, generation⟩

def validateLoadedGeneration (endpointId : EndpointId)
    (snapshots : List (ResourceSnapshot canonicalize)) : Outcome Unit :=
  match snapshots with
  | [] => .error (.corrupt endpointId .emptyGeneration)
  | first :: _ =>
    let serviceRoots := snapshots.countP fun s => s.feature = .serviceRoot
    if snapshots.any fun s => s.observedAt ≠ first.observedAt then
      .error (.corrupt endpointId .mixedObservationTimes)
    else if serviceRoots ≠ 1 then
      .error (.corrupt endpointId (.invalidServiceRootCount serviceRoots))
    else .ok ()

def byResource (a b : SnapshotModel × ResourceModel) : Bool :=
  a.2.odataId ≤ b.2.odataId

variable (canonicalize) in
/-- Nothing for an endpoint that is not there; no snapshots for one without a
generation. -/
def findCurrentResourceGeneration (t : Tables) (endpointId : EndpointId) :
    Outcome (Option (List (ResourceSnapshot canonicalize))) :=
  match t.endpoints.find endpointId with
  | none => .ok none
  | some endpointModel => match latestGeneration t endpointId with
    | none => .ok (some [])
    | some latest => do
      let generation ← mapGeneration endpointId latest
      let rows := ((joined t endpointId).filter
        fun row => row.1.generation = latest).mergeSort byResource
      let snapshots ← rows.mapM fun row => mapStoredSnapshot canonicalize
        endpointId endpointModel.createdAt generation row.2 row.1
      validateLoadedGeneration endpointId snapshots
      .ok (some snapshots)

def mapStoredFailureType (endpointId : EndpointId) :
    Option String → Outcome (Option ResourceODataType)
  | none => .ok none
  | some value => match ResourceODataType.parse value with
    | .error e => .error (.corruptDecodeFailures endpointId (.invalidODataType e))
    | .ok odataType => .ok (some odataType)

def mapStoredDecodeFailure (endpointId : EndpointId) (row : DecodeFailureModel) :
    Outcome ResourceDecodeFailure :=
  match ResourceFeature.fromStr row.feature with
  | none => .error (.corruptDecodeFailures endpointId .unknownFeature)
  | some feature => match ResourceODataId.parse row.odataUri with
    | .error e =>
        .error (.corruptDecodeFailures endpointId (.invalidODataUri e))
    | .ok odataUri => do
      let odataType ← mapStoredFailureType endpointId row.odataType
      (ResourceDecodeFailure.tryNew odataUri odataType feature row.oemNamespace
        row.errorSummary row.extendedInfo).mapError
        fun e => .corruptDecodeFailures endpointId (.invalidDecodeFailure e)

def byUri (a b : DecodeFailureModel) : Bool := a.odataUri ≤ b.odataUri

def findCurrentDecodeFailures (t : Tables) (endpointId : EndpointId)
    (generation : RefreshGeneration) : Outcome (List ResourceDecodeFailure) :=
  ((t.decodeFailures.rows.filter fun row =>
    row.endpointId = endpointId ∧ row.generation = generation.get).mergeSort
      byUri).mapM (mapStoredDecodeFailure endpointId)

/-! ## Sequences of commits -/

/-- A commit that succeeded: what it was given, the tables it found, and what it
answered. -/
structure Commit (canonicalize : Canonicalize) where
  endpointId : EndpointId
  observations : List (NewResourceSnapshot canonicalize)
  observedAt : Instant
  before : Tables
  snapshots : List (ResourceSnapshot canonicalize)

structure State (canonicalize : Canonicalize) where
  tables : Tables
  commits : List (Commit canonicalize)

/-- Endpoints, and nothing that was seen of them. -/
def Initial (s : State canonicalize) : Prop :=
  s.tables.resources.rows = [] ∧ s.tables.snapshots.rows = [] ∧
    s.tables.decodeFailures.rows = [] ∧ s.commits = []

structure Label (canonicalize : Canonicalize) where
  endpointId : EndpointId
  observations : List (NewResourceSnapshot canonicalize)
  decodeFailures : List ResourceDecodeFailure
  observedAt : Instant
  fresh : Nat → ResourceId
  fault : Option Fault

/-- The call, with its answer and the tables after it. -/
def call (t : Tables) (l : Label canonicalize) :
    Outcome (List (ResourceSnapshot canonicalize)) × Tables :=
  transact l.fault t (commitResourceGeneration t l.endpointId l.observations
    l.decodeFailures l.observedAt l.fresh)

def next (s : State canonicalize) (l : Label canonicalize) :
    Option (State canonicalize) :=
  match call s.tables l with
  | (.error _, t) => some ⟨t, s.commits⟩
  | (.ok snapshots, t) => some ⟨t, s.commits ++
      [⟨l.endpointId, l.observations, l.observedAt, s.tables, snapshots⟩]⟩

abbrev Reachable (s : State canonicalize) : Prop := Reach Initial (Next next) s

def State.commitsOf (s : State canonicalize) (endpointId : EndpointId) :
    List (Commit canonicalize) :=
  s.commits.filter fun c => c.endpointId = endpointId

end Rutilus.Store.Resources
