import Mathlib.Data.List.Sort
import Rutilus.Domain.Capability
import Rutilus.Lib.Outcome
import Rutilus.Lib.Table

/-!
# The capability store

The `endpoint_capabilities` table holds one row for each capability of an endpoint, with
the state that was observed last. A replacement is one transaction under the write gate:
it takes the rows of the endpoint out and writes those of the new snapshot, all with one
observation time. The rows are read for one endpoint, or for a list of endpoints in one
query and then put apart.
-/

namespace Rutilus.Store.EndpointCapabilities

open Rutilus.Domain Rutilus.Lib

/-! ## Tables -/

/-- A row of `endpoints`, as far as it is read here. -/
structure EndpointModel where
  id : EndpointId
  createdAt : Instant
  deriving DecidableEq, Repr

structure CapabilityModel where
  endpointId : EndpointId
  capability : String
  state : String
  observedAt : Instant
  deriving DecidableEq, Repr

/-- The primary key. -/
def CapabilityModel.key (model : CapabilityModel) : EndpointId × String :=
  (model.endpointId, model.capability)

structure CapabilityTables where
  endpoints : Table EndpointId EndpointModel EndpointModel.id
  capabilities : Table (EndpointId × String) CapabilityModel CapabilityModel.key

inductive StoredEndpointCapabilityError where
  | unknownCapability
  | unknownState
  | observationPredatesEndpoint (capability : EndpointCapability)
  deriving DecidableEq, Repr

inductive EndpointCapabilityRepositoryError where
  | coordinate
  | emptySnapshot (endpointId : EndpointId)
  | duplicateCapability (endpointId : EndpointId) (capability : EndpointCapability)
  | endpointNotFound (endpointId : EndpointId)
  | observationPredatesEndpoint (endpointId : EndpointId)
  | database
  | corrupt (endpointId : EndpointId) (source : StoredEndpointCapabilityError)
  deriving DecidableEq, Repr

/-! ## Replacing a snapshot -/

inductive InvalidCapabilitySnapshot where
  | empty
  | duplicate (capability : EndpointCapability)
  deriving DecidableEq, Repr

/-- No capability comes twice, nor is one of those seen before. -/
def validateFrom (capabilities : List EndpointCapability) :
    List EndpointCapabilityObservation → Except InvalidCapabilitySnapshot Unit
  | [] => .ok ()
  | observation :: observations =>
      if observation.capability ∈ capabilities then
        .error (.duplicate observation.capability)
      else validateFrom (observation.capability :: capabilities) observations

def validateSnapshot (observations : List EndpointCapabilityObservation) :
    Except InvalidCapabilitySnapshot Unit :=
  if observations = [] then .error .empty else validateFrom [] observations

def mapSnapshotError (endpointId : EndpointId) :
    InvalidCapabilitySnapshot → EndpointCapabilityRepositoryError
  | .empty => .emptySnapshot endpointId
  | .duplicate capability => .duplicateCapability endpointId capability

/-- The row of an observation. -/
def capabilityModel (endpointId : EndpointId) (observedAt : Instant)
    (observation : EndpointCapabilityObservation) : CapabilityModel where
  endpointId := endpointId
  capability := observation.capability.asStr
  state := observation.state.asStr
  observedAt := observedAt

/-- A row is not inserted where its key is taken. -/
def insertCapabilities
    (t : Table (EndpointId × String) CapabilityModel CapabilityModel.key)
    (endpointId : EndpointId) (observations : List EndpointCapabilityObservation)
    (observedAt : Instant) :
    Except EndpointCapabilityRepositoryError
      (Table (EndpointId × String) CapabilityModel CapabilityModel.key) :=
  observations.foldlM (fun t observation =>
    let model := capabilityModel endpointId observedAt observation
    if t.has model.key then .error .database else .ok (t.insertNew model)) t

/-- The statements of a replacement. -/
def replaceBody (endpointId : EndpointId)
    (observations : List EndpointCapabilityObservation) (observedAt : Instant)
    (t : CapabilityTables) :
    Except EndpointCapabilityRepositoryError (Unit × CapabilityTables) := do
  let some endpointModel := t.endpoints.find endpointId
    | throw (.endpointNotFound endpointId)
  if observedAt < endpointModel.createdAt then
    throw (.observationPredatesEndpoint endpointId)
  let kept := t.capabilities.filter fun model => model.endpointId ≠ endpointId
  let capabilities ← insertCapabilities kept endpointId observations observedAt
  return ((), { t with capabilities })

/-- The gate is closed, or a statement of the transaction fails. -/
inductive ReplaceFault where
  | coordinate
  | database
  deriving DecidableEq, Repr

def ReplaceFault.error : ReplaceFault → EndpointCapabilityRepositoryError
  | .coordinate => .coordinate
  | .database => .database

def replaceEndpointCapabilities (fault : Option ReplaceFault) (t : CapabilityTables)
    (endpointId : EndpointId) (observations : List EndpointCapabilityObservation)
    (observedAt : Instant) :
    Except EndpointCapabilityRepositoryError Unit × CapabilityTables :=
  match validateSnapshot observations with
  | .error source => (.error (mapSnapshotError endpointId source), t)
  | .ok () =>
      transaction ReplaceFault.error fault t
        (replaceBody endpointId observations observedAt)

/-! ## Reading -/

structure StoredEndpointCapability where
  observation : EndpointCapabilityObservation
  observedAt : Instant
  deriving DecidableEq, Repr

def mapStoredCapability (endpointId : EndpointId) (endpointCreatedAt : Instant)
    (model : CapabilityModel) :
    Except EndpointCapabilityRepositoryError StoredEndpointCapability := do
  let some capability := EndpointCapability.fromStr model.capability
    | throw (.corrupt endpointId .unknownCapability)
  let some state := CapabilityState.fromStr model.state
    | throw (.corrupt endpointId .unknownState)
  if model.observedAt < endpointCreatedAt then
    throw (.corrupt endpointId (.observationPredatesEndpoint capability))
  return ⟨⟨capability, state⟩, model.observedAt⟩

/-- The rows in the order of the capability codes. -/
def orderByCapability (models : List CapabilityModel) : List CapabilityModel :=
  models.insertionSort fun a b => a.capability ≤ b.capability

def findEndpointCapabilities (t : CapabilityTables) (endpointId : EndpointId) :
    Except EndpointCapabilityRepositoryError
      (Option (List StoredEndpointCapability)) :=
  match t.endpoints.find endpointId with
  | none => .ok none
  | some endpointModel => do
      let models := orderByCapability
        (t.capabilities.rows.filter fun model => model.endpointId = endpointId)
      let capabilities ← models.mapM
        (mapStoredCapability endpointId endpointModel.createdAt)
      return some capabilities

/-- What a batch answers for each endpoint. -/
abbrev ObservationMap : Type := EndpointId → Option (List StoredEndpointCapability)

/-- One row goes to its endpoint, if that is among those that were found. -/
def groupModel (createdAtById : EndpointId → Option Instant)
    (observationsByEndpoint : ObservationMap) (model : CapabilityModel) :
    Except EndpointCapabilityRepositoryError ObservationMap :=
  match createdAtById model.endpointId with
  | none => .ok observationsByEndpoint
  | some createdAt => do
      let capability ← mapStoredCapability model.endpointId createdAt model
      let observations := (observationsByEndpoint model.endpointId).getD []
      return Function.update observationsByEndpoint model.endpointId
        (some (observations ++ [capability]))

/-- When the endpoints that are asked for were created. -/
def createdAtById (t : CapabilityTables) (endpointIds : List EndpointId)
    (id : EndpointId) : Option Instant :=
  let endpointModels := t.endpoints.filter fun model => model.id ∈ endpointIds
  (endpointModels.find id).map EndpointModel.createdAt

def findEndpointCapabilitiesBatch (t : CapabilityTables)
    (endpointIds : List EndpointId) :
    Except EndpointCapabilityRepositoryError ObservationMap :=
  if endpointIds = [] then .ok fun _ => none
  else
    let created := createdAtById t endpointIds
    let models := orderByCapability
      (t.capabilities.rows.filter fun model => model.endpointId ∈ endpointIds)
    let observationsByEndpoint : ObservationMap := endpointIds.foldl (fun m id =>
      if (created id).isSome then Function.update m id (some []) else m)
      fun _ => none
    models.foldlM (groupModel created) observationsByEndpoint

end Rutilus.Store.EndpointCapabilities
