import Rutilus.Domain.Report
import Rutilus.Store.Artifacts
import Rutilus.Store.Bindings

/-!
# The projection store of the center

What the center keeps of the endpoints and resources its sites report: the
endpoint with its owning site, its address, its trust decision, its resources
and the snapshots of each resource. Every write is one transaction that first
compares the reporting site with the stored owner. A claim on another site's
endpoint is refused, unless the operator has revoked that site's binding: then
an endpoint report takes the row over and an endpoint delete applies.

The generated identities of address, resource and snapshot rows are left out; a
row stands under what its unique index is over. Deleting an endpoint deletes
what belongs to it.
-/

namespace Rutilus.Store

open Rutilus.Domain Rutilus.Lib

/-! ## Bindings -/

/-- Whether the binding of a site was revoked: it looks at the first row of the
site, and a site without one is not revoked. -/
def bindingRevoked (bindings : BindingTable) (siteId : Option InstanceId) :
    Bool :=
  siteId.any fun site =>
    (bindings.rows.find? fun b => b.siteInstanceId = site).any
      fun b => b.state = .revoked

/-! ## Rows -/

inductive CenterTrustMode where
  | systemCa
  | pinnedCertificate
  deriving DecidableEq, Repr

structure EndpointRow where
  id : EndpointId
  siteId : Option InstanceId
  displayName : String
  refreshGeneration : Nat
  health : String
  createdAt : Instant
  updatedAt : Instant
  deriving DecidableEq, Repr

structure AddressRow where
  endpointId : EndpointId
  address : String
  createdAt : Instant
  deriving DecidableEq, Repr

structure TrustRow where
  endpointId : EndpointId
  trustMode : CenterTrustMode
  trustedAt : Instant
  deriving DecidableEq, Repr

structure ResourceRow where
  endpointId : EndpointId
  odataId : String
  feature : ResourceFeature
  createdAt : Instant
  deriving DecidableEq, Repr

def ResourceRow.key (row : ResourceRow) : EndpointId × String :=
  (row.endpointId, row.odataId)

structure SnapshotRow where
  endpointId : EndpointId
  odataId : String
  generation : Nat
  odataType : Option String
  etag : Option String
  payload : String
  observedAt : Instant
  deriving DecidableEq, Repr

def SnapshotRow.key (row : SnapshotRow) : EndpointId × String × Nat :=
  (row.endpointId, row.odataId, row.generation)

structure ProjectionTables where
  bindings : BindingTable
  endpoints : Table EndpointId EndpointRow EndpointRow.id
  addresses : Table String AddressRow AddressRow.address
  trusts : Table EndpointId TrustRow TrustRow.endpointId
  resources : Table (EndpointId × String) ResourceRow ResourceRow.key
  snapshots : Table (EndpointId × String × Nat) SnapshotRow SnapshotRow.key

def ProjectionTables.empty : ProjectionTables :=
  ⟨.empty, .empty, .empty, .empty, .empty, .empty⟩

/-! ## Writes -/

structure EndpointProjectionWrite where
  endpointId : EndpointId
  displayName : String
  address : String
  trustMode : CenterTrustMode
  refreshGeneration : Nat
  health : String
  deriving DecidableEq, Repr

structure ResourceProjectionWrite where
  endpointId : EndpointId
  odataId : String
  feature : ResourceFeature
  odataType : Option String
  etag : Option String
  generation : Nat
  payload : Option String
  observedAt : Instant
  deriving DecidableEq, Repr

inductive ProjectionIgnoreReason where
  | endpointBelongsToOtherSite
  | addressAlreadyProjected
  | staleGeneration
  | unknownEndpoint
  deriving DecidableEq, Repr

inductive ProjectionWriteOutcome where
  | applied
  | ignored (reason : ProjectionIgnoreReason)
  deriving DecidableEq, Repr

inductive ProjectionRepositoryError where
  | fault (source : Fault)
  | integerOverflow
  | event
  | artifact (source : ArtifactRepositoryError)
  deriving DecidableEq, Repr

/-- A landed write answers with its outcome and the tables after it. -/
abbrev ProjectionWrite : Type :=
  Except ProjectionRepositoryError (ProjectionWriteOutcome × ProjectionTables)

/-- The address of an endpoint after a report; `none` when another endpoint
has the address already. An unchanged address keeps its row. -/
def replaceAddress (t : ProjectionTables) (projection : EndpointProjectionWrite)
    (now : Instant) : Option ProjectionTables :=
  let active := t.addresses.rows.find? fun row =>
    row.endpointId = projection.endpointId
  if active.any fun row => row.address = projection.address then some t
  else
    let rest := t.addresses.filter fun row =>
      row.endpointId ≠ projection.endpointId
    if rest.has projection.address then none
    else
      let row := ⟨projection.endpointId, projection.address, now⟩
      some { t with addresses := rest.insertNew row }

/-- The trust row of an endpoint after a report; an unchanged decision keeps
its row. -/
def replaceTrust (t : ProjectionTables) (projection : EndpointProjectionWrite)
    (now : Instant) : ProjectionTables :=
  if (t.trusts.find projection.endpointId).any fun row =>
      row.trustMode = projection.trustMode then t
  else
    let row := ⟨projection.endpointId, projection.trustMode, now⟩
    { t with trusts := t.trusts.put row }

/-- The part of an endpoint report after its row: address, then trust. -/
def projectDetails (before t : ProjectionTables)
    (projection : EndpointProjectionWrite) (now : Instant) : ProjectionWrite :=
  match replaceAddress t projection now with
  | none => .ok (.ignored .addressAlreadyProjected, before)
  | some t => .ok (.applied, replaceTrust t projection now)

def upsertEndpointProjection (t : ProjectionTables)
    (projection : EndpointProjectionWrite) (site : InstanceId)
    (now : Instant) : ProjectionWrite :=
  match t.endpoints.find projection.endpointId with
  | some stored =>
    let rehome := stored.siteId ≠ some site ∧
      bindingRevoked t.bindings stored.siteId = true
    if stored.siteId ≠ some site ∧ ¬ rehome then
      .ok (.ignored .endpointBelongsToOtherSite, t)
    else if projection.refreshGeneration < stored.refreshGeneration then
      .ok (.ignored .staleGeneration, t)
    else if maxInteger < projection.refreshGeneration then
      .error .integerOverflow
    else
      let row := { stored with
        siteId := if rehome then some site else stored.siteId
        displayName := projection.displayName
        refreshGeneration := projection.refreshGeneration
        health := projection.health
        updatedAt := now }
      projectDetails t { t with endpoints := t.endpoints.replace row }
        projection now
  | none =>
    if maxInteger < projection.refreshGeneration then .error .integerOverflow
    else
      let row :=
        { id := projection.endpointId
          siteId := some site
          displayName := projection.displayName
          refreshGeneration := projection.refreshGeneration
          health := projection.health
          createdAt := now
          updatedAt := now }
      projectDetails t { t with endpoints := t.endpoints.insertNew row }
        projection now

/-- The endpoint's row goes, and with it every row that refers to it. -/
def deleteEndpoint (t : ProjectionTables) (endpointId : EndpointId) :
    ProjectionTables :=
  { t with
    endpoints := t.endpoints.filter fun row => row.id ≠ endpointId
    addresses := t.addresses.filter fun row => row.endpointId ≠ endpointId
    trusts := t.trusts.filter fun row => row.endpointId ≠ endpointId
    resources := t.resources.filter fun row => row.endpointId ≠ endpointId
    snapshots := t.snapshots.filter fun row => row.endpointId ≠ endpointId }

def deleteEndpointProjection (t : ProjectionTables) (endpointId : EndpointId)
    (site : InstanceId) : ProjectionWrite :=
  match t.endpoints.find endpointId with
  | none => .ok (.applied, t)
  | some stored =>
    if stored.siteId ≠ some site ∧
        bindingRevoked t.bindings stored.siteId = false then
      .ok (.ignored .endpointBelongsToOtherSite, t)
    else .ok (.applied, deleteEndpoint t endpointId)

/-- The newest stored snapshot of a resource. -/
def snapshotWatermark (t : ProjectionTables) (endpointId : EndpointId)
    (odataId : String) : Option Nat :=
  ((t.snapshots.rows.filter fun row =>
    row.endpointId = endpointId ∧ row.odataId = odataId).map
      SnapshotRow.generation).max?

def upsertResourceProjection (t : ProjectionTables)
    (projection : ResourceProjectionWrite) (site : InstanceId)
    (now : Instant) : ProjectionWrite :=
  match t.endpoints.find projection.endpointId with
  | none => .ok (.ignored .unknownEndpoint, t)
  | some stored =>
    if stored.siteId ≠ some site then
      .ok (.ignored .endpointBelongsToOtherSite, t)
    else if (snapshotWatermark t projection.endpointId projection.odataId).any
        fun watermark => projection.generation < watermark then
      .ok (.ignored .staleGeneration, t)
    else if maxInteger < projection.generation then .error .integerOverflow
    else .ok (.applied, { t with
      resources := t.resources.insertNew
        ⟨projection.endpointId, projection.odataId, projection.feature, now⟩
      snapshots := t.snapshots.put
        { endpointId := projection.endpointId
          odataId := projection.odataId
          generation := projection.generation
          odataType := projection.odataType
          etag := projection.etag
          payload := projection.payload.getD ""
          observedAt := projection.observedAt } })

/-- The resource's row goes, and with it its snapshots. -/
def deleteResource (t : ProjectionTables) (endpointId : EndpointId)
    (odataId : String) : ProjectionTables :=
  { t with
    resources := t.resources.filter fun row =>
      ¬ (row.endpointId = endpointId ∧ row.odataId = odataId)
    snapshots := t.snapshots.filter fun row =>
      ¬ (row.endpointId = endpointId ∧ row.odataId = odataId) }

def deleteResourceProjection (t : ProjectionTables) (endpointId : EndpointId)
    (odataId : String) (site : InstanceId) : ProjectionWrite :=
  match t.endpoints.find endpointId with
  | none => .ok (.applied, t)
  | some stored =>
    if stored.siteId ≠ some site then
      .ok (.ignored .endpointBelongsToOtherSite, t)
    else .ok (.applied, deleteResource t endpointId odataId)

/-- The owner of an endpoint, if the endpoint is projected. -/
def findEndpointProjection (t : ProjectionTables) (endpointId : EndpointId) :
    Option (Option InstanceId) :=
  (t.endpoints.find endpointId).map EndpointRow.siteId

end Rutilus.Store
