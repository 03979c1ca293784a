import Rutilus.Lib.Prog
import Rutilus.Store.ResourceSnapshots

/-!
# The endpoint inventory

Every endpoint with its current generation. The listing is no transaction of its
own: it lists the endpoints, then loads for each the current generation and then
the records of skipped members, which it asks for under the generation it has
just loaded. The item checks once more that what it was given is one complete
generation.

Endpoints are listed by their display name, a column that is not read here; the
order is a parameter.
-/

namespace Rutilus.App.EndpointInventory

open Rutilus.Domain hiding ResourceFeature
open Rutilus.Domain.Resource Rutilus.Lib Rutilus.Store Rutilus.Store.Resources

variable {canonicalize : Canonicalize}

/-! ## Items -/

structure EndpointInventoryItem (canonicalize : Canonicalize) where
  endpoint : EndpointModel
  resources : List (ResourceSnapshot canonicalize)
  decodeFailures : List ResourceDecodeFailure

inductive EndpointInventoryItemError where
  | foreignResource (endpointId : EndpointId) (resourceId : ResourceId)
  | mixedGeneration (endpointId : EndpointId)
  | mixedObservationTime (endpointId : EndpointId)
  | duplicateResourceId (endpointId : EndpointId) (resourceId : ResourceId)
  | duplicateODataId (endpointId : EndpointId)
  | serviceRootMissing (endpointId : EndpointId)
  | multipleServiceRoots (endpointId : EndpointId)
  deriving DecidableEq, Repr

namespace EndpointInventoryItem

/-- The loop of the checks, with what it has seen; it counts the roots. -/
def checkResources (endpointId : EndpointId) (generation : RefreshGeneration)
    (observedAt : Instant) : List ResourceId → List ResourceODataId → Nat →
      List (ResourceSnapshot canonicalize) →
        Except EndpointInventoryItemError Nat
  | _, _, serviceRoots, [] => .ok serviceRoots
  | resourceIds, odataIds, serviceRoots, resource :: rest =>
    if resource.endpointId ≠ endpointId then
      .error (.foreignResource endpointId resource.resourceId)
    else if resource.generation ≠ generation then
      .error (.mixedGeneration endpointId)
    else if resource.observedAt ≠ observedAt then
      .error (.mixedObservationTime endpointId)
    else if resource.resourceId ∈ resourceIds then
      .error (.duplicateResourceId endpointId resource.resourceId)
    else if resource.odataId ∈ odataIds then
      .error (.duplicateODataId endpointId)
    else checkResources endpointId generation observedAt
      (resource.resourceId :: resourceIds) (resource.odataId :: odataIds)
      (if resource.feature = .serviceRoot then serviceRoots + 1
        else serviceRoots) rest

/-- No resources stand for an endpoint without a first refresh. -/
def tryNew (endpoint : EndpointModel)
    (resources : List (ResourceSnapshot canonicalize)) :
    Except EndpointInventoryItemError (EndpointInventoryItem canonicalize) :=
  match resources with
  | [] => .ok ⟨endpoint, [], []⟩
  | first :: _ =>
    match checkResources endpoint.id first.generation first.observedAt [] [] 0
        resources with
    | .error e => .error e
    | .ok 1 => .ok ⟨endpoint, resources.mergeSort byODataId, []⟩
    | .ok 0 => .error (.serviceRootMissing endpoint.id)
    | .ok _ => .error (.multipleServiceRoots endpoint.id)

def withDecodeFailures (item : EndpointInventoryItem canonicalize)
    (decodeFailures : List ResourceDecodeFailure) :
    EndpointInventoryItem canonicalize :=
  { item with decodeFailures }

def generation (item : EndpointInventoryItem canonicalize) :
    Option RefreshGeneration :=
  item.resources.head?.map (·.generation)

end EndpointInventoryItem

/-! ## The listing -/

inductive InventoryReq where
  | listEndpoints
  | findCurrentResourceGeneration (endpointId : EndpointId)
  | findCurrentDecodeFailures (endpointId : EndpointId)
      (generation : RefreshGeneration)

variable (canonicalize) in
abbrev InventoryReq.Resp : InventoryReq → Type
  | .listEndpoints => Except Fault (List EndpointModel)
  | .findCurrentResourceGeneration _ =>
      Outcome (Option (List (ResourceSnapshot canonicalize)))
  | .findCurrentDecodeFailures .. => Outcome (List ResourceDecodeFailure)

abbrev inventorySig (canonicalize : Canonicalize) : Sig :=
  ⟨InventoryReq, InventoryReq.Resp canonicalize⟩

inductive EndpointInventoryPersistenceError where
  | endpoint (source : Fault)
  | snapshot (source : ResourceSnapshotRepositoryError)
  | decodeFailures (source : ResourceSnapshotRepositoryError)
  | endpointDisappeared (endpointId : EndpointId)
  | inventory (source : EndpointInventoryItemError)

abbrev M (canonicalize : Canonicalize) : Type → Type :=
  ExceptT EndpointInventoryPersistenceError (Prog (inventorySig canonicalize))

abbrev call (q : InventoryReq) :
    Prog (inventorySig canonicalize) (q.Resp canonicalize) := .call q .ret

def loadItem (endpoint : EndpointModel) :
    M canonicalize (EndpointInventoryItem canonicalize) := do
  let found ← orThrow
    (@call canonicalize
      (.findCurrentResourceGeneration endpoint.id)) .snapshot
  match found with
  | none => throw (.endpointDisappeared endpoint.id)
  | some resources =>
    match EndpointInventoryItem.tryNew endpoint resources with
    | .error e => throw (.inventory e)
    | .ok item => match item.generation with
      | none => return item
      | some generation => do
        let decodeFailures ← orThrow
          (@call canonicalize
            (.findCurrentDecodeFailures endpoint.id generation)) .decodeFailures
        return item.withDecodeFailures decodeFailures

def loadItems : List EndpointModel →
    M canonicalize (List (EndpointInventoryItem canonicalize))
  | [] => return []
  | endpoint :: endpoints => do
    let item ← loadItem endpoint
    let items ← loadItems endpoints
    return item :: items

def listEndpointInventory :
    M canonicalize (List (EndpointInventoryItem canonicalize)) := do
  let endpoints ← orThrow (@call canonicalize .listEndpoints)
    .endpoint
  loadItems endpoints

/-- What the calls answer, without faults; they only read. -/
def answer (order : EndpointModel → EndpointModel → Bool) (t : Tables) :
    (q : InventoryReq) → q.Resp canonicalize
  | .listEndpoints => .ok (t.endpoints.rows.mergeSort order)
  | .findCurrentResourceGeneration endpointId =>
      Resources.findCurrentResourceGeneration canonicalize t endpointId
  | .findCurrentDecodeFailures endpointId generation =>
      Resources.findCurrentDecodeFailures t endpointId generation

/-! ## A listing among commits -/

/-- A commit, with the records it was given. -/
abbrev Entry (canonicalize : Canonicalize) : Type :=
  Commit canonicalize × List ResourceDecodeFailure

/-- The tables, and the commits that made them. -/
structure World (canonicalize : Canonicalize) where
  tables : Tables
  log : List (Entry canonicalize)

namespace World

def store (w : World canonicalize) : Resources.State canonicalize :=
  ⟨w.tables, w.log.map Prod.fst⟩

/-- The commits of an endpoint. -/
def logOf (log : List (Entry canonicalize)) (endpointId : EndpointId) :
    List (Entry canonicalize) :=
  log.filter fun entry => entry.1.endpointId = endpointId

def commit (w : World canonicalize) (l : Resources.Label canonicalize) :
    World canonicalize :=
  match Resources.call w.tables l with
  | (.error _, t) => ⟨t, w.log⟩
  | (.ok snapshots, t) => ⟨t, w.log ++ [(⟨l.endpointId, l.observations,
      l.observedAt, w.tables, snapshots⟩, l.decodeFailures)]⟩

end World

/-- A running listing, and how many commits there were when it began. -/
structure Listing (canonicalize : Canonicalize) where
  since : Nat
  rest : Prog (inventorySig canonicalize)
    (Except EndpointInventoryPersistenceError
      (List (EndpointInventoryItem canonicalize)))

structure System (canonicalize : Canonicalize) where
  world : World canonicalize
  listing : Option (Listing canonicalize)

inductive Label (canonicalize : Canonicalize) where
  | commit (l : Resources.Label canonicalize)
  | start
  | read

/-- One step: a commit, the begin of a listing, or its next transaction. -/
def next (order : EndpointModel → EndpointModel → Bool)
    (s : System canonicalize) : Label canonicalize →
      Option (System canonicalize)
  | .commit l => some { s with world := s.world.commit l }
  | .start => some { s with
      listing := some ⟨s.world.log.length, listEndpointInventory⟩ }
  | .read => match s.listing with
    | some ⟨since, .call q k⟩ => some { s with
        listing := some ⟨since, k (answer order s.world.tables q)⟩ }
    | _ => none

/-- Endpoints, and nothing that was seen of them. -/
def Initial (s : System canonicalize) : Prop :=
  Resources.Initial s.world.store ∧ s.listing = none

end Rutilus.App.EndpointInventory
