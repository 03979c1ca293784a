import Mathlib.Logic.Function.Basic
import Rutilus.Endpoints.Refresh
import Rutilus.Lib.Runs

/-!
# The refresh of a batch

A batch is checked completely, and then its endpoints are refreshed concurrently,
each with its own outcome. A refresh of a batch passes the batch's semaphore and the
read gate of its endpoint, and holds both until it has its outcome.
-/

namespace Rutilus.Endpoints

open Rutilus.Domain hiding AuditRedfishOperation ResourceFeature
open Rutilus.Domain.Audit Rutilus.Domain.Endpoint Rutilus.Domain.Resource Rutilus.Lib

variable {B : Outside}

def maxRefreshTargets : Nat := 128

def maxConcurrentRefreshes : Nat := 4

inductive EndpointRefreshFailureKind where
  | audit
  | load
  | credential
  | read
  | commit
  | capabilityProbe
  | capabilityCommit
  | coordination
  deriving DecidableEq, Repr

/-- What the message of a failure is the text of. -/
inductive RefreshFailureMessage (B : Outside) where
  | text (message : String)
  | audit (source : AuditRecordError B.audit)
  | refresh (source : EndpointRefreshError B)

inductive EndpointRefreshOutcome (B : Outside) where
  | refreshed (endpointId : EndpointId) (generation : RefreshGeneration)
      (snapshotCount : Nat)
  | failed (endpointId : EndpointId) (reason : EndpointRefreshFailureKind)
      (message : RefreshFailureMessage B)
  | notFound (endpointId : EndpointId)

inductive BatchEndpointRefreshError (B : Outside) where
  | emptyTargets
  | tooManyTargets (limit : Nat)
  | duplicateEndpoint (endpointId : EndpointId)
  | unknownEndpoint (endpointId : EndpointId)
  | precheck (source : B.repository)

/-! ## Outcomes -/

/-- A success without snapshots is reported as a failure. -/
def refreshedOutcome (endpointId : EndpointId)
    (snapshots : List (ResourceSnapshot B.canonicalize)) : EndpointRefreshOutcome B :=
  match snapshots with
  | [] => .failed endpointId .commit
      (.text "the refresh committed an empty generation")
  | first :: _ => .refreshed endpointId first.generation snapshots.length

def classifyRefresh : EndpointRefreshError B → EndpointRefreshFailureKind
  | .loadEndpoint _ | .endpointNotFound _ => .load
  | .credential _ | .credentialNotFound _ => .credential
  | .read _ => .read
  | .commit _ => .commit
  | .capabilityProbe _ => .capabilityProbe
  | .capabilityCommit _ => .capabilityCommit

def classifyFailure : AuditedEndpointRefreshError B →
    EndpointRefreshFailureKind × RefreshFailureMessage B
  | .audit _ _ _ source => (.audit, .audit source)
  | .refresh _ source | .refreshAndAudit _ source _ =>
      (classifyRefresh source, .refresh source)

def failureOutcome (endpointId : EndpointId)
    (failure : AuditedEndpointRefreshError B) : EndpointRefreshOutcome B :=
  match failure with
  | .refresh _ (.endpointNotFound _)
  | .refreshAndAudit _ (.endpointNotFound _) _ => .notFound endpointId
  | _ => .failed endpointId (classifyFailure failure).1 (classifyFailure failure).2

namespace BatchEndpointRefresh

/-! ## The check of a batch -/

/-- The first endpoint that is named again. -/
def firstDuplicate : List EndpointId → List EndpointId → Option EndpointId
  | _, [] => none
  | seen, endpointId :: rest =>
    if endpointId ∈ seen then some endpointId
    else firstDuplicate (endpointId :: seen) rest

def precheck : List EndpointId → UseCase B (BatchEndpointRefreshError B) Unit
  | [] => return ()
  | endpointId :: rest => do
    let some _ ← orThrow (call (.findEndpoint endpointId)) .precheck
      | throw (.unknownEndpoint endpointId)
    precheck rest

def validateEndpointIds (endpointIds : List EndpointId) :
    UseCase B (BatchEndpointRefreshError B) Unit := do
  if endpointIds.isEmpty then throw .emptyTargets
  else if maxRefreshTargets < endpointIds.length then
    throw (.tooManyTargets maxRefreshTargets)
  else match firstDuplicate [] endpointIds with
    | some endpointId => throw (.duplicateEndpoint endpointId)
    | none => precheck endpointIds

/-! ## One refresh of a batch -/

def uncoordinated (endpointId : EndpointId) (message : String) :
    EndpointRefreshOutcome B :=
  .failed endpointId .coordination (.text message)

def refreshOne (who : Accountable) (semaphore : Semaphore) (endpointId : EndpointId) :
    Prog (endpoints B) (EndpointRefreshOutcome B) := do
  match ← call (.acquire semaphore) with
  | .error () =>
      return uncoordinated endpointId "the refresh concurrency gate is closed"
  | .ok () => match ← call (.endpointReadGate endpointId) with
    | none =>
        return uncoordinated endpointId
          "the endpoint refresh gate registry is unavailable"
    | some gate => match ← call (.acquire gate) with
      | .error () =>
          return uncoordinated endpointId "the endpoint refresh gate is closed"
      | .ok () => match ← (AuditedEndpointRefresh.execute who endpointId).run with
        | .ok snapshots => return refreshedOutcome endpointId snapshots
        | .error failure => return failureOutcome endpointId failure

end BatchEndpointRefresh

end Rutilus.Endpoints

/-!
## Concurrent refreshes

Any number of batches and enrollments run at once in one process of the server. A
step issues a call of one of them or answers it, so other steps may come between the
two. The read gates and the batches' semaphores are shared, a permit is returned when
its holder ends or is dropped, and the commits go to the resource store. A call that
is dropped before its answer has no effect.
-/

namespace Rutilus.Endpoints.Refreshes

open Rutilus.Domain hiding AuditRedfishOperation ResourceFeature
open Rutilus.Domain.Audit Rutilus.Domain.Endpoint Rutilus.Domain.Resource Rutilus.Lib

variable {B : Outside}

/-! ## Work -/

/-- What is done on its own ends with the endpoints that are then refreshed. -/
abbrev Work (B : Outside) : Type := Prog (endpoints B) (List EndpointId)

/-- `BatchEndpointRefresh::execute` up to its refreshes. -/
def batchWork (targets : List EndpointId) : Work B := do
  match ← (BatchEndpointRefresh.validateEndpointIds targets).run with
  | .ok () => return targets
  | .error _ => return []

def refreshWork (who : Accountable) (semaphore : Semaphore)
    (endpointId : EndpointId) : Work B := do
  let _ ← BatchEndpointRefresh.refreshOne who semaphore endpointId
  return []

def enrollmentWork (who : Accountable)
    (request : OnboardEndpointRequest B.parseUrl) : Work B := do
  let _ ← (EndpointEnrollment.execute who request).run
  return []

/-- Which endpoint a process last found, and what it read of it. -/
inductive Stage (canonicalize : Canonicalize) where
  | outside
  | found (endpointId : EndpointId)
  | read (endpointId : EndpointId)
      (observations : List (ResourceObservation canonicalize))

/-- What the answers of a process have told so far: the read gates it was given, the
permits it holds, and its stage. -/
structure Progress (B : Outside) where
  gates : List (EndpointId × Semaphore)
  held : List Semaphore
  stage : Stage B.canonicalize

def Progress.start : Progress B := ⟨[], [], .outside⟩

def Progress.see (t : Progress B) (q : Req B) (r : q.Resp) : Progress B :=
  match q, r with
  | .endpointReadGate endpointId, some gate =>
      { t with gates := (endpointId, gate) :: t.gates }
  | .acquire semaphore, .ok () => { t with held := semaphore :: t.held }
  | .findEndpoint endpointId, .ok (some _) => { t with stage := .found endpointId }
  | .readCoreResources .., .ok outcome => match t.stage with
    | .found endpointId =>
        { t with stage := .read endpointId outcome.observations }
    | _ => { t with stage := .outside }
  | .readCoreResources .., .error _ => { t with stage := .outside }
  | .commitResourceGeneration .., _ => { t with stage := .outside }
  | _, _ => t

structure Process (B : Outside) where
  who : Accountable
  rest : Work B
  issued : Bool
  progress : Progress B

/-! ## The system -/

inductive Event (B : Outside) where
  | readStarted (pid : Nat) (endpointId : EndpointId)
  | readAnswered (pid : Nat) (endpointId : EndpointId)
      (observations : List (ResourceObservation B.canonicalize))
  | committed (pid : Nat) (commit : Store.Resources.Commit B.canonicalize)

structure State (B : Outside) where
  gates : EndpointId → Option Semaphore
  capacity : Semaphore → Nat
  holders : Semaphore → List Nat
  semaphores : Nat
  processes : Nat → Option (Process B)
  spawned : Nat
  store : Store.Resources.State B.canonicalize
  log : List (Event B)

/-- A server that has just started, with its endpoints. -/
structure Initial (s : State B) : Prop where
  gates : ∀ endpointId, s.gates endpointId = none
  capacity : ∀ semaphore, s.capacity semaphore = 0
  holders : ∀ semaphore, s.holders semaphore = []
  processes : ∀ pid, s.processes pid = none
  store : Store.Resources.Initial s.store
  log : s.log = []

namespace State

def spawn (s : State B) (who : Accountable) (rest : Work B) : State B :=
  { s with
    processes := Function.update s.processes s.spawned (some ⟨who, rest, false, .start⟩)
    spawned := s.spawned + 1 }

def newSemaphore (s : State B) (permits : Nat) : State B :=
  { s with
    capacity := Function.update s.capacity s.semaphores permits
    semaphores := s.semaphores + 1 }

/-- A process that is no more returns its permits. -/
def leave (s : State B) (pid : Nat) : State B :=
  { s with
    processes := Function.update s.processes pid none
    holders := fun semaphore => (s.holders semaphore).filter (· ≠ pid) }

/-- The refreshes of a batch share one semaphore. -/
def spawnRefreshes (s : State B) (who : Accountable) (targets : List EndpointId) :
    State B :=
  match targets with
  | [] => s
  | _ => targets.foldl (fun s' endpointId =>
      s'.spawn who (refreshWork who s.semaphores endpointId))
      (s.newSemaphore maxConcurrentRefreshes)

/-- A created endpoint is in the store. -/
def enroll (s : State B) (endpointId : EndpointId) (createdAt : Instant) : State B :=
  { s with store := { s.store with tables := { s.store.tables with
    endpoints := s.store.tables.endpoints.insertNew ⟨endpointId, createdAt⟩ } } }

end State

/-- What an answer depends on beside the system: what the collaborators answer, and
the identities and the fault of a commit. -/
structure Environment (B : Outside) where
  reply : (q : Req B) → q.Resp
  fresh : Nat → ResourceId
  fault : Option Store.Fault

/-- `endpoint_read_gate`: a gate has one permit and is made on first use. -/
def endpointReadGate (s : State B) (endpointId : EndpointId) : Semaphore × State B :=
  match s.gates endpointId with
  | some gate => (gate, s)
  | none => (s.semaphores,
      { s.newSemaphore 1 with
        gates := Function.update s.gates endpointId (some s.semaphores) })

def acquire (s : State B) (pid : Nat) (semaphore : Semaphore) : Option (State B) :=
  if (s.holders semaphore).length < s.capacity semaphore then
    some { s with holders :=
      Function.update s.holders semaphore (pid :: s.holders semaphore) }
  else none

variable (wrap : Store.Resources.ResourceSnapshotRepositoryError → B.repository)

def commit (s : State B) (pid : Nat) (l : Store.Resources.Label B.canonicalize) :
    Except B.repository (List (ResourceSnapshot B.canonicalize)) × State B :=
  match Store.Resources.call s.store.tables l with
  | (.error e, _) => (.error (wrap e), s)
  | (.ok snapshots, t) =>
    let commit : Store.Resources.Commit B.canonicalize :=
      ⟨l.endpointId, l.observations, l.observedAt, s.store.tables, snapshots⟩
    (.ok snapshots, { s with
      store := ⟨t, s.store.commits ++ [commit]⟩
      log := s.log ++ [.committed pid commit] })

/-- The answer to a call, and what it does; a permit that is not there is waited
for. -/
def respond (s : State B) (pid : Nat) (env : Environment B) :
    (q : Req B) → Option (q.Resp × State B)
  | .endpointReadGate endpointId => match env.reply (.endpointReadGate endpointId) with
    | none => some (none, s)
    | some _ =>
      let (gate, s) := endpointReadGate s endpointId
      some (some gate, s)
  | .acquire semaphore => match env.reply (.acquire semaphore) with
    | .error () => some (.error (), s)
    | .ok () => (acquire s pid semaphore).map fun s => (.ok (), s)
  | .commitResourceGeneration endpointId observations decodeFailures observedAt =>
      some (commit wrap s pid ⟨endpointId, observations, decodeFailures, observedAt,
        env.fresh, env.fault⟩)
  | .createDiscoveredEndpoint endpoint observations =>
    match env.reply (.createDiscoveredEndpoint endpoint observations) with
    | .error e => some (.error e, s)
    | .ok created => some (.ok created, s.enroll created.id created.createdAt)
  | q => some (env.reply q, s)

/-- A read that starts is of the endpoint that was found. -/
def started (pid : Nat) (t : Progress B) : Req B → List (Event B)
  | .readCoreResources .. => match t.stage with
    | .found endpointId => [.readStarted pid endpointId]
    | _ => []
  | _ => []

def answered (pid : Nat) (t : Progress B) (q : Req B) (r : q.Resp) : List (Event B) :=
  match q, r with
  | .readCoreResources .., .ok outcome => match t.stage with
    | .found endpointId => [.readAnswered pid endpointId outcome.observations]
    | _ => []
  | _, _ => []

inductive Label (B : Outside) where
  | spawnBatch (who : Accountable) (targets : List EndpointId)
  | spawnEnrollment (who : Accountable) (request : OnboardEndpointRequest B.parseUrl)
  | issue (pid : Nat)
  | answer (pid : Nat) (env : Environment B)
  | finish (pid : Nat)
  | drop (pid : Nat)

def next (s : State B) : Label B → Option (State B)
  | .spawnBatch who targets => some (s.spawn who (batchWork targets))
  | .spawnEnrollment who request => some (s.spawn who (enrollmentWork who request))
  | .issue pid => match s.processes pid with
    | some ⟨who, .call q k, false, t⟩ => some { s with
        processes := Function.update s.processes pid (some ⟨who, .call q k, true, t⟩)
        log := s.log ++ started pid t q }
    | _ => none
  | .answer pid env => match s.processes pid with
    | some ⟨who, .call q k, true, t⟩ =>
      (respond wrap s pid env q).map fun (r, s') => { s' with
        processes := Function.update s'.processes pid
          (some ⟨who, k r, false, t.see q r⟩)
        log := s'.log ++ answered pid t q r }
    | _ => none
  | .finish pid => match s.processes pid with
    | some ⟨who, .ret targets, false, _⟩ =>
        some ((s.leave pid).spawnRefreshes who targets)
    | _ => none
  | .drop pid => if (s.processes pid).isSome then some (s.leave pid) else none

end Rutilus.Endpoints.Refreshes
