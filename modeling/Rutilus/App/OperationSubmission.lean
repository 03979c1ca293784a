import Rutilus.Engine.OperationEngine
import Rutilus.Lib.Outcome
import Rutilus.Store.Batches

/-!
# Submitting operations

A submission is checked before anything is stored: it has targets and not too many,
no endpoint twice, and every endpoint is managed. A single submission then stores
one operation and takes one target only; a batch stores a parent and, in the same
transaction, one operation for each target.

The identities are generated as they are needed; `generate i` is the one of the
`i`-th operation. The lookups of one submission ask for each endpoint once, so they
are a function of the endpoint, whatever the inventory does meanwhile.
-/

namespace Rutilus.App

open Rutilus.Domain Rutilus.Lib Rutilus.Store Rutilus.Store.Batches Rutilus.Engine

def maxBatchTargets : Nat := 128

inductive SubmissionError (ε : Type) where
  | emptyTargets
  | tooManyTargets (limit : Nat)
  | multipleTargets
  | duplicateEndpoint (endpointId : EndpointId)
  | unknownEndpoint (endpointId : EndpointId)
  | inventory (source : ε)
  | store (source : EngineError)

variable {ε : Type}

/-- Whether an endpoint is managed, or why that is not known. -/
abbrev Lookup (ε : Type) : Type := EndpointId → Except ε Bool

namespace OperationSubmission

/-- The loop that looks for a repeated endpoint. -/
def firstDuplicate : List EndpointId → List OperationTarget → Option EndpointId
  | _, [] => none
  | seen, target :: rest =>
    if target.endpointId ∈ seen then some target.endpointId
    else firstDuplicate (target.endpointId :: seen) rest

/-- The loop of the lookups. -/
def checkManaged (lookup : Lookup ε) :
    List OperationTarget → Except (SubmissionError ε) Unit
  | [] => .ok ()
  | target :: rest => match lookup target.endpointId with
    | .error source => .error (.inventory source)
    | .ok false => .error (.unknownEndpoint target.endpointId)
    | .ok true => checkManaged lookup rest

def validateTargets (lookup : Lookup ε) (targets : List OperationTarget) :
    Except (SubmissionError ε) Unit :=
  if targets.isEmpty then .error .emptyTargets
  else if maxBatchTargets < targets.length then
    .error (.tooManyTargets maxBatchTargets)
  else match firstDuplicate [] targets with
    | some endpointId => .error (.duplicateEndpoint endpointId)
    | none => checkManaged lookup targets

/-! ## What is stored -/

/-- The children of a batch: one for each target, with nothing but it. -/
def childrenFor (generate : Nat → OperationId) (source : OperationSource)
    (targets : List OperationTarget) (command : RedfishCommand) (now : Instant) :
    List Operation :=
  targets.mapIdx fun i target =>
    Operation.new (generate i) source [target] command now

/-- `OperationEngine::create_batch`. -/
def engineCreateBatch (fault : Option Fault) (batchId : BatchOperationId)
    (generate : Nat → OperationId) (source : OperationSource)
    (targets : List OperationTarget) (command : RedfishCommand) (now : Instant)
    (t : Tables) : Except EngineError (BatchOperation × List Operation) × Tables :=
  if targets.isEmpty then (.error .emptyTargets, t)
  else if maxBatchTargets < targets.length then
    (.error (.tooManyTargets maxBatchTargets), t)
  else
    let batch : BatchOperation := ⟨batchId, source, command, now⟩
    let children := childrenFor generate source targets batch.command now
    match transaction OperationRepositoryError.fault fault t fun t =>
        (createBatch t batch children).map fun t => ((), t) with
    | (.error e, t) => (.error (.store e), t)
    | (.ok (), t) => (.ok (batch, children), t)

/-! ## The calls -/

def submit (lookup : Lookup ε) (fault : Option Fault)
    (generate : Nat → OperationId) (source : OperationSource)
    (targets : List OperationTarget) (command : RedfishCommand) (now : Instant)
    (t : Tables) : Except (SubmissionError ε) Operation × Tables :=
  match validateTargets lookup targets with
  | .error e => (.error e, t)
  | .ok () =>
    if 1 < targets.length then (.error .multipleTargets, t)
    else
      let (result, operations) := Prog.run (S := operationStore) (runOperationStore fault)
        (create (generate 0) source targets command now) t.operations
      (result.mapError .store, { t with operations })

def submitBatch (lookup : Lookup ε) (fault : Option Fault)
    (batchId : BatchOperationId) (generate : Nat → OperationId)
    (source : OperationSource) (targets : List OperationTarget)
    (command : RedfishCommand) (now : Instant) (t : Tables) :
    Except (SubmissionError ε) (BatchOperation × List Operation) × Tables :=
  match validateTargets lookup targets with
  | .error e => (.error e, t)
  | .ok () => match engineCreateBatch fault batchId generate source targets command
      now t with
    | (.error e, t) => (.error (.store e), t)
    | (.ok created, t) => (.ok created, t)

end OperationSubmission

/-! ## Submissions among the other calls of the store -/

namespace Submissions

/-- The tables, and the batches that were accepted with their children. -/
structure State where
  tables : Tables
  accepted : List (BatchOperation × List Operation)

def Initial (s : State) : Prop := s.tables = .empty ∧ s.accepted = []

inductive Label (ε : Type) where
  | submit (lookup : Lookup ε) (fault : Option Fault) (generate : Nat → OperationId)
      (source : OperationSource) (targets : List OperationTarget)
      (command : RedfishCommand) (now : Instant)
  | submitBatch (lookup : Lookup ε) (fault : Option Fault)
      (batchId : BatchOperationId) (generate : Nat → OperationId)
      (source : OperationSource) (targets : List OperationTarget)
      (command : RedfishCommand) (now : Instant)
  | store (fault : Option Fault) (q : OperationStoreReq)

/-- No identity is generated twice, and none that is stored. -/
def Fresh (t : Tables) (batchId : BatchOperationId) (generate : Nat → OperationId)
    (count : Nat) : Prop :=
  t.batches.find batchId = none ∧
    (∀ i < count, t.operations.find (generate i) = none) ∧
    ∀ i < count, ∀ j < i, generate i ≠ generate j

instance (t : Tables) (batchId : BatchOperationId) (generate : Nat → OperationId)
    (count : Nat) : Decidable (Fresh t batchId generate count) :=
  inferInstanceAs (Decidable (_ ∧ _))

def next (s : State) : Label ε → Option State
  | .submit lookup fault generate source targets command now =>
      some { s with tables := (OperationSubmission.submit lookup fault generate
        source targets command now s.tables).2 }
  | .submitBatch lookup fault batchId generate source targets command now =>
    if Fresh s.tables batchId generate targets.length then
      let (result, tables) := OperationSubmission.submitBatch lookup fault batchId
        generate source targets command now s.tables
      some ⟨tables, match result with
        | .ok created => created :: s.accepted
        | .error _ => s.accepted⟩
    else none
  | .store fault q =>
      let operations := (runOperationStore fault q s.tables.operations).2
      some { s with tables := { s.tables with operations } }

end Submissions

end Rutilus.App

/-!
## Batch reporting

A report is computed from the children as they are read: nothing of it is stored.
-/

namespace Rutilus.App

open Rutilus.Domain Rutilus.Lib Rutilus.Store Rutilus.Store.Batches

structure BatchSummary where
  batch : BatchOperation
  state : BatchOperationState
  outcomes : BatchOutcomeCounts

structure BatchDetail where
  summary : BatchSummary
  children : List ClassifiedChild

def childState (child : ClassifiedChild) : OperationState := child.1.state

def childOutcome (child : ClassifiedChild) : OperationOutcome :=
  ⟨child.1.state, child.2⟩

namespace BatchQuery

def summaryOf (batch : BatchOperation) (children : List ClassifiedChild) :
    BatchSummary :=
  ⟨batch, deriveBatchState (children.map childState),
    summarize (children.map childOutcome)⟩

/-- The parent and the children are two reads. -/
def batchDetail (t t' : Tables) (batchId : BatchOperationId) :
    Except OperationRepositoryError (Option BatchDetail) :=
  match findBatch t batchId with
  | none => .ok none
  | some batch => do
    let children ← listBatchChildren t' batchId
    return some ⟨summaryOf batch children, children⟩

def summarizeBatch (t : Tables) (batch : BatchOperation) :
    Except OperationRepositoryError BatchSummary := do
  let children ← listBatchChildren t batch.id
  return summaryOf batch children

end BatchQuery

end Rutilus.App
