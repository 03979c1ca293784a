import Mathlib.Data.List.Sort
import Rutilus.Domain.Operation
import Rutilus.Lib.Prog
import Rutilus.Lib.Table

/-!
# The operation store

The `operations` table with its `operation_targets`, and the calls of the
persistence boundary on it. Each call is one transaction under the write gate,
so each is one atomic step here; a transaction that fails is rolled back, so a
call that reports a fault changes nothing.

Rows are what the columns hold. Reading a row back goes through
`mapStoredOperation`, which refuses a timeline that runs backwards: such a row
is corrupt for `findOperation` and makes every listing that meets it fail.
-/

namespace Rutilus.Store

open Rutilus.Domain Rutilus.Lib

/-- Failures of the database itself, unrelated to what is stored. -/
inductive Fault where
  | coordinate
  | database
  deriving DecidableEq, Repr

/-- A row of `operations` with its targets. -/
structure OperationRow where
  id : OperationId
  source : OperationSource
  targets : List OperationTarget
  command : RedfishCommand
  state : OperationState
  createdAt : Instant
  updatedAt : Instant
  batchId : Option Nat
  failureKind : Option FailureKind
  deriving DecidableEq, Repr

abbrev OperationTable : Type := Table OperationId OperationRow OperationRow.id

inductive OperationRepositoryError where
  | fault (source : Fault)
  | notFound (operationId : OperationId)
  | terminalConflict (operationId : OperationId) (state : OperationState)
  | stateConflict (operationId : OperationId)
      (expected observed : OperationState)
  | corrupt (operationId : OperationId)
  deriving DecidableEq, Repr

/-- Rehydration of a row; targets come back in target-identity order. -/
def mapStoredOperation (row : OperationRow) :
    Except OperationRepositoryError Operation :=
  match Operation.tryFromParts row.id row.source
      (row.targets.insertionSort fun a b => a.targetId.uuid ≤ b.targetId.uuid)
      row.command row.state row.createdAt row.updatedAt with
  | some operation => .ok operation
  | none => .error (.corrupt row.id)

/-- The row an operation is first stored as: never born classified. -/
def rowOf (operation : Operation) (batchId : Option Nat) : OperationRow :=
  { id := operation.id, source := operation.source
    targets := operation.targets, command := operation.command
    state := operation.state, createdAt := operation.createdAt
    updatedAt := operation.updatedAt, batchId, failureKind := none }

/-- At-least-once delivery: a stored row is never rewritten. Targets have the
primary key `(operation, target)`, so a repeated target fails the insert. -/
def insertOperationAggregate (t : OperationTable) (operation : Operation)
    (batchId : Option Nat) : Except OperationRepositoryError OperationTable :=
  if t.has operation.id then .ok t
  else if (operation.targets.map OperationTarget.targetId).Nodup then
    .ok (t.insertNew (rowOf operation batchId))
  else .error (.fault .database)

def createOperation (t : OperationTable) (operation : Operation) :
    Except OperationRepositoryError OperationTable :=
  insertOperationAggregate t operation none

def findOperation (t : OperationTable) (operationId : OperationId) :
    Except OperationRepositoryError (Option Operation) :=
  match t.find operationId with
  | none => .ok none
  | some row => (mapStoredOperation row).map some

/-- The unconditional step: refused only on a terminal row. -/
def applyTransition (t : OperationTable) (operationId : OperationId)
    (newState : OperationState) (occurredAt : Instant) :
    Except OperationRepositoryError OperationTable :=
  match t.find operationId with
  | none => .error (.notFound operationId)
  | some row =>
    if row.state.isTerminal then
      .error (.terminalConflict operationId row.state)
    else
      .ok (t.replace { row with state := newState, updatedAt := occurredAt })

/-- The compare-and-set step. -/
def applyTransitionIfCurrent (t : OperationTable) (operationId : OperationId)
    (expectedState newState : OperationState) (occurredAt : Instant) :
    Except OperationRepositoryError OperationTable :=
  match t.find operationId with
  | none => .error (.notFound operationId)
  | some row =>
    if row.state ≠ expectedState then
      .error (.stateConflict operationId expectedState row.state)
    else if row.state.isTerminal then
      .error (.terminalConflict operationId row.state)
    else
      .ok (t.replace { row with state := newState, updatedAt := occurredAt })

def recordFailureKind (t : OperationTable) (operationId : OperationId)
    (kind : FailureKind) : Except OperationRepositoryError OperationTable :=
  match t.find operationId with
  | none => .error (.notFound operationId)
  | some row => .ok (t.replace { row with failureKind := some kind })

/-- Listing order: creation time, then identity. -/
def acceptedBefore (a b : OperationRow) : Prop :=
  a.createdAt < b.createdAt ∨
    a.createdAt = b.createdAt ∧ a.id.uuid ≤ b.id.uuid

instance : DecidableRel acceptedBefore := fun _ _ =>
  inferInstanceAs (Decidable (_ ∨ _))

def listOperations (t : OperationTable) (state : Option OperationState) :
    Except OperationRepositoryError (List Operation) :=
  ((t.rows.filter fun row => state.all (row.state = ·)).insertionSort
    acceptedBefore).mapM mapStoredOperation

/-! ## The boundary -/

/-- The calls of the `OperationStore` boundary. -/
inductive OperationStoreReq where
  | createOperation (operation : Operation)
  | findOperation (operationId : OperationId)
  | applyTransition (operationId : OperationId) (newState : OperationState)
      (occurredAt : Instant)
  | applyTransitionIfCurrent (operationId : OperationId)
      (expectedState newState : OperationState) (occurredAt : Instant)
  | recordFailureKind (operationId : OperationId) (kind : FailureKind)
  | listOperations (state : Option OperationState)

abbrev OperationStoreReq.Resp : OperationStoreReq → Type
  | .createOperation _ => Except OperationRepositoryError Unit
  | .findOperation _ => Except OperationRepositoryError (Option Operation)
  | .applyTransition .. => Except OperationRepositoryError Unit
  | .applyTransitionIfCurrent .. => Except OperationRepositoryError Unit
  | .recordFailureKind .. => Except OperationRepositoryError Unit
  | .listOperations _ => Except OperationRepositoryError (List Operation)

abbrev operationStore : Sig := ⟨OperationStoreReq, OperationStoreReq.Resp⟩

namespace OperationStore

variable {T : Sig} [Sub operationStore T]

abbrev createOperation (operation : Operation) :
    Prog T (Except OperationRepositoryError Unit) :=
  ask (S := operationStore) (.createOperation operation)

abbrev findOperation (operationId : OperationId) :
    Prog T (Except OperationRepositoryError (Option Operation)) :=
  ask (S := operationStore) (.findOperation operationId)

abbrev applyTransition (operationId : OperationId) (newState : OperationState)
    (occurredAt : Instant) : Prog T (Except OperationRepositoryError Unit) :=
  ask (S := operationStore) (.applyTransition operationId newState occurredAt)

abbrev applyTransitionIfCurrent (operationId : OperationId)
    (expectedState newState : OperationState) (occurredAt : Instant) :
    Prog T (Except OperationRepositoryError Unit) :=
  ask (S := operationStore)
    (.applyTransitionIfCurrent operationId expectedState newState occurredAt)

abbrev recordFailureKind (operationId : OperationId) (kind : FailureKind) :
    Prog T (Except OperationRepositoryError Unit) :=
  ask (S := operationStore) (.recordFailureKind operationId kind)

abbrev listOperations (state : Option OperationState) :
    Prog T (Except OperationRepositoryError (List Operation)) :=
  ask (S := operationStore) (.listOperations state)

end OperationStore

/-- The answer and the next table of a write. -/
def written {ε τ : Type} (t : τ) : Except ε τ → Except ε Unit × τ
  | .ok t' => (.ok (), t')
  | .error e => (.error e, t)

/-- One call on the table. -/
def runOperationStore (fault : Option Fault) :
    (q : OperationStoreReq) → OperationTable → q.Resp × OperationTable
  | q, t => match fault with
    | some f => match q with
      | .createOperation _ => (.error (.fault f), t)
      | .findOperation _ => (.error (.fault f), t)
      | .applyTransition .. => (.error (.fault f), t)
      | .applyTransitionIfCurrent .. => (.error (.fault f), t)
      | .recordFailureKind .. => (.error (.fault f), t)
      | .listOperations _ => (.error (.fault f), t)
    | none => match q with
      | .createOperation op => written t (createOperation t op)
      | .findOperation id => (findOperation t id, t)
      | .applyTransition id s now => written t (applyTransition t id s now)
      | .applyTransitionIfCurrent id e s now =>
          written t (applyTransitionIfCurrent t id e s now)
      | .recordFailureKind id kind => written t (recordFailureKind t id kind)
      | .listOperations state => (listOperations t state, t)

/-! ## What each call does to one row -/

section Rows

variable {t t' : OperationTable} {operationId k : OperationId}

theorem find_replace_same {row row' : OperationRow}
    (h : t.find operationId = some row) (hid : row'.id = row.id) :
    (t.replace row').find k =
      if k = operationId then some row' else t.find k := by
  have hrow : row.id = operationId := Table.key_of_find h
  rw [Table.find_replace]
  by_cases hk : k = operationId
  · subst hk
    simp [hid, hrow, h]
  · rw [if_neg hk, if_neg]
    rintro ⟨hk', -⟩
    exact hk (hk'.symm.trans (hid.trans hrow))

/-- A landed step: the row was there, not terminal, and only its state and
update time moved. -/
theorem applyTransition_ok {newState : OperationState} {now : Instant}
    (h : applyTransition t operationId newState now = .ok t') :
    ∃ row, t.find operationId = some row ∧ row.state.isTerminal = false ∧
      ∀ k, t'.find k = if k = operationId then
        some { row with state := newState, updatedAt := now } else t.find k := by
  unfold applyTransition at h
  split at h
  · cases h
  · next row hrow =>
      split at h
      · cases h
      · next hterm =>
          cases h
          refine ⟨row, hrow, by simpa using hterm, fun k => ?_⟩
          exact find_replace_same hrow rfl

/-- A landed compare-and-set step: moreover the row was in the expected
state. -/
theorem applyTransitionIfCurrent_ok {expected newState : OperationState}
    {now : Instant}
    (h : applyTransitionIfCurrent t operationId expected newState now =
      .ok t') :
    ∃ row, t.find operationId = some row ∧ row.state = expected ∧
      row.state.isTerminal = false ∧
      ∀ k, t'.find k = if k = operationId then
        some { row with state := newState, updatedAt := now } else t.find k := by
  unfold applyTransitionIfCurrent at h
  split at h
  · cases h
  · next row hrow =>
      split at h
      · cases h
      · next hstate =>
          split at h
          · cases h
          · next hterm =>
              cases h
              refine ⟨row, hrow, by simpa using hstate, by simpa using hterm,
                fun k => ?_⟩
              exact find_replace_same hrow rfl

theorem recordFailureKind_ok {kind : FailureKind}
    (h : recordFailureKind t operationId kind = .ok t') :
    ∃ row, t.find operationId = some row ∧
      ∀ k, t'.find k = if k = operationId then
        some { row with failureKind := some kind } else t.find k := by
  unfold recordFailureKind at h
  split at h
  · cases h
  · next row hrow =>
      cases h
      exact ⟨row, hrow, fun k => find_replace_same hrow rfl⟩

/-- Creating an operation adds its row or finds the stored one. -/
theorem createOperation_ok {operation : Operation}
    (h : createOperation t operation = .ok t') :
    ∀ k, t'.find k = if k = operation.id ∧ t.find k = none then
      some (rowOf operation none) else t.find k := by
  intro k
  unfold createOperation insertOperationAggregate at h
  split at h
  · next hhas =>
      cases h
      rw [if_neg]
      rintro ⟨rfl, hk⟩
      simp [Table.has, hk] at hhas
  · split at h
    · cases h
      rw [Table.find_insertNew]
      by_cases hk : k = operation.id
      · subst hk
        simp [rowOf]
      · have : (rowOf operation none).id ≠ k := fun h => hk h.symm
        simp [hk, this]
    · cases h

theorem mapStoredOperation_ok {row : OperationRow} {operation : Operation}
    (h : mapStoredOperation row = .ok operation) :
    operation.id = row.id ∧ operation.source = row.source ∧
      operation.command = row.command ∧ operation.state = row.state ∧
      operation.createdAt = row.createdAt ∧
      operation.updatedAt = row.updatedAt ∧
      row.createdAt ≤ row.updatedAt := by
  unfold mapStoredOperation Operation.tryFromParts at h
  split at h
  · next o ho =>
      cases h
      split at ho
      · cases ho
      · next hle =>
          cases ho
          exact ⟨rfl, rfl, rfl, rfl, rfl, rfl, Int.not_lt.mp hle⟩
  · cases h

/-- The one target of a row comes back as it is. -/
theorem mapStoredOperation_targets {row : OperationRow} {operation : Operation}
    {target : OperationTarget} (h : mapStoredOperation row = .ok operation)
    (ht : row.targets = [target]) : operation.targets = [target] := by
  unfold mapStoredOperation Operation.tryFromParts at h
  split at h
  · next o ho =>
      cases h
      split at ho
      · cases ho
      · cases ho
        rw [ht]
        rfl
  · cases h

/-- What a successful read returns is the stored row. -/
theorem findOperation_ok {operation : Operation}
    (h : findOperation t operationId = .ok (some operation)) :
    ∃ row, t.find operationId = some row ∧
      mapStoredOperation row = .ok operation := by
  unfold findOperation at h
  split at h
  · cases h
  · next row hrow =>
      cases hm : mapStoredOperation row with
      | ok o =>
          rw [hm] at h
          cases h
          exact ⟨row, hrow, hm⟩
      | error e =>
          rw [hm] at h
          cases h

theorem findOperation_none
    (h : findOperation t operationId = .ok none) :
    t.find operationId = none := by
  unfold findOperation at h
  split at h
  · next hnone => exact hnone
  · next row hrow =>
      cases hm : mapStoredOperation row <;> rw [hm] at h <;> cases h

/-- A faulty call changes nothing. -/
theorem runOperationStore_fault (f : Fault) (q : OperationStoreReq)
    (t : OperationTable) : (runOperationStore (some f) q t).2 = t := by
  cases q <;> rfl

end Rows

end Rutilus.Store

/-!
## The remote task store

One observation row for each operation whose write the BMC accepted as a Task.
The row only remembers where the Task is and what was last seen of it; the
operation's own state is decided elsewhere.
-/

namespace Rutilus.Store

open Rutilus.Domain Rutilus.Lib

/-- The Redfish `Task` states. -/
inductive RemoteTaskState where
  | new | starting | running | suspended | interrupted | pending | stopping
  | completed | killed | exception | service | cancelling | cancelled
  deriving DecidableEq, Repr

def RemoteTaskState.isTerminal : RemoteTaskState → Bool
  | .completed | .exception | .killed | .cancelled => true
  | _ => false

/-- A Task or Task-monitor URI, as the gateway validated it. -/
structure TaskUri where
  text : String
  deriving DecidableEq, Repr

/-- A Task observation; progress is a percentage. -/
structure RemoteTask where
  operationId : OperationId
  endpointId : EndpointId
  taskUri : TaskUri
  taskMonitorUri : Option TaskUri
  lastState : RemoteTaskState
  lastMessage : Option String
  percentComplete : Option Nat
  lastCheckedAt : Instant
  percent_le : ∀ p ∈ percentComplete, p ≤ 100

namespace RemoteTask

/-- The placeholder written at acceptance: the Task was not seen running. -/
def new (operationId : OperationId) (endpointId : EndpointId)
    (taskUri : TaskUri) (taskMonitorUri : Option TaskUri)
    (lastCheckedAt : Instant) : RemoteTask where
  operationId := operationId
  endpointId := endpointId
  taskUri := taskUri
  taskMonitorUri := taskMonitorUri
  lastState := .new
  lastMessage := none
  percentComplete := none
  lastCheckedAt := lastCheckedAt
  percent_le := by simp

inductive Error where
  | percentOutOfRange
  deriving DecidableEq, Repr

def tryFromParts (operationId : OperationId) (endpointId : EndpointId)
    (taskUri : TaskUri) (taskMonitorUri : Option TaskUri)
    (lastState : RemoteTaskState) (lastMessage : Option String)
    (percentComplete : Option Nat) (lastCheckedAt : Instant) :
    Except Error RemoteTask :=
  if percent_le : ∀ p ∈ percentComplete, p ≤ 100 then
    .ok { operationId, endpointId, taskUri, taskMonitorUri, lastState,
          lastMessage, percentComplete, lastCheckedAt, percent_le }
  else .error .percentOutOfRange

theorem tryFromParts_ok {operationId : OperationId} {endpointId : EndpointId}
    {taskUri : TaskUri} {taskMonitorUri : Option TaskUri}
    {lastState : RemoteTaskState} {lastMessage : Option String}
    {percentComplete : Option Nat} {lastCheckedAt : Instant}
    {task : RemoteTask}
    (h : tryFromParts operationId endpointId taskUri taskMonitorUri lastState
      lastMessage percentComplete lastCheckedAt = .ok task) :
    task.operationId = operationId ∧ task.endpointId = endpointId ∧
      task.taskUri = taskUri := by
  unfold tryFromParts at h
  split at h
  · cases h
    exact ⟨rfl, rfl, rfl⟩
  · cases h

end RemoteTask

abbrev RemoteTaskTable : Type :=
  Table OperationId RemoteTask RemoteTask.operationId

/-- The calls of the `RemoteTaskStore` boundary. -/
inductive RemoteTaskStoreReq where
  | saveRemoteTask (task : RemoteTask)
  | findRemoteTask (operationId : OperationId)

abbrev RemoteTaskStoreReq.Resp : RemoteTaskStoreReq → Type
  | .saveRemoteTask _ => Except Fault Unit
  | .findRemoteTask _ => Except Fault (Option RemoteTask)

/-- One call on the table; saving inserts or replaces. -/
def runRemoteTaskStore (fault : Option Fault) :
    (q : RemoteTaskStoreReq) → RemoteTaskTable → q.Resp × RemoteTaskTable
  | .saveRemoteTask task, t => match fault with
    | some f => (.error f, t)
    | none => (.ok (), t.put task)
  | .findRemoteTask id, t => match fault with
    | some f => (.error f, t)
    | none => (.ok (t.find id), t)

end Rutilus.Store
