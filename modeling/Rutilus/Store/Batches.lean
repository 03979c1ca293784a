import Rutilus.Domain.Batch
import Rutilus.Store.Operations

/-!
# The batch store

The parents of batches beside the operations. A parent and its children are
written in one transaction; a parent that is stored is never written again, nor
are its children. The children of a parent are the operations that carry its
identity, read back in the order of their targets.
-/

namespace Rutilus.Store.Batches

open Rutilus.Domain Rutilus.Lib

abbrev BatchTable : Type := Table BatchOperationId BatchOperation BatchOperation.id

structure Tables where
  batches : BatchTable
  operations : OperationTable

def Tables.empty : Tables := ⟨.empty, .empty⟩

def insertChildren (batchId : BatchOperationId) : List Operation → OperationTable →
    Except OperationRepositoryError OperationTable
  | [], t => .ok t
  | child :: rest, t => do
    let t ← insertOperationAggregate t child (some batchId.uuid)
    insertChildren batchId rest t

def createBatch (t : Tables) (batch : BatchOperation) (children : List Operation) :
    Except OperationRepositoryError Tables :=
  if t.batches.has batch.id then .ok t
  else do
    let operations ← insertChildren batch.id children t.operations
    return ⟨t.batches.insertNew batch, operations⟩

def findBatch (t : Tables) (batchId : BatchOperationId) : Option BatchOperation :=
  t.batches.find batchId

/-- A child with its stored failure classification. -/
abbrev ClassifiedChild : Type := Operation × Option FailureKind

/-- By the first target; a child without a target comes first. -/
def targetUpTo (a b : ClassifiedChild) : Bool :=
  match a.1.targets.head?, b.1.targets.head? with
  | none, _ => true
  | some _, none => false
  | some x, some y => x.targetId.uuid ≤ y.targetId.uuid

def childrenOf (t : OperationTable) (batchId : BatchOperationId) :
    List OperationRow :=
  t.rows.filter fun row => row.batchId = some batchId.uuid

def mapStoredChild (row : OperationRow) :
    Except OperationRepositoryError ClassifiedChild := do
  let operation ← mapStoredOperation row
  return (operation, row.failureKind)

/-- One child that cannot be read makes the whole listing fail. -/
def listBatchChildren (t : Tables) (batchId : BatchOperationId) :
    Except OperationRepositoryError (List ClassifiedChild) := do
  let children ← (childrenOf t.operations batchId).mapM mapStoredChild
  return children.insertionSort fun a b => targetUpTo a b

end Rutilus.Store.Batches
