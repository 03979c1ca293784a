import Rutilus.Lib.Listing
import Rutilus.Lib.Sorted
import Rutilus.Store.Operations

/-!
# The operations on one endpoint

The listing goes through the index on the endpoint column: first the identities of
the operations with a target there, then the operations of those identities, asked
for in chunks because a query takes only so many parameters.
-/

namespace Rutilus.Store.EndpointListing

open Rutilus.Domain Rutilus.Lib

/-- How many identities one query names. -/
def inParameterChunk : Nat := 999

/-- The rows of `operation_targets`, each with the operation it belongs to. -/
def joinedTargets (t : OperationTable) : List (OperationRow × OperationTarget) :=
  t.rows.flatMap fun row => row.targets.map fun target => (row, target)

/-- One identity for every target on the endpoint. -/
def targetedIds (t : OperationTable) (state : Option OperationState)
    (endpointId : EndpointId) : List OperationId :=
  ((joinedTargets t).filter fun joined =>
    joined.2.endpointId = endpointId && state.all (joined.1.state = ·)).map
      fun joined => joined.1.id

/-- The operations of one chunk of identities, in acceptance order. -/
def readChunk (t : OperationTable) (state : Option OperationState)
    (chunk : List OperationId) : List OperationRow :=
  (t.rows.filter fun row => chunk.contains row.id &&
    state.all (row.state = ·)).insertionSort acceptedBefore

def listOperationsForEndpoint (t : OperationTable)
    (state : Option OperationState) (endpointId : EndpointId) :
    Except OperationRepositoryError (List Operation) :=
  let ids := canonical OperationId.uuid (targetedIds t state endpointId)
  if ids.isEmpty then .ok []
  else (((chunks inParameterChunk ids).flatMap (readChunk t state)).insertionSort
    acceptedBefore).mapM mapStoredOperation

end Rutilus.Store.EndpointListing
