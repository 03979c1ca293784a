import Rutilus.Store.Operations

/-!
# The operation engine

Every write of the product is first stored as a queued operation and then
advanced step by step. The engine reads the operation, lets the domain decide
the next state and stores the step; the three are separate, and what happens
between them is up to the other writers. `apply` stores the step
unconditionally, `applyIfCurrent` only while the row is still in the state the
caller saw.
-/

namespace Rutilus.Engine

open Rutilus.Domain Rutilus.Lib Rutilus.Store

inductive EngineError where
  | notFound (operationId : OperationId)
  | stateChanged (operationId : OperationId)
      (expected observed : OperationState)
  | invalidTransition (operationId : OperationId) (source : InvalidTransition)
  | store (source : OperationRepositoryError)
  | emptyTargets
  | tooManyTargets (limit : Nat)
  deriving DecidableEq, Repr

/-- The states a restart may find work in. -/
def recoverableStates : List OperationState :=
  [.validating, .running, .waitingRemote, .verifying]

variable {T : Sig} [Sub operationStore T]

/-- Store a fresh queued operation under a fresh identity. -/
def create (operationId : OperationId) (source : OperationSource)
    (targets : List OperationTarget) (command : RedfishCommand)
    (now : Instant) : ExceptT EngineError (Prog T) Operation :=
  if targets.isEmpty then throw .emptyTargets
  else do
    let operation := Operation.new operationId source targets command now
    orThrow (OperationStore.createOperation operation) .store
    return operation

/-- The domain decides the next state of the operation as it was read, and
the step is stored unconditionally. -/
def decideAndStore (operationId : OperationId) (event : OperationEvent)
    (now : Instant) (current : Operation) :
    ExceptT EngineError (Prog T) Operation :=
  match current.apply event now with
  | .error source => throw (.invalidTransition operationId source)
  | .ok advanced => do
    orThrow
      (OperationStore.applyTransition operationId advanced.state now) .store
    return advanced

/-- Read, decide, store unconditionally. -/
def apply (operationId : OperationId) (event : OperationEvent)
    (now : Instant) : ExceptT EngineError (Prog T) Operation := do
  match ← orThrow (OperationStore.findOperation operationId) .store with
  | none => throw (.notFound operationId)
  | some current => decideAndStore operationId event now current

/-- How a failed compare-and-set is reported: the store's error is opaque, so
the row is read again, and a row that left the expected state is the race. -/
def classifyConflict (operationId : OperationId)
    (expectedState : OperationState) (source : OperationRepositoryError) :
    ExceptT EngineError (Prog T) Operation := do
  match ← orThrow (OperationStore.findOperation operationId) .store with
  | some row =>
    if row.state ≠ expectedState then
      throw (.stateChanged operationId expectedState row.state)
    else throw (.store source)
  | none => throw (.store source)

/-- Read, check the expected state, decide, compare and set. -/
def applyIfCurrent (operationId : OperationId)
    (expectedState : OperationState) (event : OperationEvent)
    (now : Instant) : ExceptT EngineError (Prog T) Operation := do
  match ← orThrow (OperationStore.findOperation operationId) .store with
  | none => throw (.notFound operationId)
  | some current =>
    if current.state ≠ expectedState then
      throw (.stateChanged operationId expectedState current.state)
    else
      match current.apply event now with
      | .error source => throw (.invalidTransition operationId source)
      | .ok advanced => do
        match ← (OperationStore.applyTransitionIfCurrent operationId
            expectedState advanced.state now : Prog T _) with
        | .ok () => return advanced
        | .error source => classifyConflict operationId expectedState source

def list (state : Option OperationState) :
    ExceptT EngineError (Prog T) (List Operation) :=
  orThrow (OperationStore.listOperations state) .store

/-- Acceptance order of a merged listing. -/
def recoveredBefore (a b : Operation) : Prop :=
  a.createdAt < b.createdAt ∨
    a.createdAt = b.createdAt ∧ a.id.uuid ≤ b.id.uuid

instance : DecidableRel recoveredBefore := fun _ _ =>
  inferInstanceAs (Decidable (_ ∨ _))

/-- One query for each of the given states, in order. -/
def listEach : List OperationState →
    ExceptT EngineError (Prog T) (List Operation)
  | [] => return []
  | state :: states => do
    let found ← list (some state)
    let rest ← listEach states
    return found ++ rest

/-- The restart scan: one query for each recoverable state, merged. -/
def recoverPending : ExceptT EngineError (Prog T) (List Operation) := do
  let pending ← listEach recoverableStates
  return pending.insertionSort recoveredBefore

end Rutilus.Engine
