import Mathlib.Data.List.Chain
import Rutilus.Domain.Command

/-!
# Operations

The persisted write record and its state machine. `transition` is the whole
matrix of the product: nine states, nine events, and every pair that is not
listed is refused. What later modules use of it is `Legal`, the relation of
one accepted step, and `rank`, which strictly grows along it: an operation
never comes back to a state it has left.
-/

namespace Rutilus.Domain

inductive OperationState where
  | queued
  | validating
  | running
  | waitingRemote
  | verifying
  | succeeded
  | failed
  | unknown
  | cancelled
  deriving DecidableEq, Repr

/-- The four states no event leaves. -/
def OperationState.isTerminal : OperationState → Bool
  | .succeeded | .failed | .unknown | .cancelled => true
  | .queued | .validating | .running | .waitingRemote | .verifying => false

/-- The product codes. -/
def OperationState.asStr : OperationState → String
  | .queued => "queued"
  | .validating => "validating"
  | .running => "running"
  | .waitingRemote => "waiting-remote"
  | .verifying => "verifying"
  | .succeeded => "succeeded"
  | .failed => "failed"
  | .unknown => "unknown"
  | .cancelled => "cancelled"

inductive OperationEvent where
  | validationStarted
  | validationPassed
  | executionAccepted
  | remoteTaskStarted
  | remoteTaskCompleted
  | verificationPassed
  | failed
  | cancellationRequested
  | outcomeUnknown
  deriving DecidableEq, Repr

/-- The step that was refused: the state it was attempted in and the event. -/
structure InvalidTransition where
  fromState : OperationState
  event : OperationEvent
  deriving DecidableEq, Repr

/-- The transition matrix. -/
def transition (current : OperationState) (event : OperationEvent) :
    Except InvalidTransition OperationState :=
  match current, event with
  | .queued, .validationStarted => .ok .validating
  | .queued, .failed => .ok .failed
  | .queued, .cancellationRequested => .ok .cancelled
  | .validating, .validationPassed => .ok .running
  | .validating, .failed => .ok .failed
  | .validating, .cancellationRequested => .ok .cancelled
  | .running, .executionAccepted => .ok .verifying
  | .running, .remoteTaskStarted => .ok .waitingRemote
  | .running, .failed => .ok .failed
  | .running, .cancellationRequested => .ok .cancelled
  | .running, .outcomeUnknown => .ok .unknown
  | .waitingRemote, .remoteTaskCompleted => .ok .verifying
  | .waitingRemote, .failed => .ok .failed
  | .waitingRemote, .cancellationRequested => .ok .cancelled
  | .waitingRemote, .outcomeUnknown => .ok .unknown
  | .verifying, .verificationPassed => .ok .succeeded
  | .verifying, .failed => .ok .failed
  | .verifying, .outcomeUnknown => .ok .unknown
  | _, _ => .error ⟨current, event⟩

/-- One accepted step of the matrix. -/
def Legal (s t : OperationState) : Prop := ∃ e, transition s e = .ok t

/-- How far along its life an operation in a state is. -/
def OperationState.rank : OperationState → Nat
  | .queued => 0
  | .validating => 1
  | .running => 2
  | .waitingRemote => 3
  | .verifying => 4
  | .succeeded | .failed | .unknown | .cancelled => 5

theorem transition_rank {s t : OperationState} {e : OperationEvent}
    (h : transition s e = .ok t) : s.rank < t.rank := by
  cases s <;> cases e <;>
    first
    | (cases h; decide)
    | cases h

theorem Legal.rank_lt {s t : OperationState} (h : Legal s t) :
    s.rank < t.rank := by
  obtain ⟨e, he⟩ := h
  exact transition_rank he

/-- A terminal state accepts no event. -/
theorem transition_of_isTerminal {s : OperationState}
    (h : s.isTerminal = true) (e : OperationEvent) :
    transition s e = .error ⟨s, e⟩ := by
  cases s <;> cases e <;>
    first
    | rfl
    | cases h

theorem Legal.not_isTerminal {s t : OperationState} (h : Legal s t) :
    s.isTerminal = false := by
  obtain ⟨e, he⟩ := h
  cases hs : s.isTerminal with
  | false => rfl
  | true =>
      rw [transition_of_isTerminal hs] at he
      cases he

/-- A refused step reports the state it was attempted in. -/
theorem transition_error {s : OperationState} {e : OperationEvent}
    {i : InvalidTransition} (h : transition s e = .error i) : i = ⟨s, e⟩ := by
  cases s <;> cases e <;>
    first
    | (cases h; rfl)
    | cases h

inductive OperationSource where
  | standalone
  | site
  | center
  deriving DecidableEq, Repr

/-- One object an operation acts on and the endpoint that receives it. -/
structure OperationTarget where
  targetId : TargetId
  endpointId : EndpointId
  deriving DecidableEq, Repr

structure Operation where
  id : OperationId
  source : OperationSource
  targets : List OperationTarget
  command : RedfishCommand
  state : OperationState
  createdAt : Instant
  updatedAt : Instant
  deriving DecidableEq, Repr

namespace Operation

/-- A fresh operation is queued and was last updated when it was created. -/
def new (id : OperationId) (source : OperationSource)
    (targets : List OperationTarget) (command : RedfishCommand)
    (createdAt : Instant) : Operation :=
  { id, source, targets, command, state := .queued, createdAt,
    updatedAt := createdAt }

/-- Rehydration: a timeline that runs backwards is refused. -/
def tryFromParts (id : OperationId) (source : OperationSource)
    (targets : List OperationTarget) (command : RedfishCommand)
    (state : OperationState) (createdAt updatedAt : Instant) :
    Option Operation :=
  if updatedAt < createdAt then none
  else some { id, source, targets, command, state, createdAt, updatedAt }

/-- One state-machine step. The caller's clock is trusted: `now` becomes the
update time without a check. -/
def apply (operation : Operation) (event : OperationEvent) (now : Instant) :
    Except InvalidTransition Operation :=
  match transition operation.state event with
  | .ok state => .ok { operation with state, updatedAt := now }
  | .error e => .error e

theorem apply_ok {operation operation' : Operation} {event : OperationEvent}
    {now : Instant} (h : operation.apply event now = .ok operation') :
    transition operation.state event = .ok operation'.state ∧
      operation' = { operation with
        state := operation'.state, updatedAt := now } := by
  unfold apply at h
  split at h
  · next state hs =>
      cases h
      exact ⟨hs, rfl⟩
  · cases h

end Operation

/-- Why an operation ended `Failed`, where the product can say more than
that it did. -/
inductive FailureKind where
  | capabilityUnsupported
  deriving DecidableEq, Repr

end Rutilus.Domain
