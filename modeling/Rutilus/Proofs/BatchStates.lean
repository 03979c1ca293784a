import Rutilus.App.OperationSubmission
import Rutilus.Lib.Listing

/-!
# The state of a batch only moves on

The report on a batch is computed anew on every read, from children that go their
own ways. A child takes a step of the state machine, at any time and with any
classification, or is classified while it is under way. No step leaves a terminal
state and none comes back to `queued`, so the phase of the batch never falls, and
once all children have ended nothing moves at all.
-/

namespace Rutilus.Proofs.BatchStates

open Rutilus.Domain Rutilus.Lib Rutilus.Store.Batches Rutilus.App

/-- A step of one child. -/
inductive ChildStep : ClassifiedChild → ClassifiedChild → Prop where
  | transition {operation operation' : Operation} {event : OperationEvent}
      {now : Instant} (h : operation.apply event now = .ok operation')
      (kind kind' : Option FailureKind) :
      ChildStep (operation, kind) (operation', kind')
  | classified {operation : Operation} (h : operation.state.isTerminal = false)
      (kind kind' : Option FailureKind) :
      ChildStep (operation, kind) (operation, kind')

/-- A step of some child. -/
def BatchStep (children children' : List ClassifiedChild) : Prop :=
  ∃ i c c', children[i]? = some c ∧ ChildStep c c' ∧ children' = children.set i c'

/-- Any number of steps, in any interleaving. -/
abbrev BatchRun : List ClassifiedChild → List ClassifiedChild → Prop :=
  Relation.ReflTransGen BatchStep

def stateOf (children : List ClassifiedChild) : BatchOperationState :=
  deriveBatchState (children.map childState)

def outcomesOf (children : List ClassifiedChild) : BatchOutcomeCounts :=
  summarize (children.map childOutcome)

variable {c c' : ClassifiedChild} {children children' : List ClassifiedChild}

/-! ## Steps -/

/-- A step starts at a child that is under way; if it changes its state, the child
is queued no more. -/
theorem ChildStep.cases_state (h : ChildStep c c') :
    (childState c).isTerminal = false ∧
      (childState c' = childState c ∨ childState c' ≠ .queued) := by
  cases h with
  | @transition operation operation' _ _ h kind kind' =>
      have hlegal : Legal operation.state operation'.state :=
        ⟨_, (Operation.apply_ok h).1⟩
      refine ⟨hlegal.not_isTerminal, .inr fun hqueued => ?_⟩
      have hrank := hlegal.rank_lt
      rw [show operation'.state = .queued from hqueued] at hrank
      exact absurd hrank (Nat.not_lt_zero _)
  | classified h kind kind' => exact ⟨h, .inl rfl⟩

/-- A step is taken only while some child is under way. -/
theorem BatchStep.running (h : BatchStep children children') :
    ∃ s ∈ children.map childState, s.isTerminal = false := by
  obtain ⟨i, c, c', hi, hstep, -⟩ := h
  exact ⟨childState c, List.mem_map_of_mem (List.mem_of_getElem? hi),
    hstep.cases_state.1⟩

/-- A step leaves the states alone, or some child has started after it. -/
theorem BatchStep.started (h : BatchStep children children') :
    children'.map childState = children.map childState ∨
      ∃ s ∈ children'.map childState, s ≠ .queued := by
  obtain ⟨i, c, c', hi, hstep, rfl⟩ := h
  rcases hstep.cases_state.2 with hsame | hstarted
  · exact .inl (map_set_of_key hi hsame)
  · obtain ⟨hlt, -⟩ := List.getElem?_eq_some_iff.mp hi
    exact .inr ⟨childState c', List.mem_map_of_mem (List.mem_set hlt c'), hstarted⟩

theorem BatchStep.ne_nil (h : BatchStep children children') :
    children.map childState ≠ [] ∧ children'.map childState ≠ [] := by
  obtain ⟨s, hs, -⟩ := h.running
  refine ⟨List.ne_nil_of_mem hs, ?_⟩
  rcases h.started with heq | ⟨s', hs', -⟩
  · rw [heq]
    exact List.ne_nil_of_mem hs
  · exact List.ne_nil_of_mem hs'

/-- One step: the phase does not fall. -/
theorem BatchStep.phase_le (h : BatchStep children children') :
    (stateOf children).phase ≤ (stateOf children').phase := by
  obtain ⟨hne, hne'⟩ := h.ne_nil
  unfold stateOf
  rcases phase_cases hne with ⟨hphase, -⟩ | ⟨hphase, hsome, -⟩ | ⟨-, hterminal⟩
  · rw [hphase]
    exact Nat.zero_le _
  · have hstarted : ∃ s ∈ children'.map childState, s ≠ .queued := by
      rcases h.started with heq | hstarted
      · rw [heq]
        exact hsome
      · exact hstarted
    rw [hphase]
    rcases phase_cases hne' with ⟨-, hqueued⟩ | ⟨hphase', -⟩ | ⟨hphase', -⟩
    · obtain ⟨s, hs, hnot⟩ := hstarted
      exact absurd (hqueued s hs) hnot
    · exact Nat.le_of_eq hphase'.symm
    · rw [hphase']
      exact Nat.le_succ 1
  · obtain ⟨s, hs, hnot⟩ := h.running
    rw [hterminal s hs] at hnot
    cases hnot

/-- One step: no bucket loses a child. -/
theorem BatchStep.bucket_le (h : BatchStep children children')
    (bucket : OutcomeBucket) :
    (outcomesOf children).of bucket ≤ (outcomesOf children').of bucket := by
  obtain ⟨i, c, c', hi, hstep, rfl⟩ := h
  have hnone : (childOutcome c).bucket = none := by
    have hsome := isSome_bucket (childOutcome c)
    rw [show (childOutcome c).state = childState c from rfl,
      hstep.cases_state.1] at hsome
    simpa using hsome
  obtain ⟨hlt, hget⟩ := List.getElem?_eq_some_iff.mp hi
  unfold outcomesOf
  rw [summarize_of, summarize_of, List.map_set, List.countP_set (by simpa using hlt)]
  simp only [List.getElem_map, hget, hnone]
  simp

/-! ## Runs -/

theorem BatchRun.phase_le (h : BatchRun children children') :
    (stateOf children).phase ≤ (stateOf children').phase := by
  induction h with
  | refl => exact le_rfl
  | tail _ hstep ih => exact ih.trans hstep.phase_le

/-- Once all children have ended nothing moves. -/
theorem BatchRun.eq_of_ended (h : BatchRun children children')
    (hended : (stateOf children).phase = 2) : children' = children := by
  rcases h.cases_head with rfl | ⟨next, hstep, -⟩
  · rfl
  · rcases phase_cases hstep.ne_nil.1 with ⟨hphase, -⟩ | ⟨hphase, -⟩ | ⟨-, hterminal⟩
    · exact absurd (hphase.symm.trans hended) (by decide)
    · exact absurd (hphase.symm.trans hended) (by decide)
    · obtain ⟨s, hs, hnot⟩ := hstep.running
      rw [hterminal s hs] at hnot
      cases hnot

theorem BatchRun.bucket_le (h : BatchRun children children')
    (bucket : OutcomeBucket) :
    (outcomesOf children).of bucket ≤ (outcomesOf children').of bucket := by
  induction h with
  | refl => exact le_rfl
  | tail _ hstep ih => exact ih.trans (hstep.bucket_le bucket)

/-- The report on a batch is that of its children, as they are read. -/
theorem summaryOf_eq (batch : BatchOperation) (children : List ClassifiedChild) :
    BatchQuery.summaryOf batch children =
      ⟨batch, stateOf children, outcomesOf children⟩ := rfl

/-- The state of a batch goes from queued over running to one verdict, which then
stays; it has succeeded exactly when all its children have; the buckets account for
all children exactly when all have ended, and none loses a child; and the order of
the children does not matter. -/
theorem batch_state_moves_on :
    (∀ children children', BatchRun children children' →
      (stateOf children).phase ≤ (stateOf children').phase ∧
      ((stateOf children).phase = 2 → stateOf children' = stateOf children)) ∧
    (∀ children : List ClassifiedChild, children ≠ [] →
      (stateOf children = .succeeded ↔
        ∀ c ∈ children, c.1.state = .succeeded)) ∧
    (∀ children, (outcomesOf children).sum = (outcomesOf children).total ↔
      ∀ c ∈ children, c.1.state.isTerminal = true) ∧
    (∀ children children', BatchRun children children' → ∀ bucket,
      (outcomesOf children).of bucket ≤ (outcomesOf children').of bucket) ∧
    (∀ batch children children', List.Perm children children' →
      BatchQuery.summaryOf batch children = BatchQuery.summaryOf batch children') := by
  refine ⟨fun children children' h => ⟨h.phase_le, fun hended => ?_⟩,
    fun children hne => ?_, fun children => ?_, fun children children' h => h.bucket_le,
    fun batch children children' h => ?_⟩
  · rw [h.eq_of_ended hended]
  · unfold stateOf
    rw [derive_eq_succeeded_iff (by simpa using hne), List.forall_mem_map]
    exact Iff.rfl
  · unfold outcomesOf
    rw [sum_eq_total_iff, List.forall_mem_map]
    exact Iff.rfl
  · rw [summaryOf_eq, summaryOf_eq, stateOf, stateOf, outcomesOf, outcomesOf,
      derive_perm (h.map _), summarize_perm (h.map _)]

end Rutilus.Proofs.BatchStates
