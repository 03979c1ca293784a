import Rutilus.Domain.Operation

/-!
# Batches

The parent of a submission to several endpoints. It has no state of its own: what
is reported of it is computed from the states of its child operations and, for a
failed child, from the stored failure kind. A child still under way is counted in
no bucket.
-/

namespace Rutilus.Domain

structure BatchOperationId where
  uuid : Nat
  deriving DecidableEq, Repr

structure BatchOperation where
  id : BatchOperationId
  source : OperationSource
  command : RedfishCommand
  createdAt : Instant
  deriving DecidableEq, Repr

/-! ## The state of a batch -/

inductive BatchOperationState where
  | queued
  | running
  | succeeded
  | failed
  | unknown
  | cancelled
  deriving DecidableEq, Repr

def deriveBatchState (children : List OperationState) : BatchOperationState :=
  if children.all (· = .queued) then .queued
  else if children.any (!·.isTerminal) then .running
  else if children.all (· = .succeeded) then .succeeded
  else if children.all (· = .cancelled) then .cancelled
  else if .failed ∈ children then .failed
  else .unknown

/-- How far along a batch is: queued, running or at its end. -/
def BatchOperationState.phase : BatchOperationState → Nat
  | .queued => 0
  | .running => 1
  | .succeeded | .failed | .unknown | .cancelled => 2

section Derive

variable {children children' : List OperationState}

theorem derive_of_queued (h : ∀ s ∈ children, s = .queued) :
    deriveBatchState children = .queued :=
  if_pos (by simpa using h)

theorem derive_of_running (hstarted : ∃ s ∈ children, s ≠ .queued)
    (hrunning : ∃ s ∈ children, s.isTerminal = false) :
    deriveBatchState children = .running := by
  unfold deriveBatchState
  rw [if_neg (by simpa using hstarted), if_pos (by simpa using hrunning)]

/-- The verdict on children that have all ended. -/
def batchVerdict (children : List OperationState) : BatchOperationState :=
  if children.all (· = .succeeded) then .succeeded
  else if children.all (· = .cancelled) then .cancelled
  else if .failed ∈ children then .failed
  else .unknown

theorem derive_of_terminal (hne : children ≠ [])
    (h : ∀ s ∈ children, s.isTerminal = true) :
    deriveBatchState children = batchVerdict children := by
  obtain ⟨s, hs⟩ := List.exists_mem_of_ne_nil children hne
  have hstarted : ∃ s ∈ children, s ≠ .queued := by
    refine ⟨s, hs, ?_⟩
    rintro rfl
    exact absurd (h _ hs) (by decide)
  unfold deriveBatchState
  rw [if_neg (by simpa using hstarted), if_neg (by simpa using h)]
  rfl

theorem phase_batchVerdict (children : List OperationState) :
    (batchVerdict children).phase = 2 := by
  unfold batchVerdict
  repeat' split
  all_goals rfl

/-- The phase says whether anything has started and whether all has ended. -/
theorem phase_cases (hne : children ≠ []) :
    (deriveBatchState children).phase = 0 ∧ (∀ s ∈ children, s = .queued) ∨
    (deriveBatchState children).phase = 1 ∧ (∃ s ∈ children, s ≠ .queued) ∧
      (∃ s ∈ children, s.isTerminal = false) ∨
    (deriveBatchState children).phase = 2 ∧ ∀ s ∈ children, s.isTerminal = true := by
  by_cases hqueued : ∀ s ∈ children, s = .queued
  · exact .inl ⟨by rw [derive_of_queued hqueued]; rfl, hqueued⟩
  by_cases hterminal : ∀ s ∈ children, s.isTerminal = true
  · rw [derive_of_terminal hne hterminal]
    exact .inr (.inr ⟨phase_batchVerdict children, hterminal⟩)
  · have hstarted : ∃ s ∈ children, s ≠ .queued := by simpa using hqueued
    have hrunning : ∃ s ∈ children, s.isTerminal = false := by simpa using hterminal
    rw [derive_of_running hstarted hrunning]
    exact .inr (.inl ⟨rfl, hstarted, hrunning⟩)

theorem derive_eq_succeeded_iff (hne : children ≠ []) :
    deriveBatchState children = .succeeded ↔ ∀ s ∈ children, s = .succeeded := by
  constructor
  · intro h
    rcases phase_cases hne with ⟨hphase, -⟩ | ⟨hphase, -⟩ | ⟨-, hterminal⟩
    · rw [h] at hphase
      cases hphase
    · rw [h] at hphase
      cases hphase
    · rw [derive_of_terminal hne hterminal, batchVerdict] at h
      split at h
      · next hall => simpa using hall
      · split at h
        · cases h
        · split at h <;> cases h
  · intro h
    rw [derive_of_terminal hne fun s hs => by rw [h s hs]; rfl]
    exact if_pos (by simpa using h)

/-- The order of the children does not matter. -/
theorem derive_perm (h : children.Perm children') :
    deriveBatchState children = deriveBatchState children' := by
  unfold deriveBatchState
  simp only [h.all_eq, h.any_eq, h.mem_iff]

end Derive

/-! ## Outcomes -/

/-- What reporting sees of a child. -/
structure OperationOutcome where
  state : OperationState
  failureKind : Option FailureKind
  deriving DecidableEq, Repr

structure BatchOutcomeCounts where
  succeeded : Nat
  failed : Nat
  unknown : Nat
  unsupported : Nat
  cancelled : Nat
  total : Nat
  deriving DecidableEq, Repr

/-- One turn of the loop of `summarize`. -/
def BatchOutcomeCounts.count (counts : BatchOutcomeCounts)
    (outcome : OperationOutcome) : BatchOutcomeCounts :=
  match outcome.state with
  | .succeeded => { counts with succeeded := counts.succeeded + 1 }
  | .failed => match outcome.failureKind with
    | some .capabilityUnsupported =>
        { counts with unsupported := counts.unsupported + 1 }
    | none => { counts with failed := counts.failed + 1 }
  | .unknown => { counts with unknown := counts.unknown + 1 }
  | .cancelled => { counts with cancelled := counts.cancelled + 1 }
  | .queued | .validating | .running | .waitingRemote | .verifying => counts

def summarize (outcomes : List OperationOutcome) : BatchOutcomeCounts :=
  outcomes.foldl BatchOutcomeCounts.count
    { succeeded := 0, failed := 0, unknown := 0, unsupported := 0
      cancelled := 0, total := outcomes.length }

/-- A child that reporting calls unsupported. -/
def OperationOutcome.isUnsupported (outcome : OperationOutcome) : Bool :=
  outcome.state = .failed ∧ outcome.failureKind = some .capabilityUnsupported

/-! ## The buckets -/

/-- The buckets, without the total. -/
inductive OutcomeBucket where
  | succeeded
  | failed
  | unknown
  | unsupported
  | cancelled
  deriving DecidableEq, Repr

/-- The one bucket a child that has ended is counted in. -/
def OperationOutcome.bucket (outcome : OperationOutcome) : Option OutcomeBucket :=
  match outcome.state with
  | .succeeded => some .succeeded
  | .failed => match outcome.failureKind with
    | some .capabilityUnsupported => some .unsupported
    | none => some .failed
  | .unknown => some .unknown
  | .cancelled => some .cancelled
  | .queued | .validating | .running | .waitingRemote | .verifying => none

def BatchOutcomeCounts.of (counts : BatchOutcomeCounts) : OutcomeBucket → Nat
  | .succeeded => counts.succeeded
  | .failed => counts.failed
  | .unknown => counts.unknown
  | .unsupported => counts.unsupported
  | .cancelled => counts.cancelled

theorem isSome_bucket (outcome : OperationOutcome) :
    outcome.bucket.isSome = outcome.state.isTerminal := by
  obtain ⟨state, kind⟩ := outcome
  cases state <;> cases kind <;> rfl

theorem count_of (counts : BatchOutcomeCounts) (outcome : OperationOutcome)
    (bucket : OutcomeBucket) :
    (counts.count outcome).of bucket =
      counts.of bucket + if outcome.bucket = some bucket then 1 else 0 := by
  obtain ⟨state, kind⟩ := outcome
  cases state <;> cases kind <;> cases bucket <;> rfl

theorem count_total (counts : BatchOutcomeCounts) (outcome : OperationOutcome) :
    (counts.count outcome).total = counts.total := by
  obtain ⟨state, kind⟩ := outcome
  cases state <;> cases kind <;> rfl

theorem foldl_count_of (outcomes : List OperationOutcome)
    (counts : BatchOutcomeCounts) (bucket : OutcomeBucket) :
    (outcomes.foldl BatchOutcomeCounts.count counts).of bucket =
      counts.of bucket + outcomes.countP fun o => o.bucket = some bucket := by
  induction outcomes generalizing counts with
  | nil => rfl
  | cons outcome outcomes ih =>
      rw [List.foldl_cons, ih, count_of, List.countP_cons]
      simp only [decide_eq_true_eq]
      omega

/-- A bucket counts the children that belong to it. -/
theorem summarize_of (outcomes : List OperationOutcome) (bucket : OutcomeBucket) :
    (summarize outcomes).of bucket =
      outcomes.countP fun o => o.bucket = some bucket := by
  rw [summarize, foldl_count_of]
  cases bucket <;> exact Nat.zero_add _

theorem summarize_total (outcomes : List OperationOutcome) :
    (summarize outcomes).total = outcomes.length := by
  suffices ∀ counts : BatchOutcomeCounts,
      (outcomes.foldl BatchOutcomeCounts.count counts).total = counts.total from
    this _
  induction outcomes with
  | nil => exact fun counts => rfl
  | cons outcome outcomes ih =>
      exact fun counts => (ih _).trans (count_total counts outcome)

/-- The bucket counts exactly the children reporting calls unsupported. -/
theorem summarize_unsupported (outcomes : List OperationOutcome) :
    (summarize outcomes).unsupported =
      outcomes.countP OperationOutcome.isUnsupported := by
  refine (summarize_of outcomes .unsupported).trans (congrArg (List.countP · outcomes) ?_)
  funext outcome
  obtain ⟨state, kind⟩ := outcome
  cases state <;> cases kind <;> rfl

/-- The children in some bucket. -/
def BatchOutcomeCounts.sum (counts : BatchOutcomeCounts) : Nat :=
  counts.succeeded + counts.failed + counts.unknown + counts.unsupported +
    counts.cancelled

theorem count_sum (counts : BatchOutcomeCounts) (outcome : OperationOutcome) :
    (counts.count outcome).sum =
      counts.sum + if outcome.state.isTerminal then 1 else 0 := by
  obtain ⟨state, kind⟩ := outcome
  cases state <;> cases kind <;>
    simp only [BatchOutcomeCounts.count, BatchOutcomeCounts.sum,
      OperationState.isTerminal, if_true, Bool.false_eq_true, if_false] <;> omega

theorem foldl_count_sum (outcomes : List OperationOutcome)
    (counts : BatchOutcomeCounts) :
    (outcomes.foldl BatchOutcomeCounts.count counts).sum =
      counts.sum + outcomes.countP fun o => o.state.isTerminal := by
  induction outcomes generalizing counts with
  | nil => rfl
  | cons outcome outcomes ih =>
      rw [List.foldl_cons, ih, count_sum, List.countP_cons]
      omega

theorem summarize_sum (outcomes : List OperationOutcome) :
    (summarize outcomes).sum =
      outcomes.countP fun o => o.state.isTerminal := by
  rw [summarize, foldl_count_sum]
  exact Nat.zero_add _

/-- The buckets account for every child exactly when all have ended. -/
theorem sum_eq_total_iff (outcomes : List OperationOutcome) :
    (summarize outcomes).sum = (summarize outcomes).total ↔
      ∀ o ∈ outcomes, o.state.isTerminal = true := by
  rw [summarize_sum, summarize_total, List.countP_eq_length]

/-- Counts are equal if their buckets and totals are. -/
theorem BatchOutcomeCounts.ext_of {a b : BatchOutcomeCounts}
    (hof : ∀ bucket, a.of bucket = b.of bucket) (htotal : a.total = b.total) :
    a = b := by
  have hsucceeded := hof .succeeded
  have hfailed := hof .failed
  have hunknown := hof .unknown
  have hunsupported := hof .unsupported
  have hcancelled := hof .cancelled
  obtain ⟨⟩ := a
  obtain ⟨⟩ := b
  simp_all [BatchOutcomeCounts.of]

theorem summarize_perm {outcomes outcomes' : List OperationOutcome}
    (h : outcomes.Perm outcomes') : summarize outcomes = summarize outcomes' := by
  refine BatchOutcomeCounts.ext_of (fun bucket => ?_) ?_
  · rw [summarize_of, summarize_of, h.countP_eq]
  · rw [summarize_total, summarize_total, h.length_eq]

end Rutilus.Domain
