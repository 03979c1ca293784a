import Rutilus.Domain.Batch
import Rutilus.Proofs.FleetInv

/-!
# Success is never fabricated

An operation stored as succeeded had its result confirmed by a re-read, and
the re-read was made for a reason: the BMC accepted the write, or a read of the
stored Task showed it completed, or the command is one a re-read proves. An
answer lost in a crash is no reason.

A Task that was seen failed is not forgotten in the same way: the verdict is
stored after the Task row, and a crash in between leaves the operation waiting.
What holds is that only a later read showing `completed` leads to success.
-/

namespace Rutilus.Proofs.Success

open Rutilus.Domain Rutilus.Lib Rutilus.Store Rutilus.App
open Rutilus.Proofs.Lane Rutilus.Proofs.Fleet

/-- No hypothesis on runs: every clock and every answer. -/
def anyRun : Regime := ⟨False, False⟩

variable {posture : Executor.Posture} {s : Fleet} {X : OperationId}
  {row : OperationRow}

theorem allowed_anyRun (l : Fleet.Label) : Allowed anyRun s l := by
  cases l with
  | clock t => exact False.elim
  | submit => exact False.elim
  | enter X entry => cases entry <;> first | trivial | exact False.elim
  | call => exact fun _ _ _ _ => ⟨False.elim, False.elim⟩
  | leave => trivial
  | crash => trivial

/-- The states the drivers reach, whatever answers they get. -/
abbrev Reachable (posture : Executor.Posture) : Fleet → Prop :=
  Reach (· = Fleet.init) (Next (Fleet.next posture))

theorem inv_of_reachable (h : Reachable posture s) : Fleet.Inv anyRun s :=
  Inv.of_reach (h.mono (fun _ h => h)
    fun _ _ ⟨l, hl⟩ => ⟨l, hl, allowed_anyRun l⟩)

/-- The Task ended without achieving its result. -/
def failedTask (state : RemoteTaskState) : Prop :=
  state = .exception ∨ state = .killed ∨ state = .cancelled

/-- Reads of the Task that end with `completed`: a failed one has a completed
one after it. -/
theorem ReadsDone.later_completed {log newer older : List App.Event}
    {e : App.Event}
    {uri : TaskUri} {state : RemoteTaskState} (h : ReadsDone log)
    (hlog : log = newer ++ e :: older) (he : e.taskRead = some (uri, state))
    (hstate : failedTask state) :
    ∃ uri', (uri', .completed) ∈ taskReads newer := by
  have hreads : taskReads log =
      taskReads newer ++ (uri, state) :: taskReads older := by
    simp [hlog, taskReads, he]
  cases hn : taskReads newer with
  | nil =>
      have := h uri state (by rw [hreads, hn]; rfl)
      subst this
      rcases hstate with h | h | h <;> cases h
  | cons read reads =>
      obtain ⟨uri', state'⟩ := read
      obtain rfl := h uri' state' (by rw [hreads, hn]; rfl)
      exact ⟨uri', List.mem_cons_self⟩

/-- In every run of the three entry points, with arbitrary answers and a crash
between any two steps: an operation stored as succeeded was confirmed by a
re-read, before which the dispatch was answered `accepted`, or a read of the
stored Task showed `completed`, or the command is one a re-read proves; if it
is not, no crash ever found the operation running with no Task; and a read
that showed the Task failed was followed by one of the stored Task that showed
it completed. -/
theorem succeeded_never_fabricated (hs : Reachable posture s)
    (hrow : s.world.operations.find X = some row)
    (hstate : row.state = .succeeded) :
    (∃ newer e older, s.world.log X = newer ++ e :: older ∧
      e.isConfirmed = true ∧
      ((∃ a ∈ older, a.isAccepted = true) ∨
        (∃ task, s.world.tasks.find X = some task ∧
          (task.taskUri, .completed) ∈ taskReads older) ∨
        recoveryJudgementProvesEffect row.command = true)) ∧
    (recoveryJudgementProvesEffect row.command = false →
      ∀ e ∈ s.world.log X, e.losesAnswer = false) ∧
    (∀ newer e older uri state, s.world.log X = newer ++ e :: older →
      e.taskRead = some (uri, state) → failedTask state →
      ∃ task, s.world.tasks.find X = some task ∧
        (task.taskUri, .completed) ∈ taskReads newer) := by
  have hinv := (inv_of_reachable hs).lane X
  have hpast := (hinv.present row hrow).state
  simp only [StateInv, hstate] at hpast
  obtain ⟨⟨newer, e, older, hlog, hconfirmed, hevidence⟩, hdone, hlost⟩ :=
    hpast
  -- every completed read in the log was of the Task that is stored now
  have huri : ∀ l, (∀ read ∈ taskReads l, read ∈ taskReads (s.world.log X)) →
      ∀ uri, (uri, .completed) ∈ taskReads l →
      ∃ task, s.world.tasks.find X = some task ∧
        (task.taskUri, .completed) ∈ taskReads l := by
    intro l hl uri hu
    obtain ⟨task, htask, rfl⟩ := hinv.uri uri (hl _ hu)
    exact ⟨task, htask, hu⟩
  refine ⟨⟨newer, e, older, hlog, hconfirmed, ?_⟩, ?_, ?_⟩
  · refine hevidence.imp_right (Or.imp_left ?_)
    rintro ⟨uri, hu⟩
    refine huri older ?_ uri hu
    intro read hread
    have hlog' : s.world.log X = (newer ++ [e]) ++ older := by
      rw [List.append_assoc]
      exact hlog
    rw [hlog', taskReads_append]
    exact List.mem_append_right _ hread
  · intro hproves e he
    by_contra hl
    have := hlost ⟨e, he, by simpa using hl⟩
    rw [hproves] at this
    cases this
  · intro newer e older uri state hlog he hfailed
    obtain ⟨uri', hu⟩ := ReadsDone.later_completed hdone hlog he hfailed
    refine huri newer ?_ uri' hu
    intro read hread
    rw [hlog, taskReads_append]
    exact List.mem_append_left _ hread

/-- A reset whose Task is read failed; the process dies before the verdict is
stored, and the next poll reads the Task completed. -/
def failedThenCompleted : List Fleet.Label :=
  let failing := Oracle.working 101 .supported (.asyncTaskAccepted ⟨"/t/1"⟩)
    .exception
  let completed := Oracle.working 103 .supported .accepted .completed
  [ .submit ⟨1⟩ .standalone [⟨⟨7⟩, ⟨9⟩⟩] (.system (.reset "On")) 100
  , .enter ⟨1⟩ .execute ] ++
  List.replicate 17 (.call ⟨1⟩ .executor failing) ++
  [ .leave ⟨1⟩ .executor, .enter ⟨1⟩ (.poll 102) ] ++
  List.replicate 4 (.call ⟨1⟩ .monitor failing) ++
  [ .crash, .enter ⟨1⟩ (.poll 104) ] ++
  List.replicate 10 (.call ⟨1⟩ .monitor completed)

/-- Where that run ends. -/
theorem reachable_failedThenCompleted : ∃ s row,
    Reachable ⟨.system, .site⟩ s ∧ s.world.operations.find ⟨1⟩ = some row ∧
    row.state = .succeeded ∧
    ∃ e ∈ s.world.log ⟨1⟩, e.taskRead = some (⟨"/t/1"⟩, .exception) := by
  obtain ⟨s, hs, h⟩ := exists_reach_of_follow (· = Fleet.init)
    (Fleet.next ⟨.system, .site⟩) failedThenCompleted
    (fun s =>
      (s.world.operations.find ⟨1⟩).any (fun row =>
        row.state = .succeeded) &&
      (s.world.log ⟨1⟩).any fun e =>
        e.taskRead = some (⟨"/t/1"⟩, .exception)) rfl (by decide +kernel)
  simp only [Bool.and_eq_true, Option.any_eq_true, List.any_eq_true,
    decide_eq_true_eq] at h
  obtain ⟨⟨row, hrow, hstate⟩, hread⟩ := h
  exact ⟨s, row, hs, hrow, hstate, hread⟩

theorem succeeded_never_fabricated_reset : ∃ s row,
    Reachable ⟨.system, .site⟩ s ∧ s.world.operations.find ⟨1⟩ = some row ∧
    row.state = .succeeded ∧ ∃ task, s.world.tasks.find ⟨1⟩ = some task ∧
      (task.taskUri, .completed) ∈ taskReads (s.world.log ⟨1⟩) := by
  obtain ⟨s, row, hs, hrow, hstate, e, he, hread⟩ :=
    reachable_failedThenCompleted
  obtain ⟨newer, older, hlog⟩ := List.append_of_mem he
  obtain ⟨task, htask, hmem⟩ :=
    (succeeded_never_fabricated hs hrow hstate).2.2 newer e older _ _ hlog
      hread (Or.inl rfl)
  refine ⟨s, row, hs, hrow, hstate, task, htask, ?_⟩
  rw [hlog, taskReads_append]
  exact List.mem_append_left _ hmem

/-- A Task that was seen failed does not exclude success. -/
theorem failed_task_may_succeed :
    ¬ ∀ (posture : Executor.Posture) (s : Fleet) (X : OperationId)
        (row : OperationRow), Reachable posture s →
        s.world.operations.find X = some row →
        (∃ e ∈ s.world.log X, ∃ uri state,
          e.taskRead = some (uri, state) ∧ failedTask state) →
        row.state ≠ .succeeded := by
  intro hnever
  obtain ⟨s, row, hs, hrow, hstate, e, he, hread⟩ :=
    reachable_failedThenCompleted
  exact hnever _ s _ row hs hrow ⟨e, he, _, _, hread, Or.inl rfl⟩ hstate

end Rutilus.Proofs.Success

/-!
## The failure kind of a refused operation

A refusal at the capability pre-flight is classified before the operation is
stored as failed, in a write of its own, and the kind is never taken back. A
crash between the two writes leaves a kind on an operation whose next attempt
may go another way. If every attempt that meets such a kind is refused for the
same reason again, the kind of a failed operation is truthful.
-/

namespace Rutilus.Proofs.FailureKind

open Rutilus.Domain Rutilus.Lib Rutilus.Store Rutilus.App
open Rutilus.Proofs.Lane Rutilus.Proofs.Fleet

/-- Runs in which no attempt on an operation that carries a failure kind is
told that the endpoint is gone or that its command may be supported. -/
def truthfulRun : Regime := ⟨false, true⟩

/-- What a batch report reads of the children that exist. -/
def childOutcomes (w : World) (children : List OperationId) :
    List OperationOutcome :=
  children.filterMap fun X =>
    (w.operations.find X).map fun row => ⟨row.state, row.failureKind⟩

variable {posture : Executor.Posture} {s : Fleet} {X : OperationId}
  {row : OperationRow}

/-- The property the classification is meant to have. -/
def Truthful (s : Fleet) : Prop :=
  (∀ X row, s.world.operations.find X = some row → row.state = .failed →
    row.failureKind = some .capabilityUnsupported →
    Refused row.command (s.world.log X) ∧ dispatches (s.world.log X) = 0) ∧
  ∀ children, (summarize (childOutcomes s.world children)).unsupported =
    (summarize (childOutcomes s.world
      (children.filter fun X => dispatches (s.world.log X) = 0))).unsupported

/-- Children that were dispatched are not counted. -/
theorem unsupported_filter {w : World}
    (h : ∀ X row, w.operations.find X = some row → row.state = .failed →
      row.failureKind = some .capabilityUnsupported →
      dispatches (w.log X) = 0) (children : List OperationId) :
    (summarize (childOutcomes w children)).unsupported =
      (summarize (childOutcomes w
        (children.filter fun X => dispatches (w.log X) = 0))).unsupported := by
  rw [summarize_unsupported, summarize_unsupported]
  induction children with
  | nil => rfl
  | cons X children ih =>
      by_cases hX : dispatches (w.log X) = 0
      · rw [List.filter_cons_of_pos (by simpa using hX)]
        simp only [childOutcomes, List.filterMap_cons] at ih ⊢
        cases w.operations.find X with
        | none => exact ih
        | some row =>
            simp only [Option.map_some, List.countP_cons]
            rw [ih]
      · rw [List.filter_cons_of_neg (by simpa using hX)]
        rw [← ih]
        simp only [childOutcomes, List.filterMap_cons]
        cases hrow : w.operations.find X with
        | none => rfl
        | some row =>
            have hnot : OperationOutcome.isUnsupported
                ⟨row.state, row.failureKind⟩ = false := by
              by_contra hu
              simp only [OperationOutcome.isUnsupported, Bool.not_eq_false,
                decide_eq_true_eq] at hu
              exact hX (h X row hrow hu.1 hu.2)
            simp [hnot]

/-- In every run in which no attempt on an operation that already carries a
failure kind gets a pre-flight answer other than a proven lack: an operation
stored as failed with the kind was refused at the capability pre-flight by the
attempt that stored `failed`, and was never dispatched; so no report counts a
dispatched child as unsupported. -/
theorem failureKind_truthful
    (hs : Reach (· = Fleet.init) (Step truthfulRun posture) s) :
    Truthful s := by
  have hkind : ∀ X row, s.world.operations.find X = some row →
      row.state = .failed → row.failureKind = some .capabilityUnsupported →
      Refused row.command (s.world.log X) ∧
        dispatches (s.world.log X) = 0 := by
    intro X row hrow hstate hk
    have hinv := ((Inv.of_reach hs).lane X).present row hrow
    rcases hinv.kind rfl (by rw [hk]; nofun) with h | h | ⟨-, hd, hr⟩
    · rw [hstate] at h
      cases h
    · rw [hstate] at h
      cases h
    · exact ⟨hr, hd⟩
  exact ⟨hkind, unsupported_filter fun X row hrow hstate hk =>
    (hkind X row hrow hstate hk).2⟩

/-- A reset that an endpoint without the capability cannot do. -/
def submitReset : List Fleet.Label :=
  [ .submit ⟨1⟩ .standalone [⟨⟨7⟩, ⟨9⟩⟩] (.system (.reset "On")) 100
  , .enter ⟨1⟩ .execute ]

def lacking : Oracle :=
  Oracle.working 101 .notAdvertised .rejected .completed

theorem failureKind_truthful_refused : ∃ s row,
    Reach (· = Fleet.init) (Step truthfulRun ⟨.system, .site⟩) s ∧
    s.world.operations.find ⟨1⟩ = some row ∧ row.state = .failed ∧
    row.failureKind = some .capabilityUnsupported ∧
    dispatches (s.world.log ⟨1⟩) = 0 := by
  obtain ⟨s, hs, h⟩ := exists_reach_of_follow (· = Fleet.init)
    (nextAllowed false true ⟨.system, .site⟩)
    (submitReset ++ List.replicate 11 (.call ⟨1⟩ .executor lacking))
    (fun s => (s.world.operations.find ⟨1⟩).any fun row =>
      row.state = .failed ∧ row.failureKind = some .capabilityUnsupported)
    rfl (by decide +kernel)
  simp only [Option.any_eq_true, decide_eq_true_eq] at h
  obtain ⟨row, hrow, hstate, hkind⟩ := h
  have hs' := hs.mono (fun _ h => h) fun _ _ => step_of_nextAllowed
  exact ⟨s, row, hs', hrow, hstate, hkind,
    ((failureKind_truthful hs').1 _ row hrow hstate hkind).2⟩

/-- The process dies between the two writes; the endpoint then gains the
capability, the write is dispatched and the BMC rejects it. -/
def staleKind : List Fleet.Label :=
  submitReset ++ List.replicate 6 (.call ⟨1⟩ .executor lacking) ++
  [ .crash, .enter ⟨1⟩ .execute ] ++
  List.replicate 17 (.call ⟨1⟩ .executor
    (Oracle.working 102 .supported .rejected .completed))

/-- A dispatched and rejected operation is reported as unsupported. -/
theorem staleKind_not_truthful :
    ¬ ∀ (posture : Executor.Posture) (s : Fleet),
        Reach (· = Fleet.init) (Next (Fleet.next posture)) s →
        Truthful s := by
  intro htruthful
  obtain ⟨s, hs, h⟩ := exists_reach_of_follow (· = Fleet.init)
    (Fleet.next ⟨.system, .site⟩) staleKind
    (fun s =>
      (s.world.operations.find ⟨1⟩).any (fun row => row.state = .failed ∧
        row.failureKind = some .capabilityUnsupported) &&
      dispatches (s.world.log ⟨1⟩) = 1 &&
      (summarize (childOutcomes s.world [⟨1⟩])).unsupported = 1)
    rfl (by decide +kernel)
  simp only [Bool.and_eq_true, Option.any_eq_true, decide_eq_true_eq] at h
  obtain ⟨⟨⟨row, hrow, hstate, hkind⟩, hd⟩, -⟩ := h
  have := ((htruthful _ s hs).1 _ row hrow hstate hkind).2
  rw [hd] at this
  cases this

end Rutilus.Proofs.FailureKind
