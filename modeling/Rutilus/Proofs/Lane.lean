import Mathlib.Tactic.Common
import Rutilus.App.World
import Rutilus.Lib.Rely

/-!
# One operation seen alone

Everything the drivers do for one operation concerns its row, its Task row, its
log and the clock: its view. A call made for operation `X` acts on the view of
`X` as `Effect` says and leaves the view of every other operation alone but for
the clock (`perform_effect`, `perform_frame`).
-/

namespace Rutilus.Proofs.Lane

open Rutilus.Domain Rutilus.Lib Rutilus.Store Rutilus.App

/-- What the drivers of one operation can see of the world. -/
structure View where
  row : Option OperationRow
  task : Option RemoteTask
  log : List App.Event
  clock : Instant

def view (w : World) (X : OperationId) : View :=
  ⟨w.operations.find X, w.tasks.find X, w.log X, w.clock⟩

/-- The calls that concern operation `X` alone. -/
def About (X : OperationId) : SiteReq → Prop
  | .operations (.findOperation Y) => Y = X
  | .operations (.applyTransition Y _ _) => Y = X
  | .operations (.applyTransitionIfCurrent Y _ _ _) => Y = X
  | .operations (.recordFailureKind Y _) => Y = X
  | .operations (.createOperation _) => False
  | .operations (.listOperations _) => False
  | .tasks (.saveRemoteTask task) => task.operationId = X
  | .tasks (.findRemoteTask Y) => Y = X
  | .outside _ => True

/-- Row, Task and clock stay. -/
structure Same (v v' : View) : Prop where
  row : v'.row = v.row
  task : v'.task = v.task
  clock : v'.clock = v.clock

/-- Only the row moves. -/
structure Moved (v v' : View) (row : OperationRow) : Prop where
  row : v'.row = some row
  task : v'.task = v.task
  clock : v'.clock = v.clock

/-- What one call does to the view of its operation. -/
def Effect : (q : SiteReq) → View → q.Resp → View → Prop
  | .operations (.findOperation Y), v, r, v' => Same v v' ∧ match r with
      | .ok none => v.row = none
      | .ok (some operation) => ∃ row, v.row = some row ∧ row.id = Y ∧
          mapStoredOperation row = .ok operation
      | .error _ => True
  | .operations (.applyTransition _ state now), v, r, v' => match r with
      | .ok () => ∃ row, v.row = some row ∧ row.state.isTerminal = false ∧
          Moved v v' { row with state, updatedAt := now }
      | .error _ => Same v v'
  | .operations (.applyTransitionIfCurrent _ expected state now), v, r, v' =>
      match r with
      | .ok () => ∃ row, v.row = some row ∧ row.state = expected ∧
          row.state.isTerminal = false ∧
          Moved v v' { row with state, updatedAt := now }
      | .error _ => Same v v'
  | .operations (.recordFailureKind _ kind), v, r, v' => match r with
      | .ok () => ∃ row, v.row = some row ∧
          Moved v v' { row with failureKind := some kind }
      | .error _ => Same v v'
  | .operations (.createOperation _), _, _, _ => True
  | .operations (.listOperations _), _, _, _ => True
  | .tasks (.saveRemoteTask task), v, r, v' => match r with
      | .ok () => v'.row = v.row ∧ v'.task = some task ∧ v'.clock = v.clock
      | .error _ => Same v v'
  | .tasks (.findRemoteTask Y), v, r, v' => Same v v' ∧ match r with
      | .ok task => task = v.task ∧ ∀ t ∈ task, t.operationId = Y
      | .error _ => True
  | .outside .now, v, r, v' =>
      v'.row = v.row ∧ v'.task = v.task ∧ v'.clock = r
  | .outside _, v, _, v' => Same v v'

section Perform

variable {X Y : OperationId} {c : Caller} {o : Oracle} {w : World}

theorem view_perform_log (q : SiteReq) :
    (view (perform X c o q w).2 X).log =
      .made c q (perform X c o q w).1 :: (view w X).log := by
  have hlog : (answer o q w).2.log = w.log := by
    match q with
    | .operations _ => rfl
    | .tasks _ => rfl
    | .outside q => cases q <;> rfl
  simp [view, perform, World.note, hlog]

/-- A call made for `X` does to the view of `X` what `Effect` says. -/
theorem perform_effect {q : SiteReq} (h : About X q) :
    Effect q (view w X) (perform X c o q w).1
      (view (perform X c o q w).2 X) := by
  match q with
  | .operations (.findOperation Y) =>
      obtain rfl : Y = X := h
      cases hf : o.fault with
      | some f =>
          simp only [perform, answer, runOperationStore, hf]
          exact ⟨⟨rfl, rfl, rfl⟩, trivial⟩
      | none =>
          simp only [perform, answer, runOperationStore, hf]
          refine ⟨⟨rfl, rfl, rfl⟩, ?_⟩
          match hr : findOperation w.operations Y with
          | .ok none => exact findOperation_none hr
          | .ok (some operation) =>
              obtain ⟨row, hrow, hop⟩ := findOperation_ok hr
              exact ⟨row, hrow, Table.key_of_find hrow, hop⟩
          | .error e => trivial
  | .operations (.applyTransition Y state now) =>
      obtain rfl : Y = X := h
      cases hf : o.fault with
      | some f =>
          simp only [perform, answer, runOperationStore, hf]
          exact ⟨rfl, rfl, rfl⟩
      | none =>
          simp only [perform, answer, runOperationStore, hf]
          match hr : applyTransition w.operations Y state now with
          | .ok t =>
              obtain ⟨row, hrow, hterm, hfind⟩ := applyTransition_ok hr
              refine ⟨row, hrow, hterm, ?_, rfl, rfl⟩
              exact (hfind Y).trans (if_pos rfl)
          | .error e => exact ⟨rfl, rfl, rfl⟩
  | .operations (.applyTransitionIfCurrent Y expected state now) =>
      obtain rfl : Y = X := h
      cases hf : o.fault with
      | some f =>
          simp only [perform, answer, runOperationStore, hf]
          exact ⟨rfl, rfl, rfl⟩
      | none =>
          simp only [perform, answer, runOperationStore, hf]
          match hr : applyTransitionIfCurrent w.operations Y expected state
              now with
          | .ok t =>
              obtain ⟨row, hrow, hstate, hterm, hfind⟩ :=
                applyTransitionIfCurrent_ok hr
              refine ⟨row, hrow, hstate, hterm, ?_, rfl, rfl⟩
              exact (hfind Y).trans (if_pos rfl)
          | .error e => exact ⟨rfl, rfl, rfl⟩
  | .operations (.recordFailureKind Y kind) =>
      obtain rfl : Y = X := h
      cases hf : o.fault with
      | some f =>
          simp only [perform, answer, runOperationStore, hf]
          exact ⟨rfl, rfl, rfl⟩
      | none =>
          simp only [perform, answer, runOperationStore, hf]
          match hr : recordFailureKind w.operations Y kind with
          | .ok t =>
              obtain ⟨row, hrow, hfind⟩ := recordFailureKind_ok hr
              refine ⟨row, hrow, ?_, rfl, rfl⟩
              exact (hfind Y).trans (if_pos rfl)
          | .error e => exact ⟨rfl, rfl, rfl⟩
  | .tasks (.saveRemoteTask task) =>
      obtain rfl : task.operationId = X := h
      cases hf : o.fault with
      | some f =>
          simp only [perform, answer, runRemoteTaskStore, hf]
          exact ⟨rfl, rfl, rfl⟩
      | none =>
          simp only [perform, answer, runRemoteTaskStore, hf]
          refine ⟨rfl, ?_, rfl⟩
          exact Table.find_put.trans (if_pos rfl)
  | .tasks (.findRemoteTask Y) =>
      obtain rfl : Y = X := h
      cases hf : o.fault with
      | some f =>
          simp only [perform, answer, runRemoteTaskStore, hf]
          exact ⟨⟨rfl, rfl, rfl⟩, trivial⟩
      | none =>
          simp only [perform, answer, runRemoteTaskStore, hf]
          exact ⟨⟨rfl, rfl, rfl⟩, rfl, fun _ ht => Table.key_of_find ht⟩
  | .outside q =>
      cases q <;> exact ⟨rfl, rfl, rfl⟩

theorem find_written {t : OperationTable}
    {u : Except OperationRepositoryError OperationTable} {k : OperationId}
    (h : ∀ t', u = .ok t' → t'.find k = t.find k) :
    (written t u).2.find k = t.find k := by
  cases u with
  | ok t' => exact h t' rfl
  | error e => rfl

/-- A store call about `X` leaves the rows of the others. -/
theorem runOperationStore_frame {fault : Option Fault}
    {q : OperationStoreReq} {t : OperationTable}
    (h : About X (.operations q)) (hY : Y ≠ X) :
    (runOperationStore fault q t).2.find Y = t.find Y := by
  cases fault with
  | some f => rw [runOperationStore_fault]
  | none =>
      cases q with
      | createOperation operation => exact h.elim
      | listOperations state => rfl
      | findOperation Z => rfl
      | applyTransition Z state now =>
          refine find_written fun t' ht => ?_
          obtain ⟨row, -, -, hfind⟩ := applyTransition_ok ht
          have hZ : Z = X := h
          rw [hfind Y, if_neg (hZ ▸ hY)]
      | applyTransitionIfCurrent Z expected state now =>
          refine find_written fun t' ht => ?_
          obtain ⟨row, -, -, -, hfind⟩ := applyTransitionIfCurrent_ok ht
          have hZ : Z = X := h
          rw [hfind Y, if_neg (hZ ▸ hY)]
      | recordFailureKind Z kind =>
          refine find_written fun t' ht => ?_
          obtain ⟨row, -, hfind⟩ := recordFailureKind_ok ht
          have hZ : Z = X := h
          rw [hfind Y, if_neg (hZ ▸ hY)]

theorem runRemoteTaskStore_frame {fault : Option Fault}
    {q : RemoteTaskStoreReq} {t : RemoteTaskTable}
    (h : About X (.tasks q)) (hY : Y ≠ X) :
    (runRemoteTaskStore fault q t).2.find Y = t.find Y := by
  cases q with
  | findRemoteTask Z => cases fault <;> rfl
  | saveRemoteTask task =>
      have htask : task.operationId = X := h
      cases fault with
      | some f => rfl
      | none =>
          refine Table.find_put.trans (if_neg ?_)
          rw [htask]
          exact Ne.symm hY

/-- A call made for `X` leaves every other operation as it is. -/
theorem perform_frame {q : SiteReq} (h : About X q) (hY : Y ≠ X) :
    view (perform X c o q w).2 Y =
      { view w Y with clock := (perform X c o q w).2.clock } := by
  match q with
  | .operations q =>
      simp only [view, perform, answer, World.note, Function.update_of_ne hY,
        runOperationStore_frame h hY]
  | .tasks q =>
      simp only [view, perform, answer, World.note, Function.update_of_ne hY,
        runRemoteTaskStore_frame h hY]
  | .outside q =>
      cases q <;> simp [view, perform, answer, World.note,
        Function.update_of_ne hY]

end Perform

end Rutilus.Proofs.Lane

/-!
## The invariant of one operation

`Inv` ties each persisted state to what must have happened before it. It is the
invariant of every interleaving of one executor and one monitor poll, with
crashes; `ExecLater` and `MonLater` say what each of the two may find changed
between two of its calls.

Two hypotheses on runs are switched by a `Regime`, so that one proof serves
every claim: `timed` is a clock that never runs backwards together with the
absence of stale polls, `truthful` is that no attempt meets a capability answer
that contradicts a failure kind already stored.
-/

namespace Rutilus.Proofs.Lane

open Rutilus.Domain Rutilus.Lib Rutilus.Store Rutilus.App

/-! ## What must have happened -/

/-- A reason to believe the write took effect: the dispatch was accepted, or a
read of the Task showed it completed, or a re-read proves this command. -/
def Evidence (command : RedfishCommand) (log : List App.Event) : Prop :=
  (∃ e ∈ log, e.isAccepted = true) ∨
  (∃ uri, (uri, .completed) ∈ taskReads log) ∨
  recoveryJudgementProvesEffect command = true

/-- A re-read confirmed the result, and before it there was evidence. -/
def Proved (command : RedfishCommand) (log : List App.Event) : Prop :=
  ∃ newer e older, log = newer ++ e :: older ∧ e.isConfirmed = true ∧
    Evidence command older

/-- Every dispatch came after `running` was stored. -/
def DispatchedAfterRunning : List App.Event → Prop
  | [] => True
  | e :: older =>
      (e.isDispatch = true → ∃ p ∈ older, p.persists .running = true) ∧
        DispatchedAfterRunning older

/-- The attempt under way has met the proof that the command is unsupported. -/
def Attempted (command : RedfishCommand) (log : List App.Event) : Prop :=
  ∃ recent older, log = recent ++ older ∧
    (∀ e ∈ recent, e.opensAttempt = false) ∧
    ∃ e ∈ recent, e.provesUnsupported command = true

/-- The attempt that stored `failed` had met that proof. -/
def Refused (command : RedfishCommand) (log : List App.Event) : Prop :=
  ∃ newer e older, log = newer ++ e :: older ∧
    e.persists .failed = true ∧ Attempted command older

/-- A crash took the answer to a dispatch with it. -/
def Lost (log : List App.Event) : Prop := ∃ e ∈ log, e.losesAnswer = true

/-- No dispatch, no Task, no Task read, no answer to lose. -/
structure Untouched (v : View) : Prop where
  dispatches : dispatches v.log = 0
  task : v.task = none
  reads : taskReads v.log = []
  kept : ¬ Lost v.log

/-- If the Task was ever seen in a state, it was last seen completed. -/
def ReadsDone (log : List App.Event) : Prop :=
  ∀ uri state, (taskReads log).head? = some (uri, state) → state = .completed

/-- What the persisted state of an operation says about its past. -/
def StateInv (row : OperationRow) (v : View) : Prop :=
  match row.state with
  | .queued | .validating => Untouched v
  | .running => taskReads v.log = [] ∧ (Lost v.log → v.task = none)
  | .waitingRemote => ¬ Lost v.log
  | .verifying => Evidence row.command v.log ∧ ReadsDone v.log ∧
      (Lost v.log → recoveryJudgementProvesEffect row.command = true)
  | .succeeded => Proved row.command v.log ∧ ReadsDone v.log ∧
      (Lost v.log → recoveryJudgementProvesEffect row.command = true)
  | .failed | .unknown | .cancelled => True

/-- The two hypotheses a claim may make on runs. -/
structure Regime where
  timed : Prop
  truthful : Prop

structure RowInv (ρ : Regime) (row : OperationRow) (v : View) : Prop where
  state : StateInv row v
  time : ρ.timed →
    row.createdAt ≤ row.updatedAt ∧ row.updatedAt ≤ v.clock
  kind : ρ.truthful → row.failureKind ≠ none →
    row.state = .queued ∨ row.state = .validating ∨
    row.state = .failed ∧ dispatches v.log = 0 ∧ Refused row.command v.log

/-- The invariant of one operation. -/
structure Inv (ρ : Regime) (v : View) : Prop where
  once : dispatches v.log ≤ 1
  after : DispatchedAfterRunning v.log
  uri : ∀ uri, (uri, .completed) ∈ taskReads v.log →
    ∃ task, v.task = some task ∧ task.taskUri = uri
  absent : v.row = none → Untouched v
  present : ∀ row, v.row = some row → RowInv ρ row v

/-! ## Logs that grow -/

section Log

variable {command : RedfishCommand} {log l : List App.Event} {e : App.Event}

/-- An event that is no dispatch, reads no Task and loses no answer. -/
structure Quiet (e : App.Event) : Prop where
  dispatch : e.isDispatch = false
  read : e.taskRead = none
  kept : e.losesAnswer = false

theorem dispatches_cons_quiet (h : Quiet e) :
    dispatches (e :: log) = dispatches log := by
  simp [dispatches, h.dispatch]

theorem taskReads_cons_quiet (h : Quiet e) :
    taskReads (e :: log) = taskReads log := by
  simp [taskReads, h.read]

theorem lost_append (h : ∀ e ∈ l, e.losesAnswer = false) :
    Lost (l ++ log) ↔ Lost log := by
  constructor
  · rintro ⟨e, he, hl⟩
    rcases List.mem_append.mp he with he | he
    · rw [h e he] at hl
      cases hl
    · exact ⟨e, he, hl⟩
  · rintro ⟨e, he, hl⟩
    exact ⟨e, List.mem_append_right _ he, hl⟩

theorem lost_cons (h : e.losesAnswer = false) :
    Lost (e :: log) ↔ Lost log :=
  lost_append (l := [e]) (by simpa using h)

theorem taskReads_append :
    taskReads (l ++ log) = taskReads l ++ taskReads log := by
  simp [taskReads]

theorem Evidence.append (h : Evidence command log) :
    Evidence command (l ++ log) := by
  rcases h with ⟨e, he, ha⟩ | ⟨uri, hu⟩ | h
  · exact Or.inl ⟨e, List.mem_append_right _ he, ha⟩
  · exact Or.inr (Or.inl ⟨uri, by
      rw [taskReads_append]; exact List.mem_append_right _ hu⟩)
  · exact Or.inr (Or.inr h)

theorem Proved.append (h : Proved command log) :
    Proved command (l ++ log) := by
  obtain ⟨newer, e, older, rfl, h⟩ := h
  exact ⟨l ++ newer, e, older, by simp, h⟩

theorem Refused.append (h : Refused command log) :
    Refused command (l ++ log) := by
  obtain ⟨newer, e, older, rfl, h⟩ := h
  exact ⟨l ++ newer, e, older, by simp, h⟩

theorem Attempted.append (h : Attempted command log)
    (hnew : ∀ e ∈ l, e.opensAttempt = false) :
    Attempted command (l ++ log) := by
  obtain ⟨recent, older, rfl, hrecent, e, he, hu⟩ := h
  refine ⟨l ++ recent, older, by simp, ?_, e,
    List.mem_append_right _ he, hu⟩
  intro x hx
  rcases List.mem_append.mp hx with hx | hx
  · exact hnew x hx
  · exact hrecent x hx

theorem ReadsDone.of_nil (h : taskReads log = []) : ReadsDone log := by
  intro uri state hs
  rw [h] at hs
  cases hs

theorem ReadsDone.cons_quiet (h : ReadsDone log) (hq : Quiet e) :
    ReadsDone (e :: log) := by
  unfold ReadsDone
  rw [taskReads_cons_quiet hq]
  exact h

/-- The dispatches of a log, each after `running` was stored. -/
theorem DispatchedAfterRunning.split
    (h : DispatchedAfterRunning log) {newer older : List App.Event}
    (hlog : log = newer ++ e :: older) (he : e.isDispatch = true) :
    ∃ p ∈ older, p.persists .running = true := by
  induction newer generalizing log with
  | nil =>
      subst hlog
      exact h.1 he
  | cons x newer ih =>
      subst hlog
      exact ih h.2 rfl

theorem DispatchedAfterRunning.cons_quiet (h : DispatchedAfterRunning log)
    (hq : Quiet e) : DispatchedAfterRunning (e :: log) :=
  ⟨fun he => absurd he (by simp [hq.dispatch]), h⟩

end Log

/-! ## How the invariant is kept -/

section Keep

variable {ρ : Regime} {v v' : View} {row row' : OperationRow} {e : App.Event}

theorem Untouched.quiet (h : Untouched v) (hq : Quiet e)
    (htask : v'.task = v.task) (hlog : v'.log = e :: v.log) :
    Untouched v' where
  dispatches := by rw [hlog, dispatches_cons_quiet hq, h.dispatches]
  task := htask.trans h.task
  reads := by rw [hlog, taskReads_cons_quiet hq, h.reads]
  kept := by rw [hlog, lost_cons hq.kept]; exact h.kept

theorem StateInv.quiet (h : StateInv row v) (hq : Quiet e)
    (htask : v'.task = v.task) (hlog : v'.log = e :: v.log) :
    StateInv row v' := by
  unfold StateInv at *
  split
  · next hs => rw [hs] at h; exact h.quiet hq htask hlog
  · next hs => rw [hs] at h; exact h.quiet hq htask hlog
  · next hs =>
      rw [hs] at h
      rw [hlog, taskReads_cons_quiet hq, lost_cons hq.kept, htask]
      exact h
  · next hs =>
      rw [hs] at h
      rw [hlog, lost_cons hq.kept]
      exact h
  · next hs =>
      rw [hs] at h
      rw [hlog, lost_cons hq.kept]
      exact ⟨Evidence.append (l := [e]) h.1, h.2.1.cons_quiet hq, h.2.2⟩
  · next hs =>
      rw [hs] at h
      rw [hlog, lost_cons hq.kept]
      exact ⟨Proved.append (l := [e]) h.1, h.2.1.cons_quiet hq, h.2.2⟩
  all_goals trivial

/-- A quiet event and a new row: only the row's own part has to be shown. -/
theorem Inv.write (h : Inv ρ v) (hq : Quiet e) (hlog : v'.log = e :: v.log)
    (htask : v'.task = v.task) (hrow : v'.row = some row')
    (hinv : RowInv ρ row' v') : Inv ρ v' where
  once := by rw [hlog, dispatches_cons_quiet hq]; exact h.once
  after := by rw [hlog]; exact h.after.cons_quiet hq
  uri := by rw [hlog, taskReads_cons_quiet hq, htask]; exact h.uri
  absent := fun hnone => by cases hrow.symm.trans hnone
  present := by
    intro row hrow'
    rw [hrow] at hrow'
    cases hrow'
    exact hinv

theorem RowInv.quiet (h : RowInv ρ row v) (hq : Quiet e)
    (hlog : v'.log = e :: v.log) (htask : v'.task = v.task)
    (hclock : ρ.timed → v.clock ≤ v'.clock) : RowInv ρ row v' where
  state := h.state.quiet hq htask hlog
  time := fun hρ =>
    ⟨(h.time hρ).1, Int.le_trans (h.time hρ).2 (hclock hρ)⟩
  kind := by
    intro hρ hk
    rcases h.kind hρ hk with hs | hs | ⟨hs, hd, hr⟩
    · exact Or.inl hs
    · exact Or.inr (Or.inl hs)
    · refine Or.inr (Or.inr ⟨hs, ?_, ?_⟩)
      · rw [hlog, dispatches_cons_quiet hq, hd]
      · rw [hlog]
        exact Refused.append (l := [e]) hr

/-- A quiet event alone. -/
theorem Inv.quiet (h : Inv ρ v) (hq : Quiet e) (hlog : v'.log = e :: v.log)
    (htask : v'.task = v.task) (hrow : v'.row = v.row)
    (hclock : ρ.timed → v.clock ≤ v'.clock) : Inv ρ v' := by
  cases hr : v.row with
  | some row =>
      exact h.write hq hlog htask (hrow.trans hr)
        ((h.present row hr).quiet hq hlog htask hclock)
  | none =>
      exact {
        once := by rw [hlog, dispatches_cons_quiet hq]; exact h.once
        after := by rw [hlog]; exact h.after.cons_quiet hq
        uri := by rw [hlog, taskReads_cons_quiet hq, htask]; exact h.uri
        absent := fun _ => (h.absent hr).quiet hq htask hlog
        present := fun row hrow' => by
          cases hrow'.symm.trans (hrow.trans hr) }

/-- A crash that loses an answer finds the operation running with no Task,
and that is where it stays until it is given up. -/
theorem StateInv.crash (h : StateInv row v) (hrow : v.row = some row) :
    StateInv row { v with log := .crashed v.row v.task :: v.log } := by
  by_cases hl : (Event.crashed v.row v.task).losesAnswer = true
  · obtain ⟨hs, htask⟩ : row.state = .running ∧ v.task = none := by
      rw [hrow] at hl
      cases htask : v.task with
      | some task => rw [htask] at hl; cases hl
      | none =>
          rw [htask] at hl
          exact ⟨by simpa [Event.losesAnswer] using hl, rfl⟩
    simp only [StateInv, hs] at h ⊢
    exact ⟨h.1, fun _ => htask⟩
  · exact h.quiet ⟨rfl, rfl, by simpa using hl⟩ rfl rfl

theorem Inv.crash (h : Inv ρ v) :
    Inv ρ { v with log := .crashed v.row v.task :: v.log } where
  once := h.once
  after := ⟨nofun, h.after⟩
  uri := h.uri
  absent := fun hnone => by
    have hun := h.absent hnone
    refine ⟨hun.dispatches, hun.task, hun.reads, ?_⟩
    rw [lost_cons (by rw [hnone]; rfl)]
    exact hun.kept
  present := fun row hrow => by
    have hold := h.present row hrow
    refine ⟨hold.state.crash hrow, hold.time, fun hρ hk => ?_⟩
    rcases hold.kind hρ hk with hs | hs | ⟨hs, hd, hr⟩
    · exact Or.inl hs
    · exact Or.inr (Or.inl hs)
    · exact Or.inr (Or.inr ⟨hs, hd, Refused.append (l := [_]) hr⟩)

end Keep

end Rutilus.Proofs.Lane
