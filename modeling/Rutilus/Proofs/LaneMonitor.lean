import Rutilus.Proofs.LaneMoves

/-!
# The Task monitor keeps its contract

A poll acts only on an operation it has read waiting for its Task, and nobody
else moves such an operation. It enters `verifying` right after its own read of
the Task showed `completed`, so that read is still the newest one. Every step
of a poll is stamped with the instant its sweep began at: the poll is on time
only if the row it read is not newer than that.
-/

namespace Rutilus.Proofs.Lane

open Rutilus.Domain Rutilus.Lib Rutilus.Store Rutilus.Engine Rutilus.App
open Rutilus.App.TaskMonitor

/-- The contract of a monitor program on operation `X`. -/
abbrev MonSafe {α : Type} (ρ : Regime) (X : OperationId) (sweep : Instant)
    (p : Prog site α) (Q : α → View → Prop) (v : View) : Prop :=
  Safe (LaneCall ρ X (.monitor sweep)) (MonLater ρ) (MonStep ρ X) p Q v

variable {ρ : Regime} {X : OperationId} {sweep : Instant} {v : View}
  {α : Type} {actor : AuditActor} {origin : DeploymentPosture}

theorem MonLater.taskReads {v' : View} (h : MonLater ρ v v') :
    taskReads v'.log = taskReads v.log := by
  obtain ⟨new, hlog, hnew⟩ := h.log
  have : new.filterMap Event.taskRead = [] := by
    rw [List.filterMap_eq_nil_iff]
    exact hnew
  simp [App.taskReads, hlog, this]

theorem monitor_record_safe {endpointId : EndpointId}
    {source : OperationSource} {outcome : AuditOutcome} {t : Instant}
    {k : Unit → TaskMonitor.M α} {Q : Except TaskMonitorError α → View → Prop}
    (herr : ∀ e v', Q (.error e) v')
    (hk : ∀ v', MonSafe ρ X sweep (k ()) Q v') :
    MonSafe ρ X sweep
      (recordOutcome actor origin endpointId source outcome t >>= k :
        TaskMonitor.M α) Q v := by
  refine mon_quiet (q := .outside (.appendAuditEvent _)) trivial trivial ?_
  intro r v₁ v' _ _ _
  match r with
  | .error e => exact herr _ _
  | .ok () => exact hk v'

/-! ## Stored steps -/

/-- The row the poll waits on, not newer than its sweep. -/
structure Waiting (ρ : Regime) (sweep : Instant) (v : View)
    (row : OperationRow) : Prop where
  found : v.row = some row
  state : row.state = .waitingRemote
  time : ρ.timed → row.updatedAt ≤ sweep ∧ sweep ≤ v.clock

theorem Waiting.later {v' : View} {row : OperationRow}
    (h : Waiting ρ sweep v row) (h' : MonLater ρ v v') :
    Waiting ρ sweep v' row where
  found := (h'.waiting row h.found h.state).1
  state := h.state
  time := fun hρ =>
    ⟨(h.time hρ).1, Int.le_trans (h.time hρ).2 (h'.clock hρ)⟩

/-- An operation that waits for its Task has lost no answer. -/
theorem Waiting.kept {row : OperationRow} (h : Waiting ρ sweep v row)
    (hv : Inv ρ v) : ¬ Lost v.log := by
  have hs := (hv.present row h.found).state
  simpa only [StateInv, h.state] using hs

/-- A stored failure kind is never found on an operation that was
dispatched. -/
theorem Inv.kind_of_dispatched {row : OperationRow} (h : Inv ρ v)
    (hrow : v.row = some row)
    (hs : row.state = .waitingRemote ∨ row.state = .verifying)
    (hρ : ρ.truthful) : row.failureKind = none := by
  by_contra hk
  rcases (h.present row hrow).kind hρ hk with h | h | ⟨h, -⟩ <;>
    rcases hs with hs | hs <;> rw [hs] at h <;> cases h

/-- What the poll has to know before it enters a state. -/
def Concludes (command : RedfishCommand) (log : List App.Event) :
    OperationState → Prop
  | .verifying => Evidence command log ∧ ReadsDone log
  | .succeeded => Proved command log ∧ ReadsDone log
  | .failed | .unknown | .cancelled => True
  | _ => False

theorem Concludes.stateInv {row : OperationRow} {state : OperationState}
    {v₁ v' : View} {t : Instant} {e : App.Event}
    (h : Concludes row.command v.log state) (h₁ : MonLater ρ v v₁)
    (hlog : v'.log = e :: v₁.log) (hq : Quiet e)
    (hlost : Lost v₁.log → recoveryJudgementProvesEffect row.command = true) :
    StateInv { row with state, updatedAt := t } v' := by
  obtain ⟨new, hnew, -⟩ := h₁.log
  have hreads : ReadsDone v.log → ReadsDone v'.log := by
    intro hd
    rw [hlog]
    refine ReadsDone.cons_quiet ?_ hq
    unfold ReadsDone
    rw [h₁.taskReads]
    exact hd
  have hv' : v'.log = (e :: new) ++ v.log := by rw [hlog, hnew]; rfl
  have hlost' : Lost v'.log →
      recoveryJudgementProvesEffect row.command = true := by
    rw [hlog, lost_cons hq.kept]
    exact hlost
  cases state with
  | verifying =>
      refine ⟨?_, hreads h.2, hlost'⟩
      show Evidence row.command v'.log
      rw [hv']
      exact h.1.append
  | succeeded =>
      refine ⟨?_, hreads h.2, hlost'⟩
      show Proved row.command v'.log
      rw [hv']
      exact h.1.append
  | failed => trivial
  | unknown => trivial
  | cancelled => trivial
  | queued => exact h.elim
  | validating => exact h.elim
  | running => exact h.elim
  | waitingRemote => exact h.elim

/-- The view right after the poll stored a step. -/
structure MonStepped (ρ : Regime) (sweep : Instant) (v v' : View)
    (row : OperationRow) (state : OperationState) : Prop where
  row : v'.row = some { row with state, updatedAt := sweep }
  clock : ρ.timed → v.clock ≤ v'.clock

/-- The poll's `applyStep` on the row it waits on. -/
theorem applyStep_waiting {row : OperationRow} {state : OperationState}
    {event : OperationEvent}
    {Q : Except TaskMonitorError Operation → View → Prop}
    (h : Waiting ρ sweep v row)
    (ht : transition .waitingRemote event = .ok state)
    (hpast : Concludes row.command v.log state)
    (herr : ∀ e v', Q (.error e) v')
    (hok : ∀ operation v', MonStepped ρ sweep v v' row state →
      Q (.ok operation) v') :
    MonSafe ρ X sweep (applyStep X event sweep) Q v := by
  refine mon_quiet (q := .operations (.findOperation X)) trivial rfl ?_
  intro r v₁ v₂ h₁ hfind h₂
  match r with
  | .error e => exact herr _ _
  | .ok none => exact herr _ _
  | .ok (some operation) =>
      obtain ⟨row', hrow', -, hop⟩ := hfind.effect.2
      obtain rfl : row = row' :=
        Option.some_inj.mp ((h.later h₁).found.symm.trans hrow')
      show MonSafe ρ X sweep
        (orThrow (decideAndStore X event sweep operation) (engineError X))
        Q v₂
      unfold decideAndStore
      match happly : operation.apply event sweep with
      | .error source => exact herr _ _
      | .ok advanced =>
          have hadv : advanced.state = state := by
            have := (Operation.apply_ok happly).1
            rw [(mapStoredOperation_ok hop).2.2.2.1, h.state, ht] at this
            exact (Except.ok.inj this).symm
          show MonSafe ρ X sweep (.call (.operations
            (.applyTransition X advanced.state sweep)) _) Q v₂
          rw [hadv]
          intro v₃ h₃ r v₄ hA
          have hcall := hA rfl
          have hlater := h₂.trans h₃
          match r with
          | .error e =>
              have hstill := hcall.still_of_same hcall.effect ⟨rfl, rfl, rfl⟩
              exact ⟨⟨rfl, hstill.execLater h₃.inv, .same hstill.row⟩,
                herr _ _⟩
          | .ok () =>
              obtain ⟨row', hrow', -, hmoved⟩ := hcall.effect
              have hw₃ := h.later hlater
              obtain rfl : row = row' :=
                Option.some_inj.mp (hw₃.found.symm.trans hrow')
              have hw : Wrote ρ v₃ v₄ row state sweep := by
                refine ⟨hw₃.found, ⟨event, by rw [h.state]; exact ht⟩, hmoved,
                  ⟨_, hcall.log, ⟨rfl, rfl, rfl⟩, rfl⟩, hw₃.time,
                  hpast.stateInv hlater hcall.log ⟨rfl, rfl, rfl⟩ ?_, ?_⟩
                · intro hlost
                  exact absurd hlost (hw₃.kept h₃.inv)
                intro hρ hk _
                exact absurd (h₃.inv.kind_of_dispatched hw₃.found
                  (Or.inl h.state) hρ) hk
              refine ⟨⟨rfl, hw.execLater h₃.inv ?_, hw.advance⟩, ?_⟩
              · rw [h.state]
                unfold Held
                decide
              · refine hok advanced v₄ ⟨hmoved.row, fun hρ => ?_⟩
                exact Int.le_trans (hlater.clock hρ) (hcall.clock hρ)

/-- The poll's `applyStep` on an operation under verification: it settles the
operation or finds it settled. -/
theorem applyStep_settling {row : OperationRow} {state : OperationState}
    {event : OperationEvent}
    {Q : Except TaskMonitorError Operation → View → Prop}
    (hrow : v.row = some row)
    (hs : row.state = .verifying ∨ row.state.isTerminal = true)
    (htime : ρ.timed → (row.state = .verifying → row.updatedAt ≤ sweep) ∧
      sweep ≤ v.clock)
    (ht : transition .verifying event = .ok state)
    (hpast : row.state = .verifying → Concludes row.command v.log state)
    (hQ : ∀ r v', Q r v') :
    MonSafe ρ X sweep (applyStep X event sweep) Q v := by
  refine mon_quiet (q := .operations (.findOperation X)) trivial rfl ?_
  intro r v₁ v₂ h₁ hfind h₂
  match r with
  | .error e => exact hQ _ _
  | .ok none => exact hQ _ _
  | .ok (some operation) =>
      obtain ⟨row', hrow', -, hop⟩ := hfind.effect.2
      show MonSafe ρ X sweep
        (orThrow (decideAndStore X event sweep operation) (engineError X))
        Q v₂
      unfold decideAndStore
      match happly : operation.apply event sweep with
      | .error source => exact hQ _ _
      | .ok advanced =>
          have hlegal := (Operation.apply_ok happly).1
          rw [(mapStoredOperation_ok hop).2.2.2.1] at hlegal
          have hadv : advanced.state = state := by
            have hnt := Legal.not_isTerminal ⟨event, hlegal⟩
            have := h₁.eq_of_not_terminal hrow hs hrow' hnt
            rw [this.2, ht] at hlegal
            exact (Except.ok.inj hlegal).symm
          show MonSafe ρ X sweep (.call (.operations
            (.applyTransition X advanced.state sweep)) _) Q v₂
          rw [hadv]
          intro v₃ h₃ r v₄ hA
          have hcall := hA rfl
          have hlater := h₂.trans h₃
          match r with
          | .error e =>
              have hstill := hcall.still_of_same hcall.effect ⟨rfl, rfl, rfl⟩
              exact ⟨⟨rfl, hstill.execLater h₃.inv, .same hstill.row⟩,
                hQ _ _⟩
          | .ok () =>
              obtain ⟨row', hrow', hnt, hmoved⟩ := hcall.effect
              obtain ⟨rfl, hver⟩ :=
                hlater.eq_of_not_terminal hrow hs hrow' hnt
              have hw : Wrote ρ v₃ v₄ row state sweep := by
                refine ⟨hrow', ⟨event, by rw [hver]; exact ht⟩, hmoved,
                  ⟨_, hcall.log, ⟨rfl, rfl, rfl⟩, rfl⟩, ?_,
                  (hpast hver).stateInv hlater hcall.log ⟨rfl, rfl, rfl⟩ ?_,
                  ?_⟩
                · exact fun hρ => ⟨(htime hρ).1 hver,
                    Int.le_trans (htime hρ).2 (hlater.clock hρ)⟩
                · have hold := (h₃.inv.present row hrow').state
                  simp only [StateInv, hver] at hold
                  exact hold.2.2
                · intro hρ hk _
                  exact absurd (h₃.inv.kind_of_dispatched hrow'
                    (Or.inr hver) hρ) hk
              refine ⟨⟨rfl, hw.execLater h₃.inv ?_, hw.advance⟩, hQ _ _⟩
              rw [hver]
              unfold Held
              decide

/-! ## One poll -/

theorem resolveUnknown_safe {row : OperationRow} {endpointId : EndpointId}
    {source : OperationSource} (h : Waiting ρ sweep v row) :
    MonSafe ρ X sweep
      (resolveUnknown actor origin X endpointId source sweep)
      (fun _ _ => True) v := by
  refine Safe.bindE.mpr (applyStep_waiting h rfl trivial
    (fun _ _ => trivial) fun _ _ _ => ?_)
  exact monitor_record_safe (fun _ _ => trivial) fun _ => trivial

/-- The re-read after a completed Task. -/
theorem monitor_verifyTarget_safe {row : OperationRow}
    {endpointId : EndpointId} {source : OperationSource}
    {command : RedfishCommand} (hrow : v.row = some row)
    (hs : row.state = .verifying)
    (htime : ρ.timed → row.updatedAt ≤ sweep ∧ sweep ≤ v.clock) :
    MonSafe ρ X sweep
      (verifyTarget actor origin X endpointId command source sweep)
      (fun _ _ => True) v := by
  refine mon_quiet (q := .outside (.verify endpointId command)) trivial
    trivial ?_
  intro r v₁ v₂ h₁ hcall h₂
  -- either the row is still the one the poll moved, or it was settled
  obtain ⟨row', hrow₂, hs', hsame⟩ : ∃ row', v₂.row = some row' ∧
      (row'.state = .verifying ∨ row'.state.isTerminal = true) ∧
      (row'.state = .verifying → row' = row) := by
    rcases h₂.verifying row hrow hs with h | ⟨row', h, ht⟩
    · exact ⟨row, h, Or.inl hs, fun _ => rfl⟩
    · refine ⟨row', h, Or.inr ht, fun hver => ?_⟩
      rw [hver] at ht
      cases ht
  have hrow₁ : v₁.row = some row' := hcall.effect.row.symm.trans hrow₂
  have htime' : ρ.timed →
      (row'.state = .verifying → row'.updatedAt ≤ sweep) ∧
        sweep ≤ v₂.clock := fun hρ =>
    ⟨fun hver => hsame hver ▸ (htime hρ).1,
      Int.le_trans (htime hρ).2 (h₂.clock hρ)⟩
  have hend : ∀ (outcome : AuditOutcome) (r : TaskMonitor.M TaskPoll) (v' : View),
      (∀ v', MonSafe ρ X sweep r (fun _ _ => True) v') →
      MonSafe ρ X sweep (recordOutcome actor origin endpointId source outcome
        sweep >>= fun _ => r : TaskMonitor.M TaskPoll)
        (fun _ _ => True) v' := fun outcome r v' hr =>
    monitor_record_safe (fun _ _ => trivial) hr
  match r with
  | .ok .confirmed =>
      refine Safe.bindE.mpr
        (applyStep_settling hrow₂ hs' htime' rfl ?_ ?_)
      · intro hver
        have hpast := (h₁.inv.present row' hrow₁).state
        simp only [StateInv, hver] at hpast
        refine ⟨⟨[], _, v₁.log, hcall.log, rfl, hpast.1⟩, ?_⟩
        rw [hcall.log]
        exact hpast.2.1.cons_quiet ⟨rfl, rfl, rfl⟩
      · intro r v₃
        cases r with
        | error e => trivial
        | ok operation => exact hend _ _ v₃ fun _ => trivial
  | .ok .mismatched =>
      refine Safe.bindE.mpr
        (applyStep_settling hrow₂ hs' htime' rfl (fun _ => trivial) ?_)
      intro r v₃
      cases r with
      | error e => trivial
      | ok operation => exact hend _ _ v₃ fun _ => trivial
  | .error verifierError =>
      refine Safe.bindE.mpr
        (applyStep_settling hrow₂ hs' htime' rfl (fun _ => trivial) ?_)
      intro r v₃
      cases r with
      | error e => trivial
      | ok operation => exact hend _ _ v₃ fun _ => trivial

/-- A poll's own event on the row it waits on: a Task read, or the Task row
stored again. -/
theorem Waiting.step {v' : View} {row : OperationRow} {e : App.Event}
    (h : Waiting ρ sweep v row) (hv : Inv ρ v) (hrow : v'.row = v.row)
    (hclock : ρ.timed → v.clock ≤ v'.clock) (hlog : v'.log = e :: v.log)
    (hd : e.isDispatch = false) (ho : e.opensAttempt = false)
    (hl : e.losesAnswer = false)
    (huri : ∀ uri, (uri, .completed) ∈ taskReads v'.log →
      ∃ task, v'.task = some task ∧ task.taskUri = uri) :
    ExecLater ρ v v' where
  verifying := fun _ h' _ => Or.inl (hrow.trans h')
  terminal := fun _ h' _ => hrow.trans h'
  log := ⟨[e], hlog, by simp [hd, ho, hl]⟩
  held := by
    intro row' hrow' hheld
    obtain rfl := Option.some_inj.mp (h.found.symm.trans hrow')
    rw [h.state] at hheld
    rcases hheld with h | h | h <;> cases h
  clock := hclock
  inv := by
    refine ⟨?_, ?_, huri, ?_, ?_⟩
    · simpa [hlog, App.dispatches, hd] using hv.once
    · rw [hlog]
      refine ⟨fun he => ?_, hv.after⟩
      rw [hd] at he
      cases he
    · intro hnone
      rw [hrow, h.found] at hnone
      cases hnone
    · intro row' hrow'
      obtain rfl := Option.some_inj.mp
        (h.found.symm.trans (hrow.symm.trans hrow'))
      have htime := (hv.present row h.found).time
      refine ⟨?_, ?_, ?_⟩
      · simp only [StateInv, h.state]
        rw [hlog, lost_cons hl]
        exact h.kept hv
      · exact fun hρ =>
          ⟨(htime hρ).1, Int.le_trans (htime hρ).2 (hclock hρ)⟩
      · exact fun hρ hk =>
          absurd (hv.kind_of_dispatched h.found (Or.inl h.state) hρ) hk

/-- A Task row keeps its operation, endpoint and URI when it is updated. -/
theorem updatedRow_ok {task updated : RemoteTask}
    {observation : TaskObservation} {state : RemoteTaskState} {t : Instant}
    (h : updatedRow task observation state t = .ok updated) :
    updated.operationId = task.operationId ∧
      updated.taskUri = task.taskUri := by
  obtain ⟨h₁, -, h₂⟩ := RemoteTask.tryFromParts_ok h
  exact ⟨h₁, h₂⟩

theorem concludeTask_safe {row : OperationRow} {task : RemoteTask}
    {operation : Operation} {state : RemoteTaskState}
    (h : Waiting ρ sweep v row) (hid : operation.id = X)
    (hread : ∃ uri, (taskReads v.log).head? = some (uri, state)) :
    MonSafe ρ X sweep (concludeTask actor origin operation task state sweep)
      (fun _ _ => True) v := by
  subst hid
  unfold concludeTask
  split
  · next hcompleted =>
      subst hcompleted
      obtain ⟨uri, hhead⟩ := hread
      refine Safe.bindE.mpr (applyStep_waiting h rfl ⟨?_, ?_⟩
        (fun _ _ => trivial) fun _ v' hst => ?_)
      · exact Or.inr (Or.inl ⟨uri, List.mem_of_mem_head? hhead⟩)
      · intro uri' state' hhead'
        rw [hhead] at hhead'
        cases hhead'
        rfl
      · refine monitor_verifyTarget_safe hst.row rfl fun hρ => ?_
        exact ⟨Int.le_refl _, Int.le_trans (h.time hρ).2 (hst.clock hρ)⟩
  · refine Safe.bindE.mpr (applyStep_waiting h rfl trivial
      (fun _ _ => trivial) fun _ _ _ => ?_)
    exact monitor_record_safe (fun _ _ => trivial) fun _ => trivial

/-- What follows a read that showed the Task. -/
theorem observe_safe {row : OperationRow} {task : RemoteTask}
    {operation : Operation} {observation : TaskObservation}
    (h : Waiting ρ sweep v row) (hid : operation.id = X)
    (htask : v.task = some task) (htaskId : task.operationId = X)
    (hread : ∀ state, observation.state = some state →
      ∃ uri, (taskReads v.log).head? = some (uri, state)) :
    MonSafe ρ X sweep (observe actor origin operation task observation sweep)
      (fun _ _ => True) v := by
  unfold observe
  split
  · subst hid
    exact resolveUnknown_safe h
  · next state hstate =>
      split
      · trivial
      · next updated hupdated =>
          obtain ⟨hid', huri⟩ := updatedRow_ok hupdated
          intro v₁ h₁ r v₂ hA
          have hcall := hA (hid'.trans htaskId)
          have hw₁ := h.later h₁
          have htask₁ := (h₁.waiting row h.found h.state).2.trans htask
          match r with
          | .error e =>
              have hstill := hcall.still_of_same hcall.effect ⟨rfl, rfl, rfl⟩
              exact ⟨⟨hid'.trans htaskId, hstill.execLater h₁.inv,
                .same hstill.row⟩, trivial⟩
          | .ok () =>
              obtain ⟨hrow, htask₂, hclock⟩ := hcall.effect
              have hreads : taskReads v₂.log = taskReads v.log := by
                rw [hcall.log, taskReads_cons_quiet ⟨rfl, rfl, rfl⟩, h₁.taskReads]
              have hstep := hw₁.step h₁.inv hrow hcall.clock hcall.log rfl rfl
                rfl (by
                  intro uri hu
                  rw [hreads, ← h₁.taskReads] at hu
                  obtain ⟨task', ht', huri'⟩ := h₁.inv.uri uri hu
                  obtain rfl := Option.some_inj.mp (htask₁.symm.trans ht')
                  exact ⟨updated, htask₂, huri.trans huri'⟩)
              refine ⟨⟨hid'.trans htaskId, hstep, .same hrow⟩, ?_⟩
              have hw₂ : Waiting ρ sweep v₂ row :=
                ⟨hrow.trans hw₁.found, h.state, fun hρ =>
                  ⟨(h.time hρ).1, hclock ▸ (hw₁.time hρ).2⟩⟩
              show MonSafe ρ X sweep (if state.isTerminal = true then _
                else _) (fun _ _ => True) v₂
              split
              · refine concludeTask_safe hw₂ hid ?_
                rw [hreads]
                exact hread state hstate
              · trivial

/-- The read of the Task. -/
theorem readTask_safe {row : OperationRow} {task : RemoteTask}
    {endpointId : EndpointId}
    {k : Except BoundaryError (Option TaskObservation) → Prog site α}
    {Q : α → View → Prop} (h : Waiting ρ sweep v row)
    (htask : v.task = some task)
    (hk : ∀ r v', Waiting ρ sweep v' row → v'.task = some task →
      (∀ observation, r = .ok (some observation) →
        ∀ state, observation.state = some state →
          ∃ uri, (taskReads v'.log).head? = some (uri, state)) →
      MonSafe ρ X sweep (k r) Q v') :
    MonSafe ρ X sweep
      (.call (.outside (.readTask endpointId task.taskUri)) k) Q v := by
  intro v₁ h₁ r v₂ hA
  have hcall := hA trivial
  have hsame : Same v₁ v₂ := hcall.effect
  have hw₁ := h.later h₁
  have htask₂ := hsame.task.trans
    ((h₁.waiting row h.found h.state).2.trans htask)
  have hw₂ : Waiting ρ sweep v₂ row :=
    ⟨hsame.row.trans hw₁.found, h.state, fun hρ =>
      ⟨(h.time hρ).1, hsame.clock ▸ (hw₁.time hρ).2⟩⟩
  have hstep : ExecLater ρ v₁ v₂ := by
    refine hw₁.step h₁.inv hsame.row hcall.clock hcall.log rfl rfl rfl ?_
    intro uri hu
    rw [hcall.log, App.taskReads, List.filterMap_cons] at hu
    split at hu
    · rw [hsame.task]
      exact h₁.inv.uri uri hu
    · next read hread =>
        rcases List.mem_cons.mp hu with rfl | hu
        · -- the read just made was of the stored row's own URI
          refine ⟨task, htask₂, ?_⟩
          cases r with
          | error e => cases hread
          | ok answer =>
              cases answer with
              | none => cases hread
              | some observation =>
                  simp only [Event.taskRead, Option.map_eq_some_iff] at hread
                  obtain ⟨_, _, hread⟩ := hread
                  exact congrArg Prod.fst hread
        · rw [hsame.task]
          exact h₁.inv.uri uri hu
  refine ⟨⟨trivial, hstep, .same hsame.row⟩, hk r v₂ hw₂ htask₂ ?_⟩
  rintro observation rfl state hstate
  refine ⟨task.taskUri, ?_⟩
  simp [hcall.log, App.taskReads, Event.taskRead, hstate]

/-- A poll keeps the monitor's contract, provided its sweep began before
now. -/
theorem poll_safe (hsweep : ρ.timed → sweep ≤ v.clock) :
    MonSafe ρ X sweep (poll actor origin X sweep) (fun _ _ => True) v := by
  refine mon_quiet (q := .operations (.findOperation X)) trivial rfl ?_
  intro r v₁ v₂ h₁ hcall h₂
  match r with
  | .error e => trivial
  | .ok none => trivial
  | .ok (some operation) =>
      obtain ⟨row, hrow₁, hrowId, hop⟩ := hcall.effect.2
      obtain ⟨hid, -, -, hstate, -⟩ := mapStoredOperation_ok hop
      have hrow : v₂.row = some row := hcall.effect.1.row.trans hrow₁
      show MonSafe ρ X sweep (if operation.state = .waitingRemote then _
        else _) (fun _ _ => True) v₂
      split
      · next hs =>
          have hw : Waiting ρ sweep v₂ row :=
            ⟨hrow, hstate ▸ hs, fun hρ =>
              ⟨hcall.fresh hρ row hrow₁ (hstate ▸ hs),
                Int.le_trans (hsweep hρ) (h₂.clock hρ)⟩⟩
          match operation.targets with
          | [] => trivial
          | target :: _ =>
              refine mon_quiet (q := .tasks (.findRemoteTask X)) trivial rfl ?_
              intro r v₂' v₃ _ hfind h₃
              have hw₃ := hw.later h₃
              match r with
              | .error e => trivial
              | .ok none => exact resolveUnknown_safe hw₃
              | .ok (some task) =>
                  have htask : v₃.task = some task :=
                    hfind.effect.1.task.trans hfind.effect.2.1.symm
                  refine readTask_safe hw₃ htask ?_
                  intro r v₄ hw₄ htask₄ hread
                  match r with
                  | .error e => trivial
                  | .ok none => exact resolveUnknown_safe hw₄
                  | .ok (some observation) =>
                      exact observe_safe hw₄ (hid.trans hrowId) htask₄
                        (hfind.effect.2.2 task rfl) (hread observation rfl)
      · trivial

end Rutilus.Proofs.Lane
