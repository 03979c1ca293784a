import Rutilus.Proofs.LaneMoves

/-!
# The executor keeps its contract

`executeOperation` and `recoverOperation` are followed call by call, from the
last step to the first: what follows a stored step, then the answer to the
dispatch, the dispatch, the pre-flight checks, and the two entry points.
-/

namespace Rutilus.Proofs.Lane

open Rutilus.Domain Rutilus.Lib Rutilus.Store Rutilus.Engine Rutilus.App
open Rutilus.App.Executor

variable {ρ : Regime} {X : OperationId} {v : View} {α : Type}

/-- Nothing is claimed about a result. -/
abbrev Any {α : Type} : α → View → Prop := fun _ _ => True

/-! ## Which steps may be stored -/

section MayStep

variable {row : OperationRow}

/-- A stored failure kind is only found on an operation that was not yet
validated. -/
theorem Inv.kind_of_running (h : Inv ρ v) (hrow : v.row = some row)
    (hs : row.state = .running) (hρ : ρ.truthful) : row.failureKind = none := by
  by_contra hk
  rcases (h.present row hrow).kind hρ hk with h | h | ⟨h, -⟩ <;>
    rw [hs] at h <;> cases h

/-- What the executor finds lost it had already found lost: a crash ends
it. -/
theorem ExecLater.lost {v' : View} (h : ExecLater ρ v v') :
    Lost v'.log ↔ Lost v.log := by
  obtain ⟨new, hlog, hnew⟩ := h.log
  rw [hlog, lost_append fun e he => (hnew e he).2.2]

/-- From `running`, to a terminal state, which claims nothing of the past. -/
theorem mayStep_settle {state : OperationState} (hrow : v.row = some row)
    (hs : row.state = .running) (hlegal : Legal .running state)
    (hterm : state.isTerminal = true) : MayStep ρ X v row state where
  found := hrow
  held := Or.inr (Or.inr hs)
  legal := hs ▸ hlegal
  past := by
    intro v₁ v' e t _ _ _ _
    obtain ⟨event, he⟩ := hlegal
    cases event <;> cases he <;> trivial
  kind := fun _ _ hrun => absurd hs hrun

/-- From `running` to the wait for a Task, with no answer lost. -/
theorem mayStep_waiting (hrow : v.row = some row)
    (hs : row.state = .running) (hkept : ¬ Lost v.log) :
    MayStep ρ X v row .waitingRemote where
  found := hrow
  held := Or.inr (Or.inr hs)
  legal := ⟨.remoteTaskStarted, by rw [hs]; rfl⟩
  past := by
    intro v₁ v' e t h₁ _ hlog hq
    show ¬ Lost v'.log
    rw [hlog, lost_cons hq.kept, h₁.lost]
    exact hkept
  kind := fun _ _ hrun => absurd hs hrun

/-- From `running` to `verifying`, on evidence. -/
theorem mayStep_verifying (hrow : v.row = some row)
    (hs : row.state = .running) (hev : Evidence row.command v.log)
    (hkept : Lost v.log → recoveryJudgementProvesEffect row.command = true) :
    MayStep ρ X v row .verifying where
  found := hrow
  held := Or.inr (Or.inr hs)
  legal := ⟨.executionAccepted, by rw [hs]; rfl⟩
  past := by
    intro v₁ v' e t h₁ _ hlog hq
    obtain ⟨new, hnew, -⟩ := h₁.log
    have hreads := (h₁.inv.present row (h₁.held row hrow (Or.inr (Or.inr hs))).1).state
    simp only [StateInv, hs] at hreads
    refine ⟨?_, ?_, ?_⟩
    · show Evidence row.command v'.log
      rw [hlog, hnew]
      exact Evidence.append (l := e :: new) hev
    · show ReadsDone v'.log
      rw [hlog]
      exact (ReadsDone.of_nil hreads.1).cons_quiet hq
    · show Lost v'.log → _
      rw [hlog, lost_cons hq.kept, h₁.lost]
      exact hkept
  kind := fun _ _ hrun => absurd hs hrun

theorem untouched_of_unvalidated {v' : View} (h : ExecLater ρ v v')
    (hrow : v.row = some row)
    (hs : row.state = .queued ∨ row.state = .validating) : Untouched v' := by
  have hheld : Held row.state := hs.imp_right Or.inl
  have := (h.inv.present row (h.held row hrow hheld).1).state
  rcases hs with hs | hs <;> simpa only [StateInv, hs] using this

/-- A refusal before anything was dispatched. -/
theorem mayStep_refuse (hrow : v.row = some row)
    (hs : row.state = .queued ∨ row.state = .validating)
    (hk : ρ.truthful → row.failureKind = none ∨
      Attempted row.command v.log) : MayStep ρ X v row .failed where
  found := hrow
  held := hs.imp_right Or.inl
  legal := by
    rcases hs with hs | hs <;> exact ⟨.failed, by rw [hs]; rfl⟩
  past := fun _ _ _ _ _ _ _ _ => trivial
  kind := fun hρ hkind _ =>
    Or.inr ⟨rfl, (hk hρ).resolve_left hkind⟩

theorem mayStep_validating (hrow : v.row = some row)
    (hs : row.state = .queued) : MayStep ρ X v row .validating where
  found := hrow
  held := Or.inl hs
  legal := ⟨.validationStarted, by rw [hs]; rfl⟩
  past := by
    intro v₁ v' e t h₁ htask hlog hq
    have htask₁ := (h₁.held row hrow (Or.inl hs)).2
    exact (untouched_of_unvalidated h₁ hrow (Or.inl hs)).quiet hq
      (htask.trans htask₁.symm) hlog
  kind := fun _ _ _ => Or.inl rfl

theorem mayStep_running (hrow : v.row = some row)
    (hs : row.state = .validating)
    (hk : ρ.truthful → row.failureKind = none) :
    MayStep ρ X v row .running where
  found := hrow
  held := Or.inr (Or.inl hs)
  legal := ⟨.validationPassed, by rw [hs]; rfl⟩
  past := by
    intro v₁ v' e t h₁ _ hlog hq
    show taskReads v'.log = [] ∧ (Lost v'.log → _)
    have hun := untouched_of_unvalidated h₁ hrow (Or.inr hs)
    rw [hlog, taskReads_cons_quiet hq, lost_cons hq.kept]
    exact ⟨hun.reads, fun hlost => absurd hlost hun.kept⟩
  kind := fun hρ hkind _ => absurd (hk hρ) hkind

end MayStep

/-! ## What follows a stored step -/

theorem record_safe {started : StartedAudit} {outcome : AuditOutcome}
    {k : Unit → Executor.M α} {Q : Except ExecutorError α → View → Prop}
    (herr : ∀ e v', Q (.error e) v') (hk : ∀ v', ExecSafe ρ X (k ()) Q v') :
    ExecSafe ρ X (recordOutcome started outcome >>= k : Executor.M α) Q v := by
  refine Safe.bindE.mpr (recordOutcome_safe fun r v' => ?_)
  cases r with
  | ok u => exact hk v'
  | error e => exact herr e v'

theorem refuse_safe {row : OperationRow} {started : StartedAudit}
    {failure : AuditFailure} (hrow : v.row = some row)
    (hs : row.state = .queued ∨ row.state = .validating)
    (hk : ρ.truthful → row.failureKind = none ∨
      Attempted row.command v.log) :
    ExecSafe ρ X (refuse X started failure) Any v := by
  refine Safe.bindE.mpr (applyStep_held (mayStep_refuse hrow hs hk) ?_
    (fun _ _ => trivial) fun operation v' t h => ?_)
  · rcases hs with hs | hs <;> rw [hs] <;> rfl
  · exact record_safe (fun _ _ => trivial) fun _ => trivial

/-- The end of an execution whose write was handed over. -/
theorem settle_safe {row : OperationRow} {event : OperationEvent}
    {state : OperationState} {k : Operation → Executor.M α}
    (hrow : v.row = some row) (hs : row.state = .running)
    (ht : transition .running event = .ok state)
    (hterm : state.isTerminal = true)
    (hk : ∀ operation v', ExecSafe ρ X (k operation) Any v') :
    ExecSafe ρ X (applyStep X event >>= k : Executor.M α) Any v := by
  refine Safe.bindE.mpr (applyStep_held
    (mayStep_settle hrow hs ⟨event, ht⟩ hterm) (by rw [hs]; exact ht)
    (fun _ _ => trivial) fun operation v' t _ => ?_)
  exact hk operation v'

theorem verifyTarget_safe {row : OperationRow} {endpointId : EndpointId}
    {started : StartedAudit} {command : RedfishCommand}
    {Q : Except ExecutorError Operation → View → Prop} (hQ : ∀ r v', Q r v')
    (hrow : v.row = some row)
    (hs : row.state = .verifying ∨ row.state.isTerminal = true) :
    ExecSafe ρ X (verifyTarget X endpointId command started) Q v := by
  refine exec_quiet (q := .outside (.verify endpointId command)) trivial
    trivial ?_
  intro r v₁ v' h₁ hcall h'
  obtain ⟨row', hrow', hs'⟩ : ∃ row', v'.row = some row' ∧
      (row'.state = .verifying ∨ row'.state.isTerminal = true) := by
    rcases h'.settled hrow hs with h | ⟨row', h, ht⟩
    · exact ⟨row, h, hs⟩
    · exact ⟨row', h, Or.inr ht⟩
  have hrow₁ : v₁.row = some row' := by
    rw [← hrow']
    exact hcall.effect.row.symm
  cases r with
  | error source =>
      refine Safe.bindE.mpr (applyStep_verifying hrow' hs' rfl (by simp) ?_)
      intro r v'
      cases r with
      | error e => exact hQ _ _
      | ok operation =>
          exact record_safe (fun _ _ => hQ _ _) fun _ => hQ _ _
  | ok verdict =>
      cases verdict with
      | confirmed =>
          refine Safe.bindE.mpr (applyStep_verifying hrow' hs' rfl ?_ ?_)
          · intro _ hver
            have hpast := (h₁.inv.present row' hrow₁).state
            simp only [StateInv, hver] at hpast
            exact ⟨[], _, v₁.log, hcall.log, rfl, hpast.1⟩
          · intro r v'
            cases r with
            | error e => exact hQ _ _
            | ok operation =>
                exact record_safe (fun _ _ => hQ _ _) fun _ => hQ _ _
      | mismatched =>
          refine Safe.bindE.mpr (applyStep_verifying hrow' hs' rfl (by simp) ?_)
          intro r v'
          cases r with
          | error e => exact hQ _ _
          | ok operation =>
              exact record_safe (fun _ _ => hQ _ _) fun _ => hQ _ _

/-! ## The dispatch -/

theorem ExecLater.dispatches {v' : View} (h : ExecLater ρ v v') :
    dispatches v'.log = dispatches v.log := by
  obtain ⟨new, hlog, hnew⟩ := h.log
  have : new.countP Event.isDispatch = 0 := by
    rw [List.countP_eq_zero]
    intro e he
    rw [(hnew e he).1]
    decide
  simp [App.dispatches, hlog, List.countP_append, this]

theorem ExecLater.mem_log {v' : View} {e : App.Event} (h : ExecLater ρ v v')
    (he : e ∈ v.log) : e ∈ v'.log := by
  obtain ⟨new, hlog, -⟩ := h.log
  rw [hlog]
  exact List.mem_append_right _ he

/-- A running operation claims little of the past: its row stays, and the
dispatches and Task reads are the only events that count. -/
theorem Inv.of_running {v' : View} {row : OperationRow} {e : App.Event}
    (h : Inv ρ v) (hrow : v.row = some row) (hs : row.state = .running)
    (hsame : v'.row = v.row) (hclock : ρ.timed → v.clock ≤ v'.clock)
    (hlog : v'.log = e :: v.log) (hread : e.taskRead = none)
    (hlost : Lost v'.log → v'.task = none)
    (honce : dispatches v'.log ≤ 1)
    (hafter : DispatchedAfterRunning v'.log) : Inv ρ v' := by
  have hreads : taskReads v'.log = [] := by
    have := (h.present row hrow).state
    simp only [StateInv, hs] at this
    simpa [hlog, taskReads, hread] using this.1
  refine ⟨honce, hafter, ?_, ?_, ?_⟩
  · intro uri hu
    rw [hreads] at hu
    cases hu
  · intro hnone
    rw [hsame, hrow] at hnone
    cases hnone
  · intro row' hrow'
    obtain rfl := Option.some_inj.mp (hrow.symm.trans (hsame.symm.trans hrow'))
    have htime := (h.present row hrow).time
    refine ⟨?_, ?_, ?_⟩
    · simp only [StateInv, hs]
      exact ⟨hreads, hlost⟩
    · exact fun hρ => ⟨(htime hρ).1, Int.le_trans (htime hρ).2 (hclock hρ)⟩
    · exact fun hρ hk => absurd (h.kind_of_running hrow hs hρ) hk

/-- The write is handed to the BMC: once, and with `running` stored. -/
theorem dispatch_safe {row : OperationRow} {q : SiteReq}
    {k : q.Resp → Prog site α} {Q : α → View → Prop} (ha : About X q)
    (hq : ∀ r, (Event.made .executor q r).taskRead = none)
    (heff : ∀ v r v', Effect q v r v' → Same v v')
    (hrow : v.row = some row) (hs : row.state = .running)
    (h0 : dispatches v.log = 0) (hkept : ¬ Lost v.log)
    (hp : ∃ p ∈ v.log, p.persists .running = true)
    (hk : ∀ r v', v'.row = some row → .made .executor q r ∈ v'.log →
      ¬ Lost v'.log → ExecSafe ρ X (k r) Q v') :
    ExecSafe ρ X (.call q k) Q v := by
  intro v₁ h₁ r v' hA
  have hcall := hA ha
  have hsame := heff _ _ _ hcall.effect
  have hheld : Held row.state := Or.inr (Or.inr hs)
  have hrow₁ := (h₁.held row hrow hheld).1
  obtain ⟨p, hpm, hp⟩ := hp
  have hkept' : ¬ Lost v'.log := by
    rw [hcall.log, lost_cons rfl, h₁.lost]
    exact hkept
  have hinv : Inv ρ v' := by
    refine h₁.inv.of_running hrow₁ hs hsame.row hcall.clock hcall.log (hq r)
      (fun hlost => absurd hlost hkept') ?_ ?_
    · have h0' := h₁.dispatches.trans h0
      rw [App.dispatches] at h0'
      rw [hcall.log, App.dispatches, List.countP_cons, h0']
      split <;> decide
    · rw [hcall.log]
      exact ⟨fun _ => ⟨p, h₁.mem_log hpm, hp⟩, h₁.inv.after⟩
  refine ⟨⟨ha, ⟨⟨?_, ?_⟩, ?_, ?_, hcall.clock, hinv⟩, .same hsame.row⟩, ?_⟩
  · exact fun _ h _ => Or.inl (hsame.row.trans h)
  · exact fun _ h _ => hsame.row.trans h
  · exact ⟨[_], hcall.log, by simp [hq r]⟩
  · exact fun _ h _ => ⟨hsame.row.trans h, hsame.task⟩
  · refine hk r v' (hsame.row.trans hrow₁) ?_ hkept'
    rw [hcall.log]
    exact List.mem_cons_self

/-- The Task row is stored while the operation is still running. -/
theorem saveRemoteTask_safe {row : OperationRow} {task : RemoteTask}
    {k : Except Fault Unit → Prog site α} {Q : α → View → Prop}
    (ha : task.operationId = X) (hrow : v.row = some row)
    (hs : row.state = .running) (hkept : ¬ Lost v.log)
    (hk : ∀ r v', v'.row = some row → ¬ Lost v'.log →
      ExecSafe ρ X (k r) Q v') :
    ExecSafe ρ X (.call (.tasks (.saveRemoteTask task)) k) Q v := by
  intro v₁ h₁ r v' hA
  have hcall := hA ha
  have hrow₁ := (h₁.held row hrow (Or.inr (Or.inr hs))).1
  have hkept' : ¬ Lost v'.log := by
    rw [hcall.log, lost_cons rfl, h₁.lost]
    exact hkept
  match r with
  | .error e =>
      have hstill := hcall.still_of_same hcall.effect ⟨rfl, rfl, rfl⟩
      exact ⟨⟨ha, hstill.monLater h₁.inv, .same hstill.row⟩,
        hk _ _ (hstill.row.trans hrow₁) hkept'⟩
  | .ok () =>
      obtain ⟨hsame, -, -⟩ := hcall.effect
      have hq : Quiet (.made .executor (.tasks (.saveRemoteTask task))
        (.ok ())) := ⟨rfl, rfl, rfl⟩
      have hinv : Inv ρ v' := by
        refine h₁.inv.of_running hrow₁ hs hsame hcall.clock hcall.log rfl
          (fun hlost => absurd hlost hkept') ?_ ?_
        · rw [hcall.log, dispatches_cons_quiet hq]
          exact h₁.inv.once
        · rw [hcall.log]
          exact h₁.inv.after.cons_quiet hq
      refine ⟨⟨ha, ⟨⟨?_, ?_⟩, ?_, ?_, hcall.clock, hinv⟩, .same hsame⟩, ?_⟩
      · exact fun _ h _ => Or.inl (hsame.trans h)
      · exact fun _ h _ => hsame.trans h
      · exact ⟨[_], hcall.log, by simp [hq.read]⟩
      · intro row' hrow' hs'
        obtain rfl := Option.some_inj.mp (hrow₁.symm.trans hrow')
        rw [hs] at hs'
        cases hs'
      · exact hk _ _ (hsame.trans hrow₁) hkept'

/-- Every answer of the dispatch leads where the matrix allows, and to
`verifying` only if it was an acceptance. -/
theorem driveOutcome_safe {row : OperationRow} {endpointId : EndpointId}
    {started : StartedAudit} {outcome : Except DispatchError CommandOutcome}
    {wrapError : DispatchError → ExecutorError} (hrow : v.row = some row)
    (hs : row.state = .running) (hkept : ¬ Lost v.log)
    (hacc : outcome = .ok .accepted → ∃ e ∈ v.log, e.isAccepted = true) :
    ExecSafe ρ X (driveOutcome X endpointId row.command started outcome
      wrapError) Any v := by
  have hheld : Held row.state := Or.inr (Or.inr hs)
  cases outcome with
  | error source =>
      unfold driveOutcome
      dsimp only
      cases source.verdict with
      | notExecuted =>
          exact settle_safe hrow hs rfl rfl fun _ _ =>
            record_safe (fun _ _ => trivial) fun _ => trivial
      | outcomeUnknown =>
          exact settle_safe hrow hs rfl rfl fun _ _ =>
            record_safe (fun _ _ => trivial) fun _ => trivial
  | ok answer =>
      cases answer with
      | asyncTaskAccepted taskLocation =>
          refine exec_quiet (q := .outside .now) trivial trivial ?_
          intro t v₁ v' _ _ h₁
          have hrow' := (h₁.held row hrow hheld).1
          refine saveRemoteTask_safe rfl hrow' hs (mt h₁.lost.mp hkept) ?_
          intro r v' hrow' hkept'
          cases r with
          | error source =>
              exact settle_safe hrow' hs rfl rfl fun _ _ =>
                record_safe (fun _ _ => trivial) fun _ => trivial
          | ok u =>
              exact applyStep_held (mayStep_waiting hrow' hs hkept')
                (by rw [hs]; rfl)
                (fun _ _ => trivial) fun _ _ _ _ => trivial
      | rejected =>
          exact settle_safe hrow hs rfl rfl fun _ _ =>
            record_safe (fun _ _ => trivial) fun _ => trivial
      | accepted =>
          refine Safe.bindE.mpr (applyStep_held
            (mayStep_verifying hrow hs (Or.inl (hacc rfl))
              fun hlost => absurd hlost hkept) (by rw [hs]; rfl)
            (fun _ _ => trivial) fun operation v' t h => ?_)
          exact verifyTarget_safe (fun _ _ => trivial) h.row (Or.inl rfl)

theorem dispatchAndVerify_safe {row : OperationRow} {endpointId : EndpointId}
    {command : RedfishCommand} {started : StartedAudit}
    {artifact : Option UpdateArtifactPayload} (hrow : v.row = some row)
    (hc : row.command = command) (hs : row.state = .running)
    (h0 : dispatches v.log = 0) (hkept : ¬ Lost v.log)
    (hp : ∃ p ∈ v.log, p.persists .running = true) :
    ExecSafe ρ X (dispatchAndVerify X endpointId command started artifact)
      Any v := by
  subst hc
  unfold dispatchAndVerify
  split
  · next payload _ =>
      cases artifact with
      | none =>
          -- never taken: the pre-flight resolved the artifact
          exact settle_safe hrow hs rfl rfl fun _ _ =>
            record_safe (fun _ _ => trivial) fun _ => trivial
      | some artifact =>
          refine dispatch_safe
            (q := .outside (.executeUpdate endpointId artifact
              payload.pushUri)) trivial (fun _ => rfl) (fun _ _ _ h => h)
            hrow hs h0 hkept hp ?_
          intro r v' hrow' hmem hkept'
          refine driveOutcome_safe hrow' hs hkept' ?_
          rintro rfl
          exact ⟨_, hmem, rfl⟩
  · refine dispatch_safe (q := .outside (.execute endpointId row.command))
      trivial (fun _ => rfl) (fun _ _ _ h => h) hrow hs h0 hkept hp ?_
    intro r v' hrow' hmem hkept'
    refine driveOutcome_safe hrow' hs hkept' ?_
    rintro rfl
    exact ⟨_, hmem, rfl⟩

/-! ## The pre-flight checks -/

theorem passAndDispatch_safe {row : OperationRow} {endpointId : EndpointId}
    {command : RedfishCommand} {started : StartedAudit}
    {artifact : Option UpdateArtifactPayload} (hrow : v.row = some row)
    (hc : row.command = command) (hs : row.state = .validating)
    (hk : ρ.truthful → row.failureKind = none) :
    ExecSafe ρ X (do
      let _ ← applyStep X .validationPassed
      dispatchAndVerify X endpointId command started artifact :
        Executor.M Operation) Any v := by
  refine Safe.bindE.mpr (applyStep_held (mayStep_running hrow hs hk)
    (by rw [hs]; rfl) (fun _ _ => trivial) fun operation v' t h => ?_)
  obtain ⟨v₁, h₁, hlog⟩ := h.log
  have hun := untouched_of_unvalidated h₁ hrow (Or.inr hs)
  refine dispatchAndVerify_safe h.row hc rfl ?_ ?_ ?_
  · rw [hlog, dispatches_cons_quiet ⟨rfl, rfl, rfl⟩]
    exact hun.dispatches
  · rw [hlog, lost_cons rfl]
    exact hun.kept
  · rw [hlog]
    exact ⟨_, List.mem_cons_self, rfl⟩

theorem validateAndDispatch_safe {row : OperationRow}
    {endpointId : EndpointId} {started : StartedAudit}
    {artifact : Option UpdateArtifactPayload} (hrow : v.row = some row)
    (hs : row.state = .queued ∨ row.state = .validating)
    (hk : ρ.truthful → row.failureKind = none) :
    ExecSafe ρ X (validateAndDispatch X row.state endpointId row.command
      started artifact) Any v := by
  unfold validateAndDispatch
  split
  · next hq =>
      refine Safe.bindE.mpr (applyStep_held (mayStep_validating hrow hq)
        (by rw [hq]; rfl) (fun _ _ => trivial) fun operation v' t h => ?_)
      exact passAndDispatch_safe h.row rfl rfl hk
  · next hq => exact passAndDispatch_safe hrow rfl (hs.resolve_left hq) hk

theorem resolveUpdateArtifact_safe {artifactId : ArtifactId}
    {Q : Except UpdateArtifactResolutionError UpdateArtifactPayload →
      View → Prop} (hQ : ∀ r v', ExecLater ρ v v' → Q r v') :
    ExecSafe ρ X (resolveUpdateArtifact artifactId) Q v := by
  refine exec_quiet (q := .outside (.findArtifact artifactId)) trivial
    trivial ?_
  intro r v₁ v₂ _ _ h₂
  match r with
  | .error e => exact hQ _ _ h₂
  | .ok none => exact hQ _ _ h₂
  | .ok (some artifact) =>
      show ExecSafe ρ X (if artifact.state ≠ .ready then _ else _) Q v₂
      split
      · exact hQ _ _ h₂
      · refine exec_quiet (q := .outside (.readArtifactBytes artifact.id))
          trivial trivial ?_
        intro r v₁ v₃ _ _ h₃
        match r with
        | .error e => exact hQ _ _ (h₂.trans h₃)
        | .ok bytes => exact hQ _ _ (h₂.trans h₃)

theorem resolveAndDispatch_safe {row : OperationRow}
    {endpointId : EndpointId} {started : StartedAudit}
    (hrow : v.row = some row)
    (hs : row.state = .queued ∨ row.state = .validating)
    (hk : ρ.truthful → row.failureKind = none) :
    ExecSafe ρ X (resolveAndDispatch X row.state endpointId row.command
      started) Any v := by
  unfold resolveAndDispatch
  split
  · next payload _ =>
      refine Safe.bindE.mpr (Safe.bind.mpr
        (resolveUpdateArtifact_safe fun r v' h' => ?_))
      have hrow' := (h'.held row hrow (hs.imp_right Or.inl)).1
      match r with
      | .ok artifact => exact validateAndDispatch_safe hrow' hs hk
      | .error (.lookup source) => trivial
      | .error .missing => exact refuse_safe hrow' hs fun hρ => Or.inl (hk hρ)
      | .error .notReady =>
          exact refuse_safe hrow' hs fun hρ => Or.inl (hk hρ)
      | .error .unreadable =>
          exact refuse_safe hrow' hs fun hρ => Or.inl (hk hρ)
  · exact validateAndDispatch_safe hrow hs hk

/-- The failure kind is stored on an operation that was not yet validated. -/
theorem recordFailureKind_safe {row : OperationRow} {kind : FailureKind}
    {k : Except OperationRepositoryError Unit → Prog site α}
    {Q : α → View → Prop} (hrow : v.row = some row)
    (hs : row.state = .queued ∨ row.state = .validating)
    (herr : ∀ e v', ExecSafe ρ X (k (.error e)) Q v')
    (hok : ∀ v', v'.row = some { row with failureKind := some kind } →
      (∀ command, Attempted command v.log → Attempted command v'.log) →
      ExecSafe ρ X (k (.ok ())) Q v') :
    ExecSafe ρ X (.call (.operations (.recordFailureKind X kind)) k) Q v := by
  intro v₁ h₁ r v' hA
  have hcall := hA rfl
  have hrow₁ := (h₁.held row hrow (hs.imp_right Or.inl)).1
  match r with
  | .error e =>
      have hstill := hcall.still_of_same hcall.effect ⟨rfl, rfl, rfl⟩
      exact ⟨⟨rfl, hstill.monLater h₁.inv, .same hstill.row⟩, herr _ _⟩
  | .ok () =>
      obtain ⟨row', hrow', hmoved⟩ := hcall.effect
      obtain rfl : row = row' := Option.some_inj.mp (hrow₁.symm.trans hrow')
      have hold := h₁.inv.present row hrow₁
      have hinv : Inv ρ v' := by
        refine h₁.inv.write ⟨rfl, rfl, rfl⟩ hcall.log hmoved.task hmoved.row
          ⟨?_, ?_, fun _ _ => hs.imp_right Or.inl⟩
        · exact hold.state.quiet ⟨rfl, rfl, rfl⟩ hmoved.task hcall.log
        · rw [hmoved.clock]
          exact hold.time
      refine ⟨⟨rfl, ⟨⟨?_, ?_⟩, ?_, ?_, hcall.clock, hinv⟩, ?_⟩, ?_⟩
      · intro row' hrow' hs'
        obtain rfl := Option.some_inj.mp (hrow₁.symm.trans hrow')
        rcases hs with hs | hs <;> rw [hs] at hs' <;> cases hs'
      · intro row' hrow' hs'
        obtain rfl := Option.some_inj.mp (hrow₁.symm.trans hrow')
        rcases hs with hs | hs <;> rw [hs] at hs' <;> cases hs'
      · exact ⟨[_], hcall.log, by simp [Event.taskRead]⟩
      · intro row' hrow' hs'
        obtain rfl := Option.some_inj.mp (hrow₁.symm.trans hrow')
        rcases hs with hs | hs <;> rw [hs] at hs' <;> cases hs'
      · exact .move row _ hrow₁ hmoved.row (Or.inl rfl) rfl
          fun _ => ⟨rfl, Int.le_refl _⟩
      · refine hok v' hmoved.row fun command hatt => ?_
        rw [hcall.log]
        exact (h₁.attempted hatt).append (l := [_])
          (by simp [Event.opensAttempt])

theorem checkAndDispatch_safe {row : OperationRow} {endpointId : EndpointId}
    {started : StartedAudit} (hrow : v.row = some row)
    (hs : row.state = .queued ∨ row.state = .validating) :
    ExecSafe ρ X (checkAndDispatch X row.state endpointId row.command
      started) Any v := by
  have hheld : Held row.state := hs.imp_right Or.inl
  refine exec_quiet (q := .outside (.capabilities endpointId)) trivial
    trivial ?_
  intro r v₁ v₂ h₁ hcall h₂
  cases r with
  | error e => trivial
  | ok entries =>
      have hrow₂ := (h₂.held row hrow hheld).1
      have hkind : ρ.truthful →
          Executor.preflightOf row.command entries ≠ .unsupported →
          row.failureKind = none := by
        intro hρ hne
        by_contra hk
        have := hcall.truthful hρ row (h₁.held row hrow hheld).1 hk
        simp only [Event.deniesUnsupported, decide_eq_false_iff_not,
          not_not] at this
        exact hne this
      dsimp only [Prog.bind, Except.mapError, ExceptT.bindCont]
      cases hp : Executor.preflightOf row.command entries with
      | usable =>
          exact resolveAndDispatch_safe hrow₂ hs
            fun hρ => hkind hρ (by rw [hp]; decide)
      | unconfirmed =>
          exact refuse_safe hrow₂ hs
            fun hρ => Or.inl (hkind hρ (by rw [hp]; decide))
      | unsupported =>
          have hatt : Attempted row.command v₂.log :=
            ⟨[_], v₁.log, hcall.log, by simp [Event.opensAttempt],
              _, List.mem_singleton_self _,
              by simp [Event.provesUnsupported, hp]⟩
          refine recordFailureKind_safe hrow₂ hs (fun _ _ => trivial) ?_
          intro v₃ hrow₃ hatt₃
          exact refuse_safe hrow₃ hs fun _ => Or.inr (hatt₃ _ hatt)

/-! ## The two entry points -/

/-- `executeOperation` keeps the executor's contract from every state. -/
theorem executeOperation_safe {posture : Posture} :
    ExecSafe ρ X (executeOperation posture X) Any v := by
  refine exec_quiet (q := .operations (.findOperation X)) trivial rfl ?_
  intro r v₁ v₂ h₁ hcall _
  match r with
  | .error e => trivial
  | .ok none => trivial
  | .ok (some operation) =>
      obtain ⟨row, hrow₁, -, hop⟩ := hcall.effect.2
      obtain ⟨-, -, hcommand, hstate, -⟩ := mapStoredOperation_ok hop
      have hrow : v₂.row = some row := hcall.effect.1.row.trans hrow₁
      show ExecSafe ρ X (if operation.state = .queued ∨
        operation.state = .validating then _ else _) Any v₂
      rw [hstate]
      split
      · next hs =>
          have hheld : Held row.state := hs.imp_right Or.inl
          match operation.targets with
          | [] => trivial
          | target :: _ =>
              refine Safe.bindE.mpr (startAudit_safe (fun _ _ => trivial) ?_)
              intro started v₃ h₃
              have hrow₃ := (h₃.held row hrow hheld).1
              refine exec_quiet (q := .outside (.findEndpoint
                target.endpointId)) trivial trivial ?_
              intro r v₃' v₄ h₃' hcall h₄
              have hrow₄ := (h₄.held row hrow₃ hheld).1
              match r with
              | .error e => trivial
              | .ok none =>
                  refine refuse_safe hrow₄ hs fun hρ => Or.inl ?_
                  by_contra hk
                  have := hcall.truthful hρ row (h₃'.held row hrow₃ hheld).1
                    hk
                  cases this
              | .ok (some _) =>
                  show ExecSafe ρ X (checkAndDispatch X row.state _
                    operation.command started) Any v₄
                  rw [hcommand]
                  exact checkAndDispatch_safe hrow₄ hs
      · trivial

/-- The compare-and-set verdicts of the judge. -/
theorem judge_safe {row : OperationRow} {event : OperationEvent}
    {state : OperationState} {k : Operation → Executor.M α}
    (hrow : v.row = some row) (hs : row.state = .running)
    (ht : transition .running event = .ok state)
    (hterm : state.isTerminal = true)
    (hk : ∀ operation v', ExecSafe ρ X (k operation) Any v') :
    ExecSafe ρ X
      (recoverStepIfCurrent X .running event >>= k : Executor.M α) Any v := by
  refine Safe.bindE.mpr (Safe.orThrow.mpr ?_)
  rw [← hs]
  refine applyStepIfCurrent_held (mayStep_settle hrow hs ⟨event, ht⟩ hterm)
    (by rw [hs]; exact ht) ?_
  intro r v'
  cases r with
  | ok operation => exact hk operation v'
  | error e => trivial

/-- The judge of a lost dispatch answer: `verifying` is entered only for a
command whose effect a re-read proves, and only after one confirmed it. -/
theorem judgeRunning_safe {row : OperationRow} {endpointId : EndpointId}
    {started : StartedAudit} (hrow : v.row = some row)
    (hs : row.state = .running) :
    ExecSafe ρ X (judgeRunning X endpointId row.command started) Any v := by
  refine exec_quiet (q := .outside (.verify endpointId row.command)) trivial
    trivial ?_
  intro r v₁ v₂ _ hcall h₂
  have hrow₂ := (h₂.held row hrow (Or.inr (Or.inr hs))).1
  match r with
  | .ok .confirmed =>
      show ExecSafe ρ X
        (if recoveryJudgementProvesEffect row.command = true then _ else _)
        Any v₂
      split
      · next hproves =>
          refine Safe.bindE.mpr (Safe.orThrow.mpr (applyStep_held
            (mayStep_verifying hrow₂ hs (Or.inr (Or.inr hproves))
              fun _ => hproves) (by rw [hs]; rfl) (fun _ _ => trivial) fun _ v₃ t h₃ => ?_))
          refine Safe.bindE.mpr (Safe.orThrow.mpr (applyStep_verifying
            h₃.row (Or.inl rfl) rfl ?_ ?_))
          · intro _ _
            obtain ⟨v₂', h₂', hlog⟩ := h₃.log
            obtain ⟨new, hnew, -⟩ := h₂'.log
            have hproved : Proved row.command v₂.log :=
              ⟨[], _, v₁.log, hcall.log, rfl, Or.inr (Or.inr hproves)⟩
            rw [hlog, hnew]
            exact Proved.append (l := _ :: new) hproved
          · intro r v₄
            cases r with
            | error e => trivial
            | ok operation =>
                exact record_safe (fun _ _ => trivial) fun _ => trivial
      · exact judge_safe hrow₂ hs rfl rfl fun _ _ =>
          record_safe (fun _ _ => trivial) fun _ => trivial
  | .ok .mismatched =>
      exact judge_safe hrow₂ hs rfl rfl fun _ _ =>
        record_safe (fun _ _ => trivial) fun _ => trivial
  | .error source =>
      exact judge_safe hrow₂ hs rfl rfl fun _ _ =>
        record_safe (fun _ _ => trivial) fun _ => trivial

/-- `recoverOperation` keeps the executor's contract from every state. -/
theorem recoverOperation_safe {posture : Posture} :
    ExecSafe ρ X (recoverOperation posture X) Any v := by
  refine exec_quiet (q := .operations (.findOperation X)) trivial rfl ?_
  intro r v₁ v₂ _ hcall _
  cases r with
  | error e => trivial
  | ok found =>
      cases found with
      | none => trivial
      | some operation =>
          obtain ⟨row, hrow₁, -, hop⟩ := hcall.effect.2
          obtain ⟨-, -, hcommand, hstate, -⟩ := mapStoredOperation_ok hop
          have hrow : v₂.row = some row := hcall.effect.1.row.trans hrow₁
          show ExecSafe ρ X (if operation.state = .running ∨
            operation.state = .verifying then _ else _) Any v₂
          rw [hstate, hcommand]
          split
          · next hs =>
              cases operation.targets with
              | nil => trivial
              | cons target targets =>
                  show ExecSafe ρ X (if row.state = .running then _ else _) Any v₂
                  split
                  · next hrun =>
                      have hheld : Held row.state := Or.inr (Or.inr hrun)
                      refine exec_quiet (q := .tasks (.findRemoteTask X)) trivial
                        rfl ?_
                      intro r v₂' v₃ _ hfind h₃
                      have hrow₃ := (h₃.held row hrow hheld).1
                      cases r with
                      | error e => trivial
                      | ok found =>
                          cases found with
                          | none =>
                              refine Safe.bindE.mpr
                                (startAudit_safe (fun _ _ => trivial) ?_)
                              intro started v₄ h₄
                              have hrow₄ := (h₄.held row hrow₃ hheld).1
                              exact judgeRunning_safe hrow₄ hrun
                          | some task =>
                              -- the Task row proves that no answer was lost
                              have htask : v₃.task = some task :=
                                hfind.effect.1.task.trans hfind.effect.2.1.symm
                              have hs₃ := (h₃.inv.present row hrow₃).state
                              simp only [StateInv, hrun, htask] at hs₃
                              exact Safe.orThrow.mpr (applyStep_held
                                (mayStep_waiting hrow₃ hrun fun hlost => by
                                  cases hs₃.2 hlost)
                                (by rw [hrun]; rfl) (fun _ _ => trivial)
                                fun _ _ _ _ => trivial)
                  · next hrun =>
                      refine Safe.bindE.mpr
                        (startAudit_safe (fun _ _ => trivial) ?_)
                      intro started v₃ h₃
                      have hver := hs.resolve_left hrun
                      rcases h₃.verifying row hrow hver with hrow₃ |
                        ⟨row', hrow₃, ht⟩
                      · exact Safe.orThrow.mpr (verifyTarget_safe
                          (fun _ _ => trivial) hrow₃ (Or.inl hver))
                      · exact Safe.orThrow.mpr (verifyTarget_safe
                          (fun _ _ => trivial) hrow₃ (Or.inr ht))
          · trivial


end Rutilus.Proofs.Lane
