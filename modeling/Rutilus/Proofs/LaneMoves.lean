import Rutilus.Proofs.Lane

/-!
# The moves of the two drivers

The executor alone moves an operation that is queued, validating or running;
the monitor alone moves one that waits for a Task; from `verifying` either may
move it, and then it is terminal and stays. That division is what each driver
relies on (`ExecLater`, `MonLater`) and what each guarantees to the other.

`LaneCall` is the meaning of a call on a view, restricted to the steps the
regime allows; `Safe` over it is what the programs are checked against.
-/

namespace Rutilus.Proofs.Lane

open Rutilus.Domain Rutilus.Lib Rutilus.Store Rutilus.App

/-- The states only the executor leaves. -/
def Held (s : OperationState) : Prop :=
  s = .queued ∨ s = .validating ∨ s = .running

/-- An operation under verification stays or is settled for good, and a
settled one stays. -/
structure Settles (v v' : View) : Prop where
  verifying : ∀ row, v.row = some row → row.state = .verifying →
    v'.row = some row ∨
      ∃ row', v'.row = some row' ∧ row'.state.isTerminal = true
  terminal : ∀ row, v.row = some row → row.state.isTerminal = true →
    v'.row = some row

/-- What the executor may find changed between two of its calls. -/
structure ExecLater (ρ : Regime) (v v' : View) : Prop extends
    Settles v v' where
  log : ∃ new, v'.log = new ++ v.log ∧
    ∀ e ∈ new, e.isDispatch = false ∧ e.opensAttempt = false ∧
      e.losesAnswer = false
  held : ∀ row, v.row = some row → Held row.state →
    v'.row = some row ∧ v'.task = v.task
  clock : ρ.timed → v.clock ≤ v'.clock
  inv : Inv ρ v'

/-- What a poll may find changed between two of its calls. -/
structure MonLater (ρ : Regime) (v v' : View) : Prop extends
    Settles v v' where
  log : ∃ new, v'.log = new ++ v.log ∧ ∀ e ∈ new, e.taskRead = none
  waiting : ∀ row, v.row = some row → row.state = .waitingRemote →
    v'.row = some row ∧ v'.task = v.task
  clock : ρ.timed → v.clock ≤ v'.clock
  inv : Inv ρ v'

/-- What any step does to the row: nothing, create it, or move it along the
matrix, forwards in time if the clock is. -/
inductive Advance (ρ : Regime) (v v' : View) : Prop where
  | same (h : v'.row = v.row)
  | create (row : OperationRow) (h : v.row = none) (h' : v'.row = some row)
      (hs : row.state = .queued)
  | move (row row' : OperationRow) (h : v.row = some row)
      (h' : v'.row = some row')
      (hs : row'.state = row.state ∨ Legal row.state row'.state)
      (hc : row'.command = row.command)
      (ht : ρ.timed → row'.createdAt = row.createdAt ∧
        row.updatedAt ≤ row'.updatedAt)

/-- No poll reads a waiting operation that was updated after its sweep
began. -/
def FreshRead (c : Caller) (q : SiteReq) (v : View) : Prop :=
  match c, q with
  | .monitor sweep, .operations (.findOperation _) =>
      ∀ row ∈ v.row, row.state = .waitingRemote → row.updatedAt ≤ sweep
  | _, _ => True

/-- No attempt on an operation with a stored failure kind gets a pre-flight
answer that denies it. -/
def TruthfulAnswer (c : Caller) (v : View) (q : SiteReq) (r : q.Resp) :
    Prop :=
  ∀ row ∈ v.row, row.failureKind ≠ none →
    (Event.made c q r).deniesUnsupported row.command = false

instance (c : Caller) (q : SiteReq) (v : View) :
    Decidable (FreshRead c q v) :=
  match c, q with
  | .monitor sweep, .operations (.findOperation _) =>
      inferInstanceAs (Decidable (∀ row ∈ v.row,
        row.state = .waitingRemote → row.updatedAt ≤ sweep))
  | .executor, _ => isTrue trivial
  | .monitor _, .operations (.createOperation _) => isTrue trivial
  | .monitor _, .operations (.listOperations _) => isTrue trivial
  | .monitor _, .operations (.applyTransition ..) => isTrue trivial
  | .monitor _, .operations (.applyTransitionIfCurrent ..) => isTrue trivial
  | .monitor _, .operations (.recordFailureKind ..) => isTrue trivial
  | .monitor _, .tasks _ => isTrue trivial
  | .monitor _, .outside _ => isTrue trivial

instance (c : Caller) (v : View) (q : SiteReq) (r : q.Resp) :
    Decidable (TruthfulAnswer c v q r) :=
  inferInstanceAs (Decidable (∀ row ∈ v.row, row.failureKind ≠ none →
    (Event.made c q r).deniesUnsupported row.command = false))

/-- One call for `X` that the regime allows. -/
structure Called (ρ : Regime) (c : Caller) (q : SiteReq) (v : View)
    (r : q.Resp) (v' : View) : Prop where
  log : v'.log = .made c q r :: v.log
  effect : Effect q v r v'
  clock : ρ.timed → v.clock ≤ v'.clock
  fresh : ρ.timed → FreshRead c q v
  truthful : ρ.truthful → TruthfulAnswer c v q r

/-- The meaning of calls on the view of `X`; nothing is promised about a call
that concerns another operation. -/
def LaneCall (ρ : Regime) (X : OperationId) (c : Caller) : Sem site View :=
  fun q v r v' => About X q → Called ρ c q v r v'

/-- The executor's guarantee. -/
structure ExecStep (ρ : Regime) (X : OperationId) (q : SiteReq)
    (v v' : View) : Prop where
  about : About X q
  later : MonLater ρ v v'
  advance : Advance ρ v v'

/-- The monitor's guarantee. -/
structure MonStep (ρ : Regime) (X : OperationId) (q : SiteReq)
    (v v' : View) : Prop where
  about : About X q
  later : ExecLater ρ v v'
  advance : Advance ρ v v'

section Relations

variable {ρ : Regime} {a b c v v' : View}

theorem Settles.trans (h : Settles a b) (h' : Settles b c) : Settles a c where
  verifying := by
    intro row hrow hs
    rcases h.verifying row hrow hs with hb | ⟨row', hb, ht⟩
    · exact h'.verifying row hb hs
    · exact Or.inr ⟨row', h'.terminal row' hb ht, ht⟩
  terminal := fun row hrow ht =>
    h'.terminal row (h.terminal row hrow ht) ht

/-- A driver that has seen the operation under verification, or settled, finds
that row or a settled one. -/
theorem Settles.settled {row : OperationRow} (h : Settles v v')
    (hrow : v.row = some row)
    (hs : row.state = .verifying ∨ row.state.isTerminal = true) :
    v'.row = some row ∨
      ∃ row', v'.row = some row' ∧ row'.state.isTerminal = true := by
  rcases hs with hs | hs
  · exact h.verifying row hrow hs
  · exact Or.inl (h.terminal row hrow hs)

theorem Settles.eq_of_not_terminal {row row' : OperationRow}
    (h : Settles v v') (hrow : v.row = some row)
    (hs : row.state = .verifying ∨ row.state.isTerminal = true)
    (hrow' : v'.row = some row') (ht : row'.state.isTerminal = false) :
    row = row' ∧ row'.state = .verifying := by
  rcases h.settled hrow hs with h' | ⟨row'', h', ht'⟩
  · obtain rfl := Option.some_inj.mp (h'.symm.trans hrow')
    refine ⟨rfl, hs.resolve_right ?_⟩
    rw [ht]
    decide
  · obtain rfl := Option.some_inj.mp (h'.symm.trans hrow')
    rw [ht] at ht'
    cases ht'

theorem ExecLater.trans (h : ExecLater ρ a b) (h' : ExecLater ρ b c) :
    ExecLater ρ a c where
  toSettles := h.toSettles.trans h'.toSettles
  log := by
    obtain ⟨new, hn, hnew⟩ := h.log
    obtain ⟨new', hn', hnew'⟩ := h'.log
    refine ⟨new' ++ new, by rw [hn', hn, List.append_assoc], ?_⟩
    intro e he
    rcases List.mem_append.mp he with he | he
    · exact hnew' e he
    · exact hnew e he
  held := by
    intro row hrow hs
    obtain ⟨hb, ht⟩ := h.held row hrow hs
    obtain ⟨hc, ht'⟩ := h'.held row hb hs
    exact ⟨hc, ht'.trans ht⟩
  clock := fun hρ => Int.le_trans (h.clock hρ) (h'.clock hρ)
  inv := h'.inv

theorem MonLater.trans (h : MonLater ρ a b) (h' : MonLater ρ b c) :
    MonLater ρ a c where
  toSettles := h.toSettles.trans h'.toSettles
  log := by
    obtain ⟨new, hn, hnew⟩ := h.log
    obtain ⟨new', hn', hnew'⟩ := h'.log
    refine ⟨new' ++ new, by rw [hn', hn, List.append_assoc], ?_⟩
    intro e he
    rcases List.mem_append.mp he with he | he
    · exact hnew' e he
    · exact hnew e he
  waiting := by
    intro row hrow hs
    obtain ⟨hb, ht⟩ := h.waiting row hrow hs
    obtain ⟨hc, ht'⟩ := h'.waiting row hb hs
    exact ⟨hc, ht'.trans ht⟩
  clock := fun hρ => Int.le_trans (h.clock hρ) (h'.clock hρ)
  inv := h'.inv

/-! ## Steps that move nothing -/

/-- Row and Task stay and one quiet event is logged. -/
structure Still (ρ : Regime) (v v' : View) : Prop where
  row : v'.row = v.row
  task : v'.task = v.task
  log : ∃ e, v'.log = e :: v.log ∧ Quiet e ∧ e.opensAttempt = false
  clock : ρ.timed → v.clock ≤ v'.clock

theorem Still.inv (h : Still ρ v v') (hv : Inv ρ v) : Inv ρ v' := by
  obtain ⟨e, hlog, hq, -⟩ := h.log
  exact hv.quiet hq hlog h.task h.row h.clock

theorem Still.settles (h : Still ρ v v') : Settles v v' where
  verifying := fun _ hrow _ => Or.inl (h.row.trans hrow)
  terminal := fun _ hrow _ => h.row.trans hrow

theorem Still.execLater (h : Still ρ v v') (hv : Inv ρ v) :
    ExecLater ρ v v' where
  toSettles := h.settles
  log := by
    obtain ⟨e, hlog, hq, ho⟩ := h.log
    refine ⟨[e], hlog, ?_⟩
    intro x hx
    rw [List.mem_singleton] at hx
    exact hx ▸ ⟨hq.dispatch, ho, hq.kept⟩
  held := fun _ hrow _ => ⟨h.row.trans hrow, h.task⟩
  clock := h.clock
  inv := h.inv hv

theorem Still.monLater (h : Still ρ v v') (hv : Inv ρ v) :
    MonLater ρ v v' where
  toSettles := h.settles
  log := by
    obtain ⟨e, hlog, hq, -⟩ := h.log
    refine ⟨[e], hlog, ?_⟩
    intro x hx
    rw [List.mem_singleton] at hx
    exact hx ▸ hq.read
  waiting := fun _ hrow _ => ⟨h.row.trans hrow, h.task⟩
  clock := h.clock
  inv := h.inv hv

/-- The calls that read only: the stores' finds and what the outside answers
without the write being handed over or the Task being read. -/
def QuietReq : SiteReq → Prop
  | .operations (.findOperation _) => True
  | .tasks (.findRemoteTask _) => True
  | .outside (.execute ..) | .outside (.executeUpdate ..)
  | .outside (.readTask ..) => False
  | .outside _ => True
  | _ => False

theorem quiet_made {c : Caller} {q : SiteReq} (hq : QuietReq q)
    (r : q.Resp) : Quiet (.made c q r) := by
  cases q with
  | operations q => exact ⟨rfl, rfl, rfl⟩
  | tasks q => exact ⟨rfl, rfl, rfl⟩
  | outside q =>
      cases q with
      | execute => exact hq.elim
      | executeUpdate => exact hq.elim
      | readTask => exact hq.elim
      | _ => exact ⟨rfl, rfl, rfl⟩

theorem effect_quiet {q : SiteReq} {r : q.Resp} (hq : QuietReq q)
    (h : Effect q v r v') : v'.row = v.row ∧ v'.task = v.task := by
  cases q with
  | operations q =>
      cases q with
      | findOperation => exact ⟨h.1.row, h.1.task⟩
      | _ => exact hq.elim
  | tasks q =>
      cases q with
      | findRemoteTask => exact ⟨h.1.row, h.1.task⟩
      | saveRemoteTask => exact hq.elim
  | outside q =>
      cases q with
      | now => exact ⟨h.1, h.2.1⟩
      | execute => exact hq.elim
      | executeUpdate => exact hq.elim
      | readTask => exact hq.elim
      | _ => exact ⟨Same.row h, Same.task h⟩

theorem Called.still {c : Caller} {q : SiteReq} {r : q.Resp}
    (h : Called ρ c q v r v') (hq : QuietReq q) : Still ρ v v' where
  row := (effect_quiet hq h.effect).1
  task := (effect_quiet hq h.effect).2
  log := ⟨_, h.log, quiet_made hq r, rfl⟩
  clock := h.clock

/-- A call that failed, or read only, for another reason. -/
theorem Called.still_of_same {c : Caller} {q : SiteReq} {r : q.Resp}
    (h : Called ρ c q v r v') (hs : Same v v')
    (hq : Quiet (.made c q r)) : Still ρ v v' where
  row := hs.row
  task := hs.task
  log := ⟨_, h.log, hq, rfl⟩
  clock := h.clock

end Relations

/-! ## Steps that move the row -/

section Wrote

variable {ρ : Regime} {v v' : View} {row : OperationRow}
  {state : OperationState} {t : Instant} {e : App.Event}

theorem isTerminal_of_legal_verifying {s : OperationState}
    (h : Legal .verifying s) : s.isTerminal = true := by
  obtain ⟨event, h⟩ := h
  cases event <;> cases h <;> rfl

/-- A legal step was stored: what is left to show is what the new state says
about the past. -/
structure Wrote (ρ : Regime) (v v' : View) (row : OperationRow)
    (state : OperationState) (t : Instant) : Prop where
  found : v.row = some row
  legal : Legal row.state state
  moved : Moved v v' { row with state, updatedAt := t }
  log : ∃ e, v'.log = e :: v.log ∧ Quiet e ∧ e.opensAttempt = false
  time : ρ.timed → row.updatedAt ≤ t ∧ t ≤ v.clock
  past : StateInv { row with state, updatedAt := t } v'
  kind : ρ.truthful → row.failureKind ≠ none → row.state ≠ .running →
    state = .validating ∨ state = .failed ∧ Refused row.command v'.log

theorem Wrote.inv (h : Wrote ρ v v' row state t) (hv : Inv ρ v) :
    Inv ρ v' := by
  obtain ⟨e, hlog, hq, -⟩ := h.log
  have hold := hv.present row h.found
  refine hv.write hq hlog h.moved.task h.moved.row ⟨h.past, ?_, ?_⟩
  · intro hρ
    obtain ⟨htime, htime'⟩ := h.time hρ
    refine ⟨Int.le_trans (hold.time hρ).1 htime, ?_⟩
    rw [h.moved.clock]
    exact htime'
  · intro hρ hk
    have huntouched : Untouched v ∧ row.state ≠ .running := by
      have hs := hold.state
      rcases hold.kind hρ hk with hst | hst | ⟨hst, -⟩
      · simp only [StateInv, hst] at hs
        exact ⟨hs, by rw [hst]; decide⟩
      · simp only [StateInv, hst] at hs
        exact ⟨hs, by rw [hst]; decide⟩
      · have := h.legal.not_isTerminal
        rw [hst] at this
        cases this
    rcases h.kind hρ hk huntouched.2 with hst | ⟨hst, href⟩
    · exact Or.inr (Or.inl hst)
    · refine Or.inr (Or.inr ⟨hst, ?_, href⟩)
      rw [hlog, dispatches_cons_quiet hq, huntouched.1.dispatches]

theorem Wrote.settles (h : Wrote ρ v v' row state t) : Settles v v' where
  verifying := by
    intro row' hrow' hs
    cases h.found.symm.trans hrow'
    exact Or.inr ⟨_, h.moved.row, isTerminal_of_legal_verifying (hs ▸ h.legal)⟩
  terminal := by
    intro row' hrow' ht
    cases h.found.symm.trans hrow'
    rw [h.legal.not_isTerminal] at ht
    cases ht

theorem Wrote.advance (h : Wrote ρ v v' row state t) : Advance ρ v v' :=
  .move row _ h.found h.moved.row (Or.inr h.legal) rfl
    fun hρ => ⟨rfl, (h.time hρ).1⟩

theorem Wrote.clock (h : Wrote ρ v v' row state t) :
    ρ.timed → v.clock ≤ v'.clock := by
  intro _
  rw [h.moved.clock]

theorem Wrote.monLater (h : Wrote ρ v v' row state t) (hv : Inv ρ v)
    (hs : row.state ≠ .waitingRemote) : MonLater ρ v v' where
  toSettles := h.settles
  log := by
    obtain ⟨e, hlog, hq, -⟩ := h.log
    exact ⟨[e], hlog, by simp [hq.read]⟩
  waiting := by
    intro row' hrow' hs'
    cases h.found.symm.trans hrow'
    exact absurd hs' hs
  clock := h.clock
  inv := h.inv hv

theorem Wrote.execLater (h : Wrote ρ v v' row state t) (hv : Inv ρ v)
    (hs : ¬ Held row.state) : ExecLater ρ v v' where
  toSettles := h.settles
  log := by
    obtain ⟨e, hlog, hq, ho⟩ := h.log
    exact ⟨[e], hlog, by simp [hq.dispatch, ho, hq.kept]⟩
  held := by
    intro row' hrow' hs'
    cases h.found.symm.trans hrow'
    exact absurd hs' hs
  clock := h.clock
  inv := h.inv hv

end Wrote

/-! ## Reading calls in a program -/

section Quiet

variable {ρ : Regime} {X : OperationId} {v : View} {α : Type}
  {Q : α → View → Prop} {q : SiteReq} {k : q.Resp → Prog site α}

/-- The executor reads. -/
theorem exec_quiet (hq : QuietReq q) (ha : About X q)
    (h : ∀ r v₁ v', ExecLater ρ v v₁ → Called ρ .executor q v₁ r v' →
      ExecLater ρ v v' →
      Safe (LaneCall ρ X .executor) (ExecLater ρ) (ExecStep ρ X) (k r) Q v') :
    Safe (LaneCall ρ X .executor) (ExecLater ρ) (ExecStep ρ X) (.call q k) Q
      v := by
  intro v₁ hR r v' hA
  have hcall := hA ha
  have hstill := hcall.still hq
  exact ⟨⟨ha, hstill.monLater hR.inv, .same hstill.row⟩,
    h r v₁ v' hR hcall (hR.trans (hstill.execLater hR.inv))⟩

/-- A poll reads. -/
theorem mon_quiet {sweep : Instant} (hq : QuietReq q) (ha : About X q)
    (h : ∀ r v₁ v', MonLater ρ v v₁ → Called ρ (.monitor sweep) q v₁ r v' →
      MonLater ρ v v' →
      Safe (LaneCall ρ X (.monitor sweep)) (MonLater ρ) (MonStep ρ X) (k r) Q
        v') :
    Safe (LaneCall ρ X (.monitor sweep)) (MonLater ρ) (MonStep ρ X)
      (.call q k) Q v := by
  intro v₁ hR r v' hA
  have hcall := hA ha
  have hstill := hcall.still hq
  exact ⟨⟨ha, hstill.execLater hR.inv, .same hstill.row⟩,
    h r v₁ v' hR hcall (hR.trans (hstill.monLater hR.inv))⟩

end Quiet

end Rutilus.Proofs.Lane

/-!
## The executor's stored steps

`applyStep` and its compare-and-set twin, each once from the states the
executor holds and once from `verifying`, where the monitor may have settled
the operation first. Between two calls the executor knows only what `ExecLater`
leaves it.
-/

namespace Rutilus.Proofs.Lane

open Rutilus.Domain Rutilus.Lib Rutilus.Store Rutilus.Engine Rutilus.App
open Rutilus.App.Executor

/-- The contract of an executor program on operation `X`. -/
abbrev ExecSafe {α : Type} (ρ : Regime) (X : OperationId) (p : Prog site α)
    (Q : α → View → Prop) (v : View) : Prop :=
  Safe (LaneCall ρ X .executor) (ExecLater ρ) (ExecStep ρ X) p Q v

variable {ρ : Regime} {X : OperationId} {v : View} {α : Type}

/-! ## Programs that only read -/

/-- The terminal audit fact. -/
theorem recordOutcome_safe {started : StartedAudit} {outcome : AuditOutcome}
    {Q : Except ExecutorError Unit → View → Prop} (hQ : ∀ r v', Q r v') :
    ExecSafe ρ X (recordOutcome started outcome) Q v := by
  refine exec_quiet (q := .outside .now) trivial trivial ?_
  intro t v₁ v' _ _ _
  refine exec_quiet (q := .outside (.appendAuditEvent _)) trivial trivial ?_
  intro r v₁ v' _ _ _
  exact hQ _ _

theorem startAudit_safe {posture : Posture} {endpointId : EndpointId}
    {command : RedfishCommand} {source : OperationSource}
    {Q : Except ExecutorError StartedAudit → View → Prop}
    (herr : ∀ e v', Q (.error e) v')
    (hok : ∀ started v', ExecLater ρ v v' → Q (.ok started) v') :
    ExecSafe ρ X (startAudit posture endpointId command source) Q v := by
  refine exec_quiet (q := .outside .now) trivial trivial ?_
  intro t v₁ v' _ _ h₁
  refine exec_quiet (q := .outside (.appendAuditEvent _)) trivial trivial ?_
  intro r v₁ v' _ _ h₂
  match r with
  | .error e => exact herr _ _
  | .ok () => exact hok _ _ (h₁.trans h₂)

/-! ## Stored steps -/

/-- The view right after the executor stored a step. -/
structure Stepped (ρ : Regime) (X : OperationId) (v v' : View)
    (row : OperationRow) (state : OperationState) (t : Instant) : Prop where
  row : v'.row = some { row with state, updatedAt := t }
  task : v'.task = v.task
  log : ∃ v₁, ExecLater ρ v v₁ ∧ v'.log =
    .made .executor (.operations (.applyTransition X state t)) (.ok ()) ::
      v₁.log
  inv : Inv ρ v'

/-- What has to be known before the executor stores a step from a state it
holds: the past the new state claims, and why a stored failure kind does not
contradict it. -/
structure MayStep (ρ : Regime) (X : OperationId) (v : View)
    (row : OperationRow) (state : OperationState) : Prop where
  found : v.row = some row
  held : Held row.state
  legal : Legal row.state state
  past : ∀ v₁ v' e t, ExecLater ρ v v₁ → v'.task = v.task →
    v'.log = e :: v₁.log → Quiet e →
    StateInv { row with state, updatedAt := t } v'
  kind : ρ.truthful → row.failureKind ≠ none → row.state ≠ .running →
    state = .validating ∨ state = .failed ∧ Attempted row.command v.log

theorem ExecLater.attempted {v' : View} {command : RedfishCommand}
    (h : ExecLater ρ v v') (ha : Attempted command v.log) :
    Attempted command v'.log := by
  obtain ⟨new, hlog, hnew⟩ := h.log
  rw [hlog]
  exact ha.append fun e he => (hnew e he).2.1

/-- A step stored from a held state, whichever of the two writes stored it. -/
theorem MayStep.wrote {row : OperationRow} {state : OperationState}
    {t : Instant} {v₁ v₂ v₃ : View} {q : SiteReq} {r : q.Resp}
    (h : MayStep ρ X v row state) (h₂ : ExecLater ρ v v₂)
    (hlog : v₃.log = .made .executor q r :: v₂.log)
    (hq : Quiet (.made .executor q r))
    (hfailed : state = .failed →
      Event.persists .failed (.made .executor q r) = true)
    (hmoved : Moved v₂ v₃ { row with state, updatedAt := t })
    (h₁ : ExecLater ρ v v₁) (ht : v₁.clock = t)
    (h₁₂ : ρ.timed → v₁.clock ≤ v₂.clock) :
    Wrote ρ v₂ v₃ row state t := by
  obtain ⟨hrow, htask⟩ := h₂.held row h.found h.held
  refine ⟨hrow, h.legal, hmoved, ⟨_, hlog, hq, rfl⟩, ?_, ?_, ?_⟩
  · intro hρ
    have hrow₁ := (h₁.held row h.found h.held).1
    exact ⟨ht ▸ ((h₁.inv.present row hrow₁).time hρ).2, ht ▸ h₁₂ hρ⟩
  · exact h.past v₂ v₃ _ t h₂ (hmoved.task.trans htask) hlog hq
  · intro hρ hk hrun
    rcases h.kind hρ hk hrun with hst | ⟨hst, hatt⟩
    · exact Or.inl hst
    · refine Or.inr ⟨hst, [], _, v₂.log, hlog, hfailed hst, ?_⟩
      exact h₂.attempted hatt

theorem stored_state {row : OperationRow} {operation : Operation}
    (h : mapStoredOperation row = .ok operation) :
    operation.state = row.state :=
  (mapStoredOperation_ok h).2.2.2.1

/-- `applyStep` from a held state. -/
theorem applyStep_held {row : OperationRow} {state : OperationState}
    {event : OperationEvent} {Q : Except ExecutorError Operation → View → Prop}
    (h : MayStep ρ X v row state)
    (ht : transition row.state event = .ok state)
    (herr : ∀ e v', Q (.error e) v')
    (hok : ∀ operation v' t, Stepped ρ X v v' row state t →
      Q (.ok operation) v') :
    ExecSafe ρ X (applyStep X event) Q v := by
  refine exec_quiet (q := .outside .now) trivial trivial ?_
  intro t v₀ v₁ _ hnow h₁
  refine exec_quiet (q := .operations (.findOperation X)) trivial rfl ?_
  intro r v₁' v₂ h₁' hfind h₂
  match r with
  | .error e => exact herr _ _
  | .ok none => exact herr _ _
  | .ok (some operation) =>
      obtain ⟨row', hrow', -, hop⟩ := hfind.effect.2
      have hv := (h₁.trans h₁').held row h.found h.held
      obtain rfl : row = row' := Option.some_inj.mp (hv.1.symm.trans hrow')
      show ExecSafe ρ X
        (orThrow (decideAndStore X event t operation) (engineError X)) Q v₂
      unfold decideAndStore
      match happly : operation.apply event t with
      | .error source => exact herr _ _
      | .ok advanced =>
          have hadv : advanced.state = state := by
            have := (Operation.apply_ok happly).1
            rw [stored_state hop, ht] at this
            exact (Except.ok.inj this).symm
          show ExecSafe ρ X (.call (.operations
            (.applyTransition X advanced.state t)) _) Q v₂
          rw [hadv]
          intro v₃ h₃ r v₄ hA
          have hcall := hA rfl
          have hlater := (h₁.trans h₂).trans h₃
          match r with
          | .error e =>
              have hstill := hcall.still_of_same hcall.effect ⟨rfl, rfl, rfl⟩
              exact ⟨⟨rfl, hstill.monLater h₃.inv, .same hstill.row⟩,
                herr _ _⟩
          | .ok () =>
              obtain ⟨row', hrow', -, hmoved⟩ := hcall.effect
              have hv := hlater.held row h.found h.held
              obtain rfl : row = row' :=
                Option.some_inj.mp (hv.1.symm.trans hrow')
              have hw := h.wrote hlater hcall.log ⟨rfl, rfl, rfl⟩
                (fun hs => by simp [Event.persists, hs]) hmoved h₁
                hnow.effect.2.2
                (fun hρ => Int.le_trans (h₂.clock hρ) (h₃.clock hρ))
              refine ⟨⟨rfl, hw.monLater h₃.inv ?_, hw.advance⟩, ?_⟩
              · rcases h.held with hs | hs | hs <;> rw [hs] <;> decide
              · exact hok advanced v₄ t ⟨hmoved.row, hmoved.task.trans hv.2,
                  ⟨v₃, hlater, hcall.log⟩, hw.inv h₃.inv⟩

/-- A step stored on an operation under verification. -/
theorem verifying_wrote {v₁ v₃ v₄ : View} {row : OperationRow}
    {state : OperationState} {event : OperationEvent} {t : Instant}
    {q : SiteReq} {r : q.Resp} (hver : row.state = .verifying)
    (ht : transition .verifying event = .ok state)
    (h₁ : ExecLater ρ v v₁) (h₁₃ : ExecLater ρ v₁ v₃)
    (hrow : v.row = some row) (hrow₃ : v₃.row = some row)
    (hlog : v₄.log = .made .executor q r :: v₃.log)
    (hq : Quiet (.made .executor q r))
    (hclock : v₁.clock = t)
    (hmoved : Moved v₃ v₄ { row with state, updatedAt := t })
    (hproved : state = .succeeded → Proved row.command v.log) :
    Wrote ρ v₃ v₄ row state t := by
  have hlegal : Legal row.state state := ⟨event, by rw [hver]; exact ht⟩
  have hterm := isTerminal_of_legal_verifying (hver ▸ hlegal)
  have hold := h₁₃.inv.present row hrow₃
  refine ⟨hrow₃, hlegal, hmoved, ⟨_, hlog, hq, rfl⟩, ?_, ?_, ?_⟩
  · intro hρ
    have hrow₁ : v₁.row = some row := by
      rcases h₁.verifying row hrow hver with h | ⟨row', h, ht'⟩
      · exact h
      · have := h₁₃.terminal row' h ht'
        obtain rfl := Option.some_inj.mp (this.symm.trans hrow₃)
        rw [hver] at ht'
        cases ht'
    exact ⟨hclock ▸ ((h₁.inv.present row hrow₁).time hρ).2,
      hclock ▸ h₁₃.clock hρ⟩
  · have hpast := hold.state
    simp only [StateInv, hver] at hpast
    unfold StateInv
    cases state with
    | succeeded =>
        obtain ⟨new, hnew, -⟩ := (h₁.trans h₁₃).log
        rw [hlog, hnew]
        rw [hnew] at hpast
        refine ⟨Proved.append (l := _ :: new) (hproved rfl),
          hpast.2.1.cons_quiet hq, ?_⟩
        rw [lost_cons hq.kept]
        exact hpast.2.2
    | failed => trivial
    | unknown => trivial
    | cancelled => trivial
    | queued => cases hterm
    | validating => cases hterm
    | running => cases hterm
    | waitingRemote => cases hterm
    | verifying => cases hterm
  · intro hρ hk
    rcases hold.kind hρ hk with h | h | ⟨h, -⟩ <;> rw [hver] at h <;> cases h

/-- `applyStep` on an operation under verification: it settles the operation
or finds it settled. -/
theorem applyStep_verifying {row : OperationRow} {state : OperationState}
    {event : OperationEvent} {Q : Except ExecutorError Operation → View → Prop}
    (hrow : v.row = some row)
    (hs : row.state = .verifying ∨ row.state.isTerminal = true)
    (ht : transition .verifying event = .ok state)
    (hproved : state = .succeeded → row.state = .verifying →
      Proved row.command v.log)
    (hQ : ∀ r v', Q r v') : ExecSafe ρ X (applyStep X event) Q v := by
  refine exec_quiet (q := .outside .now) trivial trivial ?_
  intro t v₀ v₁ _ hnow h₁
  refine exec_quiet (q := .operations (.findOperation X)) trivial rfl ?_
  intro r v₁' v₂ h₁' hfind h₂
  match r with
  | .error e => exact hQ _ _
  | .ok none => exact hQ _ _
  | .ok (some operation) =>
      obtain ⟨row', hrow', -, hop⟩ := hfind.effect.2
      show ExecSafe ρ X
        (orThrow (decideAndStore X event t operation) (engineError X)) Q v₂
      unfold decideAndStore
      match happly : operation.apply event t with
      | .error source => exact hQ _ _
      | .ok advanced =>
          have hlegal := (Operation.apply_ok happly).1
          rw [stored_state hop] at hlegal
          have hadv : advanced.state = state := by
            have hnt := Legal.not_isTerminal ⟨event, hlegal⟩
            have := (h₁.trans h₁').eq_of_not_terminal hrow hs hrow' hnt
            rw [this.2, ht] at hlegal
            exact (Except.ok.inj hlegal).symm
          show ExecSafe ρ X (.call (.operations
            (.applyTransition X advanced.state t)) _) Q v₂
          rw [hadv]
          intro v₃ h₃ r v₄ hA
          have hcall := hA rfl
          have h₁₃ := h₂.trans h₃
          match r with
          | .error e =>
              have hstill := hcall.still_of_same hcall.effect ⟨rfl, rfl, rfl⟩
              exact ⟨⟨rfl, hstill.monLater h₃.inv, .same hstill.row⟩,
                hQ _ _⟩
          | .ok () =>
              obtain ⟨row', hrow', hnt, hmoved⟩ := hcall.effect
              obtain ⟨rfl, hver⟩ :=
                (h₁.trans h₁₃).eq_of_not_terminal hrow hs hrow' hnt
              have hw := verifying_wrote hver ht h₁ h₁₃ hrow hrow' hcall.log
                ⟨rfl, rfl, rfl⟩ hnow.effect.2.2 hmoved
                (fun hst => hproved hst hver)
              refine ⟨⟨rfl, hw.monLater h₃.inv ?_, hw.advance⟩, hQ _ _⟩
              rw [hver]
              decide

/-- The compare-and-set step from a held state; afterwards nothing more is
known or needed. -/
theorem applyStepIfCurrent_held {row : OperationRow} {state : OperationState}
    {event : OperationEvent} {Q : Except ExecutorError Operation → View → Prop}
    (h : MayStep ρ X v row state)
    (ht : transition row.state event = .ok state) (hQ : ∀ r v', Q r v') :
    ExecSafe ρ X (applyStepIfCurrent X row.state event) Q v := by
  refine exec_quiet (q := .outside .now) trivial trivial ?_
  intro t v₀ v₁ _ hnow h₁
  refine exec_quiet (q := .operations (.findOperation X)) trivial rfl ?_
  intro r v₁' v₂ _ _ h₂
  cases r with
  | error e => exact hQ _ _
  | ok found =>
      cases found with
      | none => exact hQ _ _
      | some operation =>
          show ExecSafe ρ X (orThrow (if operation.state ≠ row.state then _ else _)
            (engineError X)) Q v₂
          split
          · exact hQ _ _
          · next hstate =>
              cases happly : operation.apply event t with
              | error source => exact hQ _ _
              | ok advanced =>
                  have hadv : advanced.state = state := by
                    have := (Operation.apply_ok happly).1
                    rw [show operation.state = row.state by simpa using hstate,
                      ht] at this
                    exact (Except.ok.inj this).symm
                  show ExecSafe ρ X (.call (.operations
                    (.applyTransitionIfCurrent X row.state advanced.state t)) _)
                    Q v₂
                  rw [hadv]
                  intro v₃ h₃ r v₄ hA
                  have hcall := hA rfl
                  have hlater := (h₁.trans h₂).trans h₃
                  cases r with
                  | error e =>
                      have hstill :=
                        hcall.still_of_same hcall.effect ⟨rfl, rfl, rfl⟩
                      refine ⟨⟨rfl, hstill.monLater h₃.inv, .same hstill.row⟩, ?_⟩
                      refine exec_quiet (q := .operations (.findOperation X))
                        trivial rfl ?_
                      intro r v₅ v₆ _ _ _
                      cases r with
                      | error e => exact hQ _ _
                      | ok found =>
                          cases found with
                          | none => exact hQ _ _
                          | some found =>
                              show ExecSafe ρ X (orThrow (if found.state ≠ row.state
                                then _ else _) (engineError X)) Q v₆
                              split <;> exact hQ _ _
                  | ok u =>
                      obtain ⟨row', hrow', -, -, hmoved⟩ := hcall.effect
                      have hv := hlater.held row h.found h.held
                      obtain rfl : row = row' :=
                        Option.some_inj.mp (hv.1.symm.trans hrow')
                      have hw := h.wrote hlater hcall.log ⟨rfl, rfl, rfl⟩
                        (fun hs => by simp [Event.persists, hs]) hmoved h₁
                        hnow.effect.2.2
                        (fun hρ => Int.le_trans (h₂.clock hρ) (h₃.clock hρ))
                      refine ⟨⟨rfl, hw.monLater h₃.inv ?_, hw.advance⟩, hQ _ _⟩
                      rcases h.held with hs | hs | hs <;> rw [hs] <;> decide

end Rutilus.Proofs.Lane
