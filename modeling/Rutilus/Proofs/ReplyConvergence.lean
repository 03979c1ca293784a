import Rutilus.App.CenterBoundary
import Rutilus.Lib.Rely

/-!
# Replies converge

One record of the center under any sequence of replies: accepted, progress,
rejected and completed ones, lost, repeated and reordered, each handled whole
before the next. A delivery brings its own clock reading, what the projection
and the outbox answer at its time, and which of its store calls fail.

A reply moves a record only forward, along the matrix, by the events it stands
for. From a fresh record the replies reach `queued`, `running`,
`waitingRemote` and the terminal states and never stop at the two states in
between, so that a completed reply always finds its way to its outcome.
-/

namespace Rutilus.Proofs.ReplyConvergence

open Rutilus.Domain Rutilus.Lib Rutilus.Store Rutilus.App.CenterBoundary
  Rutilus.App.CenterTracking

/-! ## Deliveries -/

/-- One delivery of a reply and what its handling meets. -/
structure Delivery where
  site : InstanceId
  envelope : Envelope
  now : Instant
  projection : Except Fault (Option EndpointProjection)
  offer : Except OutboxRepositoryError (Option OutboxEntry)
  receiptId : OperationId
  faults : List (Option Fault)

structure World where
  operations : OperationTable
  inbox : InboxTable

/-- The fault of the next store call, none once the list is used up. -/
def nextFault (faults : List (Option Fault)) : Option Fault :=
  faults.head?.join

/-- The effect of one call while a delivery is handled. -/
def answer (d : Delivery) :
    (q : CenterReq) → World × List (Option Fault) →
      q.Resp × World × List (Option Fault)
  | .operations q, (w, faults) =>
      ((runOperationStore (nextFault faults) q w.operations).1,
        { w with operations :=
            (runOperationStore (nextFault faults) q w.operations).2 },
        faults.tail)
  | .inbox q, (w, faults) =>
      ((runInbox (nextFault faults) q w.inbox).1,
        { w with inbox := (runInbox (nextFault faults) q w.inbox).2 },
        faults.tail)
  | .outbox (.findOfferByOperation _ _), v => (d.offer, v)
  | .findEndpointProjection _, v => (d.projection, v)
  | .absorbedReceiptOperationId, v => (d.receiptId, v)
  -- the handling of a reply makes none of the other calls
  | .listOperationsForEndpoint .., v => (.error (.fault .database), v)
  | .outbox (.enqueue ..), v => (.error (.fault .database), v)
  | .outbox (.listPending ..), v => (.error (.fault .database), v)
  | .outbox (.listOffers _), v => (.error (.fault .database), v)
  | .outbox (.findOfferByOperationAcrossInstances _), v =>
      (.error (.fault .database), v)
  | .outbox (.acknowledge ..), v => (.error (.fault .database), v)
  | .hasResource .., v => (.error .database, v)
  | .findRoleAssignment _, v => (.error .database, v)
  | .generateOperationId, v => (⟨0⟩, v)
  | .generateTargetId, v => (⟨0⟩, v)

/-- Handle one delivery. -/
def handle (w : World) (d : Delivery) : World :=
  ((onReply d.site d.envelope d.now).run.run (answer d) (w, d.faults)).2.1

def handleAll (w : World) (ds : List Delivery) : World := ds.foldl handle w

/-- The state of a record; one that does not exist counts as queued. -/
def stateOf (w : World) (operationId : OperationId) : OperationState :=
  ((w.operations.find operationId).map OperationRow.state).getD .queued

/-- The reply is about the operation and stands for a target. -/
def Delivery.replies (d : Delivery) (operationId : OperationId)
    (target : ReplyTarget) : Prop :=
  replyOperationId d.envelope.message = some operationId ∧
    replyTarget d.envelope.message = some target

def Delivery.isRejected (d : Delivery) : Bool :=
  match d.envelope.message with
  | some (.operationRejected ..) => true
  | _ => false

def Delivery.isCompleted (d : Delivery) : Bool :=
  match d.envelope.message with
  | some (.operationCompleted ..) => true
  | _ => false

/-- The addressed site replies: the projection names it, or the offer in its
own queue does. -/
def Delivery.credits (d : Delivery) : Bool :=
  match d.projection with
  | .error _ => false
  | .ok projection =>
      projection.any (fun p => p.siteId = some d.site) ||
        match d.offer with
        | .error _ => false
        | .ok entry => (entry.bind offerFacts).bind OfferFact.siteId =
            some d.site

/-- No store call of the delivery fails. -/
def Delivery.faultless (d : Delivery) : Bool := d.faults.all (· = none)

/-- The state a target stands for. -/
def targetState : ReplyTarget → OperationState
  | .running => .running
  | .waitingRemote => .waitingRemote
  | .failed | .unsupported => .failed
  | .cancelled => .cancelled
  | .unknown => .unknown
  | .succeeded => .succeeded

/-! ## The events of a target -/

theorem absorb_cons (state : OperationState) (event : OperationEvent)
    (events : List OperationEvent) :
    absorb state (event :: events) =
      absorb (((transition state event).toOption).getD state) events := rfl

/-- Absorbing events is a path of the matrix. -/
theorem legal_absorb (state : OperationState) (events : List OperationEvent) :
    Relation.ReflTransGen Legal state (absorb state events) := by
  induction events generalizing state with
  | nil => exact .refl
  | cons event events ih =>
      rw [absorb_cons]
      cases h : transition state event with
      | ok new => exact .head ⟨event, h⟩ (ih new)
      | error e => exact ih state

theorem absorb_of_isTerminal {state : OperationState}
    (h : state.isTerminal = true) (events : List OperationEvent) :
    absorb state events = state := by
  induction events with
  | nil => rfl
  | cons event events ih =>
      rw [absorb_cons, transition_of_isTerminal h]
      exact ih

theorem rank_le_of_steps {s t : OperationState}
    (h : Relation.ReflTransGen Legal s t) : s.rank ≤ t.rank := by
  induction h with
  | refl => exact le_rfl
  | tail _ hstep ih => exact ih.trans hstep.rank_lt.le

/-- A target that is reached or passed is absorbed whole. -/
theorem absorb_of_reached {target : ReplyTarget} {state : OperationState}
    (h : Relation.ReflTransGen Legal (targetState target) state) :
    absorb state target.events = state := by
  have hrank := rank_le_of_steps h
  cases target <;> cases state <;> simp [targetState,
    OperationState.rank] at hrank <;> rfl

/-- The states a record can be in after some replies: none stops on the way
to `running` or to `succeeded`. -/
def steady : OperationState → Bool
  | .validating | .verifying => false
  | _ => true

section Steady

variable {state : OperationState}

theorem steady_absorb (h : steady state = true) (target : ReplyTarget) :
    steady (absorb state target.events) = true := by
  cases state <;> cases target <;>
    first
    | rfl
    | cases h

/-- A handled reply has reached its target, or found the record terminal. -/
theorem reached_absorb (h : steady state = true) (target : ReplyTarget) :
    Relation.ReflTransGen Legal (targetState target)
        (absorb state target.events) ∨
      (absorb state target.events).isTerminal = true := by
  cases state <;> cases target <;>
    first
    | exact .inr rfl
    | exact .inl .refl
    | exact .inl (.single ⟨.remoteTaskStarted, rfl⟩)
    | cases h

/-- A terminal report ends every open record in its outcome. -/
theorem absorb_outcome (h : steady state = true)
    (hopen : state.isTerminal = false) {target : ReplyTarget}
    (htarget : (targetState target).isTerminal = true) :
    absorb state target.events = targetState target := by
  cases state <;> cases target <;>
    first
    | rfl
    | exact absurd h (by decide)
    | exact absurd hopen (by decide)
    | exact absurd htarget (by decide)

theorem absorb_open (h : steady state = true)
    (hopen : state.isTerminal = false) {target : ReplyTarget}
    (htarget : (targetState target).isTerminal = false) :
    (absorb state target.events).isTerminal = false := by
  cases state <;> cases target <;>
    first
    | rfl
    | exact absurd h (by decide)
    | exact absurd hopen (by decide)
    | exact absurd htarget (by decide)

end Steady

/-! ## One delivery -/

/-- What a credited reply makes of a record. -/
def classified (target : ReplyTarget) (row : OperationRow) : OperationRow :=
  if target = .unsupported then
    { row with failureKind := some .capabilityUnsupported }
  else row

def credited (target : ReplyTarget) (now : Instant) (row : OperationRow) :
    OperationRow :=
  if absorb row.state target.events = row.state then classified target row
  else { classified target row with
    state := absorb row.state target.events, updatedAt := now }

@[simp]
theorem classified_id (target : ReplyTarget) (row : OperationRow) :
    (classified target row).id = row.id := by
  unfold classified
  split <;> rfl

@[simp]
theorem classified_state (target : ReplyTarget) (row : OperationRow) :
    (classified target row).state = row.state := by
  unfold classified
  split <;> rfl

@[simp]
theorem credited_id (target : ReplyTarget) (now : Instant)
    (row : OperationRow) : (credited target now row).id = row.id := by
  unfold credited
  split <;> simp

@[simp]
theorem credited_state (target : ReplyTarget) (now : Instant)
    (row : OperationRow) :
    (credited target now row).state = absorb row.state target.events := by
  unfold credited
  split
  · next h => rw [classified_state, h]
  · rfl

/-- A record that can be read back and names an endpoint. -/
def Readable (row : OperationRow) : Prop :=
  row.createdAt ≤ row.updatedAt ∧ row.targets ≠ []

/-- One record changed, all others kept. -/
def Changed (t t' : OperationTable) (row : OperationRow) : Prop :=
  ∀ k, t'.find k = if k = row.id then some row else t.find k

section Changed

variable {t : OperationTable} {operationId : OperationId} {row : OperationRow}

theorem changed_replace {row' : OperationRow}
    (h : t.find operationId = some row) (hid : row'.id = row.id) :
    Changed t (t.replace row') row' := by
  intro k
  rw [find_replace_same h hid, hid, Table.key_of_find h]

theorem changed_self (h : t.find operationId = some row) :
    Changed t t row := by
  intro k
  rw [Table.key_of_find h]
  split
  · next hk => rw [hk, h]
  · rfl

theorem Changed.trans {t₁ t₂ t₃ : OperationTable} {row row' : OperationRow}
    (h₁ : Changed t₁ t₂ row) (h₂ : Changed t₂ t₃ row')
    (hid : row'.id = row.id) : Changed t₁ t₃ row' := by
  intro k
  rw [h₂ k, h₁ k, hid]
  split <;> rfl

end Changed

section Delivered

variable {d : Delivery} {v : World × List (Option Fault)}

/-- The calls of a delivery. -/
abbrev Calls (d : Delivery) : Sem center (World × List (Option Fault)) :=
  fun q v r v' => answer d q v = (r, v')

abbrev Handled {α : Type} (d : Delivery) (p : Prog center α)
    (Q : α → World × List (Option Fault) → Prop)
    (v : World × List (Option Fault)) : Prop :=
  Safe (Calls d) Eq (fun _ _ _ => True) p Q v

/-- What holds at the end of a program holds of its run. -/
theorem Handled.run {α : Type} {p : Prog center α}
    {Q : α → World × List (Option Fault) → Prop} (h : Handled d p Q v) :
    Q (p.run (answer d) v).1 (p.run (answer d) v).2 := by
  induction p generalizing v with
  | ret a => exact h
  | call q k ih => exact ih _ (h v rfl _ _ rfl).2

/-- No later store call fails. -/
def Quiet (v : World × List (Option Fault)) : Prop := ∀ f ∈ v.2, f = none

theorem Quiet.nextFault (h : Quiet v) : nextFault v.2 = none := by
  cases hv : v.2 with
  | nil => rfl
  | cons f fs =>
      rw [h f (hv ▸ List.mem_cons_self)]
      rfl

/-- Keeps the records, and the later calls as they were. -/
def Keeps (v v' : World × List (Option Fault)) : Prop :=
  v'.1.operations = v.1.operations ∧ (Quiet v → Quiet v')

theorem keeps_inbox {q : InboxReq} {r : q.Resp}
    {v' : World × List (Option Fault)} (h : answer d (.inbox q) v = (r, v')) :
    Keeps v v' := by
  cases h
  exact ⟨rfl, fun hq f hf => hq f (List.mem_of_mem_tail hf)⟩

theorem recordReply_keeps (operationId : OperationId) :
    Handled d (recordReply d.site d.envelope operationId d.now)
      (fun _ => Keeps v) v := by
  intro v₁ h₁ r v₂ h₂
  subst h₁
  refine ⟨trivial, ?_⟩
  cases r <;> exact keeps_inbox h₂

theorem advanceReceipt_keeps (operationId : OperationId)
    (events : List InboxEvent) :
    Handled d (advanceReceipt operationId events) (fun _ => Keeps v) v := by
  induction events generalizing v with
  | nil => exact ⟨rfl, id⟩
  | cons event events ih =>
      intro v₁ h₁ r v₂ h₂
      subst h₁
      refine ⟨trivial, ?_⟩
      obtain ⟨hops, hquiet⟩ := keeps_inbox h₂
      cases r with
      | error e => exact ⟨hops, hquiet⟩
      | ok outcome =>
          refine Safe.imp ih fun _ v' ⟨hops', hquiet'⟩ => ?_
          exact ⟨hops'.trans hops, hquiet' ∘ hquiet⟩

theorem logReply_keeps (operationId : OperationId) :
    Handled d (logReply d.site d.envelope operationId d.now)
      (fun r v' => v'.1.operations = v.1.operations ∧
        (Quiet v → r = .ok ())) v := by
  intro v₁ h₁ r v₂ h₂
  subst h₁
  refine ⟨trivial, ?_⟩
  obtain ⟨hops, -⟩ := keeps_inbox h₂
  cases r with
  | error e =>
      refine ⟨hops, fun hquiet => ?_⟩
      have hnone := hquiet.nextFault
      have hr := congrArg Prod.fst h₂
      simp only [answer, hnone, runInbox] at hr
      cases hr
  | ok outcome =>
      cases outcome with
      | created => exact ⟨hops, fun _ => rfl⟩
      | duplicateInProgress =>
          refine (Safe.bind (f := fun u : Unit =>
            Prog.ret (.ok u : Except TrackingError Unit))).mpr ?_
          refine Safe.imp (advanceReceipt_keeps operationId _) ?_
          intro u v' hkeeps
          exact ⟨hkeeps.1.trans hops, fun _ => rfl⟩
      | duplicateResolved state =>
          refine (Safe.bind (f := fun u : Unit =>
            Prog.ret (.ok u : Except TrackingError Unit))).mpr ?_
          refine Safe.imp (advanceReceipt_keeps operationId _) ?_
          intro u v' hkeeps
          exact ⟨hkeeps.1.trans hops, fun _ => rfl⟩

end Delivered

section Credit

variable {d : Delivery} {v : World × List (Option Fault)}
  {operationId : OperationId} {row : OperationRow} {operation : Operation}
  {target : ReplyTarget}

theorem offerSite_spec (operation : Operation) :
    Handled d (offerSite operation d.site)
      (fun r v' => v' = v ∧
        (r = .ok (some d.site) → d.credits = true) ∧
        (operation.targets ≠ [] → d.credits = true →
          r = .ok (some d.site))) v := by
  have hfacts : ∀ projection, d.projection = .ok projection →
      projection.any (fun p => p.siteId = some d.site) = false →
      Handled d (offerSiteFromOfferFacts operation.id d.site)
        (fun r v' => v' = v ∧
          (r = .ok (some d.site) → d.credits = true) ∧
          (operation.targets ≠ [] → d.credits = true →
            r = .ok (some d.site))) v := by
    intro projection hprojection hother v₁ h₁ r v₂ h₂
    subst h₁
    cases h₂
    refine ⟨trivial, ?_⟩
    cases hoffer : d.offer with
    | error e =>
        refine ⟨rfl, fun h => (by cases h), fun _ h => ?_⟩
        simp [Delivery.credits, hprojection, hother, hoffer] at h
    | ok entry =>
        refine ⟨rfl, fun h => ?_, fun _ h => ?_⟩
        · simp only [Delivery.credits, hprojection, hoffer, Bool.or_eq_true,
            decide_eq_true_eq]
          exact .inr (by simpa using h)
        · simp only [Delivery.credits, hprojection, hother, hoffer,
            Bool.false_or, decide_eq_true_eq] at h
          exact congrArg Except.ok h
  unfold offerSite
  cases htargets : operation.targets.head? with
  | none =>
      refine ⟨rfl, fun h => (by cases h), fun h => ?_⟩
      exact absurd (List.head?_eq_none_iff.mp htargets) h
  | some first =>
      intro v₁ h₁ r v₂ h₂
      subst h₁
      cases h₂
      refine ⟨trivial, ?_⟩
      cases hprojection : d.projection with
      | error e =>
          refine ⟨rfl, fun h => (by cases h), fun _ h => ?_⟩
          simp [Delivery.credits, hprojection] at h
      | ok projection =>
          cases projection with
          | none => exact hfacts none hprojection rfl
          | some projection =>
              by_cases hsite : projection.siteId = some d.site
              · have hcredits : d.credits = true := by
                  simp [Delivery.credits, hprojection, hsite]
                show Handled d (if projection.siteId = some d.site then _
                  else _) _ v
                rw [if_pos hsite]
                exact ⟨rfl, fun _ => hcredits,
                  fun _ _ => congrArg Except.ok hsite⟩
              · show Handled d (if projection.siteId = some d.site then _
                  else _) _ v
                rw [if_neg hsite]
                exact hfacts (some projection) hprojection (by simp [hsite])

/-- The calls of the operation store, one at a time. -/
theorem operations_call {q : OperationStoreReq} {r : q.Resp}
    {v' : World × List (Option Fault)}
    (h : answer d (.operations q) v = (r, v')) :
    (r, v'.1.operations) =
        runOperationStore (nextFault v.2) q v.1.operations ∧
      (Quiet v → Quiet v') := by
  cases h
  exact ⟨rfl, fun hq f hf => hq f (List.mem_of_mem_tail hf)⟩

theorem recordUnsupported_spec
    (hrow : v.1.operations.find operationId = some row) :
    Handled d (recordUnsupported operationId target)
      (fun r v' => (Quiet v → Quiet v' ∧ r = .ok ()) ∧
        (r = .ok () →
          Changed v.1.operations v'.1.operations (classified target row)) ∧
        (r ≠ .ok () → v'.1.operations = v.1.operations)) v := by
  unfold recordUnsupported
  split
  · next htarget =>
      intro v₁ h₁ r v₂ h₂
      subst h₁
      refine ⟨trivial, ?_⟩
      obtain ⟨hr, hquiet⟩ := operations_call h₂
      cases hfault : nextFault v.2 with
      | some f =>
          rw [hfault] at hr
          obtain ⟨rfl, hops⟩ := Prod.mk.inj hr
          refine ⟨fun hq => ?_, fun h => (by cases h), fun _ => hops⟩
          rw [hq.nextFault] at hfault
          cases hfault
      | none =>
          have hrecord : recordFailureKind v.1.operations operationId
              .capabilityUnsupported = .ok (v.1.operations.replace
                { row with failureKind := some .capabilityUnsupported }) := by
            simp [recordFailureKind, hrow]
          rw [hfault] at hr
          simp only [runOperationStore, hrecord, written] at hr
          obtain ⟨rfl, hops⟩ := Prod.mk.inj hr
          refine ⟨fun hq => ⟨hquiet hq, rfl⟩, fun _ => ?_,
            fun h => absurd rfl h⟩
          rw [hops, classified, if_pos htarget]
          exact changed_replace hrow rfl
  · next htarget =>
      refine ⟨fun hq => ⟨hq, rfl⟩, fun _ => ?_, fun _ => rfl⟩
      rw [classified, if_neg htarget]
      exact changed_self hrow

theorem storeState_spec {state : OperationState}
    (hrow : v.1.operations.find operationId = some row)
    (hop : operation.id = operationId) (hstate : operation.state = row.state)
    (hterm : state ≠ row.state → row.state.isTerminal = false) :
    Handled d (storeState operation state d.now)
      (fun r v' => (Quiet v → Quiet v' ∧ r = .ok ()) ∧
        (r = .ok () → Changed v.1.operations v'.1.operations
          (if state = row.state then row
            else { row with state, updatedAt := d.now })) ∧
        (r ≠ .ok () → v'.1.operations = v.1.operations)) v := by
  unfold storeState
  rw [hstate]
  split
  · next hne =>
      intro v₁ h₁ r v₂ h₂
      subst h₁
      refine ⟨trivial, ?_⟩
      obtain ⟨hr, hquiet⟩ := operations_call h₂
      rw [hop] at hr
      cases hfault : nextFault v.2 with
      | some f =>
          rw [hfault] at hr
          obtain ⟨rfl, hops⟩ := Prod.mk.inj hr
          refine ⟨fun hq => ?_, fun h => (by cases h), fun _ => hops⟩
          rw [hq.nextFault] at hfault
          cases hfault
      | none =>
          have happly : applyTransition v.1.operations operationId state
              d.now = .ok (v.1.operations.replace
                { row with state, updatedAt := d.now }) := by
            simp [applyTransition, hrow, hterm hne]
          rw [hfault] at hr
          simp only [runOperationStore, happly, written] at hr
          obtain ⟨rfl, hops⟩ := Prod.mk.inj hr
          refine ⟨fun hq => ⟨hquiet hq, rfl⟩, fun _ => ?_,
            fun h => absurd rfl h⟩
          rw [hops]
          exact changed_replace hrow rfl
  · next heq =>
      refine ⟨fun hq => ⟨hq, rfl⟩, fun _ => ?_, fun _ => rfl⟩
      rw [if_pos (not_not.mp heq)]
      exact changed_self hrow

theorem creditReply_spec
    (hrow : v.1.operations.find operationId = some row)
    (hop : mapStoredOperation row = .ok operation) :
    Handled d (creditReply d.site d.envelope operation target d.now)
      (fun r v' =>
        ((∀ k, v'.1.operations.find k = v.1.operations.find k) ∨
          Changed v.1.operations v'.1.operations (classified target row) ∨
          Changed v.1.operations v'.1.operations
            (credited target d.now row)) ∧
        (Quiet v → r = .ok () ∧ Changed v.1.operations v'.1.operations
          (credited target d.now row))) v := by
  obtain ⟨hid, -, -, hstate, -⟩ := mapStoredOperation_ok hop
  have hid : operation.id = operationId := hid.trans (Table.key_of_find hrow)
  unfold creditReply
  rw [hid]
  refine Safe.bindE.mpr (Safe.imp (recordUnsupported_spec hrow) ?_)
  intro r₁ v₁ ⟨hquiet₁, hok₁, herr₁⟩
  cases r₁ with
  | error e =>
      refine ⟨.inl fun k => ?_, fun hq => (by cases (hquiet₁ hq).2)⟩
      rw [herr₁ (by simp)]
  | ok u =>
      have hchanged₁ := hok₁ rfl
      have hrow₁ : v₁.1.operations.find operationId =
          some (classified target row) := by
        rw [hchanged₁, classified_id, Table.key_of_find hrow, if_pos rfl]
      refine Safe.bindE.mpr (Safe.imp (storeState_spec hrow₁ hid
        (hstate.trans (classified_state _ _).symm) ?_) ?_)
      · rw [classified_state, hstate]
        intro hne
        by_contra hterm
        exact hne (absorb_of_isTerminal (by simpa using hterm) _)
      · rw [classified_state, hstate]
        intro r₂ v₂ ⟨hquiet₂, hok₂, herr₂⟩
        cases r₂ with
        | error e =>
            refine ⟨.inr (.inl ?_), fun hq =>
              (by cases (hquiet₂ (hquiet₁ hq).1).2)⟩
            rw [herr₂ (by simp)]
            exact hchanged₁
        | ok u =>
            have hchanged₂ : Changed v.1.operations v₂.1.operations
                (credited target d.now row) :=
              hchanged₁.trans (hok₂ rfl) (by simp [credited_id])
            refine Safe.imp (logReply_keeps operationId) ?_
            intro r₃ v₃ ⟨hops₃, hok₃⟩
            rw [hops₃]
            exact ⟨.inr (.inr hchanged₂), fun hq =>
              ⟨hok₃ (hquiet₂ (hquiet₁ hq).1).1, hchanged₂⟩⟩

/-- What the handling of a delivery does to the records. -/
def Effect (d : Delivery) (quiet : Prop) (t t' : OperationTable) : Prop :=
  ((∀ k, t'.find k = t.find k) ∨
    ∃ operationId target row, d.replies operationId target ∧
      t.find operationId = some row ∧
      (Changed t t' (classified target row) ∨
        Changed t t' (credited target d.now row))) ∧
  ∀ operationId target row, quiet → d.credits = true →
    d.replies operationId target → t.find operationId = some row →
    Readable row → Changed t t' (credited target d.now row)

theorem Effect.of_keeps {quiet : Prop} {t t' : OperationTable} (h : t' = t)
    (hnot : quiet → d.credits = true → ∀ operationId target row,
      d.replies operationId target → t.find operationId = some row →
      ¬ Readable row) : Effect d quiet t t' := by
  subst h
  refine ⟨.inl fun k => rfl, ?_⟩
  intro operationId target row hquiet hcredits hreplies hrow hreadable
  exact absurd hreadable
    (hnot hquiet hcredits operationId target row hreplies hrow)

theorem findOperation_call {fault : Option Fault} {t t' : OperationTable}
    {r : Except OperationRepositoryError (Option Operation)}
    (h : (r, t') = runOperationStore fault (.findOperation operationId) t) :
    t' = t ∧ (fault = none → r = findOperation t operationId) ∧
      (∀ operation, r = .ok (some operation) →
        findOperation t operationId = .ok (some operation)) := by
  cases fault with
  | none =>
      obtain ⟨rfl, rfl⟩ := Prod.mk.inj h
      exact ⟨rfl, fun _ => rfl, fun operation h => h⟩
  | some f =>
      obtain ⟨rfl, rfl⟩ := Prod.mk.inj h
      exact ⟨rfl, fun h => (by cases h), fun operation h => (by cases h)⟩

/-- A readable record is read back, with its endpoint. -/
theorem readable_read {t : OperationTable}
    (hrow : t.find operationId = some row) (h : Readable row) :
    ∃ operation, findOperation t operationId = .ok (some operation) ∧
      operation.targets ≠ [] := by
  obtain ⟨htime, htargets⟩ := h
  have hstored : ∃ operation, mapStoredOperation row = .ok operation ∧
      operation.targets ≠ [] := by
    unfold mapStoredOperation Operation.tryFromParts
    rw [if_neg (Int.not_lt.mpr htime)]
    refine ⟨_, rfl, fun hnil => htargets ?_⟩
    have hlength := congrArg List.length hnil
    rw [List.length_insertionSort] at hlength
    exact List.eq_nil_of_length_eq_zero hlength
  obtain ⟨operation, hop, htargets⟩ := hstored
  refine ⟨operation, ?_, htargets⟩
  unfold findOperation
  rw [hrow]
  simp only [hop]
  rfl

theorem onReply_spec : Handled d (onReply d.site d.envelope d.now)
    (fun _ v' => Effect d (Quiet v) v.1.operations v'.1.operations) v := by
  unfold onReply
  cases hid : replyOperationId d.envelope.message with
  | none =>
      have hnot : ∀ operationId target, ¬ d.replies operationId target := by
        rintro operationId target ⟨h, -⟩
        rw [hid] at h
        cases h
      intro v₁ h₁ r v₂ h₂
      subst h₁
      cases h₂
      refine ⟨trivial, Safe.imp (recordReply_keeps d.receiptId) ?_⟩
      intro u v' hkeeps
      exact .of_keeps hkeeps.1 fun _ _ X τ row h => absurd h (hnot X τ)
  | some operationId =>
      cases htarget : replyTarget d.envelope.message with
      | none =>
          refine .of_keeps rfl fun _ _ X τ row h => ?_
          rw [Delivery.replies, htarget] at h
          cases h.2
      | some target =>
          have hreplies : ∀ {X τ}, d.replies X τ ↔
              operationId = X ∧ target = τ := by
            simp [Delivery.replies, hid, htarget]
          intro v₁ h₁ r v₂ h₂
          subst h₁
          refine ⟨trivial, ?_⟩
          obtain ⟨hr, hquiet⟩ := operations_call h₂
          obtain ⟨hops, hread, hfound⟩ := findOperation_call hr
          cases r with
          | error e =>
              refine .of_keeps hops fun hq _ X τ row h hrow hreadable => ?_
              obtain ⟨rfl, rfl⟩ := hreplies.mp h
              obtain ⟨operation, hop, -⟩ := readable_read hrow hreadable
              cases (hread hq.nextFault).trans hop
          | ok found =>
              cases found with
              | none =>
                  refine Safe.imp (recordReply_keeps operationId) ?_
                  intro u v' hkeeps
                  refine .of_keeps (hkeeps.1.trans hops)
                    fun hq _ X τ row h hrow hreadable => ?_
                  obtain ⟨rfl, rfl⟩ := hreplies.mp h
                  obtain ⟨operation, hop, -⟩ := readable_read hrow hreadable
                  cases (hread hq.nextFault).trans hop
              | some operation =>
                  have hfind := hfound operation rfl
                  obtain ⟨row, hrow, hstored⟩ := findOperation_ok hfind
                  -- a record that can be read names its endpoint or not
                  have hnamed : Readable row → operation.targets ≠ [] := by
                    intro hreadable
                    obtain ⟨o, ho, htargets⟩ := readable_read hrow hreadable
                    cases ho.symm.trans hfind
                    exact htargets
                  refine Safe.bindE.mpr
                    (Safe.imp (offerSite_spec operation) ?_)
                  intro r₃ v₃ ⟨hv₃, hcredits, hcredited⟩
                  subst hv₃
                  have hrefused : r₃ ≠ .ok (some d.site) →
                      d.credits = true → ¬ Readable row :=
                    fun hne hd hreadable => hne (hcredited (hnamed hreadable) hd)
                  cases r₃ with
                  | error e =>
                      refine .of_keeps hops fun _ hd X τ row' h hrow' => ?_
                      obtain ⟨rfl, rfl⟩ := hreplies.mp h
                      cases hrow.symm.trans hrow'
                      exact hrefused (by simp) hd
                  | ok expected =>
                      by_cases hsite : expected = some d.site
                      · subst hsite
                        show Handled d (if some d.site ≠ some d.site then _
                          else _) _ v₃
                        rw [if_neg (not_not.mpr rfl)]
                        rw [← hops] at hrow ⊢
                        refine Safe.imp (creditReply_spec hrow hstored) ?_
                        intro r₄ v₄ ⟨hcases, hquiet₄⟩
                        refine ⟨?_, ?_⟩
                        · refine hcases.imp_right fun hcases => ?_
                          exact ⟨operationId, target, row,
                            hreplies.mpr ⟨rfl, rfl⟩, hrow, hcases⟩
                        · intro X τ row' hq _ h hrow' _
                          obtain ⟨rfl, rfl⟩ := hreplies.mp h
                          cases hrow.symm.trans hrow'
                          exact (hquiet₄ (hquiet hq)).2
                      · show Handled d (if expected ≠ some d.site then _
                          else _) _ v₃
                        rw [if_pos hsite]
                        refine Safe.imp (recordReply_keeps operationId) ?_
                        intro u v' hkeeps
                        refine .of_keeps (hkeeps.1.trans hops)
                          fun _ hd X τ row' h hrow' => ?_
                        obtain ⟨rfl, rfl⟩ := hreplies.mp h
                        cases hrow.symm.trans hrow'
                        exact hrefused (by simpa using hsite) hd

theorem handle_effect (w : World) (d : Delivery) :
    Effect d (d.faultless = true) w.operations (handle w d).operations := by
  have h := (onReply_spec (d := d) (v := (w, d.faults))).run
  have hquiet : d.faultless = true → Quiet (w, d.faults) := by
    intro hfaultless f hf
    simpa using List.all_eq_true.mp hfaultless f hf
  exact ⟨h.1, fun X τ row hf => h.2 X τ row (hquiet hf)⟩

end Credit

/-! ## Sequences of deliveries -/

section Sequence

variable {w : World} {d : Delivery} {X : OperationId} {row : OperationRow}

/-- What the handling of a delivery does to one record. -/
theorem handle_row (hrow : w.operations.find X = some row) :
    ∃ row', (handle w d).operations.find X = some row' ∧
      (row' = row ∨ ∃ target, d.replies X target ∧
        (row' = classified target row ∨
          row' = credited target d.now row)) ∧
      ∀ target, d.faultless = true → d.credits = true → d.replies X target →
        Readable row → row' = credited target d.now row := by
  obtain ⟨hcases, hquiet⟩ := handle_effect w d
  have hX : row.id = X := Table.key_of_find hrow
  have hfind : ∀ {row'}, row'.id = X →
      Changed w.operations (handle w d).operations row' →
      (handle w d).operations.find X = some row' := by
    intro row' hid hchanged
    rw [hchanged X, if_pos hid.symm]
  obtain ⟨row', hrow', hmoved⟩ : ∃ row',
      (handle w d).operations.find X = some row' ∧
      (row' = row ∨ ∃ target, d.replies X target ∧
        (row' = classified target row ∨
          row' = credited target d.now row)) := by
    rcases hcases with hsame | ⟨Y, target, row₁, hreplies, hrow₁, hchanged⟩
    · exact ⟨row, (hsame X).trans hrow, .inl rfl⟩
    · have hY : row₁.id = Y := Table.key_of_find hrow₁
      by_cases hXY : X = Y
      · subst hXY
        cases hrow.symm.trans hrow₁
        rcases hchanged with hchanged | hchanged
        · exact ⟨_, hfind (by simp [hX]) hchanged,
            .inr ⟨target, hreplies, .inl rfl⟩⟩
        · exact ⟨_, hfind (by simp [hX]) hchanged,
            .inr ⟨target, hreplies, .inr rfl⟩⟩
      · refine ⟨row, ?_, .inl rfl⟩
        rcases hchanged with hchanged | hchanged
        · rw [hchanged X, if_neg (by simpa [hY] using hXY), hrow]
        · rw [hchanged X, if_neg (by simpa [hY] using hXY), hrow]
  refine ⟨row', hrow', hmoved, fun target hf hc hreplies hreadable => ?_⟩
  have h := hfind (by simp [hX])
    (hquiet X target row hf hc hreplies hrow hreadable)
  exact Option.some.inj (hrow'.symm.trans h)

/-- What replies keep of a record that was created in `first`. -/
structure Tracked (first row : OperationRow) : Prop where
  steady : steady row.state = true
  readable : Readable row
  createdAt : row.createdAt = first.createdAt

/-- A later version of a record. -/
structure Later (row row' : OperationRow) : Prop where
  path : Relation.ReflTransGen Legal row.state row'.state
  kind : row.failureKind = some .capabilityUnsupported →
    row'.failureKind = some .capabilityUnsupported

theorem Later.refl (row : OperationRow) : Later row row := ⟨.refl, id⟩

theorem Later.trans {a b c : OperationRow} (h₁ : Later a b) (h₂ : Later b c) :
    Later a c := ⟨h₁.path.trans h₂.path, h₂.kind ∘ h₁.kind⟩

/-- A terminal state never changes. -/
theorem Later.of_isTerminal {row row' : OperationRow} (h : Later row row')
    (hterm : row.state.isTerminal = true) : row'.state = row.state := by
  rcases h.path.cases_head with heq | ⟨next, hstep, -⟩
  · exact heq.symm
  · exact absurd hterm (by simp [hstep.not_isTerminal])

theorem later_classified (target : ReplyTarget) (row : OperationRow) :
    Later row (classified target row) := by
  refine ⟨by rw [classified_state], fun h => ?_⟩
  unfold classified
  split
  · rfl
  · exact h

theorem later_credited (target : ReplyTarget) (now : Instant)
    (row : OperationRow) : Later row (credited target now row) := by
  refine ⟨?_, fun h => ?_⟩
  · rw [credited_state]
    exact legal_absorb _ _
  · have hkind := (later_classified target row).kind h
    unfold credited
    split
    · exact hkind
    · exact hkind

/-- One delivery moves a record forward and keeps it tracked. -/
theorem handle_tracked {first : OperationRow}
    (hrow : w.operations.find X = some row) (h : Tracked first row)
    (hnow : first.createdAt ≤ d.now) :
    ∃ row', (handle w d).operations.find X = some row' ∧ Later row row' ∧
      Tracked first row' := by
  obtain ⟨row', hrow', hmoved, -⟩ := handle_row (d := d) hrow
  refine ⟨row', hrow', ?_⟩
  obtain ⟨hsteady, hreadable, hcreated⟩ := h
  rcases hmoved with rfl | ⟨target, -, rfl | rfl⟩
  · exact ⟨.refl _, hsteady, hreadable, hcreated⟩
  · refine ⟨later_classified target row, by rwa [classified_state], ?_, ?_⟩
    · unfold classified
      split <;> exact hreadable
    · unfold classified
      split <;> exact hcreated
  · refine ⟨later_credited target d.now row, ?_, ?_, ?_⟩
    · rw [credited_state]
      exact steady_absorb hsteady target
    · unfold credited classified
      split <;> split
      · exact hreadable
      · exact hreadable
      · exact ⟨hcreated ▸ hnow, hreadable.2⟩
      · exact ⟨hcreated ▸ hnow, hreadable.2⟩
    · unfold credited classified
      split <;> split <;> exact hcreated

/-- A run of deliveries moves a record forward and keeps it tracked. -/
theorem handleAll_tracked {first : OperationRow} {ds : List Delivery}
    (hrow : w.operations.find X = some row) (h : Tracked first row)
    (hnow : ∀ d ∈ ds, first.createdAt ≤ d.now) :
    ∃ row', (handleAll w ds).operations.find X = some row' ∧
      Later row row' ∧ Tracked first row' := by
  induction ds generalizing w row with
  | nil => exact ⟨row, hrow, .refl row, h⟩
  | cons d ds ih =>
      obtain ⟨row₁, hrow₁, hlater₁, h₁⟩ := handle_tracked hrow h
        (hnow d List.mem_cons_self)
      obtain ⟨row₂, hrow₂, hlater₂, h₂⟩ := ih hrow₁ h₁
        fun d hd => hnow d (List.mem_cons_of_mem _ hd)
      exact ⟨row₂, hrow₂, hlater₁.trans hlater₂, h₂⟩

/-- A reply that was handled without a fault has left its mark for good. -/
def Settled (target : ReplyTarget) (row : OperationRow) : Prop :=
  absorb row.state target.events = row.state ∧
    classified target row = row

theorem Settled.later {target : ReplyTarget} {row row' : OperationRow}
    (h : Relation.ReflTransGen Legal (targetState target) row.state ∨
      row.state.isTerminal = true)
    (hkind : target = .unsupported →
      row.failureKind = some .capabilityUnsupported)
    (hlater : Later row row') : Settled target row' := by
  refine ⟨?_, ?_⟩
  · rcases h with h | h
    · exact absorb_of_reached (h.trans hlater.path)
    · rw [hlater.of_isTerminal h]
      exact absorb_of_isTerminal h _
  · unfold classified
    split
    · next htarget =>
        have hkind := hlater.kind (hkind htarget)
        rw [← hkind]
    · rfl

/-- What a reply of each kind stands for. -/
theorem targetState_isTerminal {target : ReplyTarget}
    (h : replyTarget d.envelope.message = some target) :
    (targetState target).isTerminal = (d.isRejected || d.isCompleted) := by
  unfold replyTarget at h
  unfold Delivery.isRejected Delivery.isCompleted
  split at h
  · next hm =>
      cases h
      simp only [hm]
      rfl
  · next hm =>
      simp only [hm]
      split at h <;> cases h <;> rfl
  · next hm =>
      cases h
      simp only [hm]
      rfl
  · next hm =>
      simp only [hm]
      split at h
      · cases h
        rfl
      · split at h
        · cases h
          rfl
        · split at h <;> cases h <;> rfl
  · cases h

/-- As long as nothing is rejected and every terminal report names the same
outcome, the record is open or ended in it. -/
theorem handleAll_outcome {first : OperationRow} {ds : List Delivery}
    {outcome : OperationState} (hrow : w.operations.find X = some row)
    (h : Tracked first row)
    (hstate : row.state.isTerminal = false ∨ row.state = outcome)
    (hnow : ∀ d ∈ ds, first.createdAt ≤ d.now)
    (hreplies : ∀ d ∈ ds, ∀ target, d.replies X target →
      d.isRejected = false ∧
        (d.isCompleted = true → targetState target = outcome)) :
    ∀ row', (handleAll w ds).operations.find X = some row' →
      row'.state.isTerminal = false ∨ row'.state = outcome := by
  induction ds generalizing w row with
  | nil =>
      intro row' hrow'
      cases hrow.symm.trans hrow'
      exact hstate
  | cons d ds ih =>
      obtain ⟨row₁, hrow₁, hlater, h₁⟩ := handle_tracked hrow h
        (hnow d List.mem_cons_self)
      refine ih hrow₁ h₁ ?_ (fun d hd => hnow d (List.mem_cons_of_mem _ hd))
        fun d hd => hreplies d (List.mem_cons_of_mem _ hd)
      cases hopen : row.state.isTerminal with
      | true =>
          refine .inr ((hlater.of_isTerminal hopen).trans ?_)
          exact hstate.resolve_left (by simp [hopen])
      | false =>
          obtain ⟨row₂, hrow₂, hmoved, -⟩ := handle_row (d := d) hrow
          cases hrow₁.symm.trans hrow₂
          rcases hmoved with rfl | ⟨target, hd, rfl | rfl⟩
          · exact .inl hopen
          · exact .inl (by rwa [classified_state])
          · obtain ⟨hrejected, hcompleted⟩ :=
              hreplies d List.mem_cons_self target hd
            have hterm := targetState_isTerminal hd.2
            rw [hrejected, Bool.false_or] at hterm
            rw [credited_state]
            cases hc : d.isCompleted with
            | true =>
                rw [hc] at hterm
                exact .inr ((absorb_outcome h.steady hopen hterm).trans
                  (hcompleted hc))
            | false =>
                rw [hc] at hterm
                exact .inl (absorb_open h.steady hopen hterm)

theorem handleAll_append (ds : List Delivery) (d : Delivery) :
    handleAll w (ds ++ [d]) = handle (handleAll w ds) d := by
  simp [handleAll]

theorem stateOf_eq (h : w.operations.find X = some row) :
    stateOf w X = row.state := by
  simp [stateOf, h]

/-- A reply whose target is reached, or that finds the record terminal, leaves
its state alone. -/
theorem handle_absorbed (hrow : w.operations.find X = some row)
    (h : ∀ target, d.replies X target →
      absorb row.state target.events = row.state) :
    stateOf (handle w d) X = stateOf w X := by
  obtain ⟨row', hrow', hmoved, -⟩ := handle_row (d := d) hrow
  rw [stateOf_eq hrow, stateOf_eq hrow']
  rcases hmoved with rfl | ⟨target, hd, rfl | rfl⟩
  · rfl
  · exact classified_state target row
  · rw [credited_state, h target hd]

/-- A settled reply changes no record at all. -/
theorem handle_settled {target : ReplyTarget}
    (hrow : w.operations.find X = some row) (hd : d.replies X target)
    (h : Settled target row) (k : OperationId) :
    (handle w d).operations.find k = w.operations.find k := by
  obtain ⟨hcases, -⟩ := handle_effect w d
  have hcredited : credited target d.now row = row := by
    unfold credited
    rw [if_pos h.1, h.2]
  rcases hcases with hsame | ⟨Y, τ, row₁, hreplies, hrow₁, hchanged⟩
  · exact hsame k
  · cases hd.1.symm.trans hreplies.1
    cases hd.2.symm.trans hreplies.2
    cases hrow.symm.trans hrow₁
    have hself : Changed w.operations (handle w d).operations row := by
      rcases hchanged with hchanged | hchanged
      · rwa [h.2] at hchanged
      · rwa [hcredited] at hchanged
    rw [hself k]
    split
    · next hk => rw [hk, Table.key_of_find hrow, hrow]
    · rfl

/-- A terminal report ends the record, or found it ended. -/
theorem isTerminal_credited {target : ReplyTarget} (now : Instant)
    (h : steady row.state = true)
    (htarget : (targetState target).isTerminal = true) :
    (credited target now row).state.isTerminal = true := by
  rw [credited_state]
  cases hopen : row.state.isTerminal with
  | true => rwa [absorb_of_isTerminal hopen]
  | false => rwa [absorb_outcome h hopen htarget]

/-- What a delivery of the past, handled without a fault, has done for good. -/
theorem settled_of_mem {first final : OperationRow} {ds : List Delivery}
    (hfirst : w.operations.find X = some first) (h : Tracked first first)
    (hnow : ∀ d ∈ ds, first.createdAt ≤ d.now)
    (hfinal : (handleAll w ds).operations.find X = some final) :
    ∀ d ∈ ds, ∀ target, d.replies X target → d.credits = true →
      d.faultless = true → Settled target final ∧
        (d.isCompleted = true → final.state.isTerminal = true) := by
  intro d hd target hreplies hcredits hfaultless
  obtain ⟨before, after, rfl⟩ := List.append_of_mem hd
  have hbefore : ∀ d ∈ before, first.createdAt ≤ d.now := fun d hd =>
    hnow d (List.mem_append_left _ hd)
  have hafter : ∀ d ∈ after, first.createdAt ≤ d.now := fun d hd =>
    hnow d (List.mem_append_right _ (List.mem_cons_of_mem _ hd))
  obtain ⟨row₁, hrow₁, -, h₁⟩ := handleAll_tracked hfirst h hbefore
  obtain ⟨row₂, hrow₂, -, hcredited⟩ := handle_row (d := d) hrow₁
  cases hcredited target hfaultless hcredits hreplies h₁.readable
  obtain ⟨row₃, hrow₃, -, h₃⟩ := handle_tracked hrow₁ h₁ (hnow d hd)
  cases hrow₂.symm.trans hrow₃
  obtain ⟨row₄, hrow₄, hlater₄, -⟩ := handleAll_tracked hrow₂ h₃ hafter
  have hsplit : handleAll w (before ++ d :: after) =
      handleAll (handle (handleAll w before) d) after := by
    simp [handleAll]
  rw [hsplit] at hfinal
  cases hfinal.symm.trans hrow₄
  have hreached := reached_absorb h₁.steady target
  rw [← credited_state target d.now row₁] at hreached
  refine ⟨.later hreached ?_ hlater₄, fun hcompleted => ?_⟩
  · intro hunsupported
    subst hunsupported
    unfold credited classified
    split <;> rfl
  · have htarget := targetState_isTerminal hreplies.2
    rw [hcompleted, Bool.or_true] at htarget
    have hterm := isTerminal_credited d.now h₁.steady htarget
    rw [hlater₄.of_isTerminal hterm]
    exact hterm

end Sequence

/-- A fresh record under any replies, none of them received before the record
was created. Each delivery moves its state along the matrix; a reply whose
target is reached or passed leaves the state alone, and a reply that was once
handled without a fault changes nothing when it comes again; a terminal state
stays; and if one completed reply is handled without a fault, nothing was
rejected and no completed reply names another outcome, then the record has
ended in that outcome. -/
theorem replies_converge {w : World} {X : OperationId} {first : OperationRow}
    (hfirst : w.operations.find X = some first)
    (hqueued : first.state = .queued) (hreadable : Readable first)
    {ds : List Delivery} (hnow : ∀ d ∈ ds, first.createdAt ≤ d.now) :
    (∀ d, Relation.ReflTransGen Legal (stateOf (handleAll w ds) X)
      (stateOf (handleAll w (ds ++ [d])) X)) ∧
    (∀ d target, d.replies X target →
      Relation.ReflTransGen Legal (targetState target)
        (stateOf (handleAll w ds) X) →
      stateOf (handleAll w (ds ++ [d])) X = stateOf (handleAll w ds) X) ∧
    (∀ d ∈ ds, ∀ target, d.replies X target → d.credits = true →
      d.faultless = true → ∀ k,
        (handleAll w (ds ++ [d])).operations.find k =
          (handleAll w ds).operations.find k) ∧
    ((stateOf (handleAll w ds) X).isTerminal = true → ∀ d,
      stateOf (handleAll w (ds ++ [d])) X = stateOf (handleAll w ds) X) ∧
    (∀ d ∈ ds, ∀ target, d.replies X target → d.isCompleted = true →
      d.credits = true → d.faultless = true →
      (∀ d' ∈ ds, ∀ target', d'.replies X target' → d'.isRejected = false ∧
        (d'.isCompleted = true → targetState target' = targetState target)) →
      stateOf (handleAll w ds) X = targetState target) := by
  have htracked : Tracked first first := ⟨by rw [hqueued]; rfl, hreadable, rfl⟩
  obtain ⟨row, hrow, hlater, h⟩ := handleAll_tracked hfirst htracked hnow
  have hpast := settled_of_mem hfirst htracked hnow hrow
  refine ⟨fun d => ?_, fun d target hd hreached => ?_, ?_, fun hterm d => ?_,
    ?_⟩
  · obtain ⟨row', hrow', hmoved, -⟩ := handle_row (d := d) hrow
    rw [handleAll_append, stateOf_eq hrow, stateOf_eq hrow']
    rcases hmoved with rfl | ⟨target, -, rfl | rfl⟩
    · exact .refl
    · exact (later_classified target row).path
    · exact (later_credited target d.now row).path
  · rw [handleAll_append]
    rw [stateOf_eq hrow] at hreached
    refine handle_absorbed hrow fun target' hd' => ?_
    cases hd.2.symm.trans hd'.2
    exact absorb_of_reached hreached
  · intro d hd target hreplies hcredits hfaultless k
    rw [handleAll_append]
    exact handle_settled hrow hreplies
      (hpast d hd target hreplies hcredits hfaultless).1 k
  · rw [handleAll_append]
    rw [stateOf_eq hrow] at hterm
    exact handle_absorbed hrow fun target _ => absorb_of_isTerminal hterm _
  · intro d hd target hreplies hcompleted hcredits hfaultless hall
    have hterm := (hpast d hd target hreplies hcredits hfaultless).2 hcompleted
    have houtcome := handleAll_outcome hfirst htracked
      (.inl (by rw [hqueued]; rfl)) hnow hall row hrow
    rw [stateOf_eq hrow]
    exact houtcome.resolve_left (by simp [hterm])

/-- A fresh record and its addressed site's replies. -/
def freshWorld : World :=
  ⟨Table.empty.insertNew (rowOf (.new ⟨1⟩ .center [⟨⟨2⟩, ⟨9⟩⟩]
    (.system (.reset "On")) 100) none), .empty⟩

def replyAt (now : Instant) (message : EnvelopeMessage) : Delivery :=
  ⟨⟨5⟩, ⟨0, 0, some message⟩, now, .ok (some ⟨some ⟨5⟩⟩), .ok none, ⟨0⟩, []⟩

def completedAt (now : Instant) (succeeded : Bool) (summary : String) :
    Delivery :=
  replyAt now (.operationCompleted (some ⟨1⟩) succeeded summary)

/-- The acceptance is lost, the report comes twice and the progress last. -/
def reordered : List Delivery :=
  [completedAt 300 true "succeeded", completedAt 310 true "succeeded",
    replyAt 320 (.operationProgress (some ⟨1⟩) "waiting-remote" "")]

theorem replies_converge_reordered :
    freshWorld.operations.find ⟨1⟩ = some (rowOf (.new ⟨1⟩ .center
      [⟨⟨2⟩, ⟨9⟩⟩] (.system (.reset "On")) 100) none) ∧
    (∀ d ∈ reordered, (100 : Instant) ≤ d.now) ∧
    stateOf (handleAll freshWorld reordered) ⟨1⟩ = .succeeded := by
  have hfirst : freshWorld.operations.find ⟨1⟩ = some (rowOf (.new ⟨1⟩ .center
      [⟨⟨2⟩, ⟨9⟩⟩] (.system (.reset "On")) 100) none) := by decide
  have hnow : ∀ d ∈ reordered, (100 : Instant) ≤ d.now := by
    simp [reordered, completedAt, replyAt]
  obtain ⟨-, -, -, -, hends⟩ :=
    replies_converge hfirst rfl ⟨le_rfl, by simp [rowOf, Operation.new]⟩ hnow
  refine ⟨hfirst, hnow, hends (completedAt 300 true "succeeded")
    (by simp [reordered]) .succeeded ⟨rfl, rfl⟩ rfl rfl rfl ?_⟩
  intro d hd target hreplies
  simp only [reordered, List.mem_cons, List.not_mem_nil, or_false] at hd
  rcases hd with rfl | rfl | rfl
  · cases hreplies.2
    exact ⟨rfl, fun _ => rfl⟩
  · cases hreplies.2
    exact ⟨rfl, fun _ => rfl⟩
  · exact ⟨rfl, fun h => (by cases h)⟩

/-- Two terminal reports that disagree: the first one decides, so a sequence
can hold a completed reply whose outcome the record does not end in. -/
theorem conflicting_completions :
    ¬ ∀ (w : World) (X : OperationId) (first : OperationRow)
        (ds : List Delivery), w.operations.find X = some first →
        first.state = .queued → Readable first →
        (∀ d ∈ ds, first.createdAt ≤ d.now ∧ d.credits = true ∧
          d.faultless = true ∧ d.isRejected = false) →
        ∀ d ∈ ds, ∀ target, d.replies X target → d.isCompleted = true →
          stateOf (handleAll w ds) X = targetState target := by
  intro hclaim
  have h := hclaim freshWorld ⟨1⟩ _
    [completedAt 300 true "succeeded", completedAt 310 false "failed"]
    rfl rfl ⟨le_rfl, by simp [rowOf, Operation.new]⟩
    (by simp [completedAt, replyAt, Delivery.credits, Delivery.faultless,
      Delivery.isRejected, rowOf, Operation.new])
    (completedAt 310 false "failed") (by simp) .failed ⟨rfl, rfl⟩ rfl
  exact absurd h (by decide +kernel)

end Rutilus.Proofs.ReplyConvergence
