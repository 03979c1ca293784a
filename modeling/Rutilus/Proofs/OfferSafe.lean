import Rutilus.Proofs.OfferViews

/-!
# The sync loop keeps its contract

`handleOffer` and `reportCenterOperations` are followed call by call against
the relations of `OfferInv`. Most calls leave the views alone; those are dealt
with together. What remains are the four writes: the new entry, the operation,
a reply, and the advance of the entry.
-/

namespace Rutilus.Proofs.Offer

open Rutilus.Domain Rutilus.Lib Rutilus.Store
open Rutilus.App.CenterSync Rutilus.App.SyncSite

variable {c : Prop} {offer : Option OperationOffer} {reads : Reads}
  {h : Option OperationId} {α β : Type}

/-- A program under the contract of the loop. -/
abbrev Keeps (c : Prop) (offer : Option OperationOffer) (reads : Reads)
    (h : Option OperationId) (p : Prog sync α) (Q : α → Views → Prop)
    (v : Views) : Prop :=
  Safe (Sem offer reads) (Env c h) (fun _ => Own c) p Q v

/-- Nothing is claimed about a result. -/
abbrev Any : α → Views → Prop := fun _ _ => True

/-! ## Programs that leave the views alone -/

/-- No call of the program moves a view; its result satisfies `Q`. -/
def Quiet (offer : Option OperationOffer) (reads : Reads) (p : Prog sync α)
    (Q : α → Prop) : Prop :=
  ∀ v, Safe (Sem offer reads) (fun _ _ => True) (fun _ v v' => v' = v) p
    (fun a _ => Q a) v

/-- What the others keep, a quiet program keeps. -/
theorem Quiet.keeps {p : Prog sync α} {Q : α → Prop} {J : Views → Prop}
    {v : Views} (hp : Quiet offer reads p Q)
    (hJ : ∀ v v', Env c h v v' → J v → J v') (hv : J v) :
    Keeps c offer reads h p (fun a v => Q a ∧ J v) v := by
  have hp : Safe (Sem offer reads) (Env c h) (fun _ v v' => v' = v) p
      (fun a _ => Q a) v :=
    (hp v).mono (fun _ _ _ => trivial) (fun _ _ _ hg => hg)
  refine (hp.keeps hJ ?_ hv).mono (fun _ _ hR => hR) ?_
  · rintro q a b rfl ha
    exact ha
  · rintro q a b rfl
    exact .refl _

/-- Sequencing of quiet programs; only a result is handed on. -/
theorem Quiet.bind {p : M α} {f : α → M β} {P : α → Prop}
    {Q : Except CenterSyncError β → Prop}
    (hp : Quiet offer reads p.run fun r => ∀ a, r = .ok a → P a)
    (hf : ∀ a, P a → Quiet offer reads (f a).run Q)
    (he : ∀ e, Q (.error e)) : Quiet offer reads (p >>= f).run Q := by
  intro v
  refine Safe.bindE.mpr ((hp v).imp ?_)
  rintro (e | a) v hr
  · exact he e
  · exact hf a (hr a rfl) v

theorem Quiet.pure {Q : Except CenterSyncError α → Prop} {a : α}
    (ha : Q (.ok a)) : Quiet offer reads (pure a : M α).run Q :=
  fun _ => ha

theorem Quiet.orThrow {ε : Type} {p : Prog sync (Except ε α)}
    {wrap : ε → CenterSyncError} {P : α → Prop}
    (hp : Quiet offer reads p fun r => ∀ a, r = .ok a → P a) :
    Quiet offer reads (orThrow p wrap).run fun r => ∀ a, r = .ok a → P a := by
  intro v
  refine Safe.orThrow.mpr ((hp v).imp ?_)
  rintro (e | a) v hr b hb
  · cases hb
  · cases hb
    exact hr a rfl

/-- A read of the rechecks. -/
theorem quiet_recheck (q : RecheckReq) :
    Quiet offer reads (call (.recheck q)) fun r => r = reads.answer q :=
  fun _ _ _ _ _ hs => hs

theorem quiet_findOperation (X : OperationId) :
    Quiet offer reads (findOperation X).run fun _ => True := by
  intro v v₁ _ r v₂ hs
  exact ⟨hs.1, trivial⟩

theorem quiet_insertProgress (X : OperationId)
    (state : Option OperationState) :
    Quiet offer reads (insertProgress X state).run fun _ => True := by
  intro v v₁ _ r v₂ hs
  exact ⟨hs, trivial⟩

theorem quiet_forgetProgress (X : OperationId) :
    Quiet offer reads (forgetProgress X).run fun _ => True := by
  intro v v₁ _ r v₂ hs
  exact ⟨hs, trivial⟩

/-- A message that is no reply to an offer. -/
def IsQuiet (message : EnvelopeMessage) : Prop :=
  ∀ X (v : View), v.queue message X = v

theorem quiet_enqueue {message : EnvelopeMessage} (hm : IsQuiet message)
    (instanceId : InstanceId) :
    Quiet offer reads (enqueueOutboxEntry instanceId message).run
      fun _ => True := by
  intro v v₁ _ r v₂ hs
  refine ⟨hs, ?_⟩
  intro v₃ _ r v₄ hs
  refine ⟨?_, trivial⟩
  cases r with
  | error e => exact hs
  | ok entry =>
      refine hs.trans ?_
      funext X
      exact hm X (v₃ X)

theorem quiet_completedSummary (operation : Operation) :
    Quiet offer reads (completedSummary operation).run fun _ => True := by
  unfold completedSummary
  split
  · intro v
    trivial
  · intro v v₁ _ r v₂ hs
    refine ⟨hs, ?_⟩
    cases r with
    | error e => trivial
    | ok kind =>
        cases kind with
        | none => trivial
        | some kind => trivial

theorem quiet_enqueueCompleted (instanceId : InstanceId)
    (operation : Operation) :
    Quiet offer reads (enqueueCompleted instanceId operation).run
      fun _ => True := by
  intro v
  refine Safe.bindE.mpr ((quiet_completedSummary operation v).imp ?_)
  rintro (e | summary) v -
  · trivial
  · refine Safe.bindE.mpr ((quiet_enqueue ?_ instanceId v).imp ?_)
    · intro X v
      rfl
    · rintro (e | entry) v -
      · trivial
      · trivial

theorem quiet_enqueueProgress (instanceId : InstanceId)
    (operation : Operation) (detail : String) :
    Quiet offer reads (enqueueProgress instanceId operation detail).run
      fun _ => True := by
  intro v
  refine Safe.bindE.mpr ((quiet_enqueue ?_ instanceId v).imp ?_)
  · intro X v
    rfl
  · rintro (e | entry) v -
    · trivial
    · trivial

/-- A decision that accepts nothing but an offer all of whose rechecks pass. -/
def Passed (reads : Reads) (offered : OperationOffer) (now : Instant)
    (r : Except CenterSyncError OfferDecision) : Prop :=
  ∀ command, r = .ok (.accept command) →
    offered.command = some command ∧ reads.pass offered now = true

theorem passed_error (offered : OperationOffer) (now : Instant)
    (e : CenterSyncError) : Passed reads offered now (.error e) := by
  intro command hc
  cases hc

theorem quiet_reject {offered : OperationOffer} {now : Instant}
    {reason : OperationRejectedReason} {detail : String} :
    Quiet offer reads (pure (.reject reason detail) : M OfferDecision).run
      (Passed reads offered now) := by
  refine .pure fun command hc => ?_
  cases hc

/-- The rechecks only read, and they accept only what passes all of them. -/
theorem quiet_decideOffer {offered : OperationOffer} {instanceId : InstanceId}
    {X : OperationId} {endpointId : EndpointId} {received : Envelope}
    {now : Instant} (hendpoint : offered.endpointId = some endpointId) :
    Quiet offer reads (decideOffer offered
        (entryOf instanceId X offered received now) endpointId now).run
      (Passed reads offered now) := by
  unfold decideOffer
  refine .bind (P := fun endpoint => reads.endpoint = .ok endpoint)
    (.orThrow fun v => (quiet_recheck (.findEndpoint endpointId) v).imp
      fun r _ hr a ha => hr.symm.trans ha) ?_ (passed_error offered now)
  intro endpoint he
  cases endpoint with
  | none => exact quiet_reject
  | some endpoint =>
  cases hcmd : offered.command with
  | none => exact quiet_reject
  | some command =>
  refine .bind (P := fun entries => reads.capabilities = .ok entries)
    (.orThrow fun v => (quiet_recheck (.capabilities endpointId) v).imp
      fun r _ hr a ha => hr.symm.trans ha) ?_ (passed_error offered now)
  intro entries hcap
  by_cases husable : capabilityUsable command entries = true
  case neg =>
    rw [if_pos (by simpa using husable)]
    exact quiet_reject
  rw [if_neg (by simp [husable])]
  refine .bind (P := fun credentials => reads.credentials = .ok credentials)
    (.orThrow fun v => (quiet_recheck .listCredentials v).imp
      fun r _ hr a ha => hr.symm.trans ha) ?_ (passed_error offered now)
  intro credentials hcred
  by_cases hstored : credentials.contains endpoint.credentialId = true
  case neg =>
    rw [if_pos (by simpa using hstored)]
    exact quiet_reject
  rw [if_neg (by rw [hstored]; decide)]
  refine .bind (P := fun items => reads.inventory = .ok items)
    (.orThrow fun v => (quiet_recheck .inventory v).imp
      fun r _ hr a ha => hr.symm.trans ha) ?_ (passed_error offered now)
  intro items hitems
  by_cases hknown : targetKnown offered.target endpointId items = true
  case neg =>
    rw [if_pos (by simpa using hknown)]
    exact quiet_reject
  rw [if_neg (by simp [hknown])]
  split
  · exact quiet_reject
  · next hlive =>
      refine .pure fun command' hc => ?_
      cases hc
      refine ⟨hcmd, ?_⟩
      have hlive : ¬ offered.expiresAt.getD (now - second) < now :=
        fun hlt => hlive (decide_eq_true hlt)
      simp only [Reads.pass, he, hendpoint, hcmd, hcap, hcred, hitems, husable,
        hstored, hknown, Bool.and_self, Bool.true_and]
      rw [decide_eq_false hlive]
      rfl

/-! ## The writes of a handled offer -/

/-- The invariant holds of every id, and the view of one of them is known. -/
structure At (c : Prop) (X : OperationId) (x : View) (v : Views) : Prop where
  inv : ∀ k, (v k).Inv c
  view : v X = x

variable {X : OperationId} {x : View} {v : Views}

theorem At.env {v' : Views} (hv : At c X x v) (he : Env c (some X) v v') :
    At c X x v' :=
  ⟨fun k => he.inv k (hv.inv k), (he.handled X rfl).trans hv.view⟩

theorem At.self (hv : At c X x v) : x.Inv c := hv.view ▸ hv.inv X

/-- Sequencing; only a result is handed on. -/
theorem Keeps.bind {p : M α} {f : α → M β} {P : α → Views → Prop}
    (hp : Keeps c offer reads h p.run (fun r v => ∀ a, r = .ok a → P a v) v)
    (hf : ∀ a v, P a v → Keeps c offer reads h (f a).run Any v) :
    Keeps c offer reads h (p >>= f).run Any v := by
  refine Safe.bindE.mpr (hp.imp ?_)
  rintro (e | a) v hr
  · trivial
  · exact hf a v (hr a rfl)

/-- A quiet program before another one. -/
theorem Quiet.then {p : M α} {f : α → M β}
    {Q : Except CenterSyncError α → Prop} {J : Views → Prop}
    (hp : Quiet offer reads p.run Q)
    (hJ : ∀ v v', Env c h v v' → J v → J v') (hv : J v)
    (hf : ∀ a v, Q (.ok a) → J v → Keeps c offer reads h (f a).run Any v) :
    Keeps c offer reads h (p >>= f).run Any v := by
  refine Keeps.bind (P := fun a v => Q (.ok a) ∧ J v)
    ((hp.keeps hJ hv).imp ?_) fun a v hr => hf a v hr.1 hr.2
  rintro r v hr a rfl
  exact hr

/-- A quiet program at the end. -/
theorem Quiet.last {p : M α} {Q : Except CenterSyncError α → Prop}
    (hp : Quiet offer reads p.run Q) : Keeps c offer reads h p.run Any v :=
  (hp.keeps (J := fun _ => True) (fun _ _ _ _ => trivial) trivial).imp
    fun _ _ _ => trivial

/-- A message that is about no other id. -/
def About (X : OperationId) (message : EnvelopeMessage) : Prop :=
  ∀ k, k ≠ X → ∀ y : View, y.MayQueue message k

theorem keeps_enqueue {message : EnvelopeMessage} {instanceId : InstanceId}
    (ha : About X message) (hx : x.MayQueue message X) (hv : At c X x v) :
    Keeps c offer reads (some X) (enqueueOutboxEntry instanceId message).run
      (fun r v => ∀ a, r = .ok a → At c X (x.queue message X) v) v := by
  intro v₁ h₁ r v₂ hs
  cases hs
  refine ⟨.refl _, ?_⟩
  intro v₃ h₃ r v₄ hs
  have hv := (hv.env h₁).env h₃
  cases r with
  | error e =>
      cases hs
      exact ⟨.refl _, fun a ha => by cases ha⟩
  | ok entry =>
      cases hs
      have hown : Own c v₃ fun k => (v₃ k).queue message k := by
        refine .queue fun k => ?_
        by_cases hk : k = X
        · subst hk
          rw [hv.view]
          exact hx
        · exact ha k hk _
      exact ⟨hown, fun _ _ => ⟨fun k => hown.inv k (hv.inv k),
        by rw [hv.view]⟩⟩

theorem keeps_advance {event : InboxEvent}
    (hx : x.inbox = some event.fromState ∨ x.inbox = some event.toState →
      (x.setInbox event.toState).Inv c) (hv : At c X x v) :
    Keeps c offer reads (some X) (advance X event).run
      (fun r v => ∀ a, r = .ok a → At c X (x.setInbox event.toState) v) v := by
  intro v₁ h₁ r v₂ hs
  have hv := hv.env h₁
  cases r with
  | error e =>
      cases hs
      exact ⟨.refl _, fun a ha => by cases ha⟩
  | ok outcome =>
      obtain ⟨hfrom, rfl⟩ := hs
      rw [hv.view] at hfrom
      have hown : Own c v₁ (v₁.update X (View.setInbox event.toState)) := by
        refine .update (fun _ => ?_) .setInbox
        rw [hv.view]
        exact hx hfrom
      exact ⟨hown, fun _ _ => ⟨fun k => hown.inv k (hv.inv k),
        by rw [Views.update_same, hv.view]⟩⟩

theorem keeps_create {offered : OperationOffer} {operation : Operation}
    (hid : operation.id = X) (hop : x.op = none)
    (hin : x.inbox = some .received) (hsource : operation.source = .center)
    (hfrom : Origin.From ⟨operation.source, operation.targets,
      operation.command⟩ offered) (hc : c → x.rejections = 0)
    (hv : At c X x v) :
    Keeps c (some offered) reads (some X) (orThrow
        (call (.operations (.createOperation operation))) .operation :
          M Unit).run
      (fun r v => ∀ a, r = .ok a → At c X (x.create ⟨operation.source,
        operation.targets, operation.command⟩ (some offered)) v) v := by
  intro v₁ h₁ r v₂ hs
  have hv := hv.env h₁
  cases r with
  | error e =>
      cases hs
      exact ⟨.refl _, fun a ha => by cases ha⟩
  | ok u =>
      subst hid
      cases hs
      have hown : Own c v₁ (v₁.update operation.id (View.create
          ⟨operation.source, operation.targets, operation.command⟩
          (some offered))) := by
        refine .update (fun _ => ?_) .create
        rw [hv.view]
        exact hv.self.create hop hin hsource hfrom hc
      exact ⟨hown, fun _ _ => ⟨fun k => hown.inv k (hv.inv k),
        by rw [Views.update_same, hv.view]⟩⟩

/-! ## Handling an offer -/

section Handling

variable {offered : OperationOffer} {instanceId : InstanceId}
  {endpointId : EndpointId} {received : Envelope} {now : Instant}

theorem keeps_enqueueRejected {reason : OperationRejectedReason}
    {detail : String} (hop : x.op = none) (hin : x.inbox ≠ none)
    (hv : At c X x v) :
    Keeps c offer reads (some X) (enqueueOutboxEntry instanceId
        (.operationRejected (some X) reason detail)).run
      (fun r v => ∀ a, r = .ok a →
        At c X { x with rejections := x.rejections + 1 } v) v := by
  have hqueue : x.queue (.operationRejected (some X) reason detail) X =
      { x with rejections := x.rejections + 1 } := if_pos rfl
  rw [← hqueue]
  refine keeps_enqueue ?_ (fun _ => ⟨hop, hin⟩) hv
  intro k hk y hid
  exact absurd (Option.some.inj hid).symm hk

theorem keeps_enqueueAccepted {acceptedAt : Instant} (hop : x.op ≠ none)
    (hin : x.inbox ≠ none) (hv : At c X x v) :
    Keeps c offer reads (some X) (enqueueOutboxEntry instanceId
        (.operationAccepted (some X) acceptedAt)).run
      (fun r v => ∀ a, r = .ok a →
        At c X { x with acceptances := x.acceptances + 1 } v) v := by
  have hqueue : x.queue (.operationAccepted (some X) acceptedAt) X =
      { x with acceptances := x.acceptances + 1 } := if_pos rfl
  rw [← hqueue]
  refine keeps_enqueue ?_ (fun _ => ⟨hop, hin⟩) hv
  intro k hk y hid
  exact absurd (Option.some.inj hid).symm hk

/-- The decision of an offer whose entry is received and which has no
operation. -/
theorem keeps_decideAndRecord (hendpoint : offered.endpointId = some endpointId)
    (hop : x.op = none) (hin : x.inbox = some .received)
    (hc : c → reads.pass offered now = true → x.rejections = 0)
    (hv : At c X x v) :
    Keeps c (some offered) reads (some X) (decideAndRecord instanceId offered
      (entryOf instanceId X offered received now) endpointId now).run Any v := by
  have hin_ne : x.inbox ≠ none := by
    rw [hin]
    exact Option.some_ne_none _
  refine (quiet_decideOffer hendpoint).then (fun _ _ he hv => hv.env he) hv ?_
  intro decision v hpass hv
  cases decision with
  | accept command =>
      obtain ⟨hcmd, hpass⟩ := hpass command rfl
      refine Quiet.then (Q := fun _ => True)
        (fun v v₁ _ r v₂ hs => ⟨hs.1, trivial⟩) (fun _ _ he hv => hv.env he)
        hv ?_
      intro targetId v _ hv
      refine Keeps.bind (keeps_create rfl hop hin rfl
        ⟨hcmd, ⟨targetId, endpointId⟩, rfl, hendpoint⟩
        (fun hcond => hc hcond hpass) hv) ?_
      intro _ v hv
      refine (quiet_insertProgress X none).then (fun _ _ he hv => hv.env he)
        hv ?_
      intro _ v _ hv
      have hop' : (x.create ⟨.center, [⟨targetId, endpointId⟩], command⟩
          (some offered)).op ≠ none := Option.some_ne_none _
      refine Keeps.bind (keeps_enqueueAccepted hop' hin_ne hv) ?_
      intro _ v hv
      refine Keeps.bind (keeps_advance
        (fun _ => hv.self.advance hop' hin_ne (by decide)) hv) ?_
      intro _ v _
      trivial
  | reject reason detail =>
      refine Keeps.bind (keeps_enqueueRejected hop hin_ne hv) ?_
      intro _ v hv
      refine Keeps.bind (keeps_advance (fun _ => hv.self.reject hop) hv) ?_
      intro _ v _
      trivial

/-- A duplicate while the entry is open. -/
theorem keeps_replyToInProgressDuplicate
    (hendpoint : offered.endpointId = some endpointId)
    (hin : x.inbox = some .received ∨ x.inbox = some .accepted)
    (hc : c → x.inbox = some .received → reads.pass offered now = true →
      x.rejections = 0) (hv : At c X x v) :
    Keeps c (some offered) reads (some X) (replyToInProgressDuplicate
      instanceId offered (entryOf instanceId X offered received now) endpointId
      now).run Any v := by
  have hin_ne : x.inbox ≠ none := by
    rcases hin with hin | hin <;> rw [hin] <;> exact Option.some_ne_none _
  refine Keeps.bind (P := fun found v => At c X x v ∧
    (found = none → x.op = none) ∧ (found ≠ none → x.op ≠ none)) ?_ ?_
  · intro v₁ h₁ r v₂ hs
    obtain ⟨rfl, hr⟩ := hs
    have hv := hv.env h₁
    refine ⟨.refl _, fun found hfound => ⟨hv, ?_⟩⟩
    cases r with
    | error e => cases hfound
    | ok operation =>
        obtain rfl : operation = found := by
          cases hfound
          rfl
        rw [← hv.view]
        cases operation with
        | none => exact ⟨fun _ => hr, fun hne => absurd rfl hne⟩
        | some operation =>
            exact ⟨fun hnone => absurd hnone (Option.some_ne_none _),
              fun _ => hr.2⟩
  · rintro found v ⟨hv, hnone, hsome⟩
    cases found with
    | none =>
        have hop := hnone rfl
        have hreceived : x.inbox = some .received := by
          refine hin.resolve_right fun haccepted => ?_
          exact hv.self.executed (.inl haccepted) hop
        exact keeps_decideAndRecord hendpoint hop hreceived
          (fun hcond => hc hcond hreceived) hv
    | some operation =>
        have hop := hsome (Option.some_ne_none _)
        show Keeps c (some offered) reads (some X) (ExceptT.run (ite _ _ _)) Any v
        split
        · refine (quiet_enqueueCompleted instanceId operation).then
            (fun _ _ he hv => hv.env he) hv ?_
          intro _ v _ hv
          refine Keeps.bind (keeps_advance
            (fun _ => hv.self.advance hop hin_ne (by decide)) hv) ?_
          intro _ v hv
          refine Keeps.bind (keeps_advance (fun _ => hv.self.advance hop
            (Option.some_ne_none _) (by decide)) hv) ?_
          intro _ v hv
          refine (quiet_forgetProgress X).then (fun _ _ he hv => hv.env he)
            hv ?_
          intro _ v _ _
          trivial
        · refine (quiet_enqueueProgress instanceId operation _).then
            (fun _ _ he hv => hv.env he) hv ?_
          intro _ v _ hv
          refine Keeps.bind (keeps_advance
            (fun _ => hv.self.advance hop hin_ne (by decide)) hv) ?_
          intro _ v hv
          refine (quiet_insertProgress X _).then (fun _ _ he hv => hv.env he)
            hv ?_
          intro _ v _ _
          trivial

/-- A duplicate after the entry was closed. -/
theorem keeps_replyToResolvedDuplicate
    (hendpoint : offered.endpointId = some endpointId)
    {state : InboxEntryState} (hin : x.inbox = some state)
    (hc : c → x.inbox = some .received → reads.pass offered now = true →
      x.rejections = 0) (hv : At c X x v) :
    Keeps c (some offered) reads (some X) (replyToResolvedDuplicate instanceId
      offered (entryOf instanceId X offered received now) endpointId state
      now).run Any v := by
  have hin_ne : x.inbox ≠ none := by
    rw [hin]
    exact Option.some_ne_none _
  cases state with
  | rejected =>
      refine (quiet_decideOffer hendpoint).then (fun _ _ he hv => hv.env he)
        hv ?_
      intro decision v _ hv
      refine Keeps.bind (keeps_enqueueRejected (hv.self.rejected hin) hin_ne
        hv) ?_
      intro _ v _
      trivial
  | completed =>
      refine (quiet_findOperation X).then (J := fun _ => True)
        (fun _ _ _ _ => trivial) trivial ?_
      intro found v _ _
      cases found with
      | none =>
          refine (quiet_enqueue ?_ instanceId).then (J := fun _ => True)
            (fun _ _ _ _ => trivial) trivial ?_
          · intro k y
            rfl
          · intro _ v _ _
            trivial
      | some operation =>
          refine (quiet_enqueueCompleted instanceId operation).then
            (J := fun _ => True) (fun _ _ _ _ => trivial) trivial ?_
          intro _ v _ _
          trivial
  | received => exact keeps_replyToInProgressDuplicate hendpoint (.inl hin) hc hv
  | accepted => exact keeps_replyToInProgressDuplicate hendpoint (.inr hin) hc hv

/-- The insert finds a view and leaves an entry. -/
theorem keeps_insert {entry : InboxEntry} (hid : entry.operationId = X)
    (hstate : entry.state = .received)
    (hown : ∀ y, x.op = some y → y.source = .center) (hv : At c X x v) :
    Keeps c offer reads (some X) (orThrow (call (.inbox (.insert entry)))
        .inbox : M InboxInsertOutcome).run
      (fun r v => ∀ outcome, r = .ok outcome →
        outcome = insertOutcome x.inbox ∧
          At c X (x.setInbox (x.inbox.getD .received)) v) v := by
  intro v₁ h₁ r v₂ hs
  have hv := hv.env h₁
  cases r with
  | error e =>
      cases hs
      exact ⟨.refl _, fun a ha => by cases ha⟩
  | ok outcome =>
      subst hid
      obtain ⟨rfl, rfl⟩ := hs hstate
      have hmove : Own c v₁ (v₁.update entry.operationId fun x =>
          x.setInbox (x.inbox.getD .received)) := by
        refine .update (fun h => h.insert ?_) .setInbox
        rw [hv.view]
        exact hown
      refine ⟨hmove, fun outcome hout => ?_⟩
      cases hout
      refine ⟨by rw [hv.view], fun k => hmove.inv k (hv.inv k), ?_⟩
      rw [Views.update_same, hv.view]

theorem keeps_handleOffer (hinv : ∀ k, (v k).Inv c)
    (hown : ∀ X, offered.operationId = some X →
      ∀ y, (v X).op = some y → y.source = .center)
    (hc : ∀ X, offered.operationId = some X → c →
      (v X).inbox = some .received → reads.pass offered now = true →
      (v X).rejections = 0) :
    Keeps c (some offered) reads offered.operationId
      (handleOffer instanceId offered received now).run Any v := by
  unfold handleOffer
  split
  · trivial
  cases hid : offered.operationId with
  | none => trivial
  | some X =>
  cases hendpoint : offered.endpointId with
  | none => trivial
  | some endpointId =>
  have hcenter := hown X hid
  have hquiet := hc X hid
  have hX := hinv X
  refine Keeps.bind (keeps_insert rfl rfl hcenter ⟨hinv, rfl⟩) ?_
  generalize v X = x at hX hcenter hquiet
  rintro outcome v ⟨rfl, hv⟩
  cases hin : x.inbox with
  | none =>
      have hop : x.op = none := by
        by_contra hop
        obtain ⟨y, hy⟩ := Option.ne_none_iff_exists'.mp hop
        exact (hX.taken y hy (hcenter y hy)).1 hin
      rw [hin] at hv
      exact keeps_decideAndRecord (x := x.setInbox .received) hendpoint hop rfl
        (fun _ _ => (hX.silent hin).1) hv
  | some state =>
      rw [hin] at hv hquiet
      have hquiet' : c → (x.setInbox state).inbox = some .received →
          reads.pass offered now = true →
          (x.setInbox state).rejections = 0 := hquiet
      cases state with
      | received =>
          exact keeps_replyToInProgressDuplicate hendpoint (.inl rfl) hquiet' hv
      | accepted =>
          exact keeps_replyToInProgressDuplicate hendpoint (.inr rfl) hquiet' hv
      | rejected =>
          exact keeps_replyToResolvedDuplicate hendpoint rfl hquiet' hv
      | completed =>
          exact keeps_replyToResolvedDuplicate hendpoint rfl hquiet' hv

end Handling

/-! ## Reporting -/

section Reporting

variable {instanceId : InstanceId} {operation : Operation}

/-- An operation that exists, with the phase of its entry. -/
structure Open (c : Prop) (X : OperationId) (state : Option InboxEntryState)
    (v : Views) : Prop where
  inv : ∀ k, (v k).Inv c
  op : (v X).op ≠ none
  inbox : (v X).inbox = state

theorem Open.env {state : Option InboxEntryState} {v' : Views}
    (hv : Open c X state v) (he : Env c h v v') : Open c X state v' :=
  ⟨fun k => he.inv k (hv.inv k), (he.later X).op_ne hv.op,
    (he.inbox X).trans hv.inbox⟩

theorem keeps_advanceOpen {state : InboxEntryState} {event : InboxEvent}
    (hevent : event.toState ≠ .rejected) (hv : Open c X (some state) v) :
    Keeps c offer reads h (advance X event).run
      (fun r v => ∀ a, r = .ok a → Open c X (some event.toState) v) v := by
  intro v₁ h₁ r v₂ hs
  have hv := hv.env h₁
  cases r with
  | error e =>
      cases hs
      exact ⟨.refl _, fun a ha => by cases ha⟩
  | ok outcome =>
      obtain ⟨-, rfl⟩ := hs
      have hin : (v₁ X).inbox ≠ none := by
        rw [hv.inbox]
        exact Option.some_ne_none _
      have hown : Own c v₁ (v₁.update X (View.setInbox event.toState)) :=
        .update (fun hX => hX.advance hv.op hin hevent) .setInbox
      refine ⟨hown, fun _ _ => ⟨fun k => hown.inv k (hv.inv k), ?_, ?_⟩⟩
      · exact (hown.later X).op_ne hv.op
      · rw [Views.update_same]
        rfl

theorem keeps_reportOpenEntry (hinv : ∀ k, (v k).Inv c)
    (hop : (v operation.id).op ≠ none) :
    Keeps c offer reads h (reportOpenEntry instanceId operation).run Any v := by
  refine Keeps.bind (P := fun entry v =>
    Open c operation.id (entry.map InboxEntry.state) v) ?_ ?_
  · intro v₁ h₁ r v₂ hs
    obtain ⟨rfl, hr⟩ := hs
    refine ⟨.refl _, fun entry hentry => ?_⟩
    cases r with
    | error e => cases hentry
    | ok found =>
        obtain rfl : found = entry := by
          cases hentry
          rfl
        exact ⟨fun k => h₁.inv k (hinv k), (h₁.later _).op_ne hop, hr⟩
  · intro entry v hv
    cases entry with
    | none => trivial
    | some entry =>
    show Keeps c offer reads h (ExceptT.run (ite _ _ _)) Any v
    split
    · trivial
    refine Keeps.bind (P := fun _ v =>
      ∃ state, Open c operation.id (some state) v) ?_ ?_
    · unfold repairEntry
      split
      · refine (keeps_advanceOpen (by decide) hv).imp ?_
        exact fun r v hr a ha => ⟨_, hr a ha⟩
      · exact fun a _ => ⟨_, hv⟩
    · rintro _ v ⟨state, hv⟩
      show Keeps c offer reads h (ExceptT.run (ite _ _ _)) Any v
      split
      · refine (quiet_enqueueCompleted instanceId operation).then
          (fun _ _ he hv => hv.env he) hv ?_
        intro _ v _ hv
        refine Keeps.bind (keeps_advanceOpen (by decide) hv) ?_
        intro _ v _
        exact (quiet_forgetProgress operation.id).last
      · refine Quiet.then (Q := fun _ => True)
          (fun v v₁ _ r v₂ hs => ⟨hs, trivial⟩) (J := fun _ => True)
          (fun _ _ _ _ => trivial) trivial ?_
        intro reported v _ _
        show Keeps c offer reads h (ExceptT.run (ite _ _ _)) Any v
        split
        · trivial
        · refine (quiet_enqueueProgress instanceId operation _).then
            (J := fun _ => True) (fun _ _ _ _ => trivial) trivial ?_
          intro _ v _ _
          exact (quiet_insertProgress operation.id _).last

/-- The invariant, together with operations that exist. -/
structure Stored (c : Prop) (operations : List Operation) (v : Views) :
    Prop where
  inv : ∀ k, (v k).Inv c
  op : ∀ operation ∈ operations, (v operation.id).op ≠ none

theorem Stored.env {operations : List Operation} {v' : Views}
    (hv : Stored c operations v) (he : Env c h v v') : Stored c operations v' :=
  ⟨fun k => he.inv k (hv.inv k), fun o ho => (he.later _).op_ne (hv.op o ho)⟩

theorem Stored.own {operations : List Operation} {v' : Views}
    (hv : Stored c operations v) (he : Own c v v') : Stored c operations v' :=
  ⟨fun k => he.inv k (hv.inv k), fun o ho => (he.later _).op_ne (hv.op o ho)⟩

/-- A loop whose body keeps the contract wherever some operations exist. -/
theorem keeps_forM {l : List α} {f : α → M Unit} {operations : List Operation}
    (hf : ∀ a ∈ l, ∀ v, Stored c operations v →
      Keeps c offer reads h (f a).run Any v)
    (hv : Stored c operations v) :
    Keeps c offer reads h (l.forM f).run
      (fun r v => ∀ a, r = .ok a → Stored c operations v) v := by
  induction l generalizing v with
  | nil => exact fun _ _ => hv
  | cons a l ih =>
      refine Safe.bindE.mpr (((hf a List.mem_cons_self v hv).keeps
        (fun _ _ he hv => Stored.env hv he)
        (fun _ _ _ he hv => Stored.own hv he) hv).imp ?_)
      rintro (e | u) v ⟨-, hv⟩
      · exact fun a ha => by cases ha
      · exact ih (fun a ha => hf a (List.mem_cons_of_mem _ ha)) hv

theorem keeps_discover {state : OperationState} (hv : Stored c [] v) :
    Keeps c offer reads h (discover instanceId state).run Any v := by
  refine Keeps.bind (P := fun operations v => Stored c operations v) ?_ ?_
  · intro v₁ h₁ r v₂ hs
    obtain ⟨rfl, hr⟩ := hs
    refine ⟨.refl _, fun operations hops => ?_⟩
    cases r with
    | error e => cases hops
    | ok found =>
        obtain rfl : found = operations := by
          cases hops
          rfl
        exact ⟨fun k => h₁.inv k (hv.inv k), hr⟩
  · intro operations v hv
    refine (keeps_forM (fun operation hmem v hv => ?_) hv).imp
      fun _ _ _ => trivial
    split
    · exact keeps_reportOpenEntry hv.inv (hv.op operation hmem)
    · trivial

theorem keeps_reportKnown {X : OperationId} (hv : Stored c [] v) :
    Keeps c offer reads h (reportKnown instanceId X).run Any v := by
  have hstable : ∀ v v', Env c h v v' → Stored c [] v → Stored c [] v' :=
    fun _ _ he hv => hv.env he
  have hfind : Quiet offer reads (orThrow (call (.inbox (.findByOperation X)))
      .inbox : M (Option InboxEntry)).run fun _ => True :=
    fun v v₁ _ r v₂ hs => ⟨hs.1, trivial⟩
  refine hfind.then hstable hv ?_
  intro entry v _ hv
  cases entry with
  | none => exact (quiet_forgetProgress X).last
  | some entry =>
      show Keeps c offer reads h (ExceptT.run (ite _ _ _)) Any v
      split
      · exact (quiet_forgetProgress X).last
      · refine Keeps.bind (P := fun operation v =>
          Stored c operation.toList v) ?_ ?_
        · intro v₁ h₁ r v₂ hs
          obtain ⟨rfl, hr⟩ := hs
          refine ⟨.refl _, fun operation hop => ?_⟩
          have hinv : ∀ k, (v₂ k).Inv c := fun k => h₁.inv k (hv.inv k)
          rcases r with e | _ | found
          · cases hop
          · cases hop
            exact ⟨hinv, by simp⟩
          · cases hop
            refine ⟨hinv, ?_⟩
            intro o ho
            obtain rfl := Option.some.inj (Option.mem_toList.mp ho)
            rw [hr.1]
            exact hr.2
        · intro operation v hv
          cases operation with
          | none => exact (quiet_forgetProgress X).last
          | some operation =>
              exact keeps_reportOpenEntry hv.inv (hv.op operation (by simp))

theorem keeps_reportCenterOperations (hinv : ∀ k, (v k).Inv c) :
    Keeps c offer reads h (reportCenterOperations instanceId).run Any v := by
  have hstable : ∀ v v', Env c h v v' → Stored c [] v → Stored c [] v' :=
    fun _ _ he hv => hv.env he
  have hv : Stored c [] v := ⟨hinv, by simp⟩
  refine Quiet.then (Q := fun _ => True)
    (fun v v₁ _ r v₂ hs => ⟨hs, trivial⟩) hstable hv ?_
  intro done v _ hv
  show Keeps c offer reads h (ExceptT.run (ite _ _ _)) Any v
  split
  · refine Keeps.bind (keeps_forM (fun state _ v hv => keeps_discover hv) hv) ?_
    intro _ v _ v₁ h₁ r v₂ hs
    exact ⟨hs ▸ .refl _, trivial⟩
  · refine Quiet.then (Q := fun _ => True)
      (fun v v₁ _ r v₂ hs => ⟨hs, trivial⟩) hstable hv ?_
    intro known v _ hv
    exact (keeps_forM (fun X _ v hv => keeps_reportKnown hv) hv).imp
      fun _ _ _ => trivial

end Reporting

end Rutilus.Proofs.Offer
