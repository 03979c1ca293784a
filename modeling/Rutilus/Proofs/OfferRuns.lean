import Mathlib.Logic.Relation
import Rutilus.Lib.Runs
import Rutilus.Proofs.OfferSafe

/-!
# Every run of the site

The contract of the sync loop together with the moves of the rest of the site
give an invariant of all reachable states, and a relation between any state and
a later one.
-/

namespace Rutilus.Proofs.Offer

open Rutilus.Domain Rutilus.Lib Rutilus.Store
open Rutilus.App.CenterSync Rutilus.App.SyncSite

variable {c : Prop} {instanceId : InstanceId}

/-- One step of the site. With `c`, no delivery revives a rejected offer. -/
def Step (c : Prop) (instanceId : InstanceId) (s t : State) : Prop :=
  ∃ l, (c → s.revives l = false) ∧ next instanceId s l = some t

structure SysInv (c : Prop) (s : State) : Prop where
  views : ∀ X, (view s.world X).Inv c
  column : ColumnAgrees s.world.outbox
  task : ∀ task, s.task = some task →
    Keeps c task.offer task.reads (task.offer.bind OperationOffer.operationId)
      task.rest Any (view s.world)

/-! ## The moves of the rest of the site -/

section Environment

variable {w : World} {h : Option OperationId}

/-- Rows whose origins are the same. -/
theorem view_operations {t' : OperationTable}
    (ht : ∀ k, (t'.find k).map originOf = (w.operations.find k).map originOf) :
    view { w with operations := t' } = view w := by
  funext k
  simp only [view, World.rejections, World.acceptances, ht]

theorem view_drive {X : OperationId} {state : OperationState} {now : Instant}
    {t' : OperationTable}
    (hok : applyTransition w.operations X state now = .ok t') :
    view { w with operations := t' } = view w := by
  obtain ⟨row, hrow, -, hfind⟩ := applyTransition_ok hok
  refine view_operations fun k => ?_
  rw [hfind]
  split
  · next hk => rw [hk, hrow]; rfl
  · rfl

theorem view_classify {X : OperationId} {kind : FailureKind}
    {t' : OperationTable}
    (hok : recordFailureKind w.operations X kind = .ok t') :
    view { w with operations := t' } = view w := by
  obtain ⟨row, hrow, hfind⟩ := recordFailureKind_ok hok
  refine view_operations fun k => ?_
  rw [hfind]
  split
  · next hk => rw [hk, hrow]; rfl
  · rfl

theorem payload_of_isRejectionOf {X : OperationId} {row : OutboxRow}
    (hrow : isRejectionOf X row = true) :
    payloadOperationId row.entry.payload = none := by
  unfold isRejectionOf messageOf at hrow
  unfold payloadOperationId
  split
  · next hp => simp [hp] at hrow
  · rfl

theorem payload_of_isAcceptanceOf {X : OperationId} {row : OutboxRow}
    (hrow : isAcceptanceOf X row = true) :
    payloadOperationId row.entry.payload = none := by
  unfold isAcceptanceOf messageOf at hrow
  unfold payloadOperationId
  split
  · next hp => simp [hp] at hrow
  · rfl

/-- An acknowledgement does not change what was queued: no reply is ever
deleted, and its message stays. -/
theorem view_acknowledge {entryId : OutboxEntryId} {now : Instant}
    {outcome : AckOutcome} {t' : OutboxTable} (ht : ColumnAgrees w.outbox)
    (hok : ackOutboxEntry w.outbox entryId now = .ok (outcome, t')) :
    view { w with outbox := t' } = view w := by
  funext X
  have hrej := ht.countP_ack (p := isRejectionOf X)
    (fun _ => payload_of_isRejectionOf) (fun _ => rfl) hok
  have hacc := ht.countP_ack (p := isAcceptanceOf X)
    (fun _ => payload_of_isAcceptanceOf) (fun _ => rfl) hok
  simp only [view, World.rejections, World.acceptances, hrej, hacc]

theorem view_queue {entryId : OutboxEntryId} {payload : Payload}
    {now : Instant} {entry : OutboxEntry} {t' : OutboxTable}
    (hok : Store.enqueueOutboxEntry w.outbox entryId instanceId
      (.content payload) now = .ok (entry, t')) :
    view { w with outbox := t' } = view w :=
  view_enqueue hok

/-- An operation of the site's own under an identity no offer brought. -/
theorem env_submit {id : OperationId} {source : OperationSource}
    {targets : List OperationTarget} {command : RedfishCommand}
    {now : Instant} {t' : OperationTable} (hsource : source ≠ .center)
    (hinbox : w.inbox.find id = none) (hfree : h ≠ some id)
    (hnew : w.operations.find id = none)
    (hok : createOperation w.operations
      (.new id source targets command now) = .ok t') :
    Env c h (view w) (view { w with operations := t' }) := by
  have hin : (view w id).inbox = none := by
    simp [view, inboxState, hinbox]
  have hsame : ∀ k, k ≠ id → view { w with operations := t' } k = view w k := by
    intro k hk
    have := createOperation_ok hok k
    rw [if_neg fun hc => hk hc.1] at this
    simp only [view, World.rejections, World.acceptances, this]
  have hid : view { w with operations := t' } id =
      { view w id with op := some ⟨source, targets, command⟩ } := by
    have := createOperation_ok hok id
    rw [if_pos ⟨rfl, hnew⟩] at this
    simp only [view, World.rejections, World.acceptances, this]
    rfl
  have hop : (view w id).op = none := by simp [view, hnew]
  refine ⟨fun k hk => ?_, fun k => ?_, fun k => ?_, fun k hk => ?_⟩ <;>
    by_cases hkid : k = id
  · subst hkid
    rw [hid]
    exact hk.submit hin hsource
  · rw [hsame k hkid]
    exact hk
  · subst hkid
    rw [hid]
    exact ⟨fun x hx => absurd (hop.symm.trans hx) (by simp), fun _ hx => hx,
      le_rfl, le_rfl, fun hne => absurd hop hne⟩
  · rw [hsame k hkid]
    exact .refl _
  · subst hkid
    rw [hid]
  · rw [hsame k hkid]
  · exact absurd (hkid ▸ hk) hfree
  · exact hsame k hkid

end Environment

/-! ## One step -/

/-- The rest of the site moves: the task goes on as before. -/
theorem SysInv.env {s : State} {w' : World} (hs : SysInv c s)
    (he : Env c s.handled (view s.world) (view w'))
    (hcol : ColumnAgrees w'.outbox) : SysInv c { s with world := w' } where
  views := fun X => he.inv X (hs.views X)
  column := hcol
  task := by
    intro task htask
    have hhandled : s.handled = task.offer.bind OperationOffer.operationId := by
      simp only [State.handled]
      rw [show s.task = some task from htask]
      rfl
    exact Safe.stable Env.trans (fun _ _ => trivial) (hs.task task htask)
      (hhandled ▸ he)

/-- A step the views do not notice. -/
theorem SysInv.same {s : State} {w' : World} (hs : SysInv c s)
    (he : view w' = view s.world) (hcol : ColumnAgrees w'.outbox) :
    SysInv c { s with world := w' } := by
  refine hs.env ?_ hcol
  rw [he]
  exact .refl _

theorem column_perform {task : Task} {o : Oracle} {q : SyncReq} {w : World}
    (hw : ColumnAgrees w.outbox) :
    ColumnAgrees (perform task o q w).2.outbox := by
  cases q with
  | outbox q => exact hw.run o.fault q
  | findFailureKind X =>
      obtain ⟨fault, clock, entryId⟩ := o
      cases fault <;> exact hw
  | inbox q => exact hw
  | operations q => exact hw
  | progress q => exact hw
  | recheck q => exact hw
  | now => exact hw

/-- What a step keeps, and what it never undoes. -/
structure Kept (c : Prop) (s t : State) : Prop where
  inv : SysInv c t
  later : ∀ X, (view s.world X).Later (view t.world X)

theorem Kept.same {s : State} {w' : World} (hs : SysInv c s)
    (he : view w' = view s.world) (hcol : ColumnAgrees w'.outbox) :
    Kept c s { s with world := w' } :=
  ⟨hs.same he hcol, fun X => by rw [he]; exact .refl _⟩

theorem kept_deliver {s t : State} {received : Envelope} {now : Instant}
    {reads : Reads} (hs : SysInv c s)
    (hc : c → s.revives (.deliver received now reads) = false)
    (h : next instanceId s (.deliver received now reads) = some t) :
    Kept c s t := by
  obtain ⟨sequence, acked, message⟩ := received
  simp only [next] at h
  split at h
  · next offer _ =>
      split at h
      · cases h
      · next hown =>
          cases h
          refine ⟨⟨hs.views, hs.column, ?_⟩, fun X => .refl _⟩
          intro task htask
          cases htask
          refine Safe.bind.mpr ((keeps_handleOffer hs.views ?_ ?_).imp
            fun _ _ _ => trivial)
          · intro X hX y hy
            by_contra hne
            rw [hX] at hown
            simp only [view, Option.map_eq_some_iff] at hy
            obtain ⟨row, hrow, rfl⟩ := hy
            refine hown ?_
            simpa [World.isOwn, hrow, originOf] using hne
          · intro X hX hcond hin hpass
            have hrevives := hc hcond
            simp only [State.revives, hX, Option.any_some, hpass,
              Bool.true_and] at hrevives
            by_contra hrej
            have hin : inboxState s.world.inbox X = some .received := hin
            have hrej : 0 < s.world.rejections X := Nat.pos_of_ne_zero hrej
            simp [hin, hrej] at hrevives
  · cases h

theorem kept_call {s t : State} {o : Oracle} (hs : SysInv c s)
    (h : next instanceId s (.call o) = some t) : Kept c s t := by
  simp only [next] at h
  split at h
  · next offer reads q k htask =>
      cases h
      have hsem : Sem offer reads q (view s.world)
          (perform ⟨offer, reads, .call q k⟩ o q s.world).1
          (view (perform ⟨offer, reads, .call q k⟩ o q s.world).2) :=
        sem_perform q
      have hsafe := hs.task _ htask (view s.world) (.refl _) _ _ hsem
      refine ⟨⟨fun X => hsafe.1.inv X (hs.views X), column_perform hs.column,
        ?_⟩, hsafe.1.later⟩
      intro task heq
      cases heq
      exact hsafe.2
  · cases h

theorem SysInv.step {s t : State} (hs : SysInv c s)
    (h : Step c instanceId s t) : Kept c s t := by
  obtain ⟨l, hc, h⟩ := h
  cases l with
  | deliver received now reads => exact kept_deliver hs hc h
  | report =>
      simp only [next] at h
      split at h
      · cases h
        refine ⟨⟨hs.views, hs.column, ?_⟩, fun X => .refl _⟩
        intro task htask
        cases htask
        exact Safe.bind.mpr ((keeps_reportCenterOperations hs.views).imp
          fun _ _ _ => trivial)
      · cases h
  | call o => exact kept_call hs h
  | finish =>
      simp only [next] at h
      split at h
      · cases h
        exact ⟨⟨hs.views, hs.column, by simp⟩, fun X => .refl _⟩
      · cases h
  | crash =>
      cases h
      exact ⟨⟨hs.views, hs.column, by simp⟩, fun X => .refl _⟩
  | drive X state now =>
      simp only [next] at h
      split at h
      · next operations hok =>
          cases h
          exact .same hs (view_drive hok) hs.column
      · cases h
  | classify X kind =>
      simp only [next] at h
      split at h
      · next operations hok =>
          cases h
          exact .same hs (view_classify hok) hs.column
      · cases h
  | submit id source targets command createdAt =>
      simp only [next] at h
      split at h
      · cases h
      · next hfree =>
          rw [not_or, not_or, not_or] at hfree
          obtain ⟨hsource, hops, hinbox, hhandled⟩ := hfree
          split at h
          · next operations hok =>
              cases h
              have hnew : s.world.operations.find id = none := by
                simpa [Table.has] using hops
              have hinbox : s.world.inbox.find id = none := by
                simpa [Table.has] using hinbox
              have he := env_submit (c := c) hsource hinbox hhandled hnew hok
              exact ⟨hs.env he hs.column, he.later⟩
          · cases h
  | queue entryId payload createdAt =>
      simp only [next] at h
      split at h
      · next entry outbox hok =>
          cases h
          exact .same hs (view_queue hok) (hs.column.enqueue hok)
      · cases h
  | acknowledge entryId ackedAt =>
      simp only [next] at h
      split at h
      · next outcome outbox hok =>
          cases h
          exact .same hs (view_acknowledge hs.column hok) (hs.column.ack hok)
      · cases h

/-! ## Whole runs -/

theorem SysInv.init : SysInv c App.SyncSite.init where
  views := by
    intro X
    have hview : view App.SyncSite.init.world X = ⟨none, none, 0, 0, none⟩ :=
      rfl
    rw [hview]
    refine ⟨?_, ?_, ?_, fun _ => ⟨rfl, rfl⟩, ?_, fun _ => rfl, ?_,
      fun _ _ => rfl⟩ <;> simp
  column := by
    intro row hrow
    cases hrow
  task := by
    intro task htask
    cases htask

theorem SysInv.of_reach {s : State}
    (h : Reach (· = App.SyncSite.init) (Step c instanceId) s) : SysInv c s := by
  refine Reach.inv ?_ (fun _ _ hs hstep => (hs.step hstep).inv) h
  rintro _ rfl
  exact .init

/-- Nothing a view records is undone later in the run. -/
theorem later_of_steps {s t : State} (hs : SysInv c s)
    (h : Relation.ReflTransGen (Step c instanceId) s t) :
    SysInv c t ∧ ∀ X, (view s.world X).Later (view t.world X) := by
  induction h with
  | refl => exact ⟨hs, fun X => .refl _⟩
  | tail _ hstep ih =>
      obtain ⟨hs, hlater⟩ := ih
      have hkept := hs.step hstep
      exact ⟨hkept.inv, fun X => (hlater X).trans (hkept.later X)⟩

end Rutilus.Proofs.Offer

/-!
## What becomes of an offer

The two results about offers, for every history of deliveries, reports, driver
steps and crashes. An offer is executed at most once, and what is executed is
what was offered first. Its decision is single-valued as long as no delivery
revives a rejection that was interrupted between its two writes; without that
condition one id can be both rejected and accepted.
-/

namespace Rutilus.Proofs.Offer

open Rutilus.Domain Rutilus.Lib Rutilus.Store
open Rutilus.App.CenterSync Rutilus.App.SyncSite

variable {instanceId : InstanceId} {s t : State}

/-! ## At most one execution -/

/-- For every history and every id, in any state and any later one: there is at
most one row, a row keeps its command and targets, the row of an offer has
those of the first delivery that was accepted, and a rejected entry has no
row. -/
theorem offer_executed_at_most_once
    (hs : Reach (· = init) (Next (next instanceId)) s)
    (hst : Relation.ReflTransGen (Next (next instanceId)) s t)
    (X : OperationId) :
    (t.world.operations.rows.filter fun row => row.id = X).length ≤ 1 ∧
    (∀ row, s.world.operations.find X = some row →
      ∃ row', t.world.operations.find X = some row' ∧
        row'.command = row.command ∧ row'.targets = row.targets) ∧
    (∀ row, t.world.operations.find X = some row → row.source = .center →
      ∃ offer, firstAccept t.world.accepts X = some offer ∧
        offer.command = some row.command ∧
        ∃ target, row.targets = [target] ∧
          offer.endpointId = some target.endpointId) ∧
    (inboxState t.world.inbox X = some .rejected →
      t.world.operations.find X = none) := by
  have hany : ∀ {a b}, Next (next instanceId) a b → Step False instanceId a b :=
    fun ⟨l, hl⟩ => ⟨l, False.elim, hl⟩
  have hs := SysInv.of_reach (hs.mono (fun _ h => h) fun _ _ => hany)
  obtain ⟨ht, hlater⟩ := later_of_steps hs (hst.lift id fun _ _ => hany)
  have hview := ht.views X
  refine ⟨?_, ?_, ?_, ?_⟩
  · rw [← List.countP_eq_length_filter]
    have hcount := List.nodup_iff_count_le_one.mp t.world.operations.nodup X
    rw [List.count, List.countP_map] at hcount
    refine (List.countP_mono_left fun row _ hrow => ?_).trans hcount
    simpa using hrow
  · intro row hrow
    have hop : (view s.world X).op = some (originOf row) := by
      simp [view, hrow]
    have hop' := (hlater X).op _ hop
    simp only [view, Option.map_eq_some_iff] at hop'
    obtain ⟨row', hrow', horigin⟩ := hop'
    have := Origin.mk.inj horigin
    exact ⟨row', hrow', this.2.2, this.2.1⟩
  · intro row hrow hsource
    have hop : (view t.world X).op = some (originOf row) := by
      simp [view, hrow]
    obtain ⟨offer, hoffer, hcommand, htarget⟩ := hview.first _ hop hsource
    exact ⟨offer, hoffer, hcommand, htarget⟩
  · intro hin
    have hop := hview.rejected hin
    simpa [view] using hop

/-! An offer of a reset, and what its rechecks find. -/

def resetOffer (resetType : String) : Envelope :=
  ⟨3, 0, some (.operationOffer ⟨some ⟨1⟩, some ⟨9⟩, some ⟨5⟩,
    some (.system (.reset resetType)), "/redfish/v1/Systems/1", some 1000, ""⟩)⟩

def rechecks (capability : CapabilityState) : Reads :=
  ⟨.ok (some ⟨⟨2⟩⟩), .ok (some [⟨.systems, some capability, some 50⟩]),
    .ok [⟨2⟩], .ok [⟨⟨9⟩, ["/redfish/v1/Systems/1"]⟩], ⟨7⟩⟩

/-- Some calls in which nothing fails. -/
def calls (n entryId : Nat) : List Label :=
  List.replicate n (.call ⟨none, 100, ⟨entryId⟩⟩)

/-- The offer is accepted; a second delivery brings another command. -/
def offeredTwice : List Label × List Label :=
  ([.deliver (resetOffer "On") 100 (rechecks .supported)] ++ calls 11 20 ++
    [.finish],
   [.deliver (resetOffer "ForceOff") 200 (rechecks .supported)] ++ calls 6 21)

theorem offer_executed_at_most_once_offeredTwice : ∃ s t row,
    Reach (· = init) (Next (next ⟨5⟩)) s ∧
    Relation.ReflTransGen (Next (next ⟨5⟩)) s t ∧
    t.world.outbox.rows.length = 2 ∧
    t.world.operations.find ⟨1⟩ = some row ∧
    row.command = .system (.reset "On") := by
  obtain ⟨s, t, hs, hst, h⟩ := exists_steps_of_follow (· = init) (next ⟨5⟩)
    offeredTwice.1 offeredTwice.2
    (fun s t => t.world.outbox.rows.length = 2 &&
      (s.world.operations.find ⟨1⟩).any fun row =>
        row.command = .system (.reset "On"))
    rfl (by decide +kernel)
  simp only [Bool.and_eq_true, Option.any_eq_true, decide_eq_true_eq] at h
  obtain ⟨hlen, row, hrow, hcommand⟩ := h
  obtain ⟨-, hkeep, -⟩ := offer_executed_at_most_once hs hst ⟨1⟩
  obtain ⟨row', hrow', hcommand', -⟩ := hkeep row hrow
  exact ⟨s, t, row', hs, hst, hlen, hrow', hcommand'.trans hcommand⟩

/-! ## A single decision -/

/-- One step in a run in which no delivery revives an interrupted rejection. -/
def SteadyStep (instanceId : InstanceId) (s t : State) : Prop :=
  ∃ l, s.revives l = false ∧ next instanceId s l = some t

/-- In every such run and for every id: once a rejection is queued no operation
exists from then on, once an operation exists no rejection is queued from then
on, and never are an acceptance and a rejection both queued. -/
theorem offer_decision_single_valued
    (hs : Reach (· = init) (SteadyStep instanceId) s)
    (hst : Relation.ReflTransGen (SteadyStep instanceId) s t)
    (X : OperationId) :
    (0 < s.world.rejections X → t.world.operations.find X = none) ∧
    (s.world.operations.find X ≠ none →
      t.world.rejections X = s.world.rejections X) ∧
    ¬ (0 < t.world.acceptances X ∧ 0 < t.world.rejections X) := by
  have hsteady : ∀ {a b}, SteadyStep instanceId a b → Step True instanceId a b :=
    fun ⟨l, hr, hl⟩ => ⟨l, fun _ => hr, hl⟩
  have hs := SysInv.of_reach (hs.mono (fun _ h => h) fun _ _ => hsteady)
  obtain ⟨ht, hlater⟩ := later_of_steps hs (hst.lift id fun _ _ => hsteady)
  have hview := ht.views X
  refine ⟨?_, ?_, ?_⟩
  · intro hrej
    by_contra hop
    have hzero : (view t.world X).rejections = 0 :=
      hview.apart trivial (by simpa [view] using hop)
    exact absurd (hzero ▸ (hlater X).rejections) (Nat.not_le.mpr hrej)
  · intro hop
    exact (hlater X).silenced (by simpa [view] using hop)
  · rintro ⟨hacc, hrej⟩
    have hzero : (view t.world X).rejections = 0 :=
      hview.apart trivial (hview.answered hacc)
    exact absurd hzero (Nat.pos_iff_ne_zero.mp hrej)

/-- The same step as a function. -/
def nextSteady (instanceId : InstanceId) (s : State) (l : Label) :
    Option State :=
  if s.revives l then none else next instanceId s l

theorem steadyStep_of_nextSteady (h : Next (nextSteady instanceId) s t) :
    SteadyStep instanceId s t := by
  obtain ⟨l, h⟩ := h
  unfold nextSteady at h
  split at h
  · cases h
  · next hr => exact ⟨l, by simpa using hr, h⟩

/-- The endpoint lacks the capability: the last of the calls queues the
rejection. -/
def refused : List Label :=
  [.deliver (resetOffer "On") 100 (rechecks .unauthorized)] ++ calls 5 20

/-- The rejection is completed, and the offer is delivered again when it would
pass. -/
def refusedTwice : List Label × List Label :=
  (refused ++ calls 1 20 ++ [.finish],
    [.deliver (resetOffer "On") 200 (rechecks .supported)] ++ calls 7 21)

theorem offer_decision_single_valued_refusedTwice : ∃ s t,
    Reach (· = init) (SteadyStep ⟨5⟩) s ∧
    Relation.ReflTransGen (SteadyStep ⟨5⟩) s t ∧
    s.world.rejections ⟨1⟩ = 1 ∧ t.world.rejections ⟨1⟩ = 2 ∧
    t.world.operations.find ⟨1⟩ = none := by
  obtain ⟨s, t, hs, hst, h⟩ := exists_steps_of_follow (· = init)
    (nextSteady ⟨5⟩) refusedTwice.1 refusedTwice.2
    (fun s t => s.world.rejections ⟨1⟩ = 1 && t.world.rejections ⟨1⟩ = 2)
    rfl (by decide +kernel)
  simp only [Bool.and_eq_true, decide_eq_true_eq] at h
  have hs := hs.mono (fun _ h => h) fun _ _ => steadyStep_of_nextSteady
  have hst := hst.lift id fun _ _ => steadyStep_of_nextSteady
  refine ⟨s, t, hs, hst, h.1, h.2,
    (offer_decision_single_valued hs hst ⟨1⟩).1 ?_⟩
  rw [h.1]
  exact Nat.one_pos

/-- The process dies after the rejection was queued and before the entry is
closed; the offer is delivered again and now passes. -/
def revived : List Label :=
  [.crash, .deliver (resetOffer "On") 200 (rechecks .supported)] ++ calls 12 21

/-- Without the condition, one offer is both rejected and accepted. -/
theorem revived_offer_rejected_and_accepted :
    ¬ ∀ (instanceId : InstanceId) (s t : State),
        Reach (· = init) (Next (next instanceId)) s →
        Relation.ReflTransGen (Next (next instanceId)) s t →
        ∀ X, (0 < s.world.rejections X → t.world.operations.find X = none) ∧
          (s.world.operations.find X ≠ none →
            t.world.rejections X = s.world.rejections X) ∧
          ¬ (0 < t.world.acceptances X ∧ 0 < t.world.rejections X) := by
  intro hclaim
  obtain ⟨s, t, hs, hst, h⟩ := exists_steps_of_follow (· = init) (next ⟨5⟩)
    refused revived
    (fun s t => 0 < s.world.rejections ⟨1⟩ &&
      (t.world.operations.find ⟨1⟩).isSome)
    rfl (by decide +kernel)
  simp only [Bool.and_eq_true, decide_eq_true_eq] at h
  have hnone := (hclaim ⟨5⟩ s t hs hst ⟨1⟩).1 h.1
  rw [hnone] at h
  cases h.2

end Rutilus.Proofs.Offer
