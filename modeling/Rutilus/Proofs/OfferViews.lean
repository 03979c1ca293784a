import Rutilus.App.SyncSite
import Rutilus.Lib.Listing
import Rutilus.Lib.Rely

/-!
# One operation id across the three tables

What the inbox, the operation table and the outbox say about one operation id,
put together: the view of the id. Every call of the sync loop moves the view of
at most the id it names, and `Sem` says how, together with what its answer
tells. A call that the loop does not make is left open there, so a program that
made one could be proved nothing about.
-/

namespace Rutilus.Proofs.Offer

open Rutilus.Domain Rutilus.Lib Rutilus.Store
open Rutilus.App.CenterSync Rutilus.App.SyncSite

/-- The columns of an operation that no write changes. -/
structure Origin where
  source : OperationSource
  targets : List OperationTarget
  command : RedfishCommand

def originOf (row : OperationRow) : Origin :=
  ⟨row.source, row.targets, row.command⟩

structure View where
  op : Option Origin
  inbox : Option InboxEntryState
  rejections : Nat
  acceptances : Nat
  offer : Option OperationOffer

/-- The first delivery whose operation was created. -/
def firstAccept (accepts : List (OperationId × OperationOffer))
    (X : OperationId) : Option OperationOffer :=
  (accepts.find? fun e => e.1 = X).map (·.2)

def view (w : World) (X : OperationId) : View where
  op := (w.operations.find X).map originOf
  inbox := inboxState w.inbox X
  rejections := w.rejections X
  acceptances := w.acceptances X
  offer := firstAccept w.accepts X

abbrev Views : Type := OperationId → View

/-! ## What a call does to the views -/

/-- The answer of an insert, by what was stored before. -/
def insertOutcome : Option InboxEntryState → InboxInsertOutcome
  | none => .created
  | some .received | some .accepted => .duplicateInProgress
  | some state => .duplicateResolved state

/-- Change the view of one id. -/
def Views.update (v : Views) (X : OperationId) (f : View → View) : Views :=
  fun k => if k = X then f (v k) else v k

@[simp]
theorem Views.update_same (v : Views) (X : OperationId) (f : View → View) :
    v.update X f X = f (v X) := if_pos rfl

theorem Views.update_of_ne {v : Views} {X k : OperationId} {f : View → View}
    (h : k ≠ X) : v.update X f k = v k := if_neg h

def View.setInbox (state : InboxEntryState) (v : View) : View :=
  { v with inbox := some state }

def View.create (origin : Origin) (offer : Option OperationOffer) (v : View) :
    View :=
  { v with op := some (v.op.getD origin), offer := v.offer.or offer }

/-- The count of a queued reply. -/
def View.queue (message : EnvelopeMessage) (X : OperationId) (v : View) :
    View :=
  match message with
  | .operationRejected id _ _ =>
      if id = some X then { v with rejections := v.rejections + 1 } else v
  | .operationAccepted id _ =>
      if id = some X then { v with acceptances := v.acceptances + 1 } else v
  | _ => v

/-- What each call of the loop answers and does, on the views. -/
def Sem (offer : Option OperationOffer) (reads : Reads) : Lib.Sem sync Views
  | .inbox (.insert entry), v, r, v' => match r with
    | .ok outcome => entry.state = .received →
        outcome = insertOutcome (v entry.operationId).inbox ∧
        v' = v.update entry.operationId fun x =>
          x.setInbox (x.inbox.getD .received)
    | .error _ => v' = v
  | .inbox (.findByOperation X), v, r, v' => v' = v ∧ match r with
    | .ok entry => (v X).inbox = entry.map InboxEntry.state
    | .error _ => True
  | .inbox (.advance X event), v, r, v' => match r with
    | .ok _ => ((v X).inbox = some event.fromState ∨
          (v X).inbox = some event.toState) ∧
        v' = v.update X (View.setInbox event.toState)
    | .error _ => v' = v
  | .operations (.createOperation operation), v, r, v' => match r with
    | .ok _ => v' = v.update operation.id (View.create
        ⟨operation.source, operation.targets, operation.command⟩ offer)
    | .error _ => v' = v
  | .operations (.findOperation X), v, r, v' => v' = v ∧ match r with
    | .ok none => (v X).op = none
    | .ok (some operation) => operation.id = X ∧ (v X).op ≠ none
    | .error _ => True
  | .operations (.listOperations _), v, r, v' => v' = v ∧ match r with
    | .ok operations => ∀ operation ∈ operations, (v operation.id).op ≠ none
    | .error _ => True
  | .findFailureKind _, v, _, v' => v' = v
  | .outbox (.enqueue _ message _), v, r, v' => match r with
    | .ok _ => v' = fun X => (v X).queue message X
    | .error _ => v' = v
  | .progress _, v, _, v' => v' = v
  | .recheck q, v, r, v' => v' = v ∧ r = reads.answer q
  | .now, v, _, v' => v' = v
  | _, _, _, _ => True

/-! ## The calls of the tables, on the views -/

theorem firstAccept_append {a b : List (OperationId × OperationOffer)}
    {X : OperationId} :
    firstAccept (a ++ b) X = (firstAccept a X).or (firstAccept b X) := by
  unfold firstAccept
  rw [List.find?_append]
  cases a.find? fun e => e.1 = X <;> rfl

theorem view_ext {w w' : World} (hops : w'.operations = w.operations)
    (hin : w'.inbox = w.inbox) (hout : w'.outbox = w.outbox)
    (hacc : w'.accepts = w.accepts) : view w' = view w := by
  funext X
  simp only [view, World.rejections, World.acceptances, hops, hin, hout, hacc]

section Calls

variable {offer : Option OperationOffer} {reads : Reads} {rest : Prog sync Unit}
  {o : Oracle} {w : World}

/-- A call that leaves the tables alone leaves the views alone. -/
theorem view_perform_of_eq {task : Task} {q : SyncReq}
    (hops : (answer task.reads o q w).2.operations = w.operations)
    (hin : (answer task.reads o q w).2.inbox = w.inbox)
    (hout : (answer task.reads o q w).2.outbox = w.outbox)
    (hacc : acceptOf task.offer q (answer task.reads o q w).1 = []) :
    view (perform task o q w).2 = view w := by
  refine view_ext hops hin hout ?_
  show w.accepts ++ acceptOf task.offer q (answer task.reads o q w).1 = _
  rw [hacc, List.append_nil]

theorem sem_insert (entry : InboxEntry) :
    Sem offer reads (.inbox (.insert entry)) (view w)
      (perform ⟨offer, reads, rest⟩ o (.inbox (.insert entry)) w).1
      (view (perform ⟨offer, reads, rest⟩ o (.inbox (.insert entry)) w).2) := by
  obtain ⟨fault, clock, entryId⟩ := o
  cases fault with
  | some f => exact view_perform_of_eq rfl rfl rfl rfl
  | none =>
      intro hentry
      obtain ⟨hout, -⟩ := createInboxEntry_spec (t := w.inbox)
        (k := entry.operationId) entry hentry
      refine ⟨hout.trans ?_, ?_⟩
      · show _ = insertOutcome (inboxState w.inbox entry.operationId)
        cases inboxState w.inbox entry.operationId with
        | none => rfl
        | some state => cases state <;> rfl
      · funext k
        obtain ⟨-, hk⟩ := createInboxEntry_spec (t := w.inbox) (k := k) entry
          hentry
        by_cases hX : k = entry.operationId
        · subst hX
          rw [if_pos rfl] at hk
          rw [Views.update_same]
          simp only [view, View.setInbox, perform, answer, runInbox, acceptOf,
            List.append_nil, World.rejections, World.acceptances, hk]
        · rw [if_neg hX] at hk
          rw [Views.update_of_ne hX]
          simp only [view, perform, answer, runInbox, acceptOf,
            List.append_nil, World.rejections, World.acceptances, hk]

theorem sem_advance (X : OperationId) (event : InboxEvent) :
    Sem offer reads (.inbox (.advance X event)) (view w)
      (perform ⟨offer, reads, rest⟩ o (.inbox (.advance X event)) w).1
      (view (perform ⟨offer, reads, rest⟩ o
        (.inbox (.advance X event)) w).2) := by
  obtain ⟨fault, clock, entryId⟩ := o
  cases fault with
  | some f => exact view_perform_of_eq rfl rfl rfl rfl
  | none =>
      cases h : advanceInboxEntry w.inbox X event with
      | error e =>
          have hr : answer reads ⟨none, clock, entryId⟩
              (.inbox (.advance X event)) w = (.error e, w) := by
            simp only [answer, runInbox, h]
          simp only [Sem, perform, hr]
          exact view_ext rfl rfl rfl (List.append_nil _)
      | ok r =>
          obtain ⟨outcome, t'⟩ := r
          have hr : answer reads ⟨none, clock, entryId⟩
              (.inbox (.advance X event)) w =
                (.ok outcome, { w with inbox := t' }) := by
            simp only [answer, runInbox, h]
          obtain ⟨hfrom, hto⟩ := advanceInboxEntry_ok h
          simp only [Sem, perform, hr]
          refine ⟨hfrom, ?_⟩
          funext k
          have hk := hto k
          by_cases hX : k = X
          · subst hX
            rw [if_pos rfl] at hk
            rw [Views.update_same]
            simp only [view, View.setInbox, acceptOf, List.append_nil,
              World.rejections, World.acceptances, hk]
          · rw [if_neg hX] at hk
            rw [Views.update_of_ne hX]
            simp only [view, acceptOf, List.append_nil, World.rejections,
              World.acceptances, hk]

theorem sem_createOperation (operation : Operation) :
    Sem offer reads (.operations (.createOperation operation)) (view w)
      (perform ⟨offer, reads, rest⟩ o
        (.operations (.createOperation operation)) w).1
      (view (perform ⟨offer, reads, rest⟩ o
        (.operations (.createOperation operation)) w).2) := by
  obtain ⟨fault, clock, entryId⟩ := o
  cases fault with
  | some f => exact view_perform_of_eq rfl rfl rfl rfl
  | none =>
      cases h : createOperation w.operations operation with
      | error e =>
          have hr : answer reads ⟨none, clock, entryId⟩
              (.operations (.createOperation operation)) w = (.error e, w) := by
            simp only [answer, runOperationStore, h, written]
          simp only [Sem, perform, hr]
          exact view_ext rfl rfl rfl (List.append_nil _)
      | ok t' =>
          have hr : answer reads ⟨none, clock, entryId⟩
              (.operations (.createOperation operation)) w =
                (.ok (), { w with operations := t' }) := by
            simp only [answer, runOperationStore, h, written]
          simp only [Sem, perform, hr]
          funext k
          have hk := createOperation_ok h k
          by_cases hX : k = operation.id
          · subst hX
            rw [Views.update_same]
            have hacc : firstAccept (acceptOf offer
                (.operations (.createOperation operation)) (.ok ()))
                operation.id = offer := by
              cases offer with
              | none => rfl
              | some offer => simp [acceptOf, firstAccept]
            have hop : t'.find operation.id = some
                ((w.operations.find operation.id).getD
                  (rowOf operation none)) := by
              rw [hk]
              cases w.operations.find operation.id <;> simp
            simp only [view, View.create, World.rejections, World.acceptances,
              firstAccept_append, hacc, hop]
            cases w.operations.find operation.id <;> rfl
          · rw [Views.update_of_ne hX]
            have hacc : firstAccept (acceptOf offer
                (.operations (.createOperation operation)) (.ok ())) k =
                  none := by
              cases offer with
              | none => rfl
              | some offer => simp [acceptOf, firstAccept, Ne.symm hX]
            simp only [view, World.rejections, World.acceptances,
              firstAccept_append, hacc, hk, hX, false_and, if_false,
              Option.or_none]

theorem sem_findOperation (X : OperationId) :
    Sem offer reads (.operations (.findOperation X)) (view w)
      (perform ⟨offer, reads, rest⟩ o (.operations (.findOperation X)) w).1
      (view (perform ⟨offer, reads, rest⟩ o
        (.operations (.findOperation X)) w).2) := by
  obtain ⟨fault, clock, entryId⟩ := o
  cases fault with
  | some f => exact ⟨view_perform_of_eq rfl rfl rfl rfl, trivial⟩
  | none =>
      refine ⟨view_perform_of_eq rfl rfl rfl rfl, ?_⟩
      have hr : (perform ⟨offer, reads, rest⟩ ⟨none, clock, entryId⟩
          (.operations (.findOperation X)) w).1 =
            Store.findOperation w.operations X := rfl
      rw [hr]
      split
      · next h => simp [view, findOperation_none h]
      · next operation h =>
          obtain ⟨row, hrow, hmap⟩ := findOperation_ok h
          exact ⟨(mapStoredOperation_ok hmap).1.trans (Table.key_of_find hrow),
            by simp [view, hrow]⟩
      · trivial

theorem sem_listOperations (state : Option OperationState) :
    Sem offer reads (.operations (.listOperations state)) (view w)
      (perform ⟨offer, reads, rest⟩ o (.operations (.listOperations state)) w).1
      (view (perform ⟨offer, reads, rest⟩ o
        (.operations (.listOperations state)) w).2) := by
  obtain ⟨fault, clock, entryId⟩ := o
  cases fault with
  | some f => exact ⟨view_perform_of_eq rfl rfl rfl rfl, trivial⟩
  | none =>
      refine ⟨view_perform_of_eq rfl rfl rfl rfl, ?_⟩
      have hr : (perform ⟨offer, reads, rest⟩ ⟨none, clock, entryId⟩
          (.operations (.listOperations state)) w).1 =
            listOperations w.operations state := rfl
      rw [hr]
      split
      · next operations h =>
          intro operation hmem
          obtain ⟨row, hrow, hmap⟩ := exists_of_mem_mapM h hmem
          have hrow : row ∈ w.operations.rows :=
            List.mem_of_mem_filter ((List.mem_insertionSort _).mp hrow)
          have hfind := Table.find_eq_some_iff.mpr
            ⟨hrow, (mapStoredOperation_ok hmap).1.symm⟩
          simp [view, hfind]
      · trivial

/-- The count of a new row. -/
theorem count_outboxRowOf (entryId : OutboxEntryId) (instanceId : InstanceId)
    (sequence : Int) (message : EnvelopeMessage) (now : Instant)
    (X : OperationId) (v : View) :
    { v with
      rejections := v.rejections + [outboxRowOf entryId instanceId sequence
        message now].countP (isRejectionOf X)
      acceptances := v.acceptances + [outboxRowOf entryId instanceId sequence
        message now].countP (isAcceptanceOf X) } = v.queue message X := by
  cases message with
  | operationRejected id reason detail =>
      by_cases hid : id = some X <;>
        simp [View.queue, isRejectionOf, isAcceptanceOf, messageOf, outboxRowOf,
          OutboxEntry.new, hid]
  | operationAccepted id acceptedAt =>
      by_cases hid : id = some X <;>
        simp [View.queue, isRejectionOf, isAcceptanceOf, messageOf, outboxRowOf,
          OutboxEntry.new, hid]
  | _ => rfl

/-- A queued message moves the views by its own count. -/
theorem view_enqueue {entryId : OutboxEntryId} {instanceId : InstanceId}
    {message : EnvelopeMessage} {now : Instant} {entry : OutboxEntry}
    {t' : OutboxTable}
    (h : Store.enqueueOutboxEntry w.outbox entryId instanceId message now =
      .ok (entry, t')) :
    view { w with outbox := t' } = fun X => (view w X).queue message X := by
  obtain ⟨sequence, -, -, -, -, hrows⟩ := enqueueOutboxEntry_ok h
  funext X
  rw [← count_outboxRowOf entryId instanceId sequence message now X]
  simp only [view, World.rejections, World.acceptances, hrows,
    List.countP_append]

theorem sem_enqueue (instanceId : InstanceId) (message : EnvelopeMessage)
    (now : Instant) :
    Sem offer reads (.outbox (.enqueue instanceId message now)) (view w)
      (perform ⟨offer, reads, rest⟩ o
        (.outbox (.enqueue instanceId message now)) w).1
      (view (perform ⟨offer, reads, rest⟩ o
        (.outbox (.enqueue instanceId message now)) w).2) := by
  obtain ⟨fault, clock, entryId⟩ := o
  cases fault with
  | some f => exact view_perform_of_eq rfl rfl rfl rfl
  | none =>
      cases h : Store.enqueueOutboxEntry w.outbox entryId instanceId message
          now with
      | error e =>
          have hr : answer reads ⟨none, clock, entryId⟩
              (.outbox (.enqueue instanceId message now)) w =
                (.error e, w) := by
            simp only [answer, runOutbox, h, answered]
          simp only [Sem, perform, hr]
          exact view_ext rfl rfl rfl (List.append_nil _)
      | ok r =>
          obtain ⟨entry, t'⟩ := r
          have hr : answer reads ⟨none, clock, entryId⟩
              (.outbox (.enqueue instanceId message now)) w =
                (.ok entry, { w with outbox := t' }) := by
            simp only [answer, runOutbox, h, answered]
          simp only [Sem, perform, hr, acceptOf, List.append_nil]
          exact view_enqueue h

/-- Every call of a task does to the views what `Sem` says. -/
theorem sem_perform (q : SyncReq) :
    Sem offer reads q (view w) (perform ⟨offer, reads, rest⟩ o q w).1
      (view (perform ⟨offer, reads, rest⟩ o q w).2) := by
  cases q with
  | inbox q =>
      cases q with
      | insert entry => exact sem_insert entry
      | findByOperation X =>
          obtain ⟨fault, clock, entryId⟩ := o
          cases fault with
          | some f => exact ⟨view_perform_of_eq rfl rfl rfl rfl, trivial⟩
          | none => exact ⟨view_perform_of_eq rfl rfl rfl rfl, rfl⟩
      | advance X event => exact sem_advance X event
  | operations q =>
      cases q with
      | createOperation operation => exact sem_createOperation operation
      | findOperation X => exact sem_findOperation X
      | listOperations state => exact sem_listOperations state
      | _ => trivial
  | findFailureKind X =>
      obtain ⟨fault, clock, entryId⟩ := o
      cases fault with
      | some f => exact view_perform_of_eq rfl rfl rfl rfl
      | none => exact view_perform_of_eq rfl rfl rfl rfl
  | outbox q =>
      cases q with
      | enqueue instanceId message now =>
          exact sem_enqueue instanceId message now
      | _ => trivial
  | progress q => exact view_perform_of_eq rfl rfl rfl rfl
  | recheck q => exact ⟨view_perform_of_eq rfl rfl rfl rfl, rfl⟩
  | now => exact view_perform_of_eq rfl rfl rfl rfl

end Calls

end Rutilus.Proofs.Offer

/-!
## What the three tables agree on

The joint invariant of inbox, operations and outbox about one operation id, and
the two relations the sync loop is proved against: what the rest of the site
may do between two of its calls, and what each of its own calls does.

The invariant has a parameter `c`. With `c` it also says that an operation with
a queued rejection does not exist, which needs a condition on the deliveries.
-/

namespace Rutilus.Proofs.Offer

open Rutilus.Domain Rutilus.Lib Rutilus.Store
open Rutilus.App.CenterSync Rutilus.App.SyncSite

/-- The operation was created from the offer. -/
def Origin.From (origin : Origin) (offer : OperationOffer) : Prop :=
  offer.command = some origin.command ∧
    ∃ target, origin.targets = [target] ∧
      offer.endpointId = some target.endpointId

structure View.Inv (c : Prop) (v : View) : Prop where
  own : ∀ x, v.op = some x → x.source ≠ .center → v.inbox = none
  taken : ∀ x, v.op = some x → x.source = .center →
    v.inbox ≠ none ∧ v.inbox ≠ some .rejected
  executed : v.inbox = some .accepted ∨ v.inbox = some .completed → v.op ≠ none
  silent : v.inbox = none → v.rejections = 0 ∧ v.acceptances = 0
  answered : 0 < v.acceptances → v.op ≠ none
  fresh : v.op = none → v.offer = none
  first : ∀ x, v.op = some x → x.source = .center →
    ∃ offer, v.offer = some offer ∧ x.From offer
  apart : c → v.op ≠ none → v.rejections = 0

/-- What is never undone, and that an operation silences rejections. -/
structure View.Later (v v' : View) : Prop where
  op : ∀ x, v.op = some x → v'.op = some x
  offer : ∀ x, v.offer = some x → v'.offer = some x
  rejections : v.rejections ≤ v'.rejections
  acceptances : v.acceptances ≤ v'.acceptances
  silenced : v.op ≠ none → v'.rejections = v.rejections

theorem View.Later.refl (v : View) : v.Later v :=
  ⟨fun _ h => h, fun _ h => h, le_rfl, le_rfl, fun _ => rfl⟩

theorem View.Later.op_ne {v v' : View} (h : v.Later v') (hop : v.op ≠ none) :
    v'.op ≠ none := by
  obtain ⟨x, hx⟩ := Option.ne_none_iff_exists'.mp hop
  rw [h.op x hx]
  exact Option.some_ne_none x

theorem View.Later.trans {v v' v'' : View} (h : v.Later v')
    (h' : v'.Later v'') : v.Later v'' where
  op := fun x hx => h'.op x (h.op x hx)
  offer := fun x hx => h'.offer x (h.offer x hx)
  rejections := h.rejections.trans h'.rejections
  acceptances := h.acceptances.trans h'.acceptances
  silenced := fun hop => (h'.silenced (h.op_ne hop)).trans (h.silenced hop)

variable {c : Prop} {v : View}

/-- An entry that exists belongs to an offer, so its operation, if there is
one, is the center's. -/
theorem View.Inv.center (h : v.Inv c) {x : Origin} (hop : v.op = some x)
    (hin : v.inbox ≠ none) : x.source = .center := by
  by_contra hx
  exact hin (h.own x hop hx)

/-- A rejected offer has no operation. -/
theorem View.Inv.rejected (h : v.Inv c) (hin : v.inbox = some .rejected) :
    v.op = none := by
  by_contra hop
  obtain ⟨x, hx⟩ := Option.ne_none_iff_exists'.mp hop
  have hcenter := h.center hx (by rw [hin]; exact Option.some_ne_none _)
  exact (h.taken x hx hcenter).2 hin

/-! ## The moves of a view -/

/-- A new entry. -/
theorem View.Inv.insert (h : v.Inv c)
    (hown : ∀ x, v.op = some x → x.source = .center) :
    (v.setInbox (v.inbox.getD .received)).Inv c := by
  cases hin : v.inbox with
  | some state =>
      have : v.setInbox state = v := by
        obtain ⟨op, inbox, rejections, acceptances, offer⟩ := v
        cases hin
        rfl
      rw [Option.getD_some, this]
      exact h
  | none =>
      have hop : v.op = none := by
        by_contra hop
        obtain ⟨x, hx⟩ := Option.ne_none_iff_exists'.mp hop
        exact (h.taken x hx (hown x hx)).1 hin
      refine ⟨?_, ?_, ?_, ?_, h.answered, h.fresh, h.first, h.apart⟩
      · intro x hx
        exact absurd (hop.symm.trans hx) (by simp)
      · intro x hx
        exact absurd (hop.symm.trans hx) (by simp)
      · simp [View.setInbox]
      · simp [View.setInbox]

/-- The operation of an offer whose entry is received. -/
theorem View.Inv.create {origin : Origin} {offer : OperationOffer}
    (h : v.Inv c) (hop : v.op = none) (hin : v.inbox = some .received)
    (hsource : origin.source = .center) (hfrom : origin.From offer)
    (hc : c → v.rejections = 0) : (v.create origin (some offer)).Inv c where
  own := by
    intro x hx hne
    simp only [View.create, hop, Option.getD_none, Option.some.injEq] at hx
    exact absurd (hx ▸ hsource) hne
  taken := by
    intro x _ _
    simp [View.create, hin]
  executed := fun _ => Option.some_ne_none _
  silent := by
    intro hnone
    exact absurd (hin.symm.trans hnone) (by simp)
  answered := fun _ => Option.some_ne_none _
  fresh := fun hnone => absurd hnone (Option.some_ne_none _)
  first := by
    intro x hx _
    simp only [View.create, hop, Option.getD_none, Option.some.injEq] at hx
    exact ⟨offer, by simp [View.create, h.fresh hop], hx ▸ hfrom⟩
  apart := fun hcond _ => hc hcond

theorem View.Later.create {origin : Origin} {offer : Option OperationOffer} :
    v.Later (v.create origin offer) where
  op := by
    intro x hx
    simp [View.create, hx]
  offer := by
    intro x hx
    simp [View.create, hx]
  rejections := le_rfl
  acceptances := le_rfl
  silenced := fun _ => rfl

/-- The entry of an existing operation of the center moves on. -/
theorem View.Inv.advance {state : InboxEntryState} (h : v.Inv c)
    (hop : v.op ≠ none) (hin : v.inbox ≠ none) (hs : state ≠ .rejected) :
    (v.setInbox state).Inv c where
  own := by
    intro x hx hne
    exact absurd (h.center hx hin) hne
  taken := by
    intro x _ _
    simpa [View.setInbox] using hs
  executed := fun _ => hop
  silent := by
    intro hnone
    cases hnone
  answered := h.answered
  fresh := h.fresh
  first := h.first
  apart := h.apart

/-- The entry of an offer without an operation is closed. -/
theorem View.Inv.reject (h : v.Inv c) (hop : v.op = none) :
    (v.setInbox .rejected).Inv c where
  own := by
    intro x hx
    exact absurd (hop.symm.trans hx) (by simp)
  taken := by
    intro x hx
    exact absurd (hop.symm.trans hx) (by simp)
  executed := by
    intro hin
    rcases hin with hin | hin <;> cases hin
  silent := by
    intro hnone
    cases hnone
  answered := h.answered
  fresh := h.fresh
  first := h.first
  apart := h.apart

theorem View.Later.setInbox {state : InboxEntryState} :
    v.Later (v.setInbox state) :=
  ⟨fun _ h => h, fun _ h => h, le_rfl, le_rfl, fun _ => rfl⟩

/-- The replies that may be queued about an id: a rejection only where there
is an entry and no operation, an acceptance only where there is one. -/
def View.MayQueue (message : EnvelopeMessage) (X : OperationId) (v : View) :
    Prop :=
  match message with
  | .operationRejected id _ _ => id = some X → v.op = none ∧ v.inbox ≠ none
  | .operationAccepted id _ => id = some X → v.op ≠ none ∧ v.inbox ≠ none
  | _ => True

theorem View.queue_cases (message : EnvelopeMessage) (X : OperationId)
    (v : View) (h : v.MayQueue message X) :
    v.queue message X = v ∨
      (v.op = none ∧ v.inbox ≠ none ∧
        v.queue message X = { v with rejections := v.rejections + 1 }) ∨
      (v.op ≠ none ∧ v.inbox ≠ none ∧
        v.queue message X = { v with acceptances := v.acceptances + 1 }) := by
  cases message with
  | operationRejected id reason detail =>
      by_cases hid : id = some X
      · obtain ⟨hop, hin⟩ := h hid
        exact .inr (.inl ⟨hop, hin, by simp [View.queue, hid]⟩)
      · exact .inl (by simp [View.queue, hid])
  | operationAccepted id acceptedAt =>
      by_cases hid : id = some X
      · obtain ⟨hop, hin⟩ := h hid
        exact .inr (.inr ⟨hop, hin, by simp [View.queue, hid]⟩)
      · exact .inl (by simp [View.queue, hid])
  | _ => exact .inl rfl

theorem View.Inv.queue {message : EnvelopeMessage} {X : OperationId}
    (h : v.Inv c) (hm : v.MayQueue message X) :
    (v.queue message X).Inv c := by
  rcases View.queue_cases message X v hm with hq | ⟨hop, hin, hq⟩ |
    ⟨hop, hin, hq⟩ <;> rw [hq]
  · exact h
  · exact ⟨h.own, h.taken, h.executed, fun hnone => absurd hnone hin,
      h.answered, h.fresh, h.first, fun _ hne => absurd hop hne⟩
  · exact ⟨h.own, h.taken, h.executed, fun hnone => absurd hnone hin,
      fun _ => hop, h.fresh, h.first, h.apart⟩

theorem View.Later.queue {message : EnvelopeMessage} {X : OperationId}
    (hm : v.MayQueue message X) : v.Later (v.queue message X) := by
  rcases View.queue_cases message X v hm with hq | ⟨hop, hin, hq⟩ |
    ⟨hop, hin, hq⟩ <;> rw [hq]
  · exact .refl v
  · exact ⟨fun _ h => h, fun _ h => h, Nat.le_succ _, le_rfl,
      fun hne => absurd hop hne⟩
  · exact ⟨fun _ h => h, fun _ h => h, le_rfl, Nat.le_succ _, fun _ => rfl⟩

/-- An operation of the site's own under a fresh identity. -/
theorem View.Inv.submit {origin : Origin} (h : v.Inv c) (hin : v.inbox = none)
    (hsource : origin.source ≠ .center) :
    View.Inv c { v with op := some origin } where
  own := fun _ _ _ => hin
  taken := by
    intro x hx hcenter
    cases hx
    exact absurd hcenter hsource
  executed := fun _ => Option.some_ne_none _
  silent := h.silent
  answered := fun _ => Option.some_ne_none _
  fresh := fun hnone => absurd hnone (Option.some_ne_none _)
  first := by
    intro x hx hcenter
    cases hx
    exact absurd hcenter hsource
  apart := fun _ _ => (h.silent hin).1

/-! ## Rely and guarantee -/

/-- What the rest of the site does between two calls: it never touches an
entry, and nothing of the id that is being handled. -/
structure Env (c : Prop) (handled : Option OperationId) (v v' : Views) :
    Prop where
  inv : ∀ X, (v X).Inv c → (v' X).Inv c
  later : ∀ X, (v X).Later (v' X)
  inbox : ∀ X, (v' X).inbox = (v X).inbox
  handled : ∀ X, handled = some X → v' X = v X

theorem Env.refl {handled : Option OperationId} (v : Views) :
    Env c handled v v :=
  ⟨fun _ h => h, fun _ => .refl _, fun _ => rfl, fun _ _ => rfl⟩

theorem Env.trans {handled : Option OperationId} {v v' v'' : Views}
    (h : Env c handled v v') (h' : Env c handled v' v'') :
    Env c handled v v'' where
  inv := fun X hX => h'.inv X (h.inv X hX)
  later := fun X => (h.later X).trans (h'.later X)
  inbox := fun X => (h'.inbox X).trans (h.inbox X)
  handled := fun X hX => (h'.handled X hX).trans (h.handled X hX)

/-- What a call of the loop does. -/
structure Own (c : Prop) (v v' : Views) : Prop where
  inv : ∀ X, (v X).Inv c → (v' X).Inv c
  later : ∀ X, (v X).Later (v' X)

theorem Own.refl (v : Views) : Own c v v :=
  ⟨fun _ h => h, fun _ => .refl _⟩

/-- A call that moves the view of one id. -/
theorem Own.update {v : Views} {X : OperationId} {f : View → View}
    (hinv : (v X).Inv c → (f (v X)).Inv c) (hlater : (v X).Later (f (v X))) :
    Own c v (v.update X f) where
  inv := by
    intro k hk
    by_cases hX : k = X
    · subst hX
      rw [Views.update_same]
      exact hinv hk
    · rw [Views.update_of_ne hX]
      exact hk
  later := by
    intro k
    by_cases hX : k = X
    · subst hX
      rw [Views.update_same]
      exact hlater
    · rw [Views.update_of_ne hX]
      exact .refl _

/-- A queued reply. -/
theorem Own.queue {v : Views} {message : EnvelopeMessage}
    (h : ∀ X, (v X).MayQueue message X) :
    Own c v fun X => (v X).queue message X where
  inv := fun X hX => hX.queue (h X)
  later := fun X => .queue (h X)

end Rutilus.Proofs.Offer
