import Rutilus.Domain.Center
import Rutilus.Lib.Table
import Rutilus.Store.Operations

/-!
# The inbox store

The `center_inbox` table, one row for each operation id: the idempotency key
of an offer. An insert never touches a stored row, an advance is one
conditional update, and no call deletes.
-/

namespace Rutilus.Store

open Rutilus.Domain Rutilus.Lib

abbrev InboxTable : Type := Table OperationId InboxEntry InboxEntry.operationId

inductive InboxInsertOutcome where
  | created
  | duplicateInProgress
  | duplicateResolved (state : InboxEntryState)
  deriving DecidableEq, Repr

inductive InboxAdvanceOutcome where
  | advanced (state : InboxEntryState)
  | alreadyInState
  deriving DecidableEq, Repr

inductive InboxRepositoryError where
  | fault (source : Fault)
  | notFound (operationId : OperationId)
  | stateConflict (operationId : OperationId) (event : InboxEvent)
      (current : InboxEntryState)
  deriving DecidableEq, Repr

def createInboxEntry (t : InboxTable) (entry : InboxEntry) :
    InboxInsertOutcome × InboxTable :=
  match t.find entry.operationId with
  | some stored => match decideInboxDuplicate (some stored.state) with
    | .proceed => (.created, t)
    | .inProgress => (.duplicateInProgress, t)
    | .alreadyResolved state => (.duplicateResolved state, t)
  | none => (.created, t.insertNew entry)

def findInboxEntryByOperation (t : InboxTable) (operationId : OperationId) :
    Option InboxEntry :=
  t.find operationId

def advanceInboxEntry (t : InboxTable) (operationId : OperationId)
    (event : InboxEvent) :
    Except InboxRepositoryError (InboxAdvanceOutcome × InboxTable) :=
  match t.find operationId with
  | none => .error (.notFound operationId)
  | some stored =>
    if stored.state = event.fromState then
      .ok (.advanced event.toState,
        t.replace { stored with state := event.toState })
    else if stored.state = event.toState then .ok (.alreadyInState, t)
    else .error (.stateConflict operationId event stored.state)

/-! ## The boundary -/

inductive InboxReq where
  | insert (entry : InboxEntry)
  | findByOperation (operationId : OperationId)
  | advance (operationId : OperationId) (event : InboxEvent)

abbrev InboxReq.Resp : InboxReq → Type
  | .insert _ => Except InboxRepositoryError InboxInsertOutcome
  | .findByOperation _ => Except InboxRepositoryError (Option InboxEntry)
  | .advance .. => Except InboxRepositoryError InboxAdvanceOutcome

/-- One call on the table. -/
def runInbox (fault : Option Fault) :
    (q : InboxReq) → InboxTable → q.Resp × InboxTable
  | .insert entry, t => match fault with
    | some f => (.error (.fault f), t)
    | none => (.ok (createInboxEntry t entry).1, (createInboxEntry t entry).2)
  | .findByOperation id, t => match fault with
    | some f => (.error (.fault f), t)
    | none => (.ok (findInboxEntryByOperation t id), t)
  | .advance id event, t => match fault with
    | some f => (.error (.fault f), t)
    | none => match advanceInboxEntry t id event with
      | .ok (outcome, t') => (.ok outcome, t')
      | .error e => (.error e, t)

/-! ## What each call does to one row -/

section Rows

variable {t t' : InboxTable} {operationId k : OperationId}

/-- The state the entry of an operation is in. -/
def inboxState (t : InboxTable) (operationId : OperationId) :
    Option InboxEntryState :=
  (t.find operationId).map InboxEntry.state

/-- An insert says what was stored before; a new entry starts received. -/
theorem createInboxEntry_spec (entry : InboxEntry)
    (hentry : entry.state = .received) :
    (createInboxEntry t entry).1 =
        (match inboxState t entry.operationId with
          | none => .created
          | some .received | some .accepted => .duplicateInProgress
          | some state => .duplicateResolved state) ∧
      inboxState (createInboxEntry t entry).2 k =
        if k = entry.operationId then
          some ((inboxState t entry.operationId).getD .received)
        else inboxState t k := by
  unfold createInboxEntry inboxState
  cases hfind : t.find entry.operationId with
  | none =>
      refine ⟨rfl, ?_⟩
      rw [Table.find_insertNew]
      by_cases hk : k = entry.operationId
      · subst hk
        simp [hfind, hentry]
      · simp [hk, Ne.symm hk]
  | some stored =>
      cases hs : stored.state <;>
      · refine ⟨by simp [decideInboxDuplicate, hs], ?_⟩
        by_cases hk : k = entry.operationId
        · subst hk
          simp [decideInboxDuplicate, hs, hfind]
        · simp [decideInboxDuplicate, hs, hk]

/-- A landed advance: the entry was in the event's state and is in the next
one, or it already was there. -/
theorem advanceInboxEntry_ok {event : InboxEvent}
    {outcome : InboxAdvanceOutcome}
    (h : advanceInboxEntry t operationId event = .ok (outcome, t')) :
    (inboxState t operationId = some event.fromState ∨
        inboxState t operationId = some event.toState) ∧
      ∀ k, inboxState t' k = if k = operationId then some event.toState
        else inboxState t k := by
  unfold advanceInboxEntry at h
  unfold inboxState
  cases hfind : t.find operationId with
  | none =>
      rw [hfind] at h
      cases h
  | some stored =>
      rw [hfind] at h
      dsimp only at h
      have hid : stored.operationId = operationId := Table.key_of_find hfind
      split at h
      · next hfrom =>
          cases h
          refine ⟨.inl (congrArg some hfrom), fun k => ?_⟩
          rw [Table.find_replace]
          by_cases hk : k = operationId
          · subst hk
            simp [hid, hfind]
          · simp [hid, hk, Ne.symm hk]
      · split at h
        · next hto =>
            cases h
            refine ⟨.inr (congrArg some hto), fun k => ?_⟩
            by_cases hk : k = operationId
            · subst hk
              simp [hfind, hto]
            · simp [hk]
        · cases h

end Rows

end Rutilus.Store
