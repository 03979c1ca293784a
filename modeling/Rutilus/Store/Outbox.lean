import Mathlib.Data.List.Sort
import Rutilus.Domain.Center
import Rutilus.Lib.Table
import Rutilus.Store.Operations

/-!
# The outbox store

The `center_outbox` table: envelopes queued for the other side, numbered per
instance. Both sides use it, the site for its content and replies, the center
for its offers. An offer's row also carries the operation it is about in a
column of its own; rows written before that column existed have none there, and
the directed reads look into their payload and fill the column in.

Acknowledging a row of an operation deletes the older acknowledged rows of the
same operation in the same instance. A row without an operation is never
deleted.
-/

namespace Rutilus.Store

open Rutilus.Domain Rutilus.Lib

/-- A row: the entry and the operation column. -/
structure OutboxRow where
  entry : OutboxEntry
  operationId : Option OperationId
  deriving DecidableEq, Repr

abbrev OutboxRow.id (row : OutboxRow) : OutboxEntryId := row.entry.id

abbrev OutboxTable : Type := Table OutboxEntryId OutboxRow OutboxRow.id

inductive OutboxRepositoryError where
  | fault (source : Fault)
  | sequenceOverflow (sequence : Int)
  | notFound (entryId : OutboxEntryId)
  | corrupt (entryId : OutboxEntryId)
  deriving DecidableEq, Repr

inductive AckOutcome where
  | acknowledged
  | alreadyAcknowledged
  deriving DecidableEq, Repr

def mapStoredOutboxEntry (row : OutboxRow) :
    Except OutboxRepositoryError OutboxEntry :=
  if row.entry.isValid then .ok row.entry else .error (.corrupt row.id)

/-! ## Writing -/

/-- The largest value of the sequence column. -/
def maxSequence : Int := 9223372036854775807

/-- The stored maximum of an instance, or 0. -/
def maximumSequence (t : OutboxTable) (instanceId : InstanceId) : Int :=
  ((t.rows.filter fun row => row.entry.instanceId = instanceId).map
    fun row => row.entry.sequence).max?.getD 0

/-- The new row under a sequence. -/
def outboxRowOf (entryId : OutboxEntryId) (instanceId : InstanceId)
    (sequence : Int) (message : EnvelopeMessage) (createdAt : Instant) :
    OutboxRow :=
  let envelope : Envelope := ⟨sequence.toNat, 0, some message⟩
  ⟨.new entryId instanceId sequence envelope createdAt,
    payloadOperationId (some envelope)⟩

/-- One transaction: take the next sequence and insert under it. `entryId` is
the identity the store generates. -/
def enqueueOutboxEntry (t : OutboxTable) (entryId : OutboxEntryId)
    (instanceId : InstanceId) (message : EnvelopeMessage)
    (createdAt : Instant) :
    Except OutboxRepositoryError (OutboxEntry × OutboxTable) :=
  let maximum := maximumSequence t instanceId
  if maxSequence < maximum + 1 then .error (.sequenceOverflow maximum)
  else if maximum + 1 < 0 then .error (.sequenceOverflow (maximum + 1))
  else if t.has entryId then .error (.fault .database)
  else
    let row := outboxRowOf entryId instanceId (maximum + 1) message createdAt
    .ok (row.entry, t.insertNew row)

/-- Queue order of an instance, oldest first. -/
def queuedBefore (a b : OutboxRow) : Prop :=
  a.entry.sequence < b.entry.sequence ∨
    a.entry.sequence = b.entry.sequence ∧ a.id.uuid ≤ b.id.uuid

instance : DecidableRel queuedBefore := fun _ _ =>
  inferInstanceAs (Decidable (_ ∨ _))

/-- The acknowledged rows of an operation in an instance. -/
def isAckedOf (instanceId : InstanceId) (operationId : OperationId)
    (row : OutboxRow) : Bool :=
  row.entry.instanceId = instanceId ∧ row.operationId = some operationId ∧
    row.entry.state = .acked

def pruneAckedOperationHistory (t : OutboxTable) (instanceId : InstanceId)
    (operationId : OperationId) : OutboxTable :=
  match ((t.rows.filter (isAckedOf instanceId operationId)).insertionSort
      fun a b => queuedBefore b a).head? with
  | none => t
  | some keeper => t.filter fun row =>
      !isAckedOf instanceId operationId row || row.id = keeper.id

/-- The row after its acknowledgement. -/
def OutboxRow.acked (row : OutboxRow) (ackedAt : Instant) : OutboxRow :=
  { row with entry :=
      { row.entry with state := .acked, ackedAt := some ackedAt } }

/-- The pruning that follows an acknowledgement of a row. -/
def pruneOf (t : OutboxTable) (row : OutboxRow) : OutboxTable :=
  match row.operationId with
  | none => t
  | some operationId =>
      pruneAckedOperationHistory t row.entry.instanceId operationId

def ackOutboxEntry (t : OutboxTable) (entryId : OutboxEntryId)
    (ackedAt : Instant) :
    Except OutboxRepositoryError (AckOutcome × OutboxTable) :=
  match t.find entryId with
  | none => .error (.notFound entryId)
  | some row => match row.entry.state with
    | .pending =>
        .ok (.acknowledged, pruneOf (t.replace (row.acked ackedAt)) row)
    | .acked =>
        (mapStoredOutboxEntry row).map fun _ =>
          (.alreadyAcknowledged, pruneOf t row)

/-! ## Reading -/

def listPendingOutbox (t : OutboxTable) (instanceId : InstanceId)
    (limit : Nat) : Except OutboxRepositoryError (List OutboxEntry) :=
  (((t.rows.filter fun row =>
    row.entry.instanceId = instanceId ∧
      row.entry.state = .pending).insertionSort queuedBefore).take limit).mapM
    mapStoredOutboxEntry

def listOutboxEntries (t : OutboxTable) (instanceId : InstanceId) :
    Except OutboxRepositoryError (List OutboxEntry) :=
  ((t.rows.filter fun row =>
    row.entry.instanceId = instanceId).insertionSort queuedBefore).mapM
    mapStoredOutboxEntry

/-- The first of some rows without an operation column whose payload is an
offer of the operation; a row that cannot be read ends the scan. -/
def scanPayloads (operationId : OperationId) :
    List OutboxRow → Except OutboxRepositoryError (Option OutboxRow)
  | [] => .ok none
  | row :: rows => do
    let entry ← mapStoredOutboxEntry row
    if payloadOperationId entry.payload = some operationId then
      return some row
    else scanPayloads operationId rows

/-- The directed read over some rows in the order `newer`: the first row with
the operation in its column, else the payload scan with its backfill. -/
def findByOperation (t : OutboxTable) (among : OutboxRow → Bool)
    (newer : OutboxRow → OutboxRow → Prop) [DecidableRel newer]
    (operationId : OperationId) :
    Except OutboxRepositoryError (Option OutboxEntry × OutboxTable) :=
  let rows := (t.rows.filter among).insertionSort newer
  match rows.find? fun row => row.operationId = some operationId with
  | some row => (mapStoredOutboxEntry row).map fun entry => (some entry, t)
  | none => do
    match ← scanPayloads operationId
        (rows.filter fun row => row.operationId = none) with
    | none => return (none, t)
    | some row =>
      return (some row.entry,
        t.replace { row with operationId := some operationId })

def findOutboxEntryByOperation (t : OutboxTable) (instanceId : InstanceId)
    (operationId : OperationId) :
    Except OutboxRepositoryError (Option OutboxEntry × OutboxTable) :=
  findByOperation t (fun row => row.entry.instanceId = instanceId)
    (fun a b => queuedBefore b a) operationId

/-- Order of creation, newest first. -/
def createdAfter (a b : OutboxRow) : Prop :=
  b.entry.createdAt < a.entry.createdAt ∨
    a.entry.createdAt = b.entry.createdAt ∧ b.id.uuid ≤ a.id.uuid

instance : DecidableRel createdAfter := fun _ _ =>
  inferInstanceAs (Decidable (_ ∨ _))

def findOfferByOperationAcrossInstances (t : OutboxTable)
    (operationId : OperationId) :
    Except OutboxRepositoryError (Option OutboxEntry × OutboxTable) :=
  findByOperation t (fun _ => true) createdAfter operationId

/-! ## The boundary -/

inductive OutboxReq where
  | enqueue (instanceId : InstanceId) (message : EnvelopeMessage)
      (createdAt : Instant)
  | listPending (instanceId : InstanceId) (limit : Nat)
  | listOffers (instanceId : InstanceId)
  | findOfferByOperation (instanceId : InstanceId) (operationId : OperationId)
  | findOfferByOperationAcrossInstances (operationId : OperationId)
  | acknowledge (entryId : OutboxEntryId) (ackedAt : Instant)

abbrev OutboxReq.Resp : OutboxReq → Type
  | .enqueue .. => Except OutboxRepositoryError OutboxEntry
  | .listPending .. => Except OutboxRepositoryError (List OutboxEntry)
  | .listOffers _ => Except OutboxRepositoryError (List OutboxEntry)
  | .findOfferByOperation .. =>
      Except OutboxRepositoryError (Option OutboxEntry)
  | .findOfferByOperationAcrossInstances _ =>
      Except OutboxRepositoryError (Option OutboxEntry)
  | .acknowledge .. => Except OutboxRepositoryError Unit

/-- The answer and the next table of a call that may also write. -/
def answered {ε τ α : Type} (t : τ) : Except ε (α × τ) → Except ε α × τ
  | .ok (a, t') => (.ok a, t')
  | .error e => (.error e, t)

/-- One call on the table; `entryId` is the identity an insert would get. -/
def runOutbox (fault : Option Fault) (entryId : OutboxEntryId) :
    (q : OutboxReq) → OutboxTable → q.Resp × OutboxTable
  | q, t => match fault with
    | some f => match q with
      | .enqueue .. => (.error (.fault f), t)
      | .listPending .. => (.error (.fault f), t)
      | .listOffers _ => (.error (.fault f), t)
      | .findOfferByOperation .. => (.error (.fault f), t)
      | .findOfferByOperationAcrossInstances _ => (.error (.fault f), t)
      | .acknowledge .. => (.error (.fault f), t)
    | none => match q with
      | .enqueue instanceId message createdAt =>
          answered t (enqueueOutboxEntry t entryId instanceId message createdAt)
      | .listPending instanceId limit =>
          (listPendingOutbox t instanceId limit, t)
      | .listOffers instanceId => (listOutboxEntries t instanceId, t)
      | .findOfferByOperation instanceId operationId =>
          answered t (findOutboxEntryByOperation t instanceId operationId)
      | .findOfferByOperationAcrossInstances operationId =>
          answered t (findOfferByOperationAcrossInstances t operationId)
      | .acknowledge entryId ackedAt =>
          answered t ((ackOutboxEntry t entryId ackedAt).map fun r => ((), r.2))

/-! ## What each write does -/

section Rows

variable {t t' : OutboxTable} {entryId : OutboxEntryId}
  {instanceId : InstanceId} {message : EnvelopeMessage} {now : Instant}

theorem le_maximumSequence {row : OutboxRow} (h : row ∈ t.rows) :
    row.entry.sequence ≤ maximumSequence t row.entry.instanceId := by
  unfold maximumSequence
  have hmem : row.entry.sequence ∈
      (t.rows.filter fun r => r.entry.instanceId = row.entry.instanceId).map
        fun r => r.entry.sequence := by
    refine List.mem_map.mpr ⟨row, List.mem_filter.mpr ⟨h, ?_⟩, rfl⟩
    simp
  obtain ⟨m, hm⟩ := Option.isSome_iff_exists.mp
    (List.isSome_max?_of_mem hmem)
  rw [hm]
  exact (List.max?_le_iff hm).mp le_rfl _ hmem

/-- A landed enqueue: one new row at the end, numbered above every row of its
instance. -/
theorem enqueueOutboxEntry_ok {entry : OutboxEntry}
    (h : enqueueOutboxEntry t entryId instanceId message now =
      .ok (entry, t')) :
    ∃ sequence, 0 ≤ sequence ∧
      (∀ row ∈ t.rows, row.entry.instanceId = instanceId →
        row.entry.sequence < sequence) ∧
      entry = (outboxRowOf entryId instanceId sequence message now).entry ∧
      t.find entryId = none ∧
      t'.rows = t.rows ++
        [outboxRowOf entryId instanceId sequence message now] := by
  unfold enqueueOutboxEntry at h
  dsimp only at h
  split at h
  · cases h
  · split at h
    · cases h
    · next hneg =>
        split at h
        · cases h
        · next hid =>
            cases h
            have hid : t.find entryId = none := by
              simpa [Table.has] using hid
            refine ⟨maximumSequence t instanceId + 1, by omega, ?_, rfl, hid,
              Table.rows_insertNew hid⟩
            intro row hrow hinstance
            have hle := le_maximumSequence hrow
            rw [hinstance] at hle
            omega

theorem sublist_pruneOf (row : OutboxRow) :
    (pruneOf t row).rows.Sublist t.rows := by
  unfold pruneOf
  split
  · exact List.Sublist.refl _
  · unfold pruneAckedOperationHistory
    split
    · exact List.Sublist.refl _
    · exact List.filter_sublist

/-- The pruning spares pending rows and rows without an operation. -/
theorem mem_pruneOf {row r : OutboxRow} (hr : r ∈ t.rows)
    (h : r.entry.state = .pending ∨ r.operationId = none) :
    r ∈ (pruneOf t row).rows := by
  unfold pruneOf
  split
  · exact hr
  · next operationId _ =>
      unfold pruneAckedOperationHistory
      split
      · exact hr
      · refine List.mem_filter.mpr ⟨hr, ?_⟩
        have : isAckedOf row.entry.instanceId operationId r = false := by
          rcases h with h | h <;> simp [isAckedOf, h]
        simp [this]

/-- A landed acknowledgement leaves no row but stored ones and the one it
acknowledged. -/
theorem ackOutboxEntry_ok {outcome : AckOutcome}
    (h : ackOutboxEntry t entryId now = .ok (outcome, t')) :
    ∃ row ∈ t.rows, row.id = entryId ∧
      ∀ r ∈ t'.rows, r ∈ t.rows ∧ (r.id = entryId → r.entry.state = .acked) ∨
        r = row.acked now := by
  unfold ackOutboxEntry at h
  split at h
  · cases h
  · next row hrow =>
      obtain ⟨hmem, hid⟩ := Table.find_eq_some_iff.mp hrow
      refine ⟨row, hmem, hid, ?_⟩
      split at h
      · cases h
        intro r hr
        have hr := (sublist_pruneOf row).subset hr
        obtain ⟨x, hx, rfl⟩ := List.mem_map.mp hr
        by_cases hxid : x.id = (row.acked now).id
        · exact .inr (by simp [hxid])
        · refine .inl ⟨by simpa [hxid] using hx, ?_⟩
          intro hc
          rw [if_neg hxid] at hc
          exact absurd (hc.trans hid.symm) hxid
      · next hstate =>
          unfold mapStoredOutboxEntry at h
          split at h
          · cases h
            intro r hr
            have hr := (sublist_pruneOf row).subset hr
            refine .inl ⟨hr, fun hrid => ?_⟩
            have : r = row := List.inj_on_of_nodup_map t.nodup hr hmem
              (hrid.trans hid.symm)
            rw [this]
            exact hstate
          · cases h

/-- The payload scan finds one of its rows, with the operation it looks for. -/
theorem scanPayloads_ok {operationId : OperationId} {rows : List OutboxRow}
    {r : OutboxRow} (h : scanPayloads operationId rows = .ok (some r)) :
    r ∈ rows ∧ payloadOperationId r.entry.payload = some operationId := by
  induction rows with
  | nil => cases h
  | cons row rows ih =>
      unfold scanPayloads mapStoredOutboxEntry at h
      split at h
      · replace h : (if payloadOperationId row.entry.payload = some operationId
            then .ok (some row) else scanPayloads operationId rows) =
              .ok (some r) := h
        split at h
        · next hp =>
            cases h
            exact ⟨List.mem_cons_self, hp⟩
        · obtain ⟨hin, hp⟩ := ih h
          exact ⟨List.mem_cons_of_mem _ hin, hp⟩
      · cases h

/-- A directed read finds a stored row of the operation, and fills in at most
the operation column of the row it found. -/
theorem findByOperation_ok {among : OutboxRow → Bool}
    {newer : OutboxRow → OutboxRow → Prop} [DecidableRel newer]
    {operationId : OperationId} {found : Option OutboxEntry}
    (h : findByOperation t among newer operationId = .ok (found, t')) :
    (t' = t ∧ ∀ entry, found = some entry →
        ∃ row ∈ t.rows, among row = true ∧ row.entry = entry ∧
          row.operationId = some operationId) ∨
      ∃ row ∈ t.rows, among row = true ∧ row.operationId = none ∧
        payloadOperationId row.entry.payload = some operationId ∧
        found = some row.entry ∧
        t' = t.replace { row with operationId := some operationId } := by
  have hmem : ∀ row ∈ (t.rows.filter among).insertionSort newer,
      row ∈ t.rows ∧ among row = true := by
    intro row hrow
    exact List.mem_filter.mp ((List.mem_insertionSort _).mp hrow)
  unfold findByOperation at h
  dsimp only at h
  split at h
  · next row hfind =>
      have hrow := hmem row (List.mem_of_find?_eq_some hfind)
      have hop : row.operationId = some operationId := by
        simpa using List.find?_some hfind
      unfold mapStoredOutboxEntry at h
      split at h
      · cases h
        refine .inl ⟨rfl, fun entry hentry => ?_⟩
        cases hentry
        exact ⟨row, hrow.1, hrow.2, rfl, hop⟩
      · cases h
  · cases hs : scanPayloads operationId
        (((t.rows.filter among).insertionSort newer).filter
          fun row => row.operationId = none) with
    | error e =>
        rw [hs] at h
        cases h
    | ok r =>
        rw [hs] at h
        cases r with
        | none =>
            cases h
            exact .inl ⟨rfl, fun entry hentry => by cases hentry⟩
        | some row =>
            cases h
            obtain ⟨hin, hp⟩ := scanPayloads_ok hs
            obtain ⟨hin, hnone⟩ := List.mem_filter.mp hin
            obtain ⟨hin, hamong⟩ := hmem row hin
            exact .inr ⟨row, hin, hamong, by simpa using hnone, hp, rfl, rfl⟩

/-- The operation column, where it is set, says what the payload says. -/
def ColumnAgrees (t : OutboxTable) : Prop :=
  ∀ row ∈ t.rows, row.operationId = none ∨
    row.operationId = payloadOperationId row.entry.payload

theorem ColumnAgrees.enqueue {entry : OutboxEntry} (ht : ColumnAgrees t)
    (h : enqueueOutboxEntry t entryId instanceId message now =
      .ok (entry, t')) : ColumnAgrees t' := by
  obtain ⟨sequence, -, -, -, -, hrows⟩ := enqueueOutboxEntry_ok h
  intro row hrow
  rw [hrows, List.mem_append, List.mem_singleton] at hrow
  rcases hrow with hrow | rfl
  · exact ht row hrow
  · exact .inr rfl

theorem ColumnAgrees.ack {outcome : AckOutcome} (ht : ColumnAgrees t)
    (h : ackOutboxEntry t entryId now = .ok (outcome, t')) :
    ColumnAgrees t' := by
  obtain ⟨row, hmem, -, hrows⟩ := ackOutboxEntry_ok h
  intro r hr
  rcases hrows r hr with ⟨hr, -⟩ | rfl
  · exact ht r hr
  · exact ht row hmem

theorem ColumnAgrees.find {among : OutboxRow → Bool}
    {newer : OutboxRow → OutboxRow → Prop} [DecidableRel newer]
    {operationId : OperationId} {found : Option OutboxEntry}
    (ht : ColumnAgrees t)
    (h : findByOperation t among newer operationId = .ok (found, t')) :
    ColumnAgrees t' := by
  rcases findByOperation_ok h with ⟨rfl, -⟩ | ⟨row, -, -, -, hp, -, rfl⟩
  · exact ht
  · intro r hr
    obtain ⟨x, hx, rfl⟩ := List.mem_map.mp hr
    split
    · exact .inr hp.symm
    · exact ht x hx

/-! Rows about no operation are counted the same before and after an
acknowledgement. -/

section Count

variable {p : OutboxRow → Bool}

theorem ColumnAgrees.countP_pruneOf (ht : ColumnAgrees t)
    (hp : ∀ row, p row = true → payloadOperationId row.entry.payload = none)
    (row : OutboxRow) : (pruneOf t row).rows.countP p = t.rows.countP p := by
  unfold pruneOf
  split
  · rfl
  · next operationId _ =>
      unfold pruneAckedOperationHistory
      split
      · rfl
      · next keeper _ =>
          show (t.rows.filter _).countP p = _
          rw [List.countP_filter]
          refine List.countP_congr fun r hr => ?_
          have hkept : p r = true →
              isAckedOf row.entry.instanceId operationId r = false := by
            intro hpr
            have hnone : r.operationId = none := by
              rcases ht r hr with h | h
              · exact h
              · rw [h, hp r hpr]
            simp [isAckedOf, hnone]
          constructor
          · intro h
            rw [Bool.and_eq_true] at h
            exact h.1
          · intro h
            simp [h, hkept h]

theorem ColumnAgrees.countP_ack {outcome : AckOutcome} (ht : ColumnAgrees t)
    (hp : ∀ row, p row = true → payloadOperationId row.entry.payload = none)
    (hacked : ∀ row, p (row.acked now) = p row)
    (h : ackOutboxEntry t entryId now = .ok (outcome, t')) :
    t'.rows.countP p = t.rows.countP p := by
  unfold ackOutboxEntry at h
  split at h
  · cases h
  · next row hrow =>
      obtain ⟨hmem, -⟩ := Table.find_eq_some_iff.mp hrow
      split at h
      · cases h
        have hreplace : ColumnAgrees (t.replace (row.acked now)) := by
          intro r hr
          obtain ⟨x, hx, rfl⟩ := List.mem_map.mp hr
          split
          · exact ht row hmem
          · exact ht x hx
        rw [hreplace.countP_pruneOf hp row]
        show (t.rows.map _).countP p = _
        rw [List.countP_map]
        refine List.countP_congr fun x hx => ?_
        rw [Function.comp_apply]
        by_cases hid : x.id = (row.acked now).id
        · have : x = row := List.inj_on_of_nodup_map t.nodup hx hmem hid
          rw [if_pos hid, hacked, this]
        · rw [if_neg hid]
      · unfold mapStoredOutboxEntry at h
        split at h
        · cases h
          exact ht.countP_pruneOf hp row
        · cases h

end Count

/-- Every call keeps the operation column in line with the payload. -/
theorem ColumnAgrees.run (ht : ColumnAgrees t) (fault : Option Fault)
    (q : OutboxReq) : ColumnAgrees (runOutbox fault entryId q t).2 := by
  have hwrite : ∀ {α : Type} (r : Except OutboxRepositoryError
      (α × OutboxTable)), (∀ a t', r = .ok (a, t') → ColumnAgrees t') →
        ColumnAgrees (answered t r).2 := by
    intro α r hr
    cases r with
    | error e => exact ht
    | ok a => exact hr a.1 a.2 rfl
  cases fault with
  | some f => cases q <;> exact ht
  | none =>
      cases q with
      | enqueue instanceId message createdAt =>
          exact hwrite _ fun entry t' h => ht.enqueue h
      | listPending instanceId limit => exact ht
      | listOffers instanceId => exact ht
      | findOfferByOperation instanceId operationId =>
          exact hwrite _ fun found t' h => ht.find h
      | findOfferByOperationAcrossInstances operationId =>
          exact hwrite _ fun found t' h => ht.find h
      | acknowledge entryId ackedAt =>
          refine hwrite _ fun u t' h => ?_
          cases hack : ackOutboxEntry t entryId ackedAt with
          | error e =>
              rw [hack] at h
              cases h
          | ok r =>
              obtain ⟨outcome, t₁⟩ := r
              rw [hack] at h
              cases h
              exact ht.ack hack

end Rows

end Rutilus.Store
