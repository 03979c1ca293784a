import Rutilus.Lib.Listing
import Rutilus.Lib.Runs
import Rutilus.Store.Outbox

/-!
# What a call does to the outbox rows

Every call on the outbox either adds one row at the end of its queue or changes
rows in place and deletes some. A row that is deleted belonged to the history
of an operation in one instance and leaves an acknowledged row of that history
behind, at least as new.
-/

namespace Rutilus.Proofs.OutboxRows

open Rutilus.Domain Rutilus.Lib Rutilus.Store

/-! ## Queue order -/

theorem queuedBefore_total (a b : OutboxRow) :
    queuedBefore a b ∨ queuedBefore b a := by
  unfold queuedBefore
  omega

theorem queuedBefore_trans {a b c : OutboxRow} (h₁ : queuedBefore a b)
    (h₂ : queuedBefore b c) : queuedBefore a c := by
  unfold queuedBefore at *
  omega

theorem sequence_le_of_queuedBefore {a b : OutboxRow}
    (h : queuedBefore a b) : a.entry.sequence ≤ b.entry.sequence := by
  unfold queuedBefore at h
  omega

/-- The first row in descending order is after every other row. -/
theorem queuedBefore_head {rows : List OutboxRow} {keeper x : OutboxRow}
    (h : (rows.insertionSort fun a b => queuedBefore b a).head? = some keeper)
    (hx : x ∈ rows) : x = keeper ∨ queuedBefore x keeper := by
  have : Std.Total fun a b : OutboxRow => queuedBefore b a :=
    ⟨fun a b => queuedBefore_total b a⟩
  have : IsTrans OutboxRow fun a b => queuedBefore b a :=
    ⟨fun a b c h₁ h₂ => queuedBefore_trans h₂ h₁⟩
  have hsorted := List.pairwise_insertionSort
    (fun a b : OutboxRow => queuedBefore b a) rows
  obtain ⟨rest, hrest⟩ := List.head?_eq_some_iff.mp h
  rw [hrest, List.pairwise_cons] at hsorted
  have hx : x ∈ keeper :: rest := by
    rw [← hrest]
    exact (List.mem_insertionSort _).mpr hx
  rcases List.mem_cons.mp hx with rfl | hx
  · exact .inl rfl
  · exact .inr (hsorted.1 x hx)

/-! ## Listings -/

/-- A listing that was answered is the listing of the table. -/
theorem listPending_ok {t : OutboxTable} {fault : Option Fault}
    {entryId : OutboxEntryId} {siteId : InstanceId} {limit : Nat}
    {entries : List OutboxEntry}
    (h : (runOutbox fault entryId (.listPending siteId limit) t).1 =
      .ok entries) : listPendingOutbox t siteId limit = .ok entries := by
  cases fault with
  | some f => cases h
  | none => exact h

/-- A listing holds the lowest pending rows of the queue in order: with every
sequence used once it ascends, and what it leaves out stands above it. -/
theorem listPendingOutbox_ok {t : OutboxTable} {instanceId : InstanceId}
    {limit : Nat} {entries : List OutboxEntry}
    (hdistinct : ∀ a ∈ t.rows, ∀ b ∈ t.rows,
      a.entry.instanceId = b.entry.instanceId →
        a.entry.sequence = b.entry.sequence → a.id = b.id)
    (h : listPendingOutbox t instanceId limit = .ok entries) :
    (∀ entry ∈ entries, ∃ row ∈ t.rows, row.entry = entry ∧
      row.entry.instanceId = instanceId ∧ row.entry.state = .pending) ∧
    entries.Pairwise (fun a b => a.sequence < b.sequence) ∧
    ∀ row ∈ t.rows, row.entry.instanceId = instanceId →
      row.entry.state = .pending → row.entry ∉ entries →
        ∀ entry ∈ entries, entry.sequence < row.entry.sequence := by
  unfold listPendingOutbox at h
  set rows := (t.rows.filter fun row => row.entry.instanceId = instanceId ∧
    row.entry.state = .pending).insertionSort queuedBefore with hrows
  have hmem : ∀ row, row ∈ rows ↔ row ∈ t.rows ∧
      row.entry.instanceId = instanceId ∧ row.entry.state = .pending := by
    intro row
    rw [hrows, List.mem_insertionSort, List.mem_filter, decide_eq_true_eq]
  have hentries : entries = (rows.take limit).map OutboxRow.entry := by
    rw [← List.map_id entries]
    refine map_of_mapM_ok (fun row entry hr => ?_) h
    unfold mapStoredOutboxEntry at hr
    split at hr
    · exact (Except.ok.inj hr).symm
    · cases hr
  -- the sort leaves no equals, since every sequence is used once
  have hstrict : rows.Pairwise fun a b =>
      a.entry.sequence < b.entry.sequence := by
    have : Std.Total queuedBefore := ⟨queuedBefore_total⟩
    have : IsTrans OutboxRow queuedBefore := ⟨fun _ _ _ => queuedBefore_trans⟩
    have hnodup : (rows.map OutboxRow.id).Nodup :=
      ((List.perm_insertionSort queuedBefore _).map _).nodup_iff.mpr
        ((List.filter_sublist.map _).nodup t.nodup)
    have hsorted := List.pairwise_insertionSort queuedBefore
      (t.rows.filter fun row => row.entry.instanceId = instanceId ∧
        row.entry.state = .pending)
    have hpair := hsorted.and (List.pairwise_map.mp hnodup)
    refine hpair.imp_of_mem fun {a b} ha hb hab => ?_
    obtain ⟨ha, hia, -⟩ := (hmem a).mp ha
    obtain ⟨hb, hib, -⟩ := (hmem b).mp hb
    refine lt_of_le_of_ne (sequence_le_of_queuedBefore hab.1) fun heq => ?_
    exact hab.2 (hdistinct a ha b hb (hia.trans hib.symm) heq)
  refine ⟨fun entry he => ?_, ?_, fun row hrow hinstance hpending hout => ?_⟩
  · rw [hentries] at he
    obtain ⟨row, hrow, rfl⟩ := List.mem_map.mp he
    obtain ⟨hrow, hinstance, hpending⟩ :=
      (hmem row).mp (List.mem_of_mem_take hrow)
    exact ⟨row, hrow, rfl, hinstance, hpending⟩
  · rw [hentries, List.pairwise_map]
    exact hstrict.sublist (List.take_sublist _ _)
  · intro entry he
    rw [hentries] at he hout
    obtain ⟨r, hr, rfl⟩ := List.mem_map.mp he
    have hrow' := (hmem row).mpr ⟨hrow, hinstance, hpending⟩
    rw [← List.take_append_drop limit rows] at hrow' hstrict
    rcases List.mem_append.mp hrow' with htake | hdrop
    · exact absurd (List.mem_map_of_mem htake) hout
    · exact (List.pairwise_append.mp hstrict).2.2 r hr row hdrop

/-! ## What a step does to the rows -/

/-- A later version of a row: acknowledged, or its operation column filled in
from the payload. -/
structure Version (row' row : OutboxRow) : Prop where
  id : row'.id = row.id
  instanceId : row'.entry.instanceId = row.entry.instanceId
  sequence : row'.entry.sequence = row.entry.sequence
  payload : row'.entry.payload = row.entry.payload
  createdAt : row'.entry.createdAt = row.entry.createdAt
  column : row'.operationId = row.operationId ∨ row.operationId = none ∧
    row'.operationId = payloadOperationId row.entry.payload

theorem Version.refl (row : OutboxRow) : Version row row :=
  ⟨rfl, rfl, rfl, rfl, rfl, .inl rfl⟩

theorem Version.trans {a b c : OutboxRow} (h₁ : Version a b)
    (h₂ : Version b c) : Version a c where
  id := h₁.id.trans h₂.id
  instanceId := h₁.instanceId.trans h₂.instanceId
  sequence := h₁.sequence.trans h₂.sequence
  payload := h₁.payload.trans h₂.payload
  createdAt := h₁.createdAt.trans h₂.createdAt
  column := by
    have hpayload := h₂.payload
    rcases h₁.column with h₁ | ⟨h₁, h₁'⟩ <;>
      rcases h₂.column with h₂ | ⟨h₂, h₂'⟩
    · exact .inl (h₁.trans h₂)
    · exact .inr ⟨h₂, h₁.trans h₂'⟩
    · exact .inr ⟨h₂ ▸ h₁, h₁'.trans (by rw [hpayload])⟩
    · exact .inr ⟨h₂, h₁'.trans (by rw [hpayload])⟩

theorem Version.acked (row : OutboxRow) (now : Instant) :
    Version (row.acked now) row :=
  ⟨rfl, rfl, rfl, rfl, rfl, .inl rfl⟩

/-- A step that adds no row: every row left is a version of a stored one, and a
row that is gone had an acknowledged row of its history after it, which is
left. -/
structure Shrinks (acked : OutboxRow → Prop)
    (history : Option (InstanceId × OperationId)) (t t' : OutboxTable) :
    Prop where
  stored : ∀ row' ∈ t'.rows, ∃ row ∈ t.rows, Version row' row
  gone : ∀ row ∈ t.rows, (∃ row' ∈ t'.rows, Version row' row) ∨
    ∃ operationId, history = some (row.entry.instanceId, operationId) ∧
      row.operationId = some operationId ∧ acked row ∧
      ∃ keeper ∈ t'.rows,
        isAckedOf row.entry.instanceId operationId keeper = true ∧
        keeper.id ≠ row.id ∧ row.entry.sequence ≤ keeper.entry.sequence

section Steps

variable {t t' : OutboxTable} {acked : OutboxRow → Prop}
  {history : Option (InstanceId × OperationId)}

theorem Shrinks.refl : Shrinks acked history t t where
  stored row hrow := ⟨row, hrow, .refl row⟩
  gone row hrow := .inl ⟨row, hrow, .refl row⟩

/-- A row written back under its own key keeps every row. -/
theorem Shrinks.replace {row : OutboxRow} {new : OutboxRow}
    (hrow : row ∈ t.rows) (h : Version new row) :
    Shrinks acked history t (t.replace new) where
  stored := by
    intro row' hrow'
    obtain ⟨x, hx, rfl⟩ := List.mem_map.mp hrow'
    split
    · exact ⟨row, hrow, h⟩
    · exact ⟨x, hx, .refl x⟩
  gone := by
    intro x hx
    refine .inl ⟨_, List.mem_map.mpr ⟨x, hx, rfl⟩, ?_⟩
    split
    · next hid =>
        have : x = row := List.inj_on_of_nodup_map t.nodup hx hrow
          (hid.trans h.id)
        rw [this]
        exact h
    · exact .refl x

/-- The prune keeps the newest acknowledged row of its history and everything
outside it. -/
theorem shrinks_pruneAckedOperationHistory (t : OutboxTable)
    (instanceId : InstanceId) (operationId : OperationId) :
    Shrinks (fun row => row.entry.state = .acked)
      (some (instanceId, operationId)) t
      (pruneAckedOperationHistory t instanceId operationId) := by
  unfold pruneAckedOperationHistory
  split
  · exact .refl
  · next keeper hkeeper =>
      have hmem : keeper ∈ t.rows.filter (isAckedOf instanceId operationId) :=
        (List.mem_insertionSort _).mp (List.mem_of_head? hkeeper)
      obtain ⟨hstored, hacked⟩ := List.mem_filter.mp hmem
      refine ⟨fun row' hrow' => ⟨row', List.mem_of_mem_filter hrow',
        .refl row'⟩, fun row hrow => ?_⟩
      by_cases hkept : (!isAckedOf instanceId operationId row ||
          decide (row.id = keeper.id)) = true
      · exact .inl ⟨row, List.mem_filter.mpr ⟨hrow, hkept⟩, .refl row⟩
      · obtain ⟨hof, hid⟩ : isAckedOf instanceId operationId row = true ∧
            row.id ≠ keeper.id := by simpa using hkept
        have hle : row.entry.sequence ≤ keeper.entry.sequence := by
          rcases queuedBefore_head hkeeper
            (List.mem_filter.mpr ⟨hrow, hof⟩) with rfl | h
          · exact le_rfl
          · exact sequence_le_of_queuedBefore h
        obtain ⟨rfl, hop, hstate⟩ : row.entry.instanceId = instanceId ∧
            row.operationId = some operationId ∧
            row.entry.state = .acked := by simpa [isAckedOf] using hof
        refine .inr ⟨operationId, rfl, hop, hstate, keeper, ?_, hacked,
          hid.symm, hle⟩
        exact List.mem_filter.mpr ⟨hstored, by simp⟩

/-- A prune after a row changed in place. -/
theorem Shrinks.prune {row : OutboxRow} (new : OutboxRow)
    (hrow : row ∈ t.rows) (h : Version new row) (hop : new.operationId = row.operationId)
    (hacked : acked row)
    (hstate : ∀ r ∈ t.rows, r.entry.state = .acked → acked r) :
    Shrinks acked
      (row.operationId.map fun operationId =>
        (row.entry.instanceId, operationId))
      t (pruneOf (t.replace new) row) := by
  unfold pruneOf
  split
  · exact .replace hrow h
  · next operationId hoperation =>
      rw [hoperation, Option.map_some]
      have hprune := shrinks_pruneAckedOperationHistory (t.replace new)
        row.entry.instanceId operationId
      have hreplace : Shrinks acked none t (t.replace new) := .replace hrow h
      refine ⟨?_, ?_⟩
      · intro row' hrow'
        obtain ⟨x, hx, h₁⟩ := hprune.stored row' hrow'
        obtain ⟨y, hy, h₂⟩ := hreplace.stored x hx
        exact ⟨y, hy, h₁.trans h₂⟩
      · intro r hr
        have hx : (if r.id = new.id then new else r) ∈
            (t.replace new).rows := List.mem_map.mpr ⟨r, hr, rfl⟩
        by_cases hid : r.id = new.id
        · have hrr : r = row := List.inj_on_of_nodup_map t.nodup hr hrow
            (hid.trans h.id)
          subst hrr
          rw [if_pos hid] at hx
          rcases hprune.gone new hx with ⟨row', hrow', h'⟩ |
            ⟨op, hhistory, hop', -, keeper, hkeeper, hof, hne, hle⟩
          · exact .inl ⟨row', hrow', h'.trans h⟩
          · rw [h.instanceId] at hhistory hof
            rw [h.id] at hne
            rw [h.sequence] at hle
            exact .inr ⟨op, hhistory, hop ▸ hop', hacked, keeper, hkeeper, hof,
              hne, hle⟩
        · rw [if_neg hid] at hx
          rcases hprune.gone r hx with hleft |
            ⟨op, hhistory, hop', hr', hkeeper⟩
          · exact .inl hleft
          · exact .inr ⟨op, hhistory, hop', hstate r hr hr', hkeeper⟩

end Steps

theorem shrinks_ackOutboxEntry {t t' : OutboxTable} {entryId : OutboxEntryId}
    {now : Instant} {outcome : AckOutcome}
    (h : ackOutboxEntry t entryId now = .ok (outcome, t')) :
    ∃ row ∈ t.rows, t.find entryId = some row ∧
      Shrinks (fun r => r.entry.state = .acked ∨ r.id = entryId)
        (row.operationId.map fun operationId =>
          (row.entry.instanceId, operationId)) t t' := by
  unfold ackOutboxEntry at h
  split at h
  · cases h
  · next row hfind =>
      obtain ⟨hrow, hid⟩ := Table.find_eq_some_iff.mp hfind
      refine ⟨row, hrow, hfind, ?_⟩
      split at h
      · cases h
        exact Shrinks.prune (row.acked now) hrow (.acked row now) rfl
          (.inr hid) fun r _ hstate => .inl hstate
      · cases hstored : mapStoredOutboxEntry row with
        | error e =>
            rw [hstored] at h
            cases h
        | ok entry =>
            rw [hstored] at h
            cases h
            have hself : t.replace row = t := Table.replace_of_mem hrow
            have hprune : Shrinks
                (fun r => r.entry.state = .acked ∨ r.id = entryId) _ t
                (pruneOf (t.replace row) row) :=
              .prune row hrow (.refl row) rfl (.inr hid)
                fun r _ hstate => .inl hstate
            rwa [hself] at hprune

theorem shrinks_findByOperation {t t' : OutboxTable} {among : OutboxRow → Bool}
    {newer : OutboxRow → OutboxRow → Prop} [DecidableRel newer]
    {operationId : OperationId} {found : Option OutboxEntry}
    {acked : OutboxRow → Prop} {history : Option (InstanceId × OperationId)}
    (h : findByOperation t among newer operationId = .ok (found, t')) :
    Shrinks acked history t t' := by
  rcases findByOperation_ok h with ⟨rfl, -⟩ | ⟨row, hrow, -, hnone, hp, -, rfl⟩
  · exact .refl
  · exact .replace hrow ⟨rfl, rfl, rfl, rfl, rfl, .inr ⟨hnone, hp.symm⟩⟩

/-! ## Calls -/

/-- The instance and the operation whose history a call prunes. -/
def prunedBy (t : OutboxTable) : Option Fault → OutboxReq →
    Option (InstanceId × OperationId)
  | none, .acknowledge entryId _ => (t.find entryId).bind fun row =>
      row.operationId.map fun operationId =>
        (row.entry.instanceId, operationId)
  | _, _ => none

/-- The rows that count as acknowledged when a call prunes: the stored ones,
and the one the call itself acknowledges. -/
def ackedBy (q : OutboxReq) (row : OutboxRow) : Prop :=
  row.entry.state = .acked ∨ ∃ ackedAt, q = .acknowledge row.id ackedAt

/-- A landed enqueue adds one row above all rows of its instance; a failed one
changes nothing. -/
theorem runOutbox_enqueue (fault : Option Fault) (entryId : OutboxEntryId)
    (instanceId : InstanceId) (message : EnvelopeMessage) (now : Instant)
    (t : OutboxTable) :
    (∃ sequence t', runOutbox fault entryId (.enqueue instanceId message now)
          t = (.ok (outboxRowOf entryId instanceId sequence message now).entry,
            t') ∧
        (∀ row ∈ t.rows, row.entry.instanceId = instanceId →
          row.entry.sequence < sequence) ∧
        t'.rows = t.rows ++
          [outboxRowOf entryId instanceId sequence message now]) ∨
      ∃ e, runOutbox fault entryId (.enqueue instanceId message now) t =
        (.error e, t) := by
  cases fault with
  | some f => exact .inr ⟨.fault f, rfl⟩
  | none =>
      cases h : enqueueOutboxEntry t entryId instanceId message now with
      | error e =>
          refine .inr ⟨e, ?_⟩
          simp only [runOutbox, h, answered]
      | ok r =>
          obtain ⟨entry, t'⟩ := r
          obtain ⟨sequence, -, habove, rfl, -, hrows⟩ :=
            enqueueOutboxEntry_ok h
          refine .inl ⟨sequence, t', ?_, habove, hrows⟩
          simp only [runOutbox, h, answered]

/-- Every other call at most prunes. -/
theorem runOutbox_shrinks (fault : Option Fault) (entryId : OutboxEntryId)
    {q : OutboxReq} (hq : ∀ instanceId message now,
      q ≠ .enqueue instanceId message now) (t : OutboxTable) :
    Shrinks (ackedBy q) (prunedBy t fault q) t
      (runOutbox fault entryId q t).2 := by
  cases fault with
  | some f => cases q <;> exact .refl
  | none =>
      cases q with
      | enqueue instanceId message now =>
          exact absurd rfl (hq instanceId message now)
      | listPending instanceId limit => exact .refl
      | listOffers instanceId => exact .refl
      | findOfferByOperation instanceId operationId =>
          cases h : findOutboxEntryByOperation t instanceId operationId with
          | error e =>
              simp only [runOutbox, h, answered]
              exact .refl
          | ok r =>
              simp only [runOutbox, h, answered]
              exact shrinks_findByOperation h
      | findOfferByOperationAcrossInstances operationId =>
          cases h : findOfferByOperationAcrossInstances t operationId with
          | error e =>
              simp only [runOutbox, h, answered]
              exact .refl
          | ok r =>
              simp only [runOutbox, h, answered]
              exact shrinks_findByOperation h
      | acknowledge acknowledged ackedAt =>
          cases h : ackOutboxEntry t acknowledged ackedAt with
          | error e =>
              simp only [runOutbox, h, Except.map, answered]
              exact .refl
          | ok r =>
              obtain ⟨row, -, hfind, hshrinks⟩ := shrinks_ackOutboxEntry h
              have hpruned : prunedBy t none
                  (.acknowledge acknowledged ackedAt) =
                    row.operationId.map fun operationId =>
                      (row.entry.instanceId, operationId) := by
                simp [prunedBy, hfind]
              rw [hpruned]
              simp only [runOutbox, h, Except.map, answered]
              refine ⟨hshrinks.stored, fun r hr => ?_⟩
              refine (hshrinks.gone r hr).imp_right ?_
              rintro ⟨operationId, hhistory, hop, hacked, hkeeper⟩
              refine ⟨operationId, hhistory, hop, ?_, hkeeper⟩
              rcases hacked with hacked | rfl
              · exact .inl hacked
              · exact .inr ⟨ackedAt, rfl⟩

end Rutilus.Proofs.OutboxRows

/-!
## Outbox sequences are never reused

The allocator takes the stored maximum of an instance plus one, and the store
deletes rows, so a number would come back if the row that holds an instance's
maximum were ever deleted. It is not: a prune deletes an acknowledged row only
beside a newer acknowledged row of the same instance and operation, which
stays. `Ledger` remembers every number handed out; the invariant is that some
stored row still stands at or above each of them.
-/

namespace Rutilus.Proofs.OutboxSequence

open Rutilus.Domain Rutilus.Lib Rutilus.Store Rutilus.Proofs.OutboxRows

/-- The table, and the numbers handed out so far, newest first. -/
structure Ledger where
  outbox : OutboxTable
  allocated : List (InstanceId × Int)

inductive Label where
  | call (fault : Option Fault) (entryId : OutboxEntryId) (q : OutboxReq)
  | prune (instanceId : InstanceId) (operationId : OperationId)

/-- The number a call handed out. -/
def allocation : (q : OutboxReq) → q.Resp → List (InstanceId × Int)
  | .enqueue instanceId _ _, .ok entry => [(instanceId, entry.sequence)]
  | _, _ => []

def next (l : Ledger) : Label → Option Ledger
  | .call fault entryId q =>
      let answer := runOutbox fault entryId q l.outbox
      some ⟨answer.2, allocation q answer.1 ++ l.allocated⟩
  | .prune instanceId operationId =>
      some ⟨pruneAckedOperationHistory l.outbox instanceId operationId,
        l.allocated⟩

/-- A history starts from the empty table. -/
def start (l : Ledger) : Prop := l = ⟨.empty, []⟩

/-- The instance and the operation whose history a step prunes. -/
def pruned (t : OutboxTable) : Label → Option (InstanceId × OperationId)
  | .call fault _ q => prunedBy t fault q
  | .prune instanceId operationId => some (instanceId, operationId)

/-- The rows that count as acknowledged when a step prunes. -/
def ackedAt (row : OutboxRow) : Label → Prop
  | .call _ _ q => ackedBy q row
  | .prune .. => row.entry.state = .acked

/-- Everything a step can do: an enqueue that lands adds one row above all
rows of its instance and hands its number out; every other step hands out
nothing and at most prunes. -/
theorem next_cases {l l' : Ledger} {a : Label} (h : next l a = some l') :
    (∃ row : OutboxRow,
      (∀ r ∈ l.outbox.rows, r.entry.instanceId = row.entry.instanceId →
        r.entry.sequence < row.entry.sequence) ∧
      l'.outbox.rows = l.outbox.rows ++ [row] ∧
      l'.allocated =
        (row.entry.instanceId, row.entry.sequence) :: l.allocated) ∨
    l'.allocated = l.allocated ∧
      Shrinks (ackedAt · a) (pruned l.outbox a) l.outbox l'.outbox := by
  cases a with
  | prune instanceId operationId =>
      cases h
      exact .inr ⟨rfl, shrinks_pruneAckedOperationHistory _ _ _⟩
  | call fault entryId q =>
      cases h
      by_cases hq : ∃ instanceId message now,
          q = .enqueue instanceId message now
      · obtain ⟨instanceId, message, now, rfl⟩ := hq
        rcases runOutbox_enqueue fault entryId instanceId message now
          l.outbox with ⟨sequence, t', hrun, habove, hrows⟩ | ⟨e, hrun⟩
        · rw [hrun]
          exact .inl ⟨_, habove, hrows, rfl⟩
        · rw [hrun]
          exact .inr ⟨rfl, .refl⟩
      · have hallocated : allocation q (runOutbox fault entryId q
            l.outbox).1 = [] := by
          cases q with
          | enqueue instanceId message now =>
              exact absurd ⟨instanceId, message, now, rfl⟩ hq
          | _ => rfl
        rw [hallocated]
        have hq : ∀ instanceId message now,
            q ≠ .enqueue instanceId message now :=
          fun instanceId message now h => hq ⟨instanceId, message, now, h⟩
        exact .inr ⟨rfl, runOutbox_shrinks fault entryId hq l.outbox⟩

/-! ## The invariant -/

/-- Numbers handed out strictly grow within an instance, a stored row stands at
or above each of them, and no two rows of an instance share a number. -/
structure Numbered (l : Ledger) : Prop where
  growing : l.allocated.Pairwise fun a b => a.1 = b.1 → b.2 < a.2
  covered : ∀ p ∈ l.allocated, ∃ row ∈ l.outbox.rows,
    row.entry.instanceId = p.1 ∧ p.2 ≤ row.entry.sequence
  distinct : ∀ a ∈ l.outbox.rows, ∀ b ∈ l.outbox.rows,
    a.entry.instanceId = b.entry.instanceId →
      a.entry.sequence = b.entry.sequence → a.id = b.id

theorem Numbered.step {l l' : Ledger} {a : Label} (hl : Numbered l)
    (h : next l a = some l') : Numbered l' := by
  rcases next_cases h with ⟨row, habove, hrows, hallocated⟩ |
    ⟨hallocated, hshrinks⟩
  · have hbelow : ∀ p ∈ l.allocated, row.entry.instanceId = p.1 →
        p.2 < row.entry.sequence := by
      intro p hp hinstance
      obtain ⟨r, hr, hr₁, hr₂⟩ := hl.covered p hp
      exact hr₂.trans_lt (habove r hr (hr₁.trans hinstance.symm))
    refine ⟨?_, ?_, ?_⟩
    · rw [hallocated, List.pairwise_cons]
      exact ⟨hbelow, hl.growing⟩
    · rw [hallocated, hrows]
      intro p hp
      rcases List.mem_cons.mp hp with rfl | hp
      · exact ⟨row, by simp, rfl, le_rfl⟩
      · obtain ⟨r, hr, hr'⟩ := hl.covered p hp
        exact ⟨r, List.mem_append_left _ hr, hr'⟩
    · rw [hrows]
      intro a ha b hb hinstance hsequence
      rw [List.mem_append, List.mem_singleton] at ha hb
      rcases ha with ha | rfl <;> rcases hb with hb | rfl
      · exact hl.distinct a ha b hb hinstance hsequence
      · exact absurd hsequence (habove a ha hinstance).ne
      · exact absurd hsequence (habove b hb hinstance.symm).ne'
      · rfl
  · refine ⟨hallocated ▸ hl.growing, ?_, ?_⟩
    · rw [hallocated]
      intro p hp
      obtain ⟨r, hr, hinstance, hle⟩ := hl.covered p hp
      rcases hshrinks.gone r hr with ⟨r', hr', hv⟩ |
        ⟨operationId, -, -, -, keeper, hkeeper, hof, -, hle'⟩
      · exact ⟨r', hr', hv.instanceId.trans hinstance, hv.sequence ▸ hle⟩
      · have hof : keeper.entry.instanceId = r.entry.instanceId := by
          simp only [isAckedOf, decide_eq_true_eq] at hof
          exact hof.1
        exact ⟨keeper, hkeeper, hof.trans hinstance, hle.trans hle'⟩
    · intro a ha b hb hinstance hsequence
      obtain ⟨x, hx, hxv⟩ := hshrinks.stored a ha
      obtain ⟨y, hy, hyv⟩ := hshrinks.stored b hb
      rw [hxv.id, hyv.id]
      refine hl.distinct x hx y hy ?_ ?_
      · rw [← hxv.instanceId, ← hyv.instanceId, hinstance]
      · rw [← hxv.sequence, ← hyv.sequence, hsequence]

theorem Numbered.of_reach {l : Ledger} (h : Reach start (Next next) l) :
    Numbered l := by
  refine h.inv ?_ fun l l' hl ⟨a, ha⟩ => hl.step ha
  rintro l rfl
  exact ⟨.nil, by simp, by simp [Table.empty]⟩

/-- In every history of calls and prunes each number handed out is above all
numbers handed out before for its instance; and a row that a step deletes was
acknowledged by then, belongs to the history the step prunes, and leaves an
acknowledged row of that history with a greater number behind. -/
theorem allocation_fresh_and_prune_safe {l : Ledger}
    (hl : Reach start (Next next) l) :
    (l.allocated.Pairwise fun a b => a.1 = b.1 → b.2 < a.2) ∧
    ∀ a l', next l a = some l' →
      ∀ row ∈ l.outbox.rows, l'.outbox.find row.id = none →
        ackedAt row a ∧ ∃ operationId,
          pruned l.outbox a = some (row.entry.instanceId, operationId) ∧
          row.operationId = some operationId ∧
          ∃ keeper ∈ l'.outbox.rows,
            isAckedOf row.entry.instanceId operationId keeper = true ∧
            row.entry.sequence < keeper.entry.sequence := by
  have hnumbered := Numbered.of_reach hl
  refine ⟨hnumbered.growing, fun a l' h row hrow hgone => ?_⟩
  have hgone := Table.find_eq_none_iff.mp hgone
  rcases next_cases h with ⟨new, -, hrows, -⟩ | ⟨-, hshrinks⟩
  · refine absurd rfl (hgone row ?_)
    rw [hrows]
    exact List.mem_append_left _ hrow
  · rcases hshrinks.gone row hrow with ⟨r', hr', hv⟩ |
      ⟨operationId, hpruned, hop, hacked, keeper, hkeeper, hof, hne, hle⟩
    · exact absurd hv.id (hgone r' hr')
    · refine ⟨hacked, operationId, hpruned, hop, keeper, hkeeper, hof, ?_⟩
      obtain ⟨x, hx, hv⟩ := hshrinks.stored keeper hkeeper
      have hinstance : keeper.entry.instanceId = row.entry.instanceId := by
        simp only [isAckedOf, decide_eq_true_eq] at hof
        exact hof.1
      refine lt_of_le_of_ne hle fun heq => hne ?_
      rw [hv.id]
      refine hnumbered.distinct x hx row hrow ?_ ?_
      · rw [← hv.instanceId, hinstance]
      · rw [← hv.sequence, heq]

/-- One offer queued twice, and the older row acknowledged. -/
def offeredTwice : List Label :=
  let offer : EnvelopeMessage := .operationOffer
    ⟨some ⟨1⟩, some ⟨2⟩, some ⟨7⟩, some (.system (.reset "On")), "/redfish",
      none, ""⟩
  [.call none ⟨11⟩ (.enqueue ⟨7⟩ offer 100),
    .call none ⟨12⟩ (.enqueue ⟨7⟩ offer 200),
    .call none ⟨0⟩ (.acknowledge ⟨11⟩ 300)]

/-- Acknowledging the newer row deletes the older one. -/
theorem allocation_fresh_and_prune_safe_offeredTwice : ∃ l l',
    Reach start (Next next) l ∧
    next l (.call none ⟨0⟩ (.acknowledge ⟨12⟩ 400)) = some l' ∧
    l.allocated = [(⟨7⟩, 2), (⟨7⟩, 1)] ∧
    (∃ row ∈ l.outbox.rows, l'.outbox.find row.id = none ∧
      ∃ keeper ∈ l'.outbox.rows,
        row.entry.sequence < keeper.entry.sequence) := by
  obtain ⟨l, hl, h⟩ := exists_reach_of_follow start next offeredTwice
    (fun l => l.allocated = [(⟨7⟩, 2), (⟨7⟩, 1)] &&
      (l.outbox.find ⟨11⟩).isSome &&
      (next l (.call none ⟨0⟩ (.acknowledge ⟨12⟩ 400))).any fun l' =>
        l'.outbox.find ⟨11⟩ = none)
    rfl (by decide +kernel)
  simp only [Bool.and_eq_true, decide_eq_true_eq, Option.any_eq_true,
    Option.isSome_iff_exists] at h
  obtain ⟨⟨hallocated, row, hrow⟩, l', hnext, hgone⟩ := h
  obtain ⟨hmem, hid⟩ := Table.find_eq_some_iff.mp hrow
  rw [← hid] at hgone
  obtain ⟨-, operationId, -, -, keeper, hkeeper, -, hlt⟩ :=
    (allocation_fresh_and_prune_safe hl).2 _ l' hnext row hmem hgone
  exact ⟨l, l', hl, hnext, hallocated, row, hmem, hgone, keeper, hkeeper, hlt⟩

end Rutilus.Proofs.OutboxSequence
