import Rutilus.App.Session
import Rutilus.Lib.Backlog
import Rutilus.Lib.Listing
import Rutilus.Proofs.OutboxRows

/-!
# The pending queue of a connection

A flush reads the pending entries of one instance in order and takes the first
few. Here the queue is the list of the pending entries as they are stored, and
its order a relation between entries, so that a step on the rows is a step on
the queue: an acknowledgement takes its entry out and leaves the others alone,
and a directed read changes no entry.

A connection remembers what it sent and has not seen acknowledged. These entries
are pending, and a pending entry is among them exactly when the connection sent
it.
-/

namespace Rutilus.Proofs.FlushQueue

open Rutilus.Domain Rutilus.Lib Rutilus.Store
open Rutilus.App.Session (Sent)
open OutboxRows (queuedBefore_total queuedBefore_trans)

def isPendingOf (instanceId : InstanceId) (entry : OutboxEntry) : Bool :=
  entry.instanceId = instanceId ∧ entry.state = .pending

/-- The pending entries of an instance, in the order they are stored. -/
def pendingEntries (t : OutboxTable) (instanceId : InstanceId) :
    List OutboxEntry :=
  (t.rows.map OutboxRow.entry).filter (isPendingOf instanceId)

/-- The entry is listed before the other. -/
def queuedAhead (a b : OutboxEntry) : Bool :=
  a.sequence < b.sequence ∨ a.sequence = b.sequence ∧ a.id.uuid < b.id.uuid

theorem queuedAhead_trans (a b c : OutboxEntry) (h₁ : queuedAhead a b = true)
    (h₂ : queuedAhead b c = true) : queuedAhead a c = true := by
  simp only [queuedAhead, decide_eq_true_eq] at *
  omega

theorem queuedAhead_irrefl (a : OutboxEntry) : queuedAhead a a = false := by
  simp [queuedAhead]

section Queue

variable {t t' : OutboxTable} {instanceId : InstanceId} {entry : OutboxEntry}
  {entryId : OutboxEntryId} {now : Instant}

theorem nodup_entry_ids (t : OutboxTable) :
    ((t.rows.map OutboxRow.entry).map OutboxEntry.id).Nodup := by
  rw [List.map_map]
  exact t.nodup

theorem nodup_pendingEntries : (pendingEntries t instanceId).Nodup :=
  (List.Nodup.of_map _ (nodup_entry_ids t)).filter _

/-- Entries with one identity are one entry. -/
theorem eq_of_id {a b : OutboxEntry} (ha : a ∈ pendingEntries t instanceId)
    (hb : b ∈ pendingEntries t instanceId) (h : a.id = b.id) : a = b :=
  List.inj_on_of_nodup_map (nodup_entry_ids t) (List.mem_of_mem_filter ha)
    (List.mem_of_mem_filter hb) h

theorem mem_pendingEntries : entry ∈ pendingEntries t instanceId ↔
    (∃ row ∈ t.rows, row.entry = entry) ∧ entry.instanceId = instanceId ∧
      entry.state = .pending := by
  rw [pendingEntries, List.mem_filter, List.mem_map, isPendingOf,
    decide_eq_true_eq]

/-- The listing of a readable queue is its window. -/
theorem listPending_window
    (hread : ∀ entry ∈ pendingEntries t instanceId, entry.isValid = true)
    (limit : Nat) :
    ∃ entries, listPendingOutbox t instanceId limit = .ok entries ∧
      (entries.map OutboxEntry.id).Nodup ∧
      ∀ entry, entry ∈ entries ↔ entry ∈ pendingEntries t instanceId ∧
        Backlog.rank queuedAhead entry (pendingEntries t instanceId) <
          limit := by
  set rows := (t.rows.filter fun row => row.entry.instanceId = instanceId ∧
    row.entry.state = .pending).insertionSort queuedBefore with hrows
  have hperm : (rows.map OutboxRow.entry).Perm
      (pendingEntries t instanceId) := by
    refine ((List.perm_insertionSort queuedBefore _).map _).trans ?_
    rw [pendingEntries, List.filter_map]
    exact List.Perm.refl _
  have hids : ((rows.map OutboxRow.entry).map OutboxEntry.id).Nodup := by
    refine (hperm.map _).nodup_iff.mpr ?_
    exact (List.filter_sublist.map _).nodup (nodup_entry_ids t)
  have hsorted : (rows.map OutboxRow.entry).Pairwise
      fun a b => queuedAhead a b = true := by
    have : Std.Total queuedBefore := ⟨queuedBefore_total⟩
    have : IsTrans OutboxRow queuedBefore := ⟨fun _ _ _ => queuedBefore_trans⟩
    rw [List.pairwise_map]
    have hpair := (List.pairwise_insertionSort queuedBefore
      (t.rows.filter fun row => row.entry.instanceId = instanceId ∧
        row.entry.state = .pending)).and
      (List.pairwise_map.mp (List.pairwise_map.mp hids))
    refine hpair.imp fun {a b} hab => ?_
    obtain ⟨hbefore, hne⟩ := hab
    have huuid : a.entry.id.uuid ≠ b.entry.id.uuid := fun h => hne (by
      cases ha : a.entry.id with
      | mk x =>
          cases hb : b.entry.id with
          | mk y => exact congrArg _ (by rwa [ha, hb] at h))
    simp only [queuedAhead, decide_eq_true_eq]
    unfold queuedBefore at hbefore
    show a.entry.sequence < b.entry.sequence ∨ _
    rcases hbefore with h | ⟨h, hle⟩
    · exact .inl h
    · exact .inr ⟨h, lt_of_le_of_ne hle huuid⟩
  have hlist : listPendingOutbox t instanceId limit =
      .ok ((rows.take limit).map OutboxRow.entry) := by
    unfold listPendingOutbox
    rw [← hrows]
    have hall : ∀ row ∈ rows.take limit,
        mapStoredOutboxEntry row = .ok row.entry := by
      intro row hrow
      unfold mapStoredOutboxEntry
      refine if_pos (hread _ (hperm.subset ?_))
      exact List.mem_map_of_mem (List.mem_of_mem_take hrow)
    generalize rows.take limit = window at hall
    induction window with
    | nil => rfl
    | cons row window ih =>
        rw [List.mapM_cons, hall row List.mem_cons_self,
          ih fun r hr => hall r (List.mem_cons_of_mem _ hr)]
        rfl
  refine ⟨_, hlist, ?_, fun entry => ?_⟩
  · rw [List.map_take]
    exact ((List.take_sublist _ _).map _).nodup hids
  · rw [List.map_take, Backlog.mem_take_iff_rank queuedAhead_trans
      queuedAhead_irrefl hsorted, hperm.mem_iff]
    unfold Backlog.rank
    rw [hperm.countP_eq]

/-! ## Acknowledgements and reads -/

theorem pendingEntries_pruneOf (row : OutboxRow) :
    pendingEntries (pruneOf t row) instanceId =
      pendingEntries t instanceId := by
  unfold pruneOf
  split
  · rfl
  · next operationId _ =>
      unfold pruneAckedOperationHistory
      split
      · rfl
      · next keeper _ =>
          unfold pendingEntries
          rw [List.filter_map, List.filter_map]
          congr 1
          show (t.rows.filter _).filter _ = _
          rw [List.filter_filter]
          refine List.filter_congr fun r _ => ?_
          simp only [Function.comp_apply, isPendingOf, isAckedOf]
          cases r.entry.state <;> simp

/-- An acknowledgement takes its entry out of the queue. -/
theorem pendingEntries_ack {outcome : AckOutcome}
    (h : ackOutboxEntry t entryId now = .ok (outcome, t')) :
    pendingEntries t' instanceId =
      (pendingEntries t instanceId).filter fun entry => entry.id ≠ entryId := by
  unfold ackOutboxEntry at h
  split at h
  · cases h
  · next row hrow =>
      obtain ⟨hmem, hid⟩ := Table.find_eq_some_iff.mp hrow
      have hid : row.entry.id = entryId := hid
      split at h
      · cases h
        rw [pendingEntries_pruneOf]
        unfold pendingEntries
        show (((t.rows.map _).map _).filter _) = _
        clear hrow hmem
        induction t.rows with
        | nil => rfl
        | cons x rows ih =>
            have hgone : isPendingOf instanceId (row.acked now).entry =
                false := by
              simp [isPendingOf, OutboxRow.acked]
            rw [List.map_cons, List.map_cons, List.map_cons, List.filter_cons,
              ih, List.filter_cons]
            by_cases hx : x.id = (row.acked now).id
            · have hxid : x.entry.id = entryId := hx.trans hid
              rw [if_pos hx, hgone, if_neg Bool.false_ne_true]
              split
              · rw [List.filter_cons_of_neg (by simp [hxid])]
              · rfl
            · have hxid : x.entry.id ≠ entryId := fun h => hx (h.trans hid.symm)
              rw [if_neg hx]
              split
              · rw [List.filter_cons_of_pos (by simp [hxid])]
              · rfl
      · next hstate =>
          have ht : t' = pruneOf t row := by
            unfold mapStoredOutboxEntry at h
            split at h
            · cases h
              rfl
            · cases h
          rw [ht, pendingEntries_pruneOf]
          refine (List.filter_eq_self.mpr fun e he => ?_).symm
          rw [decide_eq_true_eq]
          rintro rfl
          obtain ⟨⟨r, hr, rfl⟩, -, hpending⟩ := mem_pendingEntries.mp he
          have : r = row := List.inj_on_of_nodup_map t.nodup hr hmem hid.symm
          rw [this, hstate] at hpending
          cases hpending

theorem ack_of_pending (h : entry ∈ pendingEntries t instanceId) :
    ∃ t', ackOutboxEntry t entry.id now = .ok (.acknowledged, t') := by
  obtain ⟨⟨row, hrow, rfl⟩, -, hpending⟩ := mem_pendingEntries.mp h
  have hfind : t.find row.entry.id = some row :=
    Table.find_eq_some_iff.mpr ⟨hrow, rfl⟩
  unfold ackOutboxEntry
  rw [hfind]
  dsimp only
  rw [hpending]
  exact ⟨_, rfl⟩

variable (now) in
theorem runOutbox_ack_of_pending (h : entry ∈ pendingEntries t instanceId) :
    ∃ t', runOutbox none ⟨0⟩ (.acknowledge entry.id now) t = (.ok (), t') ∧
      ∀ i, pendingEntries t' i =
        (pendingEntries t i).filter fun e => e.id ≠ entry.id := by
  obtain ⟨t', hack⟩ : ∃ t', ackOutboxEntry t entry.id now =
      .ok (.acknowledged, t') := ack_of_pending h
  refine ⟨t', ?_, fun i => pendingEntries_ack hack⟩
  show answered t ((ackOutboxEntry t entry.id now).map _) = _
  rw [hack]
  rfl

/-- A directed read leaves the queue alone. -/
theorem pendingEntries_read (operationId : OperationId) (i : InstanceId) :
    pendingEntries
        (runOutbox none ⟨0⟩ (.findOfferByOperation i operationId) t).2
        instanceId = pendingEntries t instanceId := by
  show pendingEntries (answered t _).2 _ = _
  cases hfind : findOutboxEntryByOperation t i operationId with
  | error e => rfl
  | ok out =>
      obtain ⟨found, t'⟩ := out
      rcases findByOperation_ok hfind with ⟨rfl, -⟩ | ⟨row, hrow, -, -, -, -, rfl⟩
      · rfl
      · unfold pendingEntries
        congr 1
        show (t.rows.map _).map _ = _
        rw [List.map_map]
        refine List.map_congr_left fun x hx => ?_
        rw [Function.comp_apply]
        split
        · next hid =>
            rw [List.inj_on_of_nodup_map t.nodup hx hrow hid]
        · rfl

end Queue

end Rutilus.Proofs.FlushQueue

/-!
## Rounds of flushes and acknowledgements

A connection goes through rounds: it retires what was acknowledged, then reads
the window of the queue and sends what it has not sent yet. An entry that cannot
be sent is passed over. The center also retires offers that expired.

Between two rounds the connection's list of entries sent and not acknowledged
agrees with the queue. Seen from the queue a round is a step of a backlog whose
stuck items are the entries that cannot be sent.
-/

namespace Rutilus.Proofs.FlushRounds

open Rutilus.Domain Rutilus.Lib Rutilus.Store Rutilus.Proofs.FlushQueue
open Rutilus.App.Session (Sent)

/-- A connection between two frames: the queue, the entries sent and not
acknowledged, and every entry it ever sent. -/
structure Conn where
  outbox : OutboxTable
  sent : Sent
  log : List OutboxEntryId

/-- Which queue, which entries can be sent, and which have expired. -/
structure Terms where
  instanceId : InstanceId
  sendable : OutboxEntry → Bool
  expired : OutboxEntry → Prop

abbrev Terms.queue (T : Terms) (v : Conn) : List OutboxEntry :=
  pendingEntries v.outbox T.instanceId

section Rounds

variable {T : Terms} {limit : Nat} {v v₁ v' : Conn}

/-- The list of a connection agrees with the queue. -/
structure Tracked (T : Terms) (v : Conn) : Prop where
  readable : ∀ entry ∈ T.queue v, entry.isValid = true
  listed : ∀ p ∈ v.sent, ∃ entry ∈ T.queue v, T.sendable entry = true ∧
    p = (entry.id, entry.sequence)
  nodup : (v.sent.map Prod.fst).Nodup
  logged : ∀ entry ∈ T.queue v,
    entry.id ∈ v.log ↔ (entry.id, entry.sequence) ∈ v.sent

theorem tracked_start {t : OutboxTable}
    (h : ∀ entry ∈ pendingEntries t T.instanceId, entry.isValid = true) :
    Tracked T ⟨t, [], []⟩ where
  readable := h
  listed := fun _ hp => nomatch hp
  nodup := List.nodup_nil
  logged := fun _ _ => ⟨fun h => (nomatch h), fun h => (nomatch h)⟩

/-! ## Acknowledgements -/

/-- Acknowledgements and reads: only entries that were sent leave the queue. -/
structure Quiet (T : Terms) (v v' : Conn) : Prop where
  log : v'.log = v.log
  sub : (T.queue v').Sublist (T.queue v)
  gone : ∀ entry ∈ T.queue v, entry ∉ T.queue v' →
    T.sendable entry = true ∧ entry.id ∈ v.log
  tracked : Tracked T v'

theorem Quiet.refl (h : Tracked T v) : Quiet T v v :=
  ⟨rfl, List.Sublist.refl _, fun _ hin hout => absurd hin hout, h⟩

theorem Quiet.trans (h₁ : Quiet T v v₁) (h₂ : Quiet T v₁ v') :
    Quiet T v v' where
  log := h₂.log.trans h₁.log
  sub := h₂.sub.trans h₁.sub
  gone := by
    intro entry hin hout
    by_cases hmid : entry ∈ T.queue v₁
    · rw [← h₁.log]
      exact h₂.gone entry hmid hout
    · exact h₁.gone entry hin hmid
  tracked := h₂.tracked

/-- The head of the list is acknowledged. -/
theorem Quiet.pop {p : OutboxEntryId × Int} {sent : Sent} {t' : OutboxTable}
    (h : Tracked T v) (hsent : v.sent = p :: sent)
    (hqueue : pendingEntries t' T.instanceId =
      (T.queue v).filter fun entry => entry.id ≠ p.1) :
    Quiet T v ⟨t', sent, v.log⟩ := by
  have hqueue : T.queue ⟨t', sent, v.log⟩ =
      (T.queue v).filter fun entry => entry.id ≠ p.1 := hqueue
  have hmem : ∀ entry, entry ∈ T.queue ⟨t', sent, v.log⟩ ↔
      entry ∈ T.queue v ∧ entry.id ≠ p.1 := by
    intro entry
    rw [hqueue, List.mem_filter, decide_eq_true_eq]
  have hnodup := h.nodup
  rw [hsent, List.map_cons, List.nodup_cons] at hnodup
  refine ⟨rfl, by rw [hqueue]; exact List.filter_sublist,
    fun entry hin hout => ?_, ?_⟩
  · have hid : entry.id = p.1 := by
      by_contra hne
      exact hout ((hmem entry).mpr ⟨hin, hne⟩)
    obtain ⟨e, he, hsendable, heq⟩ := h.listed p
      (hsent ▸ List.mem_cons_self)
    obtain rfl : entry = e := eq_of_id hin he (hid.trans (heq ▸ rfl))
    exact ⟨hsendable, (h.logged entry hin).mpr
      (by rw [hsent, ← heq]; exact List.mem_cons_self)⟩
  · refine ⟨fun e he => h.readable e ((hmem e).mp he).1, fun r hr => ?_,
      hnodup.2, fun e he => ?_⟩
    · obtain ⟨e, he, hsendable, rfl⟩ := h.listed r
        (hsent ▸ List.mem_cons_of_mem _ hr)
      refine ⟨e, (hmem e).mpr ⟨he, fun hid => hnodup.1 ?_⟩, hsendable, rfl⟩
      exact hid ▸ List.mem_map_of_mem (f := Prod.fst) hr
    · obtain ⟨he, hne⟩ := (hmem e).mp he
      rw [h.logged e he, hsent, List.mem_cons]
      exact or_iff_right fun heq => hne (congrArg Prod.fst heq)

/-- A change of the rows that the queue does not show. -/
theorem Quiet.of_queue_eq {t' : OutboxTable} (h : Tracked T v)
    (hqueue : pendingEntries t' T.instanceId = T.queue v) :
    Quiet T v ⟨t', v.sent, v.log⟩ := by
  have hq : T.queue ⟨t', v.sent, v.log⟩ = T.queue v := hqueue
  refine ⟨rfl, hq ▸ List.Sublist.refl _, fun e hin hout =>
    absurd (hq ▸ hin) hout, ⟨?_, ?_, h.nodup, ?_⟩⟩
  · rw [hq]
    exact h.readable
  · rw [hq]
    exact h.listed
  · rw [hq]
    exact h.logged

/-! ## Flushes -/

/-- What a flush of some entries does: it sends the entries `news` and retires
the entries `retired`. -/
structure Flush (T : Terms) (entries : List OutboxEntry) (news : Sent)
    (retired : List OutboxEntryId) (v v' : Conn) : Prop where
  sent : v'.sent = v.sent ++ news
  log : v'.log = v.log ++ news.map Prod.fst
  queue : T.queue v' = (T.queue v).filter fun entry => entry.id ∉ retired
  fresh : ∀ p ∈ news, p.1 ∉ v.sent.map Prod.fst ∧ ∃ entry ∈ entries,
    T.sendable entry = true ∧ p = (entry.id, entry.sequence)
  nodup : (news.map Prod.fst).Nodup
  expired : ∀ id ∈ retired, id ∉ v'.sent.map Prod.fst ∧ ∃ entry ∈ entries,
    T.sendable entry = true ∧ T.expired entry ∧ entry.id = id
  complete : ∀ entry ∈ entries, T.sendable entry = true →
    entry.id ∈ v'.sent.map Prod.fst ∨ entry.id ∈ retired

variable {entries : List OutboxEntry} {entry : OutboxEntry} {news : Sent}
  {retired : List OutboxEntryId}

theorem Flush.nil : Flush T [] [] [] v v where
  sent := (List.append_nil _).symm
  log := (List.append_nil _).symm
  queue := by
    refine (List.filter_eq_self.mpr fun entry _ => ?_).symm
    simp
  fresh := fun _ hp => nomatch hp
  nodup := List.nodup_nil
  expired := fun _ hid => nomatch hid
  complete := fun _ hentry => nomatch hentry

/-- An entry that was sent before or cannot be sent is passed over. -/
theorem Flush.pass (hpass : T.sendable entry = true →
      entry.id ∈ v.sent.map Prod.fst)
    (h : Flush T entries news retired v v') :
    Flush T (entry :: entries) news retired v v' where
  sent := h.sent
  log := h.log
  queue := h.queue
  fresh := by
    intro p hp
    obtain ⟨hout, e, he, hs, hpe⟩ := h.fresh p hp
    exact ⟨hout, e, List.mem_cons_of_mem _ he, hs, hpe⟩
  nodup := h.nodup
  expired := by
    intro id hid
    obtain ⟨hout, e, he, hs, hx, heq⟩ := h.expired id hid
    exact ⟨hout, e, List.mem_cons_of_mem _ he, hs, hx, heq⟩
  complete := by
    intro e he hs
    rcases List.mem_cons.mp he with rfl | he
    · refine .inl ?_
      rw [h.sent, List.map_append]
      exact List.mem_append_left _ (hpass hs)
    · exact h.complete e he hs

theorem Flush.send (hsendable : T.sendable entry = true)
    (hfresh : entry.id ∉ v.sent.map Prod.fst)
    (hother : entry.id ∉ entries.map OutboxEntry.id)
    (h : Flush T entries news retired
      ⟨v.outbox, v.sent ++ [(entry.id, entry.sequence)], v.log ++ [entry.id]⟩
      v') :
    Flush T (entry :: entries) ((entry.id, entry.sequence) :: news) retired v
      v' where
  sent := by rw [h.sent, List.append_assoc, List.singleton_append]
  log := by
    rw [h.log, List.append_assoc, List.singleton_append, List.map_cons]
  queue := h.queue
  fresh := by
    intro p hp
    rcases List.mem_cons.mp hp with rfl | hp
    · exact ⟨hfresh, entry, List.mem_cons_self, hsendable, rfl⟩
    · obtain ⟨hout, e, he, hs, hpe⟩ := h.fresh p hp
      refine ⟨fun hin => hout ?_, e, List.mem_cons_of_mem _ he, hs, hpe⟩
      rw [List.map_append]
      exact List.mem_append_left _ hin
  nodup := by
    rw [List.map_cons, List.nodup_cons]
    refine ⟨fun hin => ?_, h.nodup⟩
    obtain ⟨p, hp, hid⟩ := List.mem_map.mp hin
    obtain ⟨-, e, he, -, rfl⟩ := h.fresh p hp
    exact hother (List.mem_map.mpr ⟨e, he, hid⟩)
  expired := by
    intro id hid
    obtain ⟨hout, e, he, hs, hx, heq⟩ := h.expired id hid
    exact ⟨hout, e, List.mem_cons_of_mem _ he, hs, hx, heq⟩
  complete := by
    intro e he hs
    rcases List.mem_cons.mp he with rfl | he
    · refine .inl ?_
      rw [h.sent, List.map_append, List.map_append]
      exact List.mem_append_left _ (List.mem_append_right _
        List.mem_cons_self)
    · exact h.complete e he hs

theorem Flush.retire {t : OutboxTable} (hsendable : T.sendable entry = true)
    (hexpired : T.expired entry) (hfresh : entry.id ∉ v.sent.map Prod.fst)
    (hother : entry.id ∉ entries.map OutboxEntry.id)
    (hqueue : T.queue ⟨t, v.sent, v.log⟩ =
      (T.queue v).filter fun e => e.id ≠ entry.id)
    (h : Flush T entries news retired ⟨t, v.sent, v.log⟩ v') :
    Flush T (entry :: entries) news (entry.id :: retired) v v' where
  sent := h.sent
  log := h.log
  queue := by
    rw [h.queue, hqueue, List.filter_filter]
    refine List.filter_congr fun e _ => ?_
    by_cases hid : e.id = entry.id <;> by_cases hin : e.id ∈ retired <;>
      simp [hid, hin]
  fresh := by
    intro p hp
    obtain ⟨hout, e, he, hs, hpe⟩ := h.fresh p hp
    exact ⟨hout, e, List.mem_cons_of_mem _ he, hs, hpe⟩
  nodup := h.nodup
  expired := by
    intro id hid
    rcases List.mem_cons.mp hid with rfl | hid
    · refine ⟨fun hin => ?_, entry, List.mem_cons_self, hsendable, hexpired,
        rfl⟩
      rw [h.sent, List.map_append] at hin
      rcases List.mem_append.mp hin with hin | hin
      · exact hfresh hin
      · obtain ⟨p, hp, hpid⟩ := List.mem_map.mp hin
        obtain ⟨-, e, he, -, rfl⟩ := h.fresh p hp
        exact hother (List.mem_map.mpr ⟨e, he, hpid⟩)
    · obtain ⟨hout, e, he, hs, hx, heq⟩ := h.expired id hid
      exact ⟨hout, e, List.mem_cons_of_mem _ he, hs, hx, heq⟩
  complete := by
    intro e he hs
    rcases List.mem_cons.mp he with rfl | he
    · exact .inr List.mem_cons_self
    · exact (h.complete e he hs).imp_right (List.mem_cons_of_mem _)

/-- A flush of the window of the queue. -/
structure Flushed (T : Terms) (limit : Nat) (v v' : Conn) : Prop where
  sub : (T.queue v').Sublist (T.queue v)
  mono : ∀ id ∈ v.log, id ∈ v'.log
  window : ∀ id ∈ v'.log, id ∈ v.log ∨ ∃ entry ∈ T.queue v, entry.id = id ∧
    T.sendable entry = true ∧
    Backlog.rank queuedAhead entry (T.queue v) < limit
  complete : ∀ entry ∈ T.queue v, T.sendable entry = true →
    Backlog.rank queuedAhead entry (T.queue v) < limit →
      entry.id ∈ v'.log ∨ entry ∉ T.queue v'
  gone : ∀ entry ∈ T.queue v, entry ∉ T.queue v' →
    T.sendable entry = true ∧ T.expired entry
  tracked : Tracked T v'

theorem Flush.flushed (hv : Tracked T v)
    (hwindow : ∀ entry, entry ∈ entries ↔ entry ∈ T.queue v ∧
      Backlog.rank queuedAhead entry (T.queue v) < limit)
    (h : Flush T entries news retired v v') : Flushed T limit v v' := by
  have hmem : ∀ e, e ∈ T.queue v' ↔ e ∈ T.queue v ∧ e.id ∉ retired := by
    intro e
    rw [h.queue, List.mem_filter, decide_eq_true_eq]
  have hnews : ∀ p ∈ news, ∃ e ∈ T.queue v, T.sendable e = true ∧
      Backlog.rank queuedAhead e (T.queue v) < limit ∧
      p = (e.id, e.sequence) := by
    intro p hp
    obtain ⟨-, e, he, hs, hpe⟩ := h.fresh p hp
    obtain ⟨hin, hrank⟩ := (hwindow e).mp he
    exact ⟨e, hin, hs, hrank, hpe⟩
  have htracked : Tracked T v' := by
    refine ⟨fun e he => hv.readable e ((hmem e).mp he).1, fun p hp => ?_, ?_,
      fun e he => ?_⟩
    · have hspared : ∀ e, p = (e.id, e.sequence) → e ∈ T.queue v →
          e ∈ T.queue v' := by
        intro e hpe he
        refine (hmem e).mpr ⟨he, fun hretired => (h.expired _ hretired).1 ?_⟩
        exact List.mem_map.mpr ⟨p, hp, by rw [hpe]⟩
      rw [h.sent] at hp
      rcases List.mem_append.mp hp with hold | hnew
      · obtain ⟨e, he, hs, hpe⟩ := hv.listed p hold
        exact ⟨e, hspared e hpe he, hs, hpe⟩
      · obtain ⟨e, he, hs, -, hpe⟩ := hnews p hnew
        exact ⟨e, hspared e hpe he, hs, hpe⟩
    · rw [h.sent, List.map_append]
      refine List.nodup_append.mpr ⟨hv.nodup, h.nodup, ?_⟩
      rintro id hid _ hid' rfl
      obtain ⟨p, hp, rfl⟩ := List.mem_map.mp hid'
      exact (h.fresh p hp).1 hid
    · have he := ((hmem e).mp he).1
      rw [h.log, h.sent, List.mem_append, List.mem_append, hv.logged e he]
      refine or_congr_right ⟨fun hin => ?_, fun hin =>
        List.mem_map.mpr ⟨_, hin, rfl⟩⟩
      obtain ⟨p, hp, hid⟩ := List.mem_map.mp hin
      obtain ⟨e', he', -, -, rfl⟩ := hnews p hp
      obtain rfl : e' = e := eq_of_id he' he hid
      exact hp
  refine ⟨?_, ?_, ?_, ?_, ?_, htracked⟩
  · rw [h.queue]
    exact List.filter_sublist
  · intro id hid
    rw [h.log]
    exact List.mem_append_left _ hid
  · intro id hid
    rw [h.log] at hid
    refine (List.mem_append.mp hid).imp_right fun hid => ?_
    obtain ⟨p, hp, rfl⟩ := List.mem_map.mp hid
    obtain ⟨e, he, hs, hrank, hpe⟩ := hnews p hp
    exact ⟨e, he, by rw [hpe], hs, hrank⟩
  · intro e he hs hrank
    by_cases hin : e ∈ T.queue v'
    · rcases h.complete e ((hwindow e).mpr ⟨he, hrank⟩) hs with hsent | hretired
      · obtain ⟨p, hp, hid⟩ := List.mem_map.mp hsent
        obtain ⟨e', he', -, rfl⟩ := htracked.listed p hp
        obtain rfl : e' = e := eq_of_id he' hin hid
        exact .inl ((htracked.logged e' hin).mpr hp)
      · exact absurd hretired ((hmem e).mp hin).2
    · exact .inr hin
  · intro e he hout
    have hretired : e.id ∈ retired := by
      by_contra hne
      exact hout ((hmem e).mpr ⟨he, hne⟩)
    obtain ⟨-, e', he', hs, hx, hid⟩ := h.expired _ hretired
    obtain rfl : e' = e := eq_of_id ((hwindow e').mp he').1 he hid
    exact ⟨hs, hx⟩

/-! ## Whole connections -/

/-- A round: acknowledgements, and after them a flush unless the frame asked for
none. -/
def Round (T : Terms) (limit : Nat) (visit : Prop) (v v' : Conn) : Prop :=
  (∃ v₁, Quiet T v v₁ ∧ Flushed T limit v₁ v') ∨ ¬ visit ∧ Quiet T v v'

theorem Round.tracked {visit : Prop} (h : Round T limit visit v v') :
    Tracked T v' := by
  rcases h with ⟨v₁, -, hflush⟩ | ⟨-, hquiet⟩
  · exact hflush.tracked
  · exact hquiet.tracked

/-- An entry is stuck if it cannot be sent. -/
def Terms.stuck (T : Terms) (entry : OutboxEntry) : Bool := !T.sendable entry

/-- A round is a step of a backlog; `all` are the entries of the first queue. -/
theorem Round.step {visit : Prop} {all : List OutboxEntry}
    (hall : ∀ a ∈ all, ∀ b ∈ all, a.id = b.id → a = b)
    (hv : ∀ entry ∈ T.queue v, entry ∈ all)
    (h : Round T limit visit v v') :
    Backlog.Step queuedAhead T.stuck limit visit (T.queue v) (T.queue v')
      (fun a => a ∈ all ∧ a.id ∈ v.log)
      (fun a => a ∈ all ∧ a.id ∈ v'.log) := by
  rcases h with ⟨v₁, hquiet, hflush⟩ | ⟨hvisit, hquiet⟩
  · refine ⟨hflush.sub.trans hquiet.sub, fun e he hstuck => ?_,
      fun e he => ⟨he.1, hflush.mono _ (hquiet.log ▸ he.2)⟩,
      fun e he => ?_, fun _ => ?_⟩
    · have hno : T.sendable e ≠ true := by
        simpa [Terms.stuck] using hstuck
      by_contra hout
      by_cases hmid : e ∈ T.queue v₁
      · exact hno (hflush.gone e hmid hout).1
      · exact hno (hquiet.gone e he hmid).1
    · rcases hflush.window _ he.2 with hold | ⟨e', he', hid, hs, hrank⟩
      · exact .inl ⟨he.1, hquiet.log ▸ hold⟩
      · obtain rfl : e' = e :=
          hall e' (hv e' (hquiet.sub.subset he')) e he.1 hid
        exact .inr ⟨T.queue v₁, hflush.sub, hquiet.sub, he',
          by rw [Terms.stuck, hs]; rfl, hrank⟩
    · refine ⟨T.queue v₁, hflush.sub, hquiet.sub, fun e he hfree hrank => ?_⟩
      have hs : T.sendable e = true := by simpa [Terms.stuck] using hfree
      refine (hflush.complete e he hs hrank).imp_left fun hlog => ?_
      exact ⟨hv e (hquiet.sub.subset he), hlog⟩
  · refine ⟨hquiet.sub, fun e he hstuck => ?_,
      fun e he => ⟨he.1, hquiet.log ▸ he.2⟩,
      fun e he => .inl ⟨he.1, hquiet.log ▸ he.2⟩, fun h => absurd h hvisit⟩
    by_contra hout
    have hno : T.sendable e ≠ true := by simpa [Terms.stuck] using hstuck
    exact hno (hquiet.gone e he hout).1

/-- An entry that left the queue was sent or had expired. -/
theorem Round.gone {visit : Prop} (h : Round T limit visit v v')
    (he : entry ∈ T.queue v) (hout : entry ∉ T.queue v') :
    entry.id ∈ v'.log ∨ T.expired entry := by
  rcases h with ⟨v₁, hquiet, hflush⟩ | ⟨-, hquiet⟩
  · by_cases hmid : entry ∈ T.queue v₁
    · exact .inr (hflush.gone entry hmid hout).2
    · exact .inl (hflush.mono _ (hquiet.log ▸ (hquiet.gone entry he hmid).2))
  · exact .inl (hquiet.log ▸ (hquiet.gone entry he hout).2)

/-- A connection whose rounds do not end and whose sent entries are all
acknowledged: an entry that can be sent and does not expire is sent at some
round if and only if fewer entries than the limit are stuck ahead of it. -/
theorem sent_iff {t : OutboxTable} {conn : Nat → Conn} {visit : Nat → Prop}
    (hread : ∀ entry ∈ pendingEntries t T.instanceId, entry.isValid = true)
    (hstart : conn 0 = ⟨t, [], []⟩)
    (hround : ∀ n, Tracked T (conn n) →
      Round T limit (visit n) (conn n) (conn (n + 1)))
    (hvisit : ∀ n, ∃ m, n ≤ m ∧ visit m)
    (hacked : ∀ n, ∀ p ∈ (conn n).sent, ∃ m, n ≤ m ∧ p ∉ (conn m).sent)
    (hentry : entry ∈ pendingEntries t T.instanceId)
    (hsendable : T.sendable entry = true) (hlive : ¬ T.expired entry) :
    (∃ n, entry.id ∈ (conn n).log) ↔
      Backlog.blockers queuedAhead T.stuck entry
        (pendingEntries t T.instanceId) < limit := by
  have hqueue : T.queue (conn 0) = pendingEntries t T.instanceId := by
    rw [hstart]
  have htracked : ∀ n, Tracked T (conn n) := by
    intro n
    induction n with
    | zero =>
        rw [hstart]
        exact tracked_start hread
    | succ n ih => exact (hround n ih).tracked
  have hrounds := fun n => hround n (htracked n)
  have hsub : ∀ n, ∀ e ∈ T.queue (conn n), e ∈ T.queue (conn 0) := by
    intro n
    induction n with
    | zero => exact fun _ h => h
    | succ n ih =>
        intro e he
        refine ih e ?_
        rcases hrounds n with ⟨v₁, hquiet, hflush⟩ | ⟨-, hquiet⟩
        · exact hquiet.sub.subset (hflush.sub.subset he)
        · exact hquiet.sub.subset he
  have hstep : ∀ n, Backlog.Step queuedAhead T.stuck limit (visit n)
      (T.queue (conn n)) (T.queue (conn (n + 1)))
      (fun a => a ∈ T.queue (conn 0) ∧ a.id ∈ (conn n).log)
      (fun a => a ∈ T.queue (conn 0) ∧ a.id ∈ (conn (n + 1)).log) := fun n =>
    (hrounds n).step (fun a ha b hb => eq_of_id ha hb) (hsub n)
  have hmono : ∀ n m, n ≤ m → ∀ id ∈ (conn n).log, id ∈ (conn m).log := by
    intro n m hnm
    induction hnm with
    | refl => exact fun _ h => h
    | step _ ih =>
        intro id hid
        rcases hrounds _ with ⟨v₁, hquiet, hflush⟩ | ⟨-, hquiet⟩
        · exact hflush.mono _ (hquiet.log ▸ ih id hid)
        · exact hquiet.log ▸ ih id hid
  rw [← hqueue] at hentry ⊢
  constructor
  · rintro ⟨n, hn⟩
    by_contra hmany
    refine Backlog.not_served_of_many_blockers hstep nodup_pendingEntries ?_
      (Nat.not_lt.mp hmany) n ⟨hentry, hn⟩
    rw [hstart]
    exact fun h => nomatch h.2
  · intro hfew
    -- what was sent and is still pending waits for its acknowledgement
    have hserved : ∀ n a, a ∈ T.queue (conn 0) ∧ a.id ∈ (conn n).log →
        ∃ m, a ∉ T.queue (conn m) := by
      rintro n a ⟨-, hlog⟩
      by_cases hin : a ∈ T.queue (conn n)
      · obtain ⟨m, hnm, hm⟩ :=
          hacked n _ (((htracked n).logged a hin).mp hlog)
        exact ⟨m, fun hpending => hm
          (((htracked m).logged a hpending).mp (hmono n m hnm _ hlog))⟩
      · exact ⟨n, hin⟩
    obtain ⟨n, hn⟩ := Backlog.leaves_of_few_blockers hstep queuedAhead_trans
      queuedAhead_irrefl nodup_pendingEntries hvisit hserved hentry
      (by rw [Terms.stuck, hsendable]; rfl) hfew
    induction n with
    | zero => exact absurd hentry hn
    | succ n ih =>
        by_cases hin : entry ∈ T.queue (conn n)
        · exact ⟨n + 1, ((hrounds n).gone hin hn).resolve_right hlive⟩
        · exact ih hin

/-- The same for a loop that is a function of the number of frames: it never
fails, and it sends what `sent_iff` says. -/
theorem loop_sends_iff {ε C : Type} {loop : Nat → Except ε C} (view : C → Conn)
    {t : OutboxTable} (visit : Nat → Prop)
    (hread : ∀ entry ∈ pendingEntries t T.instanceId, entry.isValid = true)
    (hfirst : ∃ s, loop 0 = .ok s ∧ Flushed T limit ⟨t, [], []⟩ (view s))
    (hnext : ∀ n s, loop n = .ok s → Tracked T (view s) →
      ∃ s', loop (n + 1) = .ok s' ∧
        Round T limit (visit n) (view s) (view s'))
    (hvisit : ∀ n, ∃ m, n ≤ m ∧ visit m)
    (hacked : ∀ n s, loop n = .ok s → ∀ p ∈ (view s).sent,
      ∃ m s', n ≤ m ∧ loop m = .ok s' ∧ p ∉ (view s').sent)
    (hentry : entry ∈ pendingEntries t T.instanceId)
    (hsendable : T.sendable entry = true) (hlive : ¬ T.expired entry) :
    (∃ n s, loop n = .ok s ∧ entry.id ∈ (view s).log) ↔
      Backlog.blockers queuedAhead T.stuck entry
        (pendingEntries t T.instanceId) < limit := by
  have hloop : ∀ n, ∃ s, loop n = .ok s ∧ Tracked T (view s) := by
    intro n
    induction n with
    | zero =>
        obtain ⟨s, hs, hflush⟩ := hfirst
        exact ⟨s, hs, hflush.tracked⟩
    | succ n ih =>
        obtain ⟨s, hs, htracked⟩ := ih
        obtain ⟨s', hs', hround⟩ := hnext n s hs htracked
        exact ⟨s', hs', hround.tracked⟩
  choose s hs htracked using hloop
  have hs_eq : ∀ n sn, loop n = .ok sn → sn = s n := fun n sn h =>
    Except.ok.inj (h.symm.trans (hs n))
  -- the states of the loop, from before its first flush
  set conn : Nat → Conn := fun n => match n with
    | 0 => ⟨t, [], []⟩
    | n + 1 => view (s n) with hdef
  set visits : Nat → Prop := fun n => match n with
    | 0 => True
    | n + 1 => visit n with hvisits
  have hround : ∀ n, Round T limit (visits n) (conn n) (conn (n + 1)) := by
    intro n
    cases n with
    | zero =>
        obtain ⟨s₀, hs₀, hflush⟩ := hfirst
        obtain rfl := hs_eq 0 s₀ hs₀
        exact .inl ⟨_, .refl (tracked_start hread), hflush⟩
    | succ n =>
        obtain ⟨s', hs', hround⟩ := hnext n (s n) (hs n) (htracked n)
        obtain rfl := hs_eq (n + 1) s' hs'
        exact hround
  have hvisit' : ∀ n, ∃ m, n ≤ m ∧ visits m := by
    intro n
    obtain ⟨m, hnm, hm⟩ := hvisit n
    exact ⟨m + 1, by omega, hm⟩
  have hacked' : ∀ n, ∀ p ∈ (conn n).sent,
      ∃ m, n ≤ m ∧ p ∉ (conn m).sent := by
    intro n p hp
    cases n with
    | zero => cases hp
    | succ n =>
        obtain ⟨m, sm, hnm, hsm, hout⟩ := hacked n (s n) (hs n) p hp
        obtain rfl := hs_eq m sm hsm
        exact ⟨m + 1, by omega, hout⟩
  rw [← sent_iff hread rfl (fun n _ => hround n) hvisit' hacked' hentry
    hsendable hlive]
  constructor
  · rintro ⟨n, sn, hsn, hlog⟩
    obtain rfl := hs_eq n sn hsn
    exact ⟨n + 1, hlog⟩
  · rintro ⟨n, hlog⟩
    cases n with
    | zero => cases hlog
    | succ n => exact ⟨n, s n, hs n, hlog⟩

end Rounds

end Rutilus.Proofs.FlushRounds
