import Rutilus.App.CenterDispatch
import Rutilus.Lib.Outcome
import Rutilus.Lib.Settle
import Rutilus.Proofs.OutboxRows

/-!
# Retries of one dispatch

Several retries of one operation run at once. Each queues an offer of its own, lists the
pending offers of the operation, and acknowledges all of the list but the newest, from
the newest down; it ends with an error where an offer of its list is gone from the
table. Every order of their calls is a race, so the newest pending offer is never
retired and in the end it is the only one.
-/

namespace Rutilus.Proofs.OfferSettlement

open Rutilus.Domain Rutilus.Lib Rutilus.Store Rutilus.App.CenterBoundary
  Rutilus.App.CenterDispatch Rutilus.Proofs.OutboxRows

variable {κ : Type}

/-! ### The system -/

/-- The queue, every row that was in it, and the retries. -/
structure State (κ : Type) where
  outbox : OutboxTable
  issued : List OutboxRow
  racers : κ → Prog center (Except CenterDispatchError DispatchedOperation)

/-- One call of one retry. An identity that the store generates is new. -/
def next [DecidableEq κ] (s : State κ) (label : κ × OutboxEntryId) : Option (State κ) :=
  match s.racers label.1 with
  | .call (.outbox q) k =>
    if label.2 ∈ s.issued.map (·.id) then none
    else
      let answer := runOutbox none label.2 q s.outbox
      some {
        outbox := answer.2
        issued := s.issued ++ answer.2.rows.filter (·.id = label.2)
        racers := Function.update s.racers label.1 (k answer.1) }
  | _ => none

/-- The scan reads all pending rows of the site, and the numbers do not run out. -/
def Within (siteId : InstanceId) (s : State κ) : Prop :=
  (s.outbox.rows.filter fun row => row.entry.instanceId = siteId ∧
    row.entry.state = .pending).length ≤ centerDispatchOfferScanLimit ∧
  maximumSequence s.outbox siteId < maxSequence

instance (siteId : InstanceId) (s : State κ) : Decidable (Within siteId s) :=
  inferInstanceAs (Decidable (_ ∧ _))

def nextWithin [DecidableEq κ] (siteId : InstanceId) (s : State κ)
    (label : κ × OutboxEntryId) : Option (State κ) :=
  if Within siteId s then next s label else none

/-- A queue with any history, and retries that are about to begin. -/
structure Initial (request : κ → CenterOperationRequest) (now : κ → Instant)
    (X : OperationId) (s : State κ) : Prop where
  history : ∃ allocated,
    Reach OutboxSequence.start (Next OutboxSequence.next) ⟨s.outbox, allocated⟩
  issued : s.issued = s.outbox.rows
  racers : ∀ k, s.racers k = deliverRetry (request k) X (now k)

/-! ### Offers -/

section Rows

variable {t t' : OutboxTable} {siteId : InstanceId} {X : OperationId}
  {entryId : OutboxEntryId} {now : Instant}

/-- A row of the site that offers the operation. -/
def IsOffer (siteId : InstanceId) (X : OperationId) (row : OutboxRow) : Prop :=
  row.entry.instanceId = siteId ∧ payloadOperationId row.entry.payload = some X

def IsPending (siteId : InstanceId) (X : OperationId) (row : OutboxRow) : Prop :=
  IsOffer siteId X row ∧ row.entry.state = .pending

/-- An acknowledgement takes one row from the pending ones. -/
theorem ack_pending {outcome : AckOutcome}
    (h : ackOutboxEntry t entryId now = .ok (outcome, t')) (row : OutboxRow) :
    (row ∈ t'.rows ∧ row.entry.state = .pending) ↔
      row ∈ t.rows ∧ row.entry.state = .pending ∧ row.id ≠ entryId := by
  obtain ⟨acked, hacked, hid, hrows⟩ := ackOutboxEntry_ok h
  constructor
  · rintro ⟨hrow, hstate⟩
    obtain ⟨hold, hne⟩ | rfl := hrows row hrow
    · exact ⟨hold, hstate, fun heq => nomatch hstate.symm.trans (hne heq)⟩
    · cases hstate
  · rintro ⟨hrow, hstate, hne⟩
    refine ⟨?_, hstate⟩
    unfold ackOutboxEntry at h
    split at h
    · cases h
    · next found hfound =>
        have hfoundId := Table.key_of_find hfound
        split at h
        · cases h
          refine mem_pruneOf (List.mem_map.mpr ⟨row, hrow, if_neg fun heq => ?_⟩)
            (Or.inl hstate)
          exact hne (heq.trans hfoundId)
        · obtain ⟨entry, -, heq⟩ := map_ok h
          cases heq
          exact mem_pruneOf hrow (Or.inl hstate)

/-- One that fails finds no pending row. -/
theorem ack_error {e : OutboxRepositoryError}
    (h : ackOutboxEntry t entryId now = .error e) {row : OutboxRow}
    (hrow : row ∈ t.rows) (hid : row.id = entryId) : row.entry.state ≠ .pending := by
  intro hstate
  unfold ackOutboxEntry at h
  rw [Table.find_eq_some_iff.mpr ⟨hrow, hid⟩] at h
  simp only [hstate] at h
  cases h

/-- With room for a number, and under a new identity, an enqueue lands. -/
theorem enqueue_lands (message : EnvelopeMessage) (now : Instant)
    (hroom : maximumSequence t siteId < maxSequence)
    (hnonneg : 0 ≤ maximumSequence t siteId)
    (hfresh : ∀ row ∈ t.rows, row.id ≠ entryId) :
    ∃ sequence t', enqueueOutboxEntry t entryId siteId message now =
      .ok ((outboxRowOf entryId siteId sequence message now).entry, t') ∧
      (∀ row ∈ t.rows, row.entry.instanceId = siteId → row.entry.sequence < sequence) ∧
      0 ≤ sequence ∧
      t'.rows = t.rows ++ [outboxRowOf entryId siteId sequence message now] := by
  have hfind : t.find entryId = none := Table.find_eq_none_iff.mpr hfresh
  cases h : enqueueOutboxEntry t entryId siteId message now with
  | error e =>
      unfold enqueueOutboxEntry at h
      dsimp only at h
      rw [if_neg (by omega), if_neg (by omega),
        if_neg (by rw [Table.has, hfind]; exact Bool.noConfusion)] at h
      cases h
  | ok r =>
      obtain ⟨entry, t'⟩ := r
      obtain ⟨sequence, hpositive, habove, rfl, -, hrows⟩ := enqueueOutboxEntry_ok h
      exact ⟨sequence, t', rfl, habove, hpositive, hrows⟩

end Rows

/-! ### The listing -/

section Listing

variable {t : OutboxTable} {siteId : InstanceId} {X : OperationId} {limit : Nat}

/-- The pending rows of the site in the order of the queue. -/
def pendingRows (t : OutboxTable) (siteId : InstanceId) : List OutboxRow :=
  (t.rows.filter fun row => row.entry.instanceId = siteId ∧
    row.entry.state = .pending).insertionSort queuedBefore

/-- Those that offer the operation. -/
def pendingOffers (t : OutboxTable) (siteId : InstanceId) (X : OperationId) :
    List OutboxRow :=
  (pendingRows t siteId).filter fun row => payloadOperationId row.entry.payload = some X

theorem mem_pendingOffers {row : OutboxRow} :
    row ∈ pendingOffers t siteId X ↔ row ∈ t.rows ∧ IsPending siteId X row := by
  unfold pendingOffers pendingRows IsPending IsOffer
  rw [List.mem_filter, List.mem_insertionSort, List.mem_filter, decide_eq_true_eq,
    decide_eq_true_eq]
  tauto

theorem listPending_all
    (hreadable : ∀ row ∈ t.rows,
      row.entry.state = .pending → row.entry.isValid = true)
    (hlimit : (t.rows.filter fun row => row.entry.instanceId = siteId ∧
      row.entry.state = .pending).length ≤ limit) :
    listPendingOutbox t siteId limit =
      .ok ((pendingRows t siteId).map OutboxRow.entry) := by
  unfold listPendingOutbox
  rw [List.take_of_length_le (by rwa [List.length_insertionSort])]
  have hall : ((pendingRows t siteId).map id).mapM mapStoredOutboxEntry =
      .ok ((pendingRows t siteId).map OutboxRow.entry) := by
    refine mapM_map_ok_iff.mpr fun row hrow => ?_
    obtain ⟨hrow, hstate⟩ := List.mem_filter.mp ((List.mem_insertionSort _).mp hrow)
    rw [decide_eq_true_eq] at hstate
    exact if_pos (hreadable row hrow hstate.2)
  rwa [List.map_id] at hall

/-- Every number is used once, so the listing ascends. -/
theorem pendingOffers_ascend (siteId : InstanceId) (X : OperationId)
    (hdistinct : ∀ a ∈ t.rows, ∀ b ∈ t.rows,
      a.entry.instanceId = b.entry.instanceId →
        a.entry.sequence = b.entry.sequence → a.id = b.id)
    (hreadable : ∀ row ∈ t.rows,
      row.entry.state = .pending → row.entry.isValid = true) :
    (pendingOffers t siteId X).Pairwise fun a b =>
      a.entry.sequence < b.entry.sequence := by
  have hall : listPendingOutbox t siteId _ = _ := listPending_all hreadable le_rfl
  have hsorted := (listPendingOutbox_ok hdistinct hall).2.1
  rw [List.pairwise_map] at hsorted
  exact hsorted.sublist List.filter_sublist

theorem offerFacts_cases (entry : OutboxEntry) :
    offerFacts entry = none ∧ payloadOperationId entry.payload = none ∨
      ∃ fact, offerFacts entry = some fact ∧
        payloadOperationId entry.payload = some fact.operationId ∧
        fact.entryId = entry.id ∧ fact.sequence = entry.sequence := by
  unfold offerFacts
  split
  · next offer hpayload =>
      rw [hpayload]
      cases hid : offer.operationId with
      | none => exact Or.inl ⟨rfl, hid⟩
      | some operationId => exact Or.inr ⟨_, rfl, hid, rfl, rfl⟩
  · next hother =>
      refine Or.inl ⟨rfl, ?_⟩
      unfold payloadOperationId
      split
      · next offer hpayload => exact absurd hpayload (hother _ _ offer)
      · rfl

/-- The facts of the offers among some rows. -/
theorem facts_of_rows (rows : List OutboxRow) :
    (((rows.map OutboxRow.entry).filterMap offerFacts).filter
      fun fact => fact.operationId = X).map
        (fun fact => (fact.entryId, fact.sequence)) =
    (rows.filter fun row => payloadOperationId row.entry.payload = some X).map
      fun row => (row.id, row.entry.sequence) := by
  induction rows with
  | nil => rfl
  | cons row rows ih =>
      rw [List.map_cons]
      obtain ⟨hnone, hpayload⟩ | ⟨fact, hsome, hpayload, hid, hsequence⟩ :=
        offerFacts_cases row.entry
      · rw [List.filterMap_cons_none hnone, ih, List.filter_cons_of_neg]
        rw [hpayload]
        exact Bool.noConfusion
      · rw [List.filterMap_cons_some hsome]
        by_cases hX : fact.operationId = X
        · rw [List.filter_cons_of_pos (by simpa using hX), List.map_cons, ih,
            List.filter_cons_of_pos (by simpa [hpayload] using hX), List.map_cons, hid,
            hsequence]
        · rw [List.filter_cons_of_neg (by simpa using hX), ih, List.filter_cons_of_neg]
          rw [hpayload]
          simpa using hX

/-- The offers that a retry is to acknowledge, the newest first. -/
def toRetire (t : OutboxTable) (siteId : InstanceId) (X : OperationId) :
    List OutboxRow := (pendingOffers t siteId X).reverse.drop 1

/-- The rows that the call sorts and cuts are the pending offers. -/
theorem settled_rows (hsorted : (pendingOffers t siteId X).Pairwise fun a b =>
      a.entry.sequence < b.entry.sequence) :
    ((((((pendingRows t siteId).map OutboxRow.entry).filterMap offerFacts).filter
      fun fact => fact.operationId = X).insertionSort
        fun a b => a.sequence ≤ b.sequence).reverse.drop 1).map OfferFact.entryId =
      (toRetire t siteId X).map (·.id) := by
  have hfacts := facts_of_rows (X := X) (pendingRows t siteId)
  set facts := (((pendingRows t siteId).map OutboxRow.entry).filterMap
    offerFacts).filter fun fact => fact.operationId = X
  have hids : facts.map OfferFact.entryId = (pendingOffers t siteId X).map (·.id) := by
    have h := congrArg (List.map Prod.fst) hfacts
    rwa [List.map_map, List.map_map] at h
  have hnumbers : facts.map OfferFact.sequence =
      (pendingOffers t siteId X).map (·.entry.sequence) := by
    have h := congrArg (List.map Prod.snd) hfacts
    rwa [List.map_map, List.map_map] at h
  have hascend : (facts.map OfferFact.sequence).Pairwise (· ≤ ·) := by
    rw [hnumbers, List.pairwise_map]
    exact hsorted.imp fun h => le_of_lt h
  rw [List.pairwise_map] at hascend
  rw [hascend.insertionSort_eq]
  unfold toRetire
  rw [List.map_drop, List.map_reverse, hids, ← List.map_reverse, ← List.map_drop]

/-- Of a list that descends all but the first have one above them. -/
theorem mem_drop_one {l : List Int} (h : l.Pairwise (· > ·)) (x : Int) :
    x ∈ l.drop 1 ↔ x ∈ l ∧ ∃ y ∈ l, x < y := by
  cases l with
  | nil => simp
  | cons a l =>
      obtain ⟨habove, -⟩ := List.pairwise_cons.mp h
      rw [List.drop_one, List.tail_cons]
      constructor
      · intro hx
        exact ⟨List.mem_cons_of_mem _ hx, a, List.mem_cons_self, habove x hx⟩
      · rintro ⟨hx, y, hy, hlt⟩
        obtain rfl | hx := List.mem_cons.mp hx
        · obtain rfl | hy := List.mem_cons.mp hy
          · exact absurd hlt (lt_irrefl y)
          · exact absurd hlt (habove y hy).not_gt
        · exact hx

theorem toRetire_numbers (hsorted : (pendingOffers t siteId X).Pairwise fun a b =>
      a.entry.sequence < b.entry.sequence) :
    ((toRetire t siteId X).map (·.entry.sequence)).Pairwise (· > ·) ∧
      ∀ x, x ∈ (toRetire t siteId X).map (·.entry.sequence) ↔
        x ∈ (pendingOffers t siteId X).map (·.entry.sequence) ∧
          ∃ y ∈ (pendingOffers t siteId X).map (·.entry.sequence), x < y := by
  have hdescend : ((pendingOffers t siteId X).map (·.entry.sequence)).reverse.Pairwise
      (· > ·) := by
    rw [List.pairwise_reverse, List.pairwise_map]
    exact hsorted
  have hcut : (toRetire t siteId X).map (·.entry.sequence) =
      ((pendingOffers t siteId X).map (·.entry.sequence)).reverse.drop 1 := by
    rw [toRetire, List.map_drop, List.map_reverse]
  rw [hcut]
  refine ⟨hdescend.sublist (List.drop_sublist _ _), fun x => ?_⟩
  rw [mem_drop_one hdescend]
  simp only [List.mem_reverse]

end Listing

/-! ### What holds of the queue -/

/-- The rows are those that were issued, each later or gone; a number that was issued is
not above all that are left. -/
structure Sound (t : OutboxTable) (issued : List OutboxRow) : Prop where
  versions : ∀ row ∈ t.rows, ∃ r ∈ issued, Version row r
  ids : (issued.map (·.id)).Nodup
  numbers : ∀ a ∈ issued, ∀ b ∈ issued, a.entry.instanceId = b.entry.instanceId →
    a.entry.sequence = b.entry.sequence → a = b
  covered : ∀ r ∈ issued, ∃ row ∈ t.rows,
    row.entry.instanceId = r.entry.instanceId ∧ r.entry.sequence ≤ row.entry.sequence
  readable : ∀ row ∈ t.rows, row.entry.state = .pending → row.entry.isValid = true
  nonneg : ∀ row ∈ t.rows, 0 ≤ row.entry.sequence

section Queue

variable {t t' : OutboxTable} {issued : List OutboxRow} {siteId : InstanceId}
  {X : OperationId} {entryId : OutboxEntryId} {now : Instant}

theorem Sound.distinct (h : Sound t issued) : ∀ a ∈ t.rows, ∀ b ∈ t.rows,
    a.entry.instanceId = b.entry.instanceId →
      a.entry.sequence = b.entry.sequence → a.id = b.id := by
  intro a ha b hb hinstance hsequence
  obtain ⟨r, hr, hra⟩ := h.versions a ha
  obtain ⟨r', hr', hrb⟩ := h.versions b hb
  have hsame := h.numbers r hr r' hr'
    (hra.instanceId.symm.trans (hinstance.trans hrb.instanceId))
    (hra.sequence.symm.trans (hsequence.trans hrb.sequence))
  rw [hra.id, hrb.id, hsame]

theorem Sound.maximum (h : Sound t issued) : 0 ≤ maximumSequence t siteId := by
  unfold maximumSequence
  cases hmax : ((t.rows.filter fun row => row.entry.instanceId = siteId).map
      fun row => row.entry.sequence).max? with
  | none => exact le_rfl
  | some m =>
      obtain ⟨row, hrow, rfl⟩ := List.mem_map.mp (List.max?_mem hmax)
      exact h.nonneg row (List.mem_of_mem_filter hrow)

theorem Sound.fresh (h : Sound t issued) (hfresh : entryId ∉ issued.map (·.id)) :
    ∀ row ∈ t.rows, row.id ≠ entryId := by
  rintro row hrow rfl
  obtain ⟨r, hr, hv⟩ := h.versions row hrow
  exact hfresh (List.mem_map.mpr ⟨r, hr, hv.id.symm⟩)

theorem Sound.enqueued (new : OutboxRow) (h : Sound t issued)
    (hfresh : new.id ∉ issued.map (·.id))
    (habove : ∀ row ∈ t.rows, row.entry.instanceId = new.entry.instanceId →
      row.entry.sequence < new.entry.sequence)
    (hvalid : new.entry.isValid = true) (hnonneg : 0 ≤ new.entry.sequence)
    (hrows : t'.rows = t.rows ++ [new]) :
    Sound t' (issued ++ [new]) ∧
      ∀ r ∈ issued, r.entry.instanceId = new.entry.instanceId →
        r.entry.sequence < new.entry.sequence := by
  have hissued : ∀ r ∈ issued, r.entry.instanceId = new.entry.instanceId →
      r.entry.sequence < new.entry.sequence := by
    intro r hr hinstance
    obtain ⟨row, hrow, hsame, hle⟩ := h.covered r hr
    exact hle.trans_lt (habove row hrow (hsame.trans hinstance))
  refine ⟨⟨fun row hrow => ?_, ?_, fun a ha b hb hinstance hsequence => ?_,
    fun r hr => ?_, fun row hrow hstate => ?_, fun row hrow => ?_⟩, hissued⟩
  · rw [hrows] at hrow
    obtain hrow | hrow := List.mem_append.mp hrow
    · obtain ⟨r, hr, hv⟩ := h.versions row hrow
      exact ⟨r, List.mem_append_left _ hr, hv⟩
    · obtain rfl := List.mem_singleton.mp hrow
      exact ⟨row, List.mem_append_right _ (List.mem_singleton_self _), .refl row⟩
  · rw [List.map_append, List.map_singleton]
    exact List.concat_eq_append ▸ List.Nodup.concat hfresh h.ids
  · obtain hold | hnew := List.mem_append.mp ha
    · obtain hold' | hnew' := List.mem_append.mp hb
      · exact h.numbers a hold b hold' hinstance hsequence
      · obtain rfl := List.mem_singleton.mp hnew'
        exact absurd hsequence (hissued a hold hinstance).ne
    · obtain rfl := List.mem_singleton.mp hnew
      obtain hold' | hnew' := List.mem_append.mp hb
      · exact absurd hsequence (hissued b hold' hinstance.symm).ne'
      · exact (List.mem_singleton.mp hnew').symm
  · rw [hrows]
    obtain hr | hr := List.mem_append.mp hr
    · obtain ⟨row, hrow, hcovered⟩ := h.covered r hr
      exact ⟨row, List.mem_append_left _ hrow, hcovered⟩
    · obtain rfl := List.mem_singleton.mp hr
      exact ⟨r, List.mem_append_right _ (List.mem_singleton_self _), rfl, le_rfl⟩
  · rw [hrows] at hrow
    obtain hrow | hrow := List.mem_append.mp hrow
    · exact h.readable row hrow hstate
    · obtain rfl := List.mem_singleton.mp hrow
      exact hvalid
  · rw [hrows] at hrow
    obtain hrow | hrow := List.mem_append.mp hrow
    · exact h.nonneg row hrow
    · obtain rfl := List.mem_singleton.mp hrow
      exact hnonneg

theorem Sound.acknowledged {outcome : AckOutcome} (h : Sound t issued)
    (hack : ackOutboxEntry t entryId now = .ok (outcome, t')) : Sound t' issued := by
  obtain ⟨acked, -, -, hshrinks⟩ := shrinks_ackOutboxEntry hack
  refine ⟨fun row hrow => ?_, h.ids, h.numbers, fun r hr => ?_,
    fun row hrow hstate => ?_, fun row hrow => ?_⟩
  · obtain ⟨x, hx, hv⟩ := hshrinks.stored row hrow
    obtain ⟨r, hr, hv'⟩ := h.versions x hx
    exact ⟨r, hr, hv.trans hv'⟩
  · obtain ⟨row, hrow, hinstance, hle⟩ := h.covered r hr
    obtain ⟨row', hrow', hv⟩ | ⟨operationId, -, -, -, keeper, hkeeper, hof, -, hle'⟩ :=
      hshrinks.gone row hrow
    · exact ⟨row', hrow', hv.instanceId.trans hinstance, hv.sequence ▸ hle⟩
    · have hof : keeper.entry.instanceId = row.entry.instanceId := by
        simp only [isAckedOf, decide_eq_true_eq] at hof
        exact hof.1
      exact ⟨keeper, hkeeper, hof.trans hinstance, hle.trans hle'⟩
  · exact h.readable row ((ack_pending hack row).mp ⟨hrow, hstate⟩).1 hstate
  · obtain ⟨x, hx, hv⟩ := hshrinks.stored row hrow
    exact hv.sequence ▸ h.nonneg x hx

/-- Within the site a number stands for a row. -/
theorem Sound.id_iff {row row' : OutboxRow} (h : Sound t issued) (hrow : row ∈ t.rows)
    (hoffer : IsOffer siteId X row) (hoffer' : IsOffer siteId X row')
    (hversion : ∃ r ∈ issued, Version row' r) :
    row.id = row'.id ↔ row.entry.sequence = row'.entry.sequence := by
  obtain ⟨r, hr, hv⟩ := h.versions row hrow
  obtain ⟨r', hr', hv'⟩ := hversion
  constructor
  · intro hid
    have hsame : r = r' := List.inj_on_of_nodup_map h.ids hr hr'
      (hv.id.symm.trans (hid.trans hv'.id))
    rw [hv.sequence, hv'.sequence, hsame]
  · intro hsequence
    have hsame : r = r' := h.numbers r hr r' hr'
      (hv.instanceId.symm.trans (hoffer.1.trans (hoffer'.1.symm.trans hv'.instanceId)))
      (hv.sequence.symm.trans (hsequence.trans hv'.sequence))
    rw [hv.id, hv'.id, hsame]

end Queue

/-! ### Programs -/

/-- A retry whose offer is queued. -/
def settling (request : CenterOperationRequest) (X : OperationId) (now : Instant) :
    M DispatchedOperation := do
  settleDuplicateOffers request X now
  return ⟨X, now + centerOfferTtl⟩

/-- A retry with rows left to acknowledge. -/
def acknowledging (X : OperationId) (now : Instant) (entryIds : List OutboxEntryId) :
    M DispatchedOperation := do
  acknowledgeAll now entryIds
  return ⟨X, now + centerOfferTtl⟩

section Programs

variable (request : CenterOperationRequest) (X : OperationId) (now : Instant)

theorem deliverRetry_call : ∃ message k,
    deliverRetry request X now =
      Prog.call (S := center) (.outbox (.enqueue request.siteId message now)) k ∧
    (∀ sequence, payloadOperationId (some ⟨sequence, 0, some message⟩) = some X) ∧
    ∀ entry, k (.ok entry) = settling request X now :=
  ⟨_, _, rfl, fun _ => rfl, fun _ => rfl⟩

theorem settling_call : ∃ k,
    settling request X now = Prog.call (S := center)
      (.outbox (.listPending request.siteId centerDispatchOfferScanLimit)) k ∧
    ∀ entries, k (.ok entries) = acknowledging X now
      (((((entries.filterMap offerFacts).filter fun fact => fact.operationId = X)
        |>.insertionSort fun a b => a.sequence ≤ b.sequence).reverse.drop 1).map
          OfferFact.entryId) :=
  ⟨_, rfl, fun _ => rfl⟩

theorem acknowledging_call (entryId : OutboxEntryId) (entryIds : List OutboxEntryId) :
    ∃ k, acknowledging X now (entryId :: entryIds) =
        Prog.call (S := center) (.outbox (.acknowledge entryId now)) k ∧
      k (.ok ()) = acknowledging X now entryIds ∧ ∀ e, ∃ r, k (.error e) = .ret r :=
  ⟨_, rfl, rfl, fun _ => ⟨_, rfl⟩⟩

end Programs

/-- The program of a retry in a phase; the numbers left stand for listed rows. -/
inductive Matches (issued : List OutboxRow) (request : CenterOperationRequest)
    (X : OperationId) (now : Instant) :
    Prog center (Except CenterDispatchError DispatchedOperation) → Phase Int → Prop
  | adding : Matches issued request X now (deliverRetry request X now) .adding
  | listing : Matches issued request X now (settling request X now) .listing
  | retiring (rows : List OutboxRow)
      (hrows : ∀ row ∈ rows,
        IsOffer request.siteId X row ∧ ∃ r ∈ issued, Version row r) :
      Matches issued request X now (acknowledging X now (rows.map (·.id)))
        (.retiring (rows.map (·.entry.sequence)))
  | done (r : Except CenterDispatchError DispatchedOperation) :
      Matches issued request X now (.ret r) (.retiring [])

theorem Matches.mono {issued issued' : List OutboxRow}
    {request : CenterOperationRequest} {X : OperationId} {now : Instant}
    {phase : Phase Int}
    {p : Prog center (Except CenterDispatchError DispatchedOperation)}
    (h : Matches issued request X now p phase) (hsub : issued ⊆ issued') :
    Matches issued' request X now p phase := by
  cases h with
  | adding => exact .adding
  | listing => exact .listing
  | retiring rows hrows =>
      refine .retiring rows fun row hrow => ?_
      obtain ⟨hoffer, r, hr, hv⟩ := hrows row hrow
      exact ⟨hoffer, r, hsub hr, hv⟩
  | done r => exact .done r

/-- A retry that has ended is done. -/
theorem Matches.ended {issued : List OutboxRow} {request : CenterOperationRequest}
    {X : OperationId} {now : Instant} {phase : Phase Int}
    {r : Except CenterDispatchError DispatchedOperation}
    (h : Matches issued request X now (.ret r) phase) : phase = .retiring [] := by
  generalize hp : (Prog.ret r : Prog center _) = p at h
  cases h with
  | adding =>
      obtain ⟨_, _, hcall, -⟩ := deliverRetry_call request X now
      exact nomatch hp.trans hcall
  | listing =>
      obtain ⟨_, hcall, -⟩ := settling_call request X now
      exact nomatch hp.trans hcall
  | retiring rows hrows =>
      cases rows with
      | nil => rfl
      | cons row rows =>
          obtain ⟨_, hcall, -⟩ := acknowledging_call X now row.id (rows.map (·.id))
          exact nomatch hp.trans hcall
  | done r => rfl

/-! ### The race -/

section Race

variable [DecidableEq κ] {request : κ → CenterOperationRequest} {now : κ → Instant}
  {siteId : InstanceId} {X : OperationId} {s t : State κ} {a : Race κ Int}
  {label : κ × OutboxEntryId}

/-- The state seen as a race between numbers. -/
structure Tracks (request : κ → CenterOperationRequest) (now : κ → Instant)
    (siteId : InstanceId) (X : OperationId) (s : State κ) (a : Race κ Int) : Prop where
  sound : Sound s.outbox s.issued
  standing : ∀ x, x ∈ a.standing ↔
    ∃ row ∈ s.outbox.rows, IsPending siteId X row ∧ row.entry.sequence = x
  issued : ∀ x, x ∈ a.issued ↔
    ∃ r ∈ s.issued, IsOffer siteId X r ∧ r.entry.sequence = x
  phases : ∀ k, Matches s.issued (request k) X (now k) (s.racers k) (a.phase k)

theorem nextWithin_call {q : OutboxReq} {k : q.Resp → Prog center
      (Except CenterDispatchError DispatchedOperation)}
    (hp : s.racers label.1 = .call (S := center) (.outbox q) k)
    (hst : nextWithin siteId s label = some t) :
    Within siteId s ∧ label.2 ∉ s.issued.map (·.id) ∧
      t = {
        outbox := (runOutbox none label.2 q s.outbox).2
        issued := s.issued ++
          (runOutbox none label.2 q s.outbox).2.rows.filter (·.id = label.2)
        racers := Function.update s.racers label.1
          (k (runOutbox none label.2 q s.outbox).1) } := by
  unfold nextWithin at hst
  split at hst
  · next hwithin =>
      unfold next at hst
      rw [hp] at hst
      dsimp only at hst
      split at hst
      · cases hst
      · next hfresh =>
          cases hst
          exact ⟨hwithin, hfresh, rfl⟩
  · cases hst

theorem nextWithin_ret {r : Except CenterDispatchError DispatchedOperation}
    (hp : s.racers label.1 = .ret r) : nextWithin siteId s label = none := by
  unfold nextWithin next
  rw [hp]
  split
  · rfl
  · rfl

theorem issued_subset (hst : nextWithin siteId s label = some t) :
    s.issued ⊆ t.issued := by
  unfold nextWithin next at hst
  split at hst
  · split at hst
    · split at hst
      · cases hst
      · cases hst
        exact List.subset_append_left _ _
    · cases hst
  · cases hst

/-- Nothing is stored under an identity that is new. -/
theorem filter_fresh {outbox : OutboxTable} {entryId : OutboxEntryId}
    (h : ∀ row ∈ outbox.rows, row.id ≠ entryId) :
    outbox.rows.filter (fun row => row.id = entryId) = [] :=
  List.filter_eq_nil_iff.mpr fun row hrow => by simpa using h row hrow

/-- One racer moves on, the others stay where they are. -/
theorem phases_update {issued' : List OutboxRow} {k : κ} {phase : Phase Int}
    {p : Prog center (Except CenterDispatchError DispatchedOperation)}
    (h : Tracks request now siteId X s a) (hsub : s.issued ⊆ issued')
    (hp : Matches issued' (request k) X (now k) p phase) (k' : κ) :
    Matches issued' (request k') X (now k') (Function.update s.racers k p k')
      (Function.update a.phase k phase k') := by
  by_cases hk : k' = k
  · subst hk
    rw [Function.update_self, Function.update_self]
    exact hp
  · rw [Function.update_of_ne hk, Function.update_of_ne hk]
    exact (h.phases k').mono hsub

variable (hsite : ∀ k, (request k).siteId = siteId)

include hsite

theorem Tracks.add (h : Tracks request now siteId X s a)
    (hst : nextWithin siteId s label = some t) (hphase : a.phase label.1 = .adding)
    (hp : s.racers label.1 = deliverRetry (request label.1) X (now label.1)) :
    ∃ b, Race.Step a b ∧ Tracks request now siteId X t b := by
  obtain ⟨message, k, hcall, hmessage, hk⟩ :=
    deliverRetry_call (request label.1) X (now label.1)
  obtain ⟨hwithin, hfresh, rfl⟩ := nextWithin_call (hp.trans hcall) hst
  have hstored := h.sound.fresh hfresh
  obtain ⟨sequence, t', henqueue, habove, hnonneg, hrows⟩ :=
    enqueue_lands message (now label.1) hwithin.2 h.sound.maximum hstored
  have hrun : runOutbox none label.2
      (.enqueue (request label.1).siteId message (now label.1)) s.outbox =
      (.ok (outboxRowOf label.2 siteId sequence message (now label.1)).entry, t') := by
    rw [hsite]
    simp only [runOutbox, henqueue, answered]
  rw [hrun]
  dsimp only
  set new := outboxRowOf label.2 siteId sequence message (now label.1) with hnew
  have hfilter : t'.rows.filter (fun row => row.id = label.2) = [new] := by
    have hid : new.id = label.2 := rfl
    rw [hrows, List.filter_append, filter_fresh hstored,
      List.filter_cons_of_pos (by simpa using hid), List.filter_nil, List.nil_append]
  rw [hfilter, hk]
  have hoffer : IsOffer siteId X new := ⟨rfl, hmessage _⟩
  obtain ⟨hsound, hissued⟩ := h.sound.enqueued new hfresh habove rfl hnonneg hrows
  refine ⟨_, .add (e := sequence) hphase fun x hx => ?_, hsound, fun x => ?_,
    fun x => ?_, phases_update h (List.subset_append_left _ _) .listing⟩
  · obtain ⟨r, hr, hr', rfl⟩ := (h.issued x).mp hx
    exact hissued r hr hr'.1
  · show x ∈ insert sequence a.standing ↔ _
    rw [Finset.mem_insert, h.standing, hrows]
    constructor
    · rintro (rfl | ⟨row, hrow, hpending⟩)
      · exact ⟨new, List.mem_append_right _ (List.mem_singleton_self _),
          ⟨hoffer, rfl⟩, rfl⟩
      · exact ⟨row, List.mem_append_left _ hrow, hpending⟩
    · rintro ⟨row, hrow, hpending, hx⟩
      obtain hold | hlast := List.mem_append.mp hrow
      · exact Or.inr ⟨row, hold, hpending, hx⟩
      · obtain rfl := List.mem_singleton.mp hlast
        exact Or.inl hx.symm
  · show x ∈ insert sequence a.issued ↔ _
    rw [Finset.mem_insert, h.issued]
    constructor
    · rintro (rfl | ⟨r, hr, hpending⟩)
      · exact ⟨new, List.mem_append_right _ (List.mem_singleton_self _), hoffer, rfl⟩
      · exact ⟨r, List.mem_append_left _ hr, hpending⟩
    · rintro ⟨r, hr, hpending, hx⟩
      obtain hold | hlast := List.mem_append.mp hr
      · exact Or.inr ⟨r, hold, hpending, hx⟩
      · obtain rfl := List.mem_singleton.mp hlast
        exact Or.inl hx.symm

theorem Tracks.list (h : Tracks request now siteId X s a)
    (hst : nextWithin siteId s label = some t) (hphase : a.phase label.1 = .listing)
    (hp : s.racers label.1 = settling (request label.1) X (now label.1)) :
    ∃ b, Race.Step a b ∧ Tracks request now siteId X t b := by
  obtain ⟨k, hcall, hk⟩ := settling_call (request label.1) X (now label.1)
  obtain ⟨hwithin, hfresh, rfl⟩ := nextWithin_call (hp.trans hcall) hst
  have hsorted := pendingOffers_ascend siteId X h.sound.distinct h.sound.readable
  have hrun : runOutbox none label.2
      (.listPending (request label.1).siteId centerDispatchOfferScanLimit) s.outbox =
      (.ok ((pendingRows s.outbox siteId).map OutboxRow.entry), s.outbox) := by
    rw [hsite]
    exact congrArg (·, s.outbox) (listPending_all h.sound.readable hwithin.1)
  rw [hrun]
  dsimp only
  rw [filter_fresh (h.sound.fresh hfresh), List.append_nil, hk, settled_rows hsorted]
  have hnumbers : ∀ x, x ∈ (pendingOffers s.outbox siteId X).map (·.entry.sequence) ↔
      x ∈ a.standing := by
    intro x
    rw [h.standing, List.mem_map]
    simp only [mem_pendingOffers, and_assoc]
  obtain ⟨hdescend, hmem⟩ := toRetire_numbers hsorted
  simp only [hnumbers] at hmem
  refine ⟨_, .list hphase hdescend hmem, h.sound, h.standing, h.issued,
    phases_update h (List.Subset.refl _) (.retiring _ fun row hrow => ?_)⟩
  obtain ⟨hrow, hpending⟩ := mem_pendingOffers.mp
    (List.mem_reverse.mp (List.mem_of_mem_drop hrow))
  exact ⟨hsite label.1 ▸ hpending.1, h.sound.versions row hrow⟩

theorem Tracks.ack (h : Tracks request now siteId X s a)
    (hst : nextWithin siteId s label = some t) {row : OutboxRow} {rows : List OutboxRow}
    (hphase : a.phase label.1 =
      .retiring (row.entry.sequence :: rows.map (·.entry.sequence)))
    (hrows : ∀ r ∈ row :: rows, IsOffer siteId X r ∧ ∃ r₀ ∈ s.issued, Version r r₀)
    (hp : s.racers label.1 =
      acknowledging X (now label.1) (row.id :: rows.map (·.id))) :
    ∃ b, Race.Step a b ∧ Tracks request now siteId X t b := by
  obtain ⟨k, hcall, hok, herror⟩ :=
    acknowledging_call X (now label.1) row.id (rows.map (·.id))
  obtain ⟨hwithin, hfresh, rfl⟩ := nextWithin_call (hp.trans hcall) hst
  obtain ⟨hoffer, hversion⟩ := hrows row List.mem_cons_self
  cases hack : ackOutboxEntry s.outbox row.id (now label.1) with
  | error e =>
      have hrun : runOutbox none label.2 (.acknowledge row.id (now label.1)) s.outbox =
          (.error e, s.outbox) := by
        simp only [runOutbox, hack, Except.map, answered]
      obtain ⟨r, hr⟩ := herror e
      rw [hrun]
      dsimp only
      rw [filter_fresh (h.sound.fresh hfresh), List.append_nil, hr]
      refine ⟨_, .stop hphase fun hmem => ?_, h.sound, h.standing, h.issued,
        phases_update h (List.Subset.refl _) (.done r)⟩
      obtain ⟨x, hx, hpending, hsequence⟩ := (h.standing _).mp hmem
      have hid := (h.sound.id_iff hx hpending.1 hoffer hversion).mpr hsequence
      exact ack_error hack hx hid hpending.2
  | ok answer =>
      obtain ⟨outcome, t'⟩ := answer
      have hrun : runOutbox none label.2 (.acknowledge row.id (now label.1)) s.outbox =
          (.ok (), t') := by
        simp only [runOutbox, hack, Except.map, answered]
      have hsound := h.sound.acknowledged hack
      rw [hrun]
      dsimp only
      rw [filter_fresh (hsound.fresh hfresh), List.append_nil, hok]
      refine ⟨_, .retire hphase, hsound, fun x => ?_, h.issued,
        phases_update h (List.Subset.refl _) (.retiring rows fun r hr => ?_)⟩
      · show x ∈ a.standing.erase row.entry.sequence ↔ _
        rw [Finset.mem_erase, h.standing]
        constructor
        · rintro ⟨hne, r, hr, hpending, rfl⟩
          have hid : r.id ≠ row.id := fun heq =>
            hne ((h.sound.id_iff hr hpending.1 hoffer hversion).mp heq)
          exact ⟨r, ((ack_pending hack r).mpr ⟨hr, hpending.2, hid⟩).1, hpending, rfl⟩
        · rintro ⟨r, hr, hpending, rfl⟩
          obtain ⟨hr, -, hid⟩ := (ack_pending hack r).mp ⟨hr, hpending.2⟩
          have hsame := h.sound.id_iff hr hpending.1 hoffer hversion
          exact ⟨fun heq => hid (hsame.mpr heq), r, hr, hpending, rfl⟩
      · rw [hsite]
        exact hrows r (List.mem_cons_of_mem _ hr)

/-- Every call of a retry is a step of the race. -/
theorem Tracks.step (h : Tracks request now siteId X s a)
    (hst : nextWithin siteId s label = some t) :
    ∃ b, Race.Step a b ∧ Tracks request now siteId X t b := by
  have hmatch := h.phases label.1
  generalize hp : s.racers label.1 = p at hmatch
  generalize hphase : a.phase label.1 = phase at hmatch
  cases hmatch with
  | adding => exact h.add hsite hst hphase hp
  | listing => exact h.list hsite hst hphase hp
  | retiring rows hrows =>
      rw [hsite] at hrows
      cases rows with
      | nil => exact nomatch (nextWithin_ret hp).symm.trans hst
      | cons row rows => exact h.ack hsite hst hphase hrows hp
  | done r => exact nomatch (nextWithin_ret hp).symm.trans hst

end Race

/-! ### The queue at the start -/

/-- Pending rows can be read, and no number is negative. -/
def Tidy (t : OutboxTable) : Prop := ∀ row ∈ t.rows,
  (row.entry.state = .pending → row.entry.isValid = true) ∧ 0 ≤ row.entry.sequence

section Tidy

variable {t t' : OutboxTable}

theorem Tidy.of_same (h : Tidy t)
    (hrows : ∀ row' ∈ t'.rows, ∃ row ∈ t.rows, row'.entry = row.entry) : Tidy t' := by
  intro row' hrow'
  obtain ⟨row, hrow, hentry⟩ := hrows row' hrow'
  rw [hentry]
  exact h row hrow

theorem Tidy.prune (h : Tidy t) (instanceId : InstanceId) (operationId : OperationId) :
    Tidy (pruneAckedOperationHistory t instanceId operationId) := by
  refine h.of_same fun row hrow => ⟨row, ?_, rfl⟩
  unfold pruneAckedOperationHistory at hrow
  split at hrow
  · exact hrow
  · exact List.mem_of_mem_filter hrow

theorem Tidy.find {among : OutboxRow → Bool} {newer : OutboxRow → OutboxRow → Prop}
    [DecidableRel newer] {operationId : OperationId} {found : Option OutboxEntry}
    (h : Tidy t) (hfind : findByOperation t among newer operationId = .ok (found, t')) :
    Tidy t' := by
  obtain ⟨rfl, -⟩ | ⟨row, hrow, -, -, -, -, rfl⟩ := findByOperation_ok hfind
  · exact h
  · refine h.of_same fun row' hrow' => ?_
    obtain ⟨x, hx, rfl⟩ := List.mem_map.mp hrow'
    split
    · exact ⟨row, hrow, rfl⟩
    · exact ⟨x, hx, rfl⟩

theorem Tidy.run (h : Tidy t) (fault : Option Fault) (entryId : OutboxEntryId)
    (q : OutboxReq) : Tidy (runOutbox fault entryId q t).2 := by
  have hwrite : ∀ {α : Type} (r : Except OutboxRepositoryError (α × OutboxTable)),
      (∀ a t', r = .ok (a, t') → Tidy t') → Tidy (answered t r).2 := by
    intro α r hr
    cases r with
    | error e => exact h
    | ok a => exact hr a.1 a.2 rfl
  cases fault with
  | some f => cases q <;> exact h
  | none =>
      cases q with
      | enqueue instanceId message createdAt =>
          refine hwrite _ fun entry t' henqueue => ?_
          obtain ⟨sequence, hnonneg, -, -, -, hrows⟩ := enqueueOutboxEntry_ok henqueue
          intro row hrow
          rw [hrows, List.mem_append, List.mem_singleton] at hrow
          obtain hrow | rfl := hrow
          · exact h row hrow
          · exact ⟨fun _ => rfl, hnonneg⟩
      | listPending instanceId limit => exact h
      | listOffers instanceId => exact h
      | findOfferByOperation instanceId operationId =>
          exact hwrite _ fun found t' hfind => h.find hfind
      | findOfferByOperationAcrossInstances operationId =>
          exact hwrite _ fun found t' hfind => h.find hfind
      | acknowledge acknowledged ackedAt =>
          refine hwrite _ fun u t' hmap => ?_
          obtain ⟨answer, hack, hanswer⟩ := map_ok hmap
          cases hanswer
          obtain ⟨row, hrow, -, hrows⟩ := ackOutboxEntry_ok hack
          intro r hr
          obtain ⟨hr, -⟩ | rfl := hrows r hr
          · exact h r hr
          · exact ⟨nofun, (h row hrow).2⟩

theorem tidy_of_reach {l : OutboxSequence.Ledger}
    (h : Reach OutboxSequence.start (Next OutboxSequence.next) l) : Tidy l.outbox := by
  refine h.inv (P := fun l => Tidy l.outbox) ?_ fun l l' hl ⟨label, hnext⟩ => ?_
  · rintro l rfl row hrow
    cases hrow
  · cases label with
    | call fault entryId q =>
        cases hnext
        exact hl.run fault entryId q
    | prune instanceId operationId =>
        cases hnext
        exact hl.prune instanceId operationId

end Tidy

/-! ### Every order of calls -/

section Runs

variable {request : κ → CenterOperationRequest} {now : κ → Instant}
  {siteId : InstanceId} {X : OperationId} {s t : State κ}

theorem Initial.sound (h : Initial request now X s) : Sound s.outbox s.issued := by
  obtain ⟨allocated, hreach⟩ := h.history
  have hnumbered := OutboxSequence.Numbered.of_reach hreach
  have htidy := tidy_of_reach hreach
  rw [h.issued]
  refine ⟨fun row hrow => ⟨row, hrow, .refl row⟩, s.outbox.nodup,
    fun a ha b hb hinstance hsequence => ?_, fun r hr => ⟨r, hr, rfl, le_rfl⟩,
    fun row hrow => (htidy row hrow).1, fun row hrow => (htidy row hrow).2⟩
  exact List.inj_on_of_nodup_map s.outbox.nodup ha hb
    (hnumbered.distinct a ha b hb hinstance hsequence)

open Classical in
/-- The race that the retries start. -/
theorem Initial.tracks (h : Initial request now X s) (siteId : InstanceId) :
    ∃ a : Race κ Int, (∀ k, a.phase k = .adding) ∧ a.standing ⊆ a.issued ∧
      Tracks request now siteId X s a := by
  have hissued : ∀ p : OutboxRow → Prop, ∀ x, x ∈ ((s.outbox.rows.filter p).map
      (·.entry.sequence)).toFinset ↔
        ∃ row ∈ s.outbox.rows, p row ∧ row.entry.sequence = x := by
    intro p x
    simp only [List.mem_toFinset, List.mem_map, List.mem_filter, decide_eq_true_eq,
      and_assoc]
  refine ⟨{
      standing :=
        ((s.outbox.rows.filter (IsPending siteId X)).map (·.entry.sequence)).toFinset
      issued :=
        ((s.outbox.rows.filter (IsOffer siteId X)).map (·.entry.sequence)).toFinset
      phase := fun _ => .adding },
    fun _ => rfl, fun x hx => ?_, h.sound, hissued _, ?_, fun k => ?_⟩
  · obtain ⟨row, hrow, hpending, hsequence⟩ := (hissued _ x).mp hx
    exact (hissued _ x).mpr ⟨row, hrow, hpending.1, hsequence⟩
  · rw [h.issued]
    exact hissued _
  · rw [h.racers]
    exact .adding

theorem tracks_of_reach [DecidableEq κ] [Nonempty κ]
    (hsite : ∀ k, (request k).siteId = siteId)
    (h : Reach (Initial request now X) (Next (nextWithin siteId)) s) :
    ∃ a : Race κ Int, a.Inv ∧ Tracks request now siteId X s a := by
  refine h.inv (P := fun s => ∃ a : Race κ Int, a.Inv ∧ Tracks request now siteId X s a)
    (fun s hs => ?_) fun s t ⟨a, hinv, ha⟩ ⟨label, hst⟩ => ?_
  · obtain ⟨a, hadding, hissued, ha⟩ := hs.tracks siteId
    exact ⟨a, .initial hadding hissued, ha⟩
  · obtain ⟨b, hstep, hb⟩ := ha.step hsite hst
    exact ⟨b, hinv.step hstep, hb⟩

/-- The newest pending offer of the operation. -/
def IsNewest (siteId : InstanceId) (X : OperationId) (t : OutboxTable)
    (row : OutboxRow) : Prop :=
  row ∈ t.rows ∧ IsPending siteId X row ∧ ∀ other ∈ t.rows, IsPending siteId X other →
    other.entry.sequence ≤ row.entry.sequence

/-- In every order of the calls of any number of retries of one operation, on a queue
with any history: no call retires the offer that is the newest pending one, and once
every retry has ended, one offer is pending, and it is newer than every other offer of
the operation that is or was in the queue. -/
theorem retries_settle [DecidableEq κ] [Nonempty κ]
    (request : κ → CenterOperationRequest) (now : κ → Instant) (siteId : InstanceId)
    (X : OperationId)
    (hsite : ∀ k, (request k).siteId = siteId) (s : State κ)
    (h : Reach (Initial request now X) (Next (nextWithin siteId)) s) :
    (∀ t, Next (nextWithin siteId) s t → ∀ row, IsNewest siteId X s.outbox row →
      ∃ row' ∈ t.outbox.rows, row'.id = row.id ∧ IsPending siteId X row') ∧
    ((∀ k, ∃ r, s.racers k = .ret r) → ∃ row ∈ s.outbox.rows, IsPending siteId X row ∧
      (∀ other ∈ s.outbox.rows, IsPending siteId X other → other = row) ∧
      ∀ r ∈ s.issued, IsOffer siteId X r → r.entry.sequence ≤ row.entry.sequence) := by
  obtain ⟨a, hinv, ha⟩ := tracks_of_reach hsite h
  constructor
  · rintro t ⟨label, hst⟩ row ⟨hrow, hpending, hnewest⟩
    obtain ⟨b, hstep, hb⟩ := ha.step hsite hst
    have hstanding := (ha.standing _).mpr ⟨row, hrow, hpending, rfl⟩
    have hstands := hinv.newest_stands hstep hstanding fun y hy => by
      obtain ⟨other, hother, hpending', rfl⟩ := (ha.standing y).mp hy
      exact hnewest other hother hpending'
    obtain ⟨row', hrow', hpending', hsequence⟩ := (hb.standing _).mp hstands
    obtain ⟨r, hr, hv⟩ := ha.sound.versions row hrow
    refine ⟨row', hrow', ?_, hpending'⟩
    exact (hb.sound.id_iff hrow' hpending'.1 hpending.1
      ⟨r, issued_subset hst hr, hv⟩).mpr hsequence
  · intro hdone
    have hlists : ∀ k, a.Lists k [] := by
      intro k
      obtain ⟨r, hr⟩ := hdone k
      have hmatch := ha.phases k
      rw [hr] at hmatch
      exact hmatch.ended
    obtain ⟨m, hone, hmax⟩ := hinv.settled hlists
    have honly : ∀ x, x ∈ a.standing ↔ x = m := by
      intro x
      rw [hone, Finset.mem_singleton]
    obtain ⟨row, hrow, hpending, rfl⟩ := (ha.standing m).mp ((honly m).mpr rfl)
    refine ⟨row, hrow, hpending, fun other hother hpending' => ?_,
      fun r hr hoffer => ?_⟩
    · have hstanding := (ha.standing _).mpr ⟨other, hother, hpending', rfl⟩
      have hsequence := (honly _).mp hstanding
      exact List.inj_on_of_nodup_map s.outbox.nodup hother hrow
        ((ha.sound.id_iff hother hpending'.1 hpending.1
          (ha.sound.versions row hrow)).mpr hsequence)
    · exact hmax _ ((ha.issued _).mpr ⟨r, hr, hoffer, rfl⟩)

end Runs

/-! ### Two retries -/

def retried : CenterOperationRequest :=
  ⟨⟨7⟩, ⟨2⟩, "/redfish/v1/Systems/1", .system (.reset "On"), ⟨5⟩⟩

def clock : Bool → Instant
  | false => 100
  | true => 200

def idleQueue : State Bool :=
  ⟨.empty, [], fun k => deliverRetry retried ⟨1⟩ (clock k)⟩

def ended (s : State Bool) (k : Bool) : Bool :=
  match s.racers k with
  | .ret _ => true
  | .call _ _ => false

theorem exists_of_ended {s : State Bool} {k : Bool} (h : ended s k = true) :
    ∃ r, s.racers k = .ret r := by
  unfold ended at h
  split at h
  · next r hr => exact ⟨r, hr⟩
  · cases h

/-- Both queue an offer before either of them lists. -/
def bothListed : List (Bool × OutboxEntryId) :=
  [(false, ⟨1⟩), (true, ⟨2⟩), (true, ⟨3⟩), (false, ⟨4⟩), (false, ⟨5⟩), (true, ⟨6⟩)]

theorem two_retries_settle : ∃ s : State Bool,
    Reach (Initial (fun _ => retried) clock ⟨1⟩) (Next (nextWithin ⟨7⟩)) s ∧
    (∀ k, ∃ r, s.racers k = .ret r) ∧ ∃ row ∈ s.outbox.rows, IsPending ⟨7⟩ ⟨1⟩ row ∧
      (∀ other ∈ s.outbox.rows, IsPending ⟨7⟩ ⟨1⟩ other → other = row) ∧
      ∀ r ∈ s.issued, IsOffer ⟨7⟩ ⟨1⟩ r → r.entry.sequence ≤ row.entry.sequence := by
  obtain ⟨s, hs, hp⟩ := exists_reach_of_follow (Initial (fun _ => retried) clock ⟨1⟩)
    (nextWithin ⟨7⟩) (s := idleQueue) bothListed
    (fun s => ended s false && ended s true)
    ⟨⟨[], .init rfl⟩, rfl, fun _ => rfl⟩ (by decide +kernel)
  obtain ⟨hfalse, htrue⟩ := Bool.and_eq_true_iff.mp hp
  have hdone : ∀ k, ∃ r, s.racers k = .ret r := by
    intro k
    cases k with
    | false => exact exists_of_ended hfalse
    | true => exact exists_of_ended htrue
  exact ⟨s, hs, hdone, (retries_settle (fun _ => retried) clock ⟨7⟩ ⟨1⟩ (fun _ => rfl) s
    hs).2 hdone⟩

end Rutilus.Proofs.OfferSettlement
