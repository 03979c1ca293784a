import Rutilus.App.CenterSystem
import Rutilus.Lib.Listing
import Rutilus.Lib.Rely
import Rutilus.Lib.Runs
import Rutilus.Proofs.OutboxRows

/-!
# The center's offers on the books

Whatever programs run on the center's boundary, the outbox and the list of all
offers ever queued agree: a row with an operation was offered to the site of its
queue, and an operation once offered to a site still has a row in that site's
queue. The second half rests on the pruning, which never deletes the last row of
an operation in an instance.
-/

namespace Rutilus.Proofs.CenterBooks

open Rutilus.Domain Rutilus.Lib Rutilus.Store Rutilus.App.CenterBoundary
  Rutilus.App.CenterDispatch Rutilus.App.CenterTracking
  Rutilus.App.CenterSystem Rutilus.Proofs.OutboxRows

/-- The outbox and the list of offers agree. -/
structure Books (t : OutboxTable) (offered : List (OperationId × InstanceId)) :
    Prop where
  column : ∀ row ∈ t.rows,
    row.operationId = payloadOperationId row.entry.payload
  listed : ∀ row ∈ t.rows, ∀ X, row.operationId = some X →
    (X, row.entry.instanceId) ∈ offered
  kept : ∀ X S, (X, S) ∈ offered → ∃ row ∈ t.rows,
    row.entry.instanceId = S ∧ row.operationId = some X

theorem Books.empty : Books .empty [] :=
  ⟨by simp [Table.empty], by simp [Table.empty], by simp⟩

section Changes

variable {t t' : OutboxTable} {offered : List (OperationId × InstanceId)}

theorem Books.version_column (h : Books t offered) {row row' : OutboxRow}
    (hrow : row ∈ t.rows) (hv : Version row' row) :
    row'.operationId = row.operationId := by
  rcases hv.column with hsame | ⟨hnone, hfilled⟩
  · exact hsame
  · rw [hfilled, h.column row hrow]

theorem Books.shrinks {acked : OutboxRow → Prop}
    {history : Option (InstanceId × OperationId)} (h : Books t offered)
    (hs : Shrinks acked history t t') : Books t' offered where
  column := by
    intro row' hrow'
    obtain ⟨row, hrow, hv⟩ := hs.stored row' hrow'
    rw [h.version_column hrow hv, hv.payload, h.column row hrow]
  listed := by
    intro row' hrow' X hX
    obtain ⟨row, hrow, hv⟩ := hs.stored row' hrow'
    rw [hv.instanceId]
    exact h.listed row hrow X (h.version_column hrow hv ▸ hX)
  kept := by
    intro X S hXS
    obtain ⟨row, hrow, hS, hX⟩ := h.kept X S hXS
    rcases hs.gone row hrow with ⟨row', hrow', hv⟩ |
      ⟨operationId, -, hop, -, keeper, hkeeper, hof, -⟩
    · exact ⟨row', hrow', hv.instanceId.trans hS,
        (h.version_column hrow hv).trans hX⟩
    · simp only [isAckedOf, decide_eq_true_eq] at hof
      exact ⟨keeper, hkeeper, hof.1.trans hS, hof.2.1.trans (hop.symm.trans hX)⟩

theorem Books.enqueue {entryId : OutboxEntryId} {instanceId : InstanceId}
    {sequence : Int} {message : EnvelopeMessage} {now : Instant}
    (h : Books t offered)
    (hrows : t'.rows = t.rows ++
      [outboxRowOf entryId instanceId sequence message now]) :
    Books t' (offered ++
      (payloadOperationId (some ⟨0, 0, some message⟩)).toList.map
        fun operationId => (operationId, instanceId)) := by
  -- the envelope's numbers do not matter for the operation it is about
  have hcolumn : (outboxRowOf entryId instanceId sequence message
      now).operationId = payloadOperationId (some ⟨0, 0, some message⟩) := by
    cases message <;> rfl
  refine ⟨?_, ?_, ?_⟩
  · intro row hrow
    rw [hrows, List.mem_append, List.mem_singleton] at hrow
    rcases hrow with hrow | rfl
    · exact h.column row hrow
    · rfl
  · intro row hrow X hX
    rw [hrows, List.mem_append, List.mem_singleton] at hrow
    rw [List.mem_append]
    rcases hrow with hrow | rfl
    · exact .inl (h.listed row hrow X hX)
    · right
      rw [← hcolumn, hX]
      exact List.mem_singleton.mpr rfl
  · intro X S hXS
    rw [hrows]
    rw [List.mem_append] at hXS
    rcases hXS with hXS | hXS
    · obtain ⟨row, hrow, hS, hX⟩ := h.kept X S hXS
      exact ⟨row, List.mem_append_left _ hrow, hS, hX⟩
    · refine ⟨_, List.mem_append_right _ (List.mem_singleton.mpr rfl), ?_⟩
      obtain ⟨Y, hY, heq⟩ := List.mem_map.mp hXS
      cases heq
      exact ⟨rfl, hcolumn.trans (Option.mem_toList.mp hY)⟩

end Changes

/-! ## Calls and runs -/

/-- Whether a call queues something. -/
def isEnqueue : CenterReq → Bool
  | .outbox (.enqueue ..) => true
  | _ => false

/-- Whether a call creates a record. -/
def isCreate : CenterReq → Bool
  | .operations (.createOperation _) => true
  | _ => false

/-- Only a call that queues something adds to the list of offers. -/
theorem offered_of_not_isEnqueue {q : CenterReq} (hq : isEnqueue q = false)
    (request : Option CenterOperationRequest) (o : Oracle) (w : World) :
    (perform request o q w).2.offered = w.offered := by
  have hoffer : ∀ r : q.Resp, offerOf q r = [] := by
    intro r
    cases q with
    | outbox q => cases q <;> first | rfl | cases hq
    | _ => rfl
  simp only [perform, hoffer, List.append_nil]

/-- Every call of the boundary keeps the books, whoever makes it. -/
theorem Books.of_perform {w : World} (h : Books w.outbox w.offered)
    (request : Option CenterOperationRequest) (o : Oracle) (q : CenterReq) :
    Books (perform request o q w).2.outbox (perform request o q w).2.offered := by
  cases q with
  | outbox q =>
      by_cases hq : ∃ siteId message now, q = .enqueue siteId message now
      · obtain ⟨siteId, message, now, rfl⟩ := hq
        rcases runOutbox_enqueue o.fault o.entryId siteId message now
          w.outbox with ⟨sequence, t', hrun, -, hrows⟩ | ⟨e, hrun⟩
        · simp only [perform, answer, hrun, offerOf]
          exact h.enqueue hrows
        · simp only [perform, answer, hrun, offerOf,
            List.append_nil]
          exact h
      · have hq : ∀ siteId message now, q ≠ .enqueue siteId message now :=
          fun siteId message now hq' => hq ⟨siteId, message, now, hq'⟩
        have hoffer : ∀ r : q.Resp, offerOf (.outbox q) r = [] := by
          intro r
          cases q with
          | enqueue siteId message now => exact absurd rfl (hq siteId message now)
          | _ => rfl
        simp only [perform, answer, hoffer, List.append_nil]
        exact h.shrinks (runOutbox_shrinks o.fault o.entryId hq w.outbox)
  | listOperationsForEndpoint state endpointId =>
      simp only [perform, answer, offerOf, List.append_nil]
      cases o.fault <;> exact h
  | _ =>
      simp only [perform, answer, offerOf, List.append_nil]
      exact h

/-- The books hold in every state of every run. -/
theorem Books.of_next {s t : State} {l : Label}
    (h : Books s.world.outbox s.world.offered) (hl : next s l = some t) :
    Books t.world.outbox t.world.offered := by
  cases l with
  | dispatch request now =>
      simp only [next] at hl
      split at hl
      · cases hl
        exact h
      · cases hl
  | dispatchCall o =>
      simp only [next] at hl
      split at hl
      · split at hl
        · cases hl
          exact h.of_perform _ o _
        · cases hl
      · cases hl
  | dispatchDone =>
      simp only [next] at hl
      split at hl
      · cases hl
        exact h
      · cases hl
  | reply site envelope now =>
      cases hl
      exact h
  | replyCall i o =>
      simp only [next] at hl
      split at hl
      · cases hl
        exact h.of_perform _ o _
      · cases hl
  | acknowledge entryId ackedAt =>
      simp only [next] at hl
      split at hl
      · next outcome outbox hack =>
          cases hl
          obtain ⟨row, -, -, hshrinks⟩ := shrinks_ackOutboxEntry hack
          exact h.shrinks hshrinks
      · cases hl
  | crash =>
      cases hl
      exact h

/-! ## Reading the offers -/

section Reading

variable {t t' : OutboxTable} {offered : List (OperationId × InstanceId)}
  {among : OutboxRow → Bool} {newer : OutboxRow → OutboxRow → Prop}
  [DecidableRel newer] {X : OperationId}

/-- With the columns filled in, a directed read changes nothing and finds a row
of the operation. -/
theorem Books.findByOperation (h : Books t offered)
    {found : Option OutboxEntry}
    (hf : findByOperation t among newer X = .ok (found, t')) :
    t' = t ∧ ∀ entry, found = some entry → ∃ row ∈ t.rows,
      among row = true ∧ row.entry = entry ∧ row.operationId = some X := by
  rcases findByOperation_ok hf with hfound | ⟨row, hrow, -, hnone, hp, -⟩
  · exact hfound
  · rw [h.column row hrow, hp] at hnone
    cases hnone

/-- A directed read that finds nothing has no row of the operation to find. -/
theorem findByOperation_none
    (hf : Store.findByOperation t among newer X = .ok (none, t')) :
    ∀ row ∈ t.rows, among row = true → row.operationId ≠ some X := by
  intro row hrow hamong hX
  unfold Store.findByOperation at hf
  dsimp only at hf
  split at hf
  · next found hfound =>
      unfold mapStoredOutboxEntry at hf
      split at hf <;> cases hf
  · next hnone =>
      refine absurd hX ?_
      simpa using List.find?_eq_none.mp hnone row
        ((List.mem_insertionSort _).mpr (List.mem_filter.mpr ⟨hrow, hamong⟩))

/-- The pending entries are rows of the site's queue. -/
theorem mem_of_listPendingOutbox {siteId : InstanceId} {limit : Nat}
    {entries : List OutboxEntry} {entry : OutboxEntry}
    (hl : listPendingOutbox t siteId limit = .ok entries)
    (he : entry ∈ entries) :
    ∃ row ∈ t.rows, row.entry = entry ∧ row.entry.instanceId = siteId := by
  obtain ⟨row, hrow, hmap⟩ := exists_of_mem_mapM hl he
  have hrow := List.mem_of_mem_take hrow
  obtain ⟨hrow, hp⟩ := List.mem_filter.mp ((List.mem_insertionSort _).mp hrow)
  simp only [decide_eq_true_eq] at hp
  unfold mapStoredOutboxEntry at hmap
  split at hmap
  · cases hmap
    exact ⟨row, hrow, rfl, hp.1⟩
  · cases hmap

/-- A lookup over all queues that was answered is the lookup in the table. -/
theorem findAcross_ok {fault : Option Fault} {entryId : OutboxEntryId}
    {found : Option OutboxEntry}
    (h : (runOutbox fault entryId (.findOfferByOperationAcrossInstances X)
      t).1 = .ok found) :
    fault = none ∧ ∃ t', findOfferByOperationAcrossInstances t X =
      .ok (found, t') := by
  cases fault with
  | some f => cases h
  | none =>
      cases hf : findOfferByOperationAcrossInstances t X with
      | error e =>
          simp only [runOutbox, hf, answered] at h
          cases h
      | ok r =>
          simp only [runOutbox, hf, answered] at h
          cases h
          exact ⟨rfl, r.2, rfl⟩

/-- What a lookup over all queues tells: an operation without facts was offered
nowhere, and the facts are those of a stored row. -/
theorem Books.findAcross (h : Books t offered) {found : Option OutboxEntry}
    (hf : findOfferByOperationAcrossInstances t X = .ok (found, t')) :
    (found.bind offerFacts = none → ∀ S, (X, S) ∉ offered) ∧
      ∀ fact, found.bind offerFacts = some fact → ∃ row ∈ t.rows,
        found = some row.entry ∧ offerFacts row.entry = some fact ∧
          row.operationId = some X ∧ fact.operationId = X := by
  cases found with
  | none =>
      refine ⟨fun _ S hS => ?_, fun fact h => (by cases h)⟩
      obtain ⟨row, hrow, -, hX⟩ := h.kept X S hS
      exact findByOperation_none hf row hrow rfl hX
  | some entry =>
      obtain ⟨-, hfound⟩ := h.findByOperation hf
      obtain ⟨row, hrow, -, rfl, hX⟩ := hfound entry rfl
      obtain ⟨fact, hfact, hid⟩ := offerFacts_of_operationId
        ((h.column row hrow).symm.trans hX)
      refine ⟨fun hnone => ?_, fun fact' hfact' => ?_⟩
      · rw [Option.bind_some, hfact] at hnone
        cases hnone
      · rw [Option.bind_some, hfact] at hfact'
        cases hfact'
        exact ⟨row, hrow, rfl, hfact, hX, hid⟩

end Reading

/-! The newest of some facts. -/

section Newest

variable {facts : List OfferFact}

/-- A fold that keeps one of what it sees. -/
theorem foldl_some_mem {α : Type} {f : Option α → α → Option α}
    (hf : ∀ o a, f o a = some a ∨ f o a = o) {l : List α} {o : Option α} {a : α}
    (h : l.foldl f o = some a) : o = some a ∨ a ∈ l := by
  induction l generalizing o with
  | nil => exact .inl h
  | cons b l ih =>
      rw [List.foldl_cons] at h
      rcases ih h with hb | hmem
      · rcases hf o b with hnew | hold
        · rw [hnew, Option.some.injEq] at hb
          exact .inr (hb ▸ List.mem_cons_self)
        · exact .inl (hold ▸ hb)
      · exact .inr (List.mem_cons_of_mem _ hmem)

/-- A fold that has something from its first entry on. -/
theorem foldl_none {α : Type} {f : Option α → α → Option α}
    (hf : ∀ o a, f o a ≠ none) {l : List α} {o : Option α}
    (h : l.foldl f o = none) : l = [] := by
  rcases List.eq_nil_or_concat l with rfl | ⟨init, last, rfl⟩
  · rfl
  · rw [List.concat_eq_append, List.foldl_append] at h
    exact absurd h (hf _ _)

theorem mem_of_newestFact {fact : OfferFact}
    (h : newestFact facts = some fact) : fact ∈ facts := by
  unfold newestFact at h
  refine (foldl_some_mem (fun newest f => ?_) h).resolve_left (by simp)
  cases newest with
  | none => exact .inl rfl
  | some best =>
      dsimp only
      split
      · exact .inl rfl
      · exact .inr rfl

theorem newestFact_none {fact : OfferFact} (h : newestFact facts = none) :
    fact ∉ facts := by
  unfold newestFact at h
  rw [foldl_none (fun newest f => ?_) h]
  · exact List.not_mem_nil
  · cases newest with
    | none => exact Option.some_ne_none f
    | some best =>
        dsimp only
        split
        · exact Option.some_ne_none f
        · exact Option.some_ne_none best

end Newest

end Rutilus.Proofs.CenterBooks
