import Rutilus.Lib.Listing
import Rutilus.Proofs.ReplyProvenance

/-!
# One undecided operation for each key

A dispatch that finds an undecided operation of its key returns it. The key is
the endpoint, the command and the canonical target; the record knows the first
two, and the offers of an operation all carry the target it was created for. An
operation whose offer was never queued cannot be told apart by its target, so a
dispatch adopts it only when it is the one undecided operation of its endpoint
and command. As long as no dispatch meets such an operation under another target
or beside another undecided one, there is at most one undecided operation for
each key, and every dispatch that succeeds returns it.
-/

namespace Rutilus.Proofs.DispatchKeys

open Rutilus.Domain Rutilus.Lib Rutilus.Store Rutilus.Engine
  Rutilus.App.CenterBoundary Rutilus.App.CenterDispatch
  Rutilus.App.CenterTracking Rutilus.App.CenterSystem
  Rutilus.Proofs.CenterBooks Rutilus.Proofs.OutboxRows

/-! ## Listings -/

/-- What the scan over some states of an endpoint has found. -/
structure Listed (t : OperationTable) (endpointId : EndpointId)
    (states : List OperationState) (operations : List Operation) : Prop where
  sound : ∀ operation ∈ operations, ∃ row ∈ t.rows,
    mapStoredOperation row = .ok operation ∧ row.state ∈ states ∧
      row.targets.any (fun target => target.endpointId = endpointId) = true
  complete : ∀ row ∈ t.rows, row.state ∈ states →
    row.targets.any (fun target => target.endpointId = endpointId) = true →
      ∃ operation ∈ operations, mapStoredOperation row = .ok operation
  nodup : (operations.map Operation.id).Nodup

theorem listed_one {t : OperationTable} {endpointId : EndpointId}
    {state : OperationState} {operations : List Operation}
    (h : listOperationsForEndpoint t (some state) endpointId =
      .ok operations) : Listed t endpointId [state] operations := by
  unfold listOperationsForEndpoint at h
  have hmem : ∀ row, row ∈ (t.rows.filter fun row =>
      (some state).all (row.state = ·) && row.targets.any fun target =>
        target.endpointId = endpointId).insertionSort acceptedBefore ↔
      row ∈ t.rows ∧ row.state = state ∧ row.targets.any (fun target =>
        target.endpointId = endpointId) = true := by
    intro row
    rw [List.mem_insertionSort, List.mem_filter]
    simp
  refine ⟨fun operation ho => ?_, fun row hrow hstate htarget => ?_, ?_⟩
  · obtain ⟨row, hrow, hstored⟩ := exists_of_mem_mapM h ho
    obtain ⟨hrow, hstate, htarget⟩ := (hmem row).mp hrow
    exact ⟨row, hrow, hstored, List.mem_singleton.mpr hstate, htarget⟩
  · exact exists_mapM_of_mem h ((hmem row).mpr
      ⟨hrow, List.mem_singleton.mp hstate, htarget⟩)
  · rw [map_of_mapM_ok (fun row operation hr => (mapStoredOperation_ok hr).1) h]
    refine ((List.perm_insertionSort acceptedBefore _).map _).nodup_iff.mpr ?_
    exact (List.filter_sublist.map _).nodup t.nodup

/-- The scans of different states find different operations. -/
theorem Listed.cons {t : OperationTable} {endpointId : EndpointId}
    {state : OperationState} {states : List OperationState}
    {found rest : List Operation} (h₁ : Listed t endpointId [state] found)
    (h₂ : Listed t endpointId states rest) (hstate : state ∉ states) :
    Listed t endpointId (state :: states) (found ++ rest) := by
  refine ⟨?_, ?_, ?_⟩
  · intro operation ho
    rcases List.mem_append.mp ho with ho | ho
    · obtain ⟨row, hrow, hstored, hs, htarget⟩ := h₁.sound operation ho
      rw [List.mem_singleton] at hs
      exact ⟨row, hrow, hstored, hs ▸ List.mem_cons_self, htarget⟩
    · obtain ⟨row, hrow, hstored, hs, htarget⟩ := h₂.sound operation ho
      exact ⟨row, hrow, hstored, List.mem_cons_of_mem _ hs, htarget⟩
  · intro row hrow hs htarget
    rcases List.mem_cons.mp hs with hs | hs
    · obtain ⟨operation, ho, hstored⟩ := h₁.complete row hrow
        (List.mem_singleton.mpr hs) htarget
      exact ⟨operation, List.mem_append_left _ ho, hstored⟩
    · obtain ⟨operation, ho, hstored⟩ := h₂.complete row hrow hs htarget
      exact ⟨operation, List.mem_append_right _ ho, hstored⟩
  · rw [List.map_append, List.nodup_append]
    refine ⟨h₁.nodup, h₂.nodup, ?_⟩
    intro X hX Y hY hXY
    obtain ⟨a, ha, rfl⟩ := List.mem_map.mp hX
    obtain ⟨b, hb, rfl⟩ := List.mem_map.mp hY
    obtain ⟨row, hrow, hstored, hs, -⟩ := h₁.sound a ha
    obtain ⟨row', hrow', hstored', hs', -⟩ := h₂.sound b hb
    have hids : row.id = row'.id := by
      rw [← (mapStoredOperation_ok hstored).1, hXY,
        (mapStoredOperation_ok hstored').1]
    have : row = row' := List.inj_on_of_nodup_map t.nodup hrow hrow' hids
    subst this
    rw [List.mem_singleton] at hs
    exact hstate (hs ▸ hs')

/-! ## The invariant of the tables -/

/-- Every record was created for a request and says so in endpoint and command,
every offer carries the target of the request its operation was created for,
and no two undecided operations were created for one key. -/
structure KeyInv (w : World) : Prop where
  books : Books w.outbox w.offered
  records : ∀ row ∈ w.operations.rows, ∃ request targetId,
    w.requestOf row.id = some request ∧ row.source = .center ∧
      row.targets = [⟨targetId, request.endpointId⟩] ∧
      row.command = request.command
  targets : ∀ row ∈ w.outbox.rows, ∀ fact, offerFacts row.entry = some fact →
    ∃ request, w.requestOf fact.operationId = some request ∧
      canonicalTargetKey fact.target =
        canonicalTargetKey request.targetODataId
  single : ∀ a ∈ w.operations.rows, ∀ b ∈ w.operations.rows,
    a.state.isTerminal = false → b.state.isTerminal = false →
    ∀ request request', w.requestOf a.id = some request →
      w.requestOf b.id = some request' → sameKey request request' = true →
      a.id = b.id

theorem sameKey_comm (a b : CenterOperationRequest) :
    sameKey a b = sameKey b a := by
  simp only [sameKey, eq_comm]

section Undecided

variable {w : World} {request : CenterOperationRequest} {X : OperationId}

/-- An undecided operation of a request's endpoint and command. -/
theorem mem_undecidedOf (h : KeyInv w) : X ∈ w.undecidedOf request ↔
    ∃ row ∈ w.operations.rows, row.id = X ∧ row.state.isTerminal = false ∧
      ∃ created, w.requestOf X = some created ∧
        created.endpointId = request.endpointId ∧
        created.command = request.command := by
  unfold World.undecidedOf
  rw [List.mem_map]
  constructor
  · rintro ⟨row, hrow, rfl⟩
    obtain ⟨hrow, hp⟩ := List.mem_filter.mp hrow
    obtain ⟨created, targetId, hcreated, -, htargets, hcommand⟩ :=
      h.records row hrow
    simp only [htargets, List.any_cons, List.any_nil, Bool.or_false,
      Bool.and_eq_true, decide_eq_true_eq, Bool.not_eq_true'] at hp
    exact ⟨row, hrow, rfl, hp.2, created, hcreated, hp.1.1.2,
      hcommand.symm.trans hp.1.2⟩
  · rintro ⟨row, hrow, rfl, hopen, created, hcreated, hendpoint, hcommand⟩
    obtain ⟨created', targetId, hcreated', hsource, htargets, hcommand'⟩ :=
      h.records row hrow
    cases hcreated.symm.trans hcreated'
    refine ⟨row, List.mem_filter.mpr ⟨hrow, ?_⟩, rfl⟩
    simp [hsource, htargets, hendpoint, hcommand', hcommand, hopen]

/-- An undecided operation of a request's key. -/
theorem mem_undecidedUnder (h : KeyInv w) :
    X ∈ w.undecidedUnder request ↔
      ∃ row ∈ w.operations.rows, row.id = X ∧ row.state.isTerminal = false ∧
        ∃ created, w.requestOf X = some created ∧
          sameKey request created = true := by
  unfold World.undecidedUnder
  rw [List.mem_filter, mem_undecidedOf h]
  constructor
  · rintro ⟨⟨row, hrow, hid, hopen, -⟩, hkey⟩
    obtain ⟨created, hcreated, hkey⟩ := (Option.any_eq_true _ _).mp hkey
    exact ⟨row, hrow, hid, hopen, created, hcreated, hkey⟩
  · rintro ⟨row, hrow, hid, hopen, created, hcreated, hkey⟩
    refine ⟨⟨row, hrow, hid, hopen, created, hcreated, ?_⟩, ?_⟩
    · simp only [sameKey, decide_eq_true_eq] at hkey
      exact ⟨hkey.1.symm, hkey.2.1.symm⟩
    · rw [hcreated]
      exact hkey

/-- Two undecided operations of one key are one. -/
theorem undecidedUnder_unique (h : KeyInv w) {Y : OperationId}
    (hX : X ∈ w.undecidedUnder request) (hY : Y ∈ w.undecidedUnder request) :
    X = Y := by
  obtain ⟨a, ha, rfl, haopen, created, hcreated, hkey⟩ :=
    (mem_undecidedUnder h).mp hX
  obtain ⟨b, hb, rfl, hbopen, created', hcreated', hkey'⟩ :=
    (mem_undecidedUnder h).mp hY
  refine h.single a ha b hb haopen hbopen created created' hcreated
    hcreated' ?_
  simp only [sameKey, decide_eq_true_eq] at hkey hkey' ⊢
  exact ⟨hkey.1.symm.trans hkey'.1, hkey.2.1.symm.trans hkey'.2.1,
    hkey.2.2.symm.trans hkey'.2.2⟩

/-- The candidates of a scan are the undecided operations of the request's
endpoint and command, each once. -/
theorem candidatesOf_spec (h : KeyInv w) {operations : List Operation}
    (hlisted : Listed w.operations request.endpointId
      idempotencyCandidateStates operations) :
    (candidatesOf request operations).Nodup ∧
      ∀ X, X ∈ candidatesOf request operations ↔
        X ∈ w.undecidedOf request := by
  have hopen : ∀ state : OperationState, state ∈ idempotencyCandidateStates ↔
      state.isTerminal = false := by
    intro state
    cases state <;> decide
  refine ⟨?_, fun X => ?_⟩
  · unfold candidatesOf
    refine ((List.perm_insertionSort recoveredBefore _).map _).nodup_iff.mpr ?_
    exact (List.filter_sublist.map _).nodup hlisted.nodup
  · rw [mem_undecidedOf h]
    unfold candidatesOf
    rw [List.mem_map]
    constructor
    · rintro ⟨operation, ho, rfl⟩
      rw [List.mem_insertionSort, List.mem_filter] at ho
      obtain ⟨ho, hp⟩ := ho
      obtain ⟨row, hrow, hstored, hstate, -⟩ := hlisted.sound operation ho
      obtain ⟨created, targetId, hcreated, -, htargets, hcommand⟩ :=
        h.records row hrow
      obtain ⟨hid, -, hcommand', -⟩ := mapStoredOperation_ok hstored
      have htargets' := mapStoredOperation_targets hstored htargets
      simp only [isOfRequest, htargets', List.head?_cons, Option.any_some,
        Bool.and_eq_true, decide_eq_true_eq] at hp
      rw [hid]
      exact ⟨row, hrow, rfl, (hopen row.state).mp hstate, created, hcreated,
        hp.1.1.2, hcommand.symm.trans (hcommand'.symm.trans hp.1.2)⟩
    · rintro ⟨row, hrow, rfl, hstate, created, hcreated, hendpoint, hcommand⟩
      obtain ⟨created', targetId, hcreated', hsource, htargets, hcommand'⟩ :=
        h.records row hrow
      cases hcreated.symm.trans hcreated'
      obtain ⟨operation, ho, hstored⟩ := hlisted.complete row hrow
        ((hopen row.state).mpr hstate) (by simp [htargets, hendpoint])
      obtain ⟨hid, hsource', hcommand'', hstate', -⟩ :=
        mapStoredOperation_ok hstored
      have htargets' := mapStoredOperation_targets hstored htargets
      refine ⟨operation, ?_, hid⟩
      rw [List.mem_insertionSort, List.mem_filter]
      refine ⟨ho, ?_⟩
      simp [isOfRequest, htargets', hsource', hsource, hcommand'', hcommand',
        hcommand, hendpoint, hstate', hstate]

end Undecided

/-! ## The contract of a dispatch -/

/-- The records and what they were created for are as they were. -/
def Kept (a b : World) : Prop :=
  b.operations = a.operations ∧ b.minted = a.minted

/-- Moreover nothing was queued. -/
def Still (a b : World) : Prop := Kept a b ∧ b.offered = a.offered

theorem Kept.trans {a b c : World} (h₁ : Kept a b) (h₂ : Kept b c) :
    Kept a c :=
  ⟨h₂.1.trans h₁.1, h₂.2.trans h₁.2⟩

theorem Still.trans {a b c : World} (h₁ : Still a b) (h₂ : Still b c) :
    Still a c :=
  ⟨h₁.1.trans h₂.1, h₂.2.trans h₁.2⟩

theorem Still.refl (a : World) : Still a a := ⟨⟨rfl, rfl⟩, rfl⟩

theorem Kept.requestOf {a b : World} (h : Kept a b) (X : OperationId) :
    b.requestOf X = a.requestOf X := by
  unfold World.requestOf
  rw [h.2]

theorem Kept.undecidedUnder {a b : World} (h : Kept a b)
    (request : CenterOperationRequest) :
    b.undecidedUnder request = a.undecidedUnder request := by
  unfold World.undecidedUnder World.undecidedOf World.requestOf
  rw [h.1, h.2]

/-- A call of a dispatch. -/
def Calls (request : CenterOperationRequest) : Sem center World :=
  fun q a r b => KeyInv a ∧
    ∃ o, allowed o a q = true ∧ perform (some request) o q a = (r, b)

/-- What each call of a dispatch answers for: it creates a record only while
none of its key is undecided, and queues offers of its own target only for
operations of its key. -/
def Duty (request : CenterOperationRequest) (now : Instant) (a : World) :
    CenterReq → Prop
  | .operations (.createOperation operation) =>
      a.undecidedUnder request = [] ∧ ∃ X targetId,
        operation = .new X .center [⟨targetId, request.endpointId⟩]
          request.command now ∧ a.isFresh X = true
  | .operations (.findOperation _) => True
  | .operations (.listOperations _) => True
  | .operations _ => False
  | .outbox (.enqueue _ message _) => ∃ X offer,
      message = .operationOffer offer ∧ offer.operationId = some X ∧
        offer.target = request.targetODataId ∧
        (a.requestOf X).any (sameKey request) = true
  | _ => True

abbrev Keyed {α : Type} (request : CenterOperationRequest) (now : Instant)
    (p : Prog center α) (Q : α → World → Prop) (w : World) : Prop :=
  Safe (Calls request) Still (fun q a _ => Duty request now a q) p Q w

section Program

variable {request : CenterOperationRequest} {now : Instant} {X : OperationId}
  {v a b : World}

/-- A call that writes no record and queues nothing. -/
theorem still_call {q : CenterReq} {r : q.Resp} (h : Calls request q a r b)
    (hw : ReplyProvenance.writes q = none) (hq : isEnqueue q = false) :
    Still a b := by
  obtain ⟨-, o, -, ho⟩ := h
  have hb := congrArg Prod.snd ho
  rw [← show _ = b from hb]
  refine ⟨⟨?_, ?_⟩, offered_of_not_isEnqueue hq _ o a⟩
  · cases q with
    | operations q =>
        cases q with
        | findOperation id =>
            show (runOperationStore o.fault _ a.operations).2 = _
            cases o.fault <;> rfl
        | listOperations state =>
            show (runOperationStore o.fault _ a.operations).2 = _
            cases o.fault <;> rfl
        | _ => cases hw
    | listOperationsForEndpoint state endpointId =>
        simp only [perform, answer]
        cases o.fault <;> rfl
    | _ => rfl
  · have hmint : ∀ r : q.Resp, mintOf (some request) q r = [] := by
      intro r
      cases q with
      | operations q => cases q <;> first | rfl | cases hw
      | _ => rfl
    simp only [perform, hmint, List.append_nil]

/-- Queueing keeps the records. -/
theorem kept_enqueue {S : InstanceId} {message : EnvelopeMessage}
    {n : Instant} {r : Except OutboxRepositoryError OutboxEntry}
    (h : Calls request (.outbox (.enqueue S message n)) a r b) : Kept a b := by
  obtain ⟨-, o, -, ho⟩ := h
  have hb := congrArg Prod.snd ho
  rw [← show _ = b from hb]
  refine ⟨rfl, ?_⟩
  simp only [perform, mintOf, List.append_nil]

theorem enqueueOffer_keyed {expiresAt n : Instant}
    (hX : (v.requestOf X).any (sameKey request) = true) :
    Keyed request now (enqueueOffer request X expiresAt n)
      (fun _ w => Kept v w) v := by
  intro v₁ h₁ r v₂ h₂
  refine ⟨⟨X, _, rfl, rfl, rfl, by rwa [h₁.1.requestOf]⟩, ?_⟩
  cases r <;> exact h₁.1.trans (kept_enqueue h₂)

theorem acknowledgeAll_still {n : Instant} (entryIds : List OutboxEntryId) :
    Keyed request now (acknowledgeAll n entryIds)
      (fun _ w => Still v w) v := by
  induction entryIds generalizing v with
  | nil => exact .refl v
  | cons entryId entryIds ih =>
      intro v₁ h₁ r v₂ h₂
      refine ⟨trivial, ?_⟩
      have hstill := h₁.trans (still_call h₂ rfl rfl)
      cases r with
      | error e => exact hstill
      | ok u => exact ih.imp fun _ w h => hstill.trans h

/-- Each fact carries the target its operation was created for. -/
def Targeted (facts : List OfferFact) (w : World) : Prop :=
  ∀ fact ∈ facts, ∃ created, w.requestOf fact.operationId = some created ∧
    canonicalTargetKey fact.target = canonicalTargetKey created.targetODataId

theorem Targeted.kept {facts : List OfferFact} (h : Targeted facts a)
    (hab : Kept a b) : Targeted facts b := by
  intro fact hfact
  rw [hab.requestOf]
  exact h fact hfact

theorem pendingFacts_still {siteId : InstanceId} :
    Keyed request now (pendingFacts siteId)
      (fun r w => Still v w ∧
        ∀ facts, r = .ok facts → Targeted facts w) v := by
  intro v₁ h₁ r v₂ h₂
  refine ⟨trivial, ?_⟩
  have h₃ := still_call h₂ rfl rfl
  have hstill := h₁.trans h₃
  cases r with
  | error e => exact ⟨hstill, fun facts h => (by cases h)⟩
  | ok entries =>
      refine ⟨hstill, fun facts h => ?_⟩
      cases h
      refine Targeted.kept (a := v₁) (fun fact hfact => ?_) h₃.1
      obtain ⟨entry, hentry, hfacts⟩ := List.mem_filterMap.mp hfact
      obtain ⟨hinv, o, -, ho⟩ := h₂
      have hlist := listPending_ok (congrArg Prod.fst ho)
      obtain ⟨row, hrow, rfl, -⟩ := mem_of_listPendingOutbox hlist hentry
      exact hinv.targets row hrow fact hfacts

theorem settleDuplicateOffers_still {n : Instant} :
    Keyed request now (settleDuplicateOffers request X n)
      (fun _ w => Still v w) v := by
  refine Safe.bindE.mpr (pendingFacts_still.imp ?_)
  rintro r v₁ ⟨hstill, -⟩
  cases r with
  | error e => exact hstill
  | ok facts =>
      exact (acknowledgeAll_still _).imp fun _ w h => hstill.trans h

theorem deliverRetry_keyed {n : Instant}
    (hX : (v.requestOf X).any (sameKey request) = true) :
    Keyed request now (deliverRetry request X n)
      (fun r w => Kept v w ∧ ∀ d, r = .ok d → d.operationId = X) v := by
  refine Safe.bindE.mpr ((enqueueOffer_keyed hX).imp ?_)
  intro r v₁ h₁
  cases r with
  | error e => exact ⟨h₁, fun d h => (by cases h)⟩
  | ok entry =>
      refine Safe.bindE.mpr (settleDuplicateOffers_still.imp ?_)
      intro r v₂ h₂
      have hkept := h₁.trans h₂.1
      cases r with
      | error e => exact ⟨hkept, fun d h => (by cases h)⟩
      | ok u =>
          refine ⟨hkept, fun d h => ?_⟩
          cases h
          rfl

end Program

/-! ## Candidates -/

section Candidates

variable {w₀ v : World} {request : CenterOperationRequest} {now : Instant}
  {X : OperationId} {facts : List OfferFact}

theorem mem_undecidedUnder_iff (h : KeyInv w₀)
    (hX : X ∈ w₀.undecidedOf request) {created : CenterOperationRequest}
    (hcreated : w₀.requestOf X = some created) :
    X ∈ w₀.undecidedUnder request ↔
      canonicalTargetKey created.targetODataId =
        canonicalTargetKey request.targetODataId := by
  obtain ⟨row, hrow, hid, hopen, created', hcreated', hendpoint, hcommand⟩ :=
    (mem_undecidedOf h).mp hX
  cases hcreated.symm.trans hcreated'
  rw [mem_undecidedUnder h]
  constructor
  · rintro ⟨-, -, -, -, created', hcreated', hkey⟩
    cases hcreated.symm.trans hcreated'
    simp only [sameKey, decide_eq_true_eq] at hkey
    exact hkey.2.2.symm
  · intro htarget
    refine ⟨row, hrow, hid, hopen, created, hcreated, ?_⟩
    simp [sameKey, hendpoint, hcommand, htarget]

/-- An undecided operation of the key may be offered for it. -/
theorem any_sameKey (h : KeyInv w₀) (hX : X ∈ w₀.undecidedUnder request)
    (hkept : Kept w₀ v) : (v.requestOf X).any (sameKey request) = true := by
  obtain ⟨-, -, -, -, created, hcreated, hkey⟩ := (mem_undecidedUnder h).mp hX
  rw [hkept.requestOf, hcreated]
  exact hkey

/-- What a verdict on a candidate means. -/
def Verdict (w₀ : World) (request : CenterOperationRequest) (X : OperationId)
    (facts : List OfferFact) (v : World) :
    Except CenterDispatchError CandidateVerdict → World → Prop
  | .ok (.resolved d), _ => d.operationId = X ∧
      X ∈ w₀.undecidedUnder request
  | .ok .neverEnqueued, w => Still v w ∧ (∀ S, (X, S) ∉ w.offered) ∧
      ∀ fact ∈ facts, fact.operationId ≠ X
  | .ok .differentTarget, w => Still v w ∧ X ∉ w₀.undecidedUnder request
  | .error _, _ => True

theorem judgeOffer_keyed {newest : OfferFact} {stale : List OutboxEntryId}
    {created : CenterOperationRequest} (h : KeyInv w₀) (hkept : Kept w₀ v)
    (hX : X ∈ w₀.undecidedOf request)
    (hcreated : w₀.requestOf X = some created)
    (htarget : canonicalTargetKey newest.target =
      canonicalTargetKey created.targetODataId) :
    Keyed request now (judgeOffer request X newest stale now)
      (Verdict w₀ request X facts v) v := by
  have hiff := mem_undecidedUnder_iff h hX hcreated
  rw [← htarget] at hiff
  unfold judgeOffer
  split
  · next hne => exact ⟨.refl v, fun hU => hne (hiff.mp hU)⟩
  · next heq =>
      have hU := hiff.mpr (not_not.mp heq)
      split
      · refine Safe.bindE.mpr ((acknowledgeAll_still stale).imp ?_)
        intro r v₁ h₁
        cases r with
        | error e => trivial
        | ok u =>
            refine Safe.bindE.mpr ((deliverRetry_keyed
              (any_sameKey h hU (hkept.trans h₁.1))).imp ?_)
            rintro r v₂ ⟨-, hd⟩
            cases r with
            | error e => trivial
            | ok d => exact ⟨hd d rfl, hU⟩
      · exact ⟨rfl, hU⟩

theorem Verdict.still {v' w : World}
    {r : Except CenterDispatchError CandidateVerdict} (hv : Still v v')
    (h : Verdict w₀ request X facts v' r w) :
    Verdict w₀ request X facts v r w := by
  cases r with
  | error e => trivial
  | ok verdict =>
      cases verdict with
      | resolved d => exact h
      | neverEnqueued => exact ⟨hv.trans h.1, h.2⟩
      | differentTarget => exact ⟨hv.trans h.1, h.2⟩

theorem resolveCandidate_keyed (h : KeyInv w₀) (hkept : Kept w₀ v)
    (hX : X ∈ w₀.undecidedOf request) (hfacts : Targeted facts v) :
    Keyed request now (resolveCandidate request X facts now)
      (Verdict w₀ request X facts v) v := by
  obtain ⟨-, -, -, -, created, hcreated, -⟩ := (mem_undecidedOf h).mp hX
  unfold resolveCandidate
  dsimp only
  split
  · next newest hnewest =>
      obtain ⟨hmem, hop⟩ := List.mem_filter.mp
        (mem_of_newestFact hnewest)
      simp only [decide_eq_true_eq] at hop
      obtain ⟨created', hcreated', htarget⟩ := hfacts newest hmem
      rw [hop, hkept.requestOf, hcreated] at hcreated'
      cases hcreated'
      exact judgeOffer_keyed h hkept hX hcreated htarget
  · next hnewest =>
      intro v₁ h₁ r v₂ h₂
      refine ⟨trivial, ?_⟩
      have hstill₂ := still_call h₂ rfl rfl
      have hstill := h₁.trans hstill₂
      cases r with
      | error e => trivial
      | ok found =>
          obtain ⟨hinv, o, -, ho⟩ := h₂
          obtain ⟨-, t', hfind⟩ := findAcross_ok (congrArg Prod.fst ho)
          obtain ⟨hnever, hknown⟩ := hinv.books.findAcross hfind
          dsimp only [Prog.bind, Except.mapError, ExceptT.bindCont]
          cases hfound : found.bind offerFacts with
          | none =>
              refine ⟨hstill, fun S hS => ?_, fun fact hfact hop => ?_⟩
              · rw [hstill₂.2] at hS
                exact hnever hfound S hS
              · exact newestFact_none hnewest (List.mem_filter.mpr
                  ⟨hfact, by simpa using hop⟩)
          | some directed =>
              obtain ⟨row, hrow, -, hrowFacts, -, hop⟩ := hknown directed hfound
              obtain ⟨created', hcreated', htarget⟩ :=
                hinv.targets row hrow directed hrowFacts
              rw [hop, h₁.1.requestOf, hkept.requestOf, hcreated] at hcreated'
              cases hcreated'
              exact (judgeOffer_keyed h (hkept.trans hstill.1) hX hcreated
                htarget).imp fun r w hr => hr.still hstill

end Candidates

/-! ## The scan -/

section Scan

variable {w₀ v : World} {request : CenterOperationRequest} {now : Instant}
  {X : OperationId} {facts : List OfferFact}

/-- What a scan that gives up has learnt of some candidates: those of the key
were never queued. -/
def GivenUp (w₀ : World) (request : CenterOperationRequest)
    (facts : List OfferFact) (candidates : List OperationId) (w : World) :
    Prop :=
  ∀ X ∈ candidates, X ∈ w₀.undecidedUnder request →
    (∀ S, (X, S) ∉ w.offered) ∧ ∀ fact ∈ facts, fact.operationId ≠ X

/-- What a scan over candidates means: the operation it returns is one of the
key. -/
def Scanned (w₀ : World) (request : CenterOperationRequest) (v : World)
    (giveUp : World → Prop) :
    Except CenterDispatchError (Option DispatchedOperation) → World → Prop
  | .ok (some d), _ => d.operationId ∈ w₀.undecidedUnder request
  | .ok none, w => Still v w ∧ giveUp w
  | .error _, _ => True

theorem resolveFirst_keyed (h : KeyInv w₀) (hkept : Kept w₀ v)
    (hfacts : Targeted facts v) (candidates : List OperationId)
    (hcandidates : ∀ X ∈ candidates, X ∈ w₀.undecidedOf request) :
    Keyed request now (resolveFirst request facts now candidates)
      (Scanned w₀ request v (GivenUp w₀ request facts candidates)) v := by
  induction candidates generalizing v with
  | nil => exact ⟨.refl v, fun X hX => (by cases hX)⟩
  | cons X candidates ih =>
      have hrest := fun Y hY => hcandidates Y (List.mem_cons_of_mem _ hY)
      refine Safe.bindE.mpr ((resolveCandidate_keyed h hkept
        (hcandidates X List.mem_cons_self) hfacts).imp ?_)
      intro r v₁ hverdict
      -- a candidate that was passed over joins what is known of the rest
      have hnext : Still v v₁ →
          (X ∈ w₀.undecidedUnder request → (∀ S, (X, S) ∉ v₁.offered) ∧
            ∀ fact ∈ facts, fact.operationId ≠ X) →
          Keyed request now (resolveFirst request facts now candidates)
            (Scanned w₀ request v
              (GivenUp w₀ request facts (X :: candidates))) v₁ := by
        intro hstill hX
        refine (ih (hkept.trans hstill.1) (hfacts.kept hstill.1) hrest).imp ?_
        intro r w hr
        cases r with
        | error e => trivial
        | ok found =>
            cases found with
            | some d => exact hr
            | none =>
                refine ⟨hstill.trans hr.1, fun Y hY hU => ?_⟩
                rcases List.mem_cons.mp hY with rfl | hY
                · rw [hr.1.2]
                  exact hX hU
                · exact hr.2 Y hY hU
      cases r with
      | error e => trivial
      | ok verdict =>
          cases verdict with
          | resolved d =>
              refine Safe.bindE.mpr (settleDuplicateOffers_still.imp ?_)
              intro r v₂ _
              cases r with
              | error e => trivial
              | ok u =>
                  show d.operationId ∈ _
                  rw [hverdict.1]
                  exact hverdict.2
          | neverEnqueued => exact hnext hverdict.1 fun _ => hverdict.2
          | differentTarget =>
              exact hnext hverdict.1 fun hU => absurd hU hverdict.2

/-- No dispatch strands: an undecided operation that was never queued is the
only one and has the request's key. -/
def Adoptable (w₀ : World) (request : CenterOperationRequest) : Prop :=
  ∀ X ∈ w₀.undecidedOf request, (∀ S, (X, S) ∉ w₀.offered) →
    w₀.undecidedOf request = [X] ∧ X ∈ w₀.undecidedUnder request

theorem resolveSingle_keyed (h : KeyInv w₀) (hadopt : Adoptable w₀ request)
    (hstill : Still w₀ v) (hfacts : Targeted facts v)
    (hX : X ∈ w₀.undecidedOf request) :
    Keyed request now (resolveSingle request X facts now)
      (Scanned w₀ request v fun _ => X ∉ w₀.undecidedUnder request) v := by
  refine Safe.bindE.mpr ((resolveCandidate_keyed h hstill.1 hX hfacts).imp ?_)
  intro r v₁ hverdict
  cases r with
  | error e => trivial
  | ok verdict =>
      cases verdict with
      | resolved d =>
          refine Safe.bindE.mpr (settleDuplicateOffers_still.imp ?_)
          intro r v₂ _
          cases r with
          | error e => trivial
          | ok u =>
              show d.operationId ∈ _
              rw [hverdict.1]
              exact hverdict.2
      | neverEnqueued =>
          obtain ⟨hstill₁, hnever, -⟩ := hverdict
          have hstill₁ := hstill.trans hstill₁
          have hU : X ∈ w₀.undecidedUnder request := by
            refine (hadopt X hX fun S hS => hnever S ?_).2
            rw [hstill₁.2]
            exact hS
          refine Safe.bindE.mpr ((deliverRetry_keyed
            (any_sameKey h hU hstill₁.1)).imp ?_)
          rintro r v₂ ⟨-, hd⟩
          cases r with
          | error e => trivial
          | ok d =>
              show d.operationId ∈ _
              rw [hd d rfl]
              exact hU
      | differentTarget => exact hverdict

theorem listForEndpoint_keyed {endpointId : EndpointId}
    (states : List OperationState) (hstates : states.Nodup) :
    Keyed request now (listForEndpoint endpointId states)
      (fun r w => Still v w ∧ ∀ operations, r = .ok operations →
        Listed v.operations endpointId states operations) v := by
  induction states generalizing v with
  | nil =>
      refine ⟨.refl v, fun operations h => ?_⟩
      cases h
      exact ⟨by simp, by simp, List.nodup_nil⟩
  | cons state states ih =>
      rw [List.nodup_cons] at hstates
      intro v₁ h₁ r v₂ h₂
      refine ⟨trivial, ?_⟩
      have hstill := h₁.trans (still_call h₂ rfl rfl)
      cases r with
      | error e => exact ⟨hstill, fun operations h => (by cases h)⟩
      | ok found =>
          have hfound : Listed v.operations endpointId [state] found := by
            obtain ⟨-, o, -, ho⟩ := h₂
            have hr := congrArg Prod.fst ho
            rw [← h₁.1.1]
            simp only [perform, answer] at hr
            cases hfault : o.fault with
            | some f =>
                rw [hfault] at hr
                cases hr
            | none =>
                rw [hfault] at hr
                exact listed_one hr
          refine Safe.bindE.mpr ((ih hstates.2).imp ?_)
          rintro r v₃ ⟨hstill₃, hrest⟩
          cases r with
          | error e => exact ⟨hstill.trans hstill₃, fun _ h => (by cases h)⟩
          | ok rest =>
              refine ⟨hstill.trans hstill₃, fun operations h => ?_⟩
              cases h
              have hrest := hrest rest rfl
              rw [hstill.1.1] at hrest
              exact hfound.cons hrest hstates.1

theorem Scanned.still {v' w : World} {giveUp : World → Prop}
    {r : Except CenterDispatchError (Option DispatchedOperation)}
    (hv : Still v v') (h : Scanned w₀ request v' giveUp r w) :
    Scanned w₀ request v giveUp r w := by
  cases r with
  | error e => trivial
  | ok found =>
      cases found with
      | some d => exact h
      | none => exact ⟨hv.trans h.1, h.2⟩

/-- A scan of all candidates that gives up: one of the key was never queued,
so it is the only candidate, and nothing is known of it. -/
theorem unknown_of_givenUp (hadopt : Adoptable w₀ request)
    {candidates : List OperationId} (hnodup : candidates.Nodup)
    (hmem : ∀ X, X ∈ candidates ↔ X ∈ w₀.undecidedOf request) {w : World}
    (hstill : Still w₀ w) (hg : GivenUp w₀ request facts candidates w)
    (hX : X ∈ w₀.undecidedUnder request) :
    candidates = [X] ∧ ∀ fact ∈ facts, fact.operationId ≠ X := by
  have hof := List.mem_of_mem_filter hX
  obtain ⟨hnever, hfacts⟩ := hg X ((hmem X).mpr hof) hX
  refine ⟨?_, hfacts⟩
  have honly : w₀.undecidedOf request = [X] := by
    refine (hadopt X hof fun S hS => hnever S ?_).1
    rw [hstill.2]
    exact hS
  have hperm : candidates.Perm [X] := by
    rw [List.perm_ext_iff_of_nodup hnodup (List.nodup_singleton X)]
    intro Y
    rw [hmem Y, honly]
  exact List.perm_singleton.mp hperm

theorem resolveCandidates_keyed (h : KeyInv w₀) (hadopt : Adoptable w₀ request)
    {candidates : List OperationId} (hstill : Still w₀ v)
    (hfacts : Targeted facts v) (hnodup : candidates.Nodup)
    (hmem : ∀ X, X ∈ candidates ↔ X ∈ w₀.undecidedOf request) :
    Keyed request now (resolveCandidates request candidates facts now)
      (Scanned w₀ request v fun _ => w₀.undecidedUnder request = []) v := by
  -- a full scan that gives up leaves no operation of the key, unless there is
  -- one candidate that the facts do not know
  have hscan : (∀ X, candidates = [X] →
      ∃ fact ∈ facts, fact.operationId = X) →
      Keyed request now (resolveFirst request facts now candidates)
        (Scanned w₀ request v fun _ => w₀.undecidedUnder request = []) v := by
    intro hknown
    refine (resolveFirst_keyed h hstill.1 hfacts candidates
      fun X hX => (hmem X).mp hX).imp fun r w hr => ?_
    cases r with
    | error e => trivial
    | ok found =>
        cases found with
        | some d => exact hr
        | none =>
            refine ⟨hr.1, List.eq_nil_iff_forall_not_mem.mpr fun X hX => ?_⟩
            obtain ⟨honly, hunknown⟩ := unknown_of_givenUp hadopt hnodup
              hmem (hstill.trans hr.1) hr.2 hX
            obtain ⟨fact, hfact, hid⟩ := hknown X honly
            exact hunknown fact hfact hid
  unfold resolveCandidates
  split
  · next Z =>
      split
      · refine (resolveSingle_keyed h hadopt hstill hfacts
          ((hmem Z).mp List.mem_cons_self)).imp fun r w hr => ?_
        cases r with
        | error e => trivial
        | ok found =>
            cases found with
            | some d => exact hr
            | none =>
                refine ⟨hr.1, List.eq_nil_iff_forall_not_mem.mpr fun X hX => ?_⟩
                have hXZ := (hmem X).mpr (List.mem_of_mem_filter hX)
                rw [List.mem_singleton.mp hXZ] at hX
                exact hr.2 hX
      · next hany =>
          refine hscan fun X hX => ?_
          cases hX
          simpa using hany
  · next hmany =>
      exact hscan fun X hX => absurd hX (hmany X)

/-- A scan that finds nothing proves that no operation of the key is
undecided. -/
theorem findUndecided_keyed (h : KeyInv w₀) (hadopt : Adoptable w₀ request)
    (hstill : Still w₀ v) :
    Keyed request now (findUndecided request now)
      (Scanned w₀ request v fun _ => w₀.undecidedUnder request = []) v := by
  refine Safe.bindE.mpr ((listForEndpoint_keyed _ (by decide)).imp ?_)
  rintro r v₁ ⟨h₁, hlisted⟩
  cases r with
  | error e => trivial
  | ok operations =>
      have hlisted := hlisted operations rfl
      rw [hstill.1.1] at hlisted
      obtain ⟨hnodup, hmem⟩ := candidatesOf_spec h hlisted
      have hunder : ∀ {X}, X ∈ w₀.undecidedUnder request →
          X ∈ candidatesOf request operations := fun hX =>
        (hmem _).mpr (List.mem_of_mem_filter hX)
      dsimp only
      split
      · next hempty =>
          refine ⟨h₁, List.eq_nil_iff_forall_not_mem.mpr fun X hX => ?_⟩
          rw [List.isEmpty_iff.mp hempty] at hunder
          exact List.not_mem_nil (hunder hX)
      · refine Safe.bindE.mpr (pendingFacts_still.imp ?_)
        rintro r v₂ ⟨h₂, hfacts⟩
        cases r with
        | error e => trivial
        | ok facts =>
            have hstill₂ := h₁.trans h₂
            refine (resolveCandidates_keyed h hadopt (hstill.trans hstill₂)
              (hfacts facts rfl) hnodup hmem).imp fun r w hr => ?_
            exact hr.still hstill₂

end Scan

/-! ## The whole dispatch -/

section Whole

variable {w₀ v : World} {request : CenterOperationRequest} {now : Instant}
  {X : OperationId}

theorem confirmUnknown_still (operationIds : List OperationId) :
    Keyed request now (confirmUnknown request operationIds)
      (fun _ w => Still v w) v := by
  induction operationIds generalizing v with
  | nil => exact .refl v
  | cons operationId operationIds ih =>
      intro v₁ h₁ r v₂ h₂
      refine ⟨trivial, ?_⟩
      have hstill := h₁.trans (still_call h₂ rfl rfl)
      cases r with
      | error e => exact hstill
      | ok entry =>
          show Keyed request now (if _ then _ else _) _ v₂
          split
          · exact hstill
          · exact ih.imp fun _ w h => hstill.trans h

theorem findUnknownOutcome_still :
    Keyed request now (findUnknownOutcome request)
      (fun _ w => Still v w) v := by
  intro v₁ h₁ r v₂ h₂
  refine ⟨trivial, ?_⟩
  have hstill := h₁.trans (still_call h₂ rfl rfl)
  cases r with
  | error e => exact hstill
  | ok unknown =>
      exact (confirmUnknown_still _).imp fun _ w h => hstill.trans h

theorem World.isFresh_of_still {a b : World} (h : Still a b)
    (hX : a.isFresh X = true) : b.isFresh X = true := by
  unfold World.isFresh
  rw [h.1.1, h.1.2, h.2]
  exact hX

/-- A landed creation is on record as made for the request. -/
theorem requestOf_created {a b : World} {operation : Operation}
    (hfresh : a.isFresh operation.id = true)
    (h : Calls request (.operations (.createOperation operation)) a (.ok ())
      b) : b.requestOf operation.id = some request := by
  obtain ⟨-, o, -, ho⟩ := h
  have hr := congrArg Prod.fst ho
  have hb := congrArg Prod.snd ho
  rw [← show _ = b from hb]
  simp only [perform] at hr ⊢
  have hnone : a.minted.find? (fun mint => mint.1 = operation.id) = none := by
    simp only [World.isFresh, Bool.and_eq_true, Bool.not_eq_true',
      List.any_eq_false] at hfresh
    exact List.find?_eq_none.mpr hfresh.2
  simp [World.requestOf, hr, mintOf, List.find?_append, hnone]

theorem createAndOffer_keyed
    (hnone : v.undecidedUnder request = []) :
    Keyed request now (createAndOffer request now) (fun _ _ => True) v := by
  intro v₁ h₁ X v₂ h₂
  refine ⟨trivial, ?_⟩
  intro v₃ h₃ targetId v₄ h₄
  refine ⟨trivial, ?_⟩
  intro v₅ h₅ r v₆ h₆
  have hstill₁ := still_call h₂ rfl rfl
  have hstill₃ := still_call h₄ rfl rfl
  have hfresh : v₅.isFresh X = true := by
    obtain ⟨-, o, hallowed, ho⟩ := h₂
    have hX : o.operationId = X := congrArg Prod.fst ho
    refine World.isFresh_of_still ((hstill₁.trans h₃).trans
      (hstill₃.trans h₅)) ?_
    rw [← hX]
    exact hallowed
  have hstill : Still v v₅ := (h₁.trans hstill₁).trans
    (h₃.trans (hstill₃.trans h₅))
  refine ⟨⟨?_, X, targetId, rfl, hfresh⟩, ?_⟩
  · rw [hstill.1.undecidedUnder]
    exact hnone
  · cases r with
    | error e => trivial
    | ok u =>
        have hrequest := requestOf_created hfresh h₆
        refine Safe.bindE.mpr ((enqueueOffer_keyed (X := X) ?_).imp ?_)
        · rw [show v₆.requestOf X = some request from hrequest]
          simp [sameKey]
        · intro r w _
          cases r <;> trivial

/-- A dispatch that succeeds returns the undecided operation of its key. -/
def Returned (w₀ : World) (request : CenterOperationRequest) :
    Except CenterDispatchError DispatchedOperation → World → Prop :=
  fun r _ => ∀ d, r = .ok d →
    ∀ X ∈ w₀.undecidedUnder request, d.operationId = X

theorem dispatchRouted_keyed (h : KeyInv w₀) (hadopt : Adoptable w₀ request)
    (hstill : Still w₀ v) :
    Keyed request now (dispatchRouted request now) (Returned w₀ request) v := by
  refine Safe.bindE.mpr ((findUndecided_keyed h hadopt hstill).imp ?_)
  intro r v₁ h₁
  cases r with
  | error e => exact fun d hd => (by cases hd)
  | ok found =>
      cases found with
      | some existing =>
          intro d hd X hX
          cases hd
          exact undecidedUnder_unique h h₁ hX
      | none =>
          obtain ⟨hstill₁, hnone⟩ := h₁
          refine Safe.bindE.mpr (findUnknownOutcome_still.imp ?_)
          intro r v₂ h₂
          cases r with
          | error e => exact fun d hd => (by cases hd)
          | ok unknown =>
              cases unknown with
              | some operationId => exact fun d hd => (by cases hd)
              | none =>
                  have hkept := (hstill.trans (hstill₁.trans h₂)).1
                  refine (createAndOffer_keyed ?_).imp fun r w _ d _ X hX => ?_
                  · rw [hkept.undecidedUnder]
                    exact hnone
                  · rw [hnone] at hX
                    cases hX

/-- The contract of a dispatch that strands nothing. -/
theorem dispatch_keyed (h : KeyInv w₀) (hadopt : Adoptable w₀ request) :
    Keyed request now (dispatch request now) (Returned w₀ request) w₀ := by
  intro v₁ h₁ r v₂ h₂
  refine ⟨trivial, ?_⟩
  have hstill₂ := h₁.trans (still_call h₂ rfl rfl)
  cases r with
  | error e => exact fun d hd => (by cases hd)
  | ok assignment =>
      cases assignment with
      | none => exact fun d hd => (by cases hd)
      | some assignment =>
          show Keyed request now (if _ then _ else _) _ v₂
          split
          · exact fun d hd => (by cases hd)
          · intro v₃ h₃ r v₄ h₄
            refine ⟨trivial, ?_⟩
            have hstill₄ := hstill₂.trans (h₃.trans (still_call h₄ rfl rfl))
            cases r with
            | error e => exact fun d hd => (by cases hd)
            | ok projection =>
                cases projection with
                | none => exact fun d hd => (by cases hd)
                | some endpoint =>
                    show Keyed request now (if _ then _ else _) _ v₄
                    split
                    · exact fun d hd => (by cases hd)
                    · intro v₅ h₅ r v₆ h₆
                      refine ⟨trivial, ?_⟩
                      have hstill₆ := hstill₄.trans
                        (h₅.trans (still_call h₆ rfl rfl))
                      cases r with
                      | error e => exact fun d hd => (by cases hd)
                      | ok known =>
                          show Keyed request now (if _ then _ else _) _ v₆
                          split
                          · exact fun d hd => (by cases hd)
                          · exact dispatchRouted_keyed h hadopt hstill₆

end Whole

/-! ## Calls keep the invariant -/

/-- Rows move on but keep what they are about, and none is reopened. -/
def Settles (t t' : OperationTable) : Prop :=
  ∀ row' ∈ t'.rows, ∃ row ∈ t.rows, row'.id = row.id ∧
    row'.source = row.source ∧ row'.targets = row.targets ∧
    row'.command = row.command ∧
    (row'.state.isTerminal = false → row.state.isTerminal = false)

theorem Settles.refl (t : OperationTable) : Settles t t :=
  fun row hrow => ⟨row, hrow, rfl, rfl, rfl, rfl, id⟩

/-- One row written over. -/
theorem Settles.of_find {t t' : OperationTable} {X : OperationId}
    {row new : OperationRow} (hrow : t.find X = some row)
    (hfind : ∀ k, t'.find k = if k = X then some new else t.find k)
    (hid : new.id = row.id) (hsource : new.source = row.source)
    (htargets : new.targets = row.targets) (hcommand : new.command = row.command)
    (hstate : new.state.isTerminal = false → row.state.isTerminal = false) :
    Settles t t' := by
  intro row' hrow'
  have hk := hfind row'.id
  rw [Table.find_eq_some_iff.mpr ⟨hrow', rfl⟩] at hk
  split at hk
  · cases hk
    exact ⟨row, (Table.find_eq_some_iff.mp hrow).1, hid, hsource, htargets,
      hcommand, hstate⟩
  · exact ⟨row', (Table.find_eq_some_iff.mp hk.symm).1, rfl, rfl, rfl, rfl, id⟩

theorem settles_runOperationStore (fault : Option Fault)
    (q : OperationStoreReq) (t : OperationTable)
    (hq : isCreate (.operations q) = false) :
    Settles t (runOperationStore fault q t).2 := by
  cases fault with
  | some f =>
      rw [runOperationStore_fault]
      exact .refl t
  | none =>
      cases q with
      | createOperation operation => cases hq
      | findOperation X => exact .refl t
      | listOperations state => exact .refl t
      | applyTransition X state now =>
          cases ha : applyTransition t X state now with
          | error e =>
              simp only [runOperationStore, ha, written]
              exact .refl t
          | ok t' =>
              simp only [runOperationStore, ha, written]
              obtain ⟨row, hrow, hopen, hfind⟩ := applyTransition_ok ha
              exact .of_find hrow hfind rfl rfl rfl rfl fun _ => hopen
      | applyTransitionIfCurrent X expected state now =>
          cases ha : applyTransitionIfCurrent t X expected state now with
          | error e =>
              simp only [runOperationStore, ha, written]
              exact .refl t
          | ok t' =>
              simp only [runOperationStore, ha, written]
              obtain ⟨row, hrow, -, hopen, hfind⟩ :=
                applyTransitionIfCurrent_ok ha
              exact .of_find hrow hfind rfl rfl rfl rfl fun _ => hopen
      | recordFailureKind X kind =>
          cases hr : recordFailureKind t X kind with
          | error e =>
              simp only [runOperationStore, hr, written]
              exact .refl t
          | ok t' =>
              simp only [runOperationStore, hr, written]
              obtain ⟨row, hrow, hfind⟩ := recordFailureKind_ok hr
              exact .of_find hrow hfind rfl rfl rfl rfl id

section Keeps

variable {w : World} {request : CenterOperationRequest} {o : Oracle}

theorem KeyInv.settles (h : KeyInv w) {operations : OperationTable}
    (hs : Settles w.operations operations) :
    KeyInv { w with operations } where
  books := h.books
  records := by
    intro row' hrow'
    obtain ⟨row, hrow, hid, hsource, htargets, hcommand, -⟩ := hs row' hrow'
    obtain ⟨created, targetId, hcreated, h₁, h₂, h₃⟩ := h.records row hrow
    rw [hid, hsource, htargets, hcommand]
    exact ⟨created, targetId, hcreated, h₁, h₂, h₃⟩
  targets := h.targets
  single := by
    intro a' ha' b' hb' haopen hbopen created created' hcreated hcreated' hkey
    obtain ⟨a, ha, haid, -, -, -, haopen'⟩ := hs a' ha'
    obtain ⟨b, hb, hbid, -, -, -, hbopen'⟩ := hs b' hb'
    rw [haid] at hcreated ⊢
    rw [hbid] at hcreated' ⊢
    exact h.single a ha b hb (haopen' haopen) (hbopen' hbopen) created
      created' hcreated hcreated' hkey

theorem KeyInv.shrinks (h : KeyInv w) {outbox : OutboxTable}
    {acked : OutboxRow → Prop} {history : Option (InstanceId × OperationId)}
    (hs : Shrinks acked history w.outbox outbox) :
    KeyInv { w with outbox } where
  books := h.books.shrinks hs
  records := h.records
  targets := by
    intro row' hrow' fact hfact
    obtain ⟨row, hrow, hv⟩ := hs.stored row' hrow'
    obtain ⟨fact', hfact', hid, htarget⟩ :=
      offerFacts_of_payload hv.payload hfact
    rw [← hid, ← htarget]
    exact h.targets row hrow fact' hfact'
  single := h.single

/-- A call that queues and creates nothing. -/
theorem KeyInv.of_quiet (h : KeyInv w) {q : CenterReq}
    (hqueue : isEnqueue q = false) (hcreate : isCreate q = false)
    (made : Option CenterOperationRequest) :
    KeyInv (perform made o q w).2 := by
  have hoffer : ∀ r : q.Resp, offerOf q r = [] := by
    intro r
    cases q with
    | outbox q => cases q <;> first | rfl | cases hqueue
    | _ => rfl
  have hmint : ∀ r : q.Resp, mintOf made q r = [] := by
    intro r
    cases q with
    | operations q => cases q <;> first | rfl | cases hcreate
    | _ => rfl
  simp only [perform, hoffer, hmint, List.append_nil]
  cases q with
  | operations q =>
      exact h.settles (settles_runOperationStore o.fault q _ hcreate)
  | outbox q =>
      refine h.shrinks (runOutbox_shrinks o.fault o.entryId ?_ w.outbox)
      rintro siteId message now rfl
      cases hqueue
  | listOperationsForEndpoint state endpointId =>
      simp only [answer]
      cases o.fault <;> exact h
  | _ => exact ⟨h.books, h.records, h.targets, h.single⟩

theorem KeyInv.of_enqueue (h : KeyInv w) {S : InstanceId}
    {message : EnvelopeMessage} {n now : Instant}
    (hd : Duty request now w (.outbox (.enqueue S message n))) :
    KeyInv (perform (some request) o (.outbox (.enqueue S message n)) w).2 := by
  obtain ⟨X, offer, rfl, hX, htarget, hkey⟩ := hd
  have hbooks := h.books.of_perform (some request) o
    (.outbox (.enqueue S (.operationOffer offer) n))
  obtain ⟨created, hcreated, hkey⟩ := (Option.any_eq_true _ _).mp hkey
  rcases runOutbox_enqueue o.fault o.entryId S (.operationOffer offer) n
    w.outbox with ⟨sequence, t', hrun, -, hrows⟩ | ⟨e, hrun⟩
  · simp only [perform, answer, hrun, mintOf, List.append_nil] at hbooks ⊢
    refine ⟨hbooks, h.records, ?_, h.single⟩
    intro row hrow fact hfact
    rw [hrows, List.mem_append, List.mem_singleton] at hrow
    rcases hrow with hrow | rfl
    · exact h.targets row hrow fact hfact
    · simp only [offerFacts, outboxRowOf, OutboxEntry.new, hX, Option.map_some,
        Option.some.injEq] at hfact
      subst hfact
      refine ⟨created, hcreated, ?_⟩
      simp only [sameKey, decide_eq_true_eq] at hkey
      rw [htarget]
      exact hkey.2.2
  · simp only [perform, answer, hrun, offerOf, mintOf, List.append_nil]
    exact h

/-- What was created before stays known as such. -/
theorem requestOf_append {w w' : World} {X : OperationId}
    {created : CenterOperationRequest}
    {minted : List (OperationId × CenterOperationRequest)}
    (hw : w'.minted = w.minted ++ minted)
    (h : w.requestOf X = some created) : w'.requestOf X = some created := by
  unfold World.requestOf at h ⊢
  obtain ⟨mint, hmint, hcreated⟩ := Option.map_eq_some_iff.mp h
  rw [hw, List.find?_append, hmint]
  simpa using hcreated

/-- A record created for a request while none of its key is undecided. -/
theorem KeyInv.created (h : KeyInv w) {X : OperationId} {targetId : TargetId}
    {now : Instant} {t' : OperationTable}
    (hnone : w.undecidedUnder request = []) (hfresh : w.isFresh X = true)
    (ht : createOperation w.operations (.new X .center
      [⟨targetId, request.endpointId⟩] request.command now) = .ok t') :
    KeyInv { w with
      operations := t', minted := w.minted ++ [(X, request)] } := by
  simp only [World.isFresh, Table.has, Bool.and_eq_true, Bool.not_eq_true',
    Option.isSome_eq_false_iff, Option.isNone_iff_eq_none,
    List.any_eq_false] at hfresh
  have hnew : World.requestOf { w with
      operations := t', minted := w.minted ++ [(X, request)] } X =
      some request := by
    simp [World.requestOf, List.find?_append,
      List.find?_eq_none.mpr hfresh.2]
  have hrows : ∀ row ∈ t'.rows, row ∈ w.operations.rows ∨
      row = rowOf (.new X .center [⟨targetId, request.endpointId⟩]
        request.command now) none := by
    intro row hrow
    have hk := createOperation_ok ht row.id
    rw [Table.find_eq_some_iff.mpr ⟨hrow, rfl⟩] at hk
    split at hk
    · exact .inr (Option.some.inj hk)
    · exact .inl (Table.find_eq_some_iff.mp hk.symm).1
  -- an older undecided record of the key would be on the list
  have hold : ∀ row ∈ w.operations.rows, row.state.isTerminal = false →
      ∀ created, World.requestOf { w with
        operations := t', minted := w.minted ++ [(X, request)] } row.id =
        some created → sameKey request created = false := by
    intro row hrow hopen created hcreated
    obtain ⟨created', -, hcreated', -⟩ := h.records row hrow
    cases hcreated.symm.trans (requestOf_append rfl hcreated')
    by_contra hkey
    have hmem : row.id ∈ w.undecidedUnder request :=
      (mem_undecidedUnder h).mpr
        ⟨row, hrow, rfl, hopen, created, hcreated', by simpa using hkey⟩
    rw [hnone] at hmem
    cases hmem
  refine ⟨h.books, ?_, ?_, ?_⟩
  · intro row hrow
    rcases hrows row hrow with hrow | rfl
    · obtain ⟨created, target, hcreated, hrest⟩ := h.records row hrow
      exact ⟨created, target, requestOf_append rfl hcreated, hrest⟩
    · exact ⟨request, targetId, hnew, rfl, rfl, rfl⟩
  · intro row hrow fact hfact
    obtain ⟨created, hcreated, htarget⟩ := h.targets row hrow fact hfact
    exact ⟨created, requestOf_append rfl hcreated, htarget⟩
  · intro a ha b hb haopen hbopen created created' hcreated hcreated' hkey
    rcases hrows a ha with ha | rfl <;> rcases hrows b hb with hb | rfl
    · obtain ⟨madeA, -, hmadeA, -⟩ := h.records a ha
      obtain ⟨madeB, -, hmadeB, -⟩ := h.records b hb
      cases hcreated.symm.trans (requestOf_append rfl hmadeA)
      cases hcreated'.symm.trans (requestOf_append rfl hmadeB)
      exact h.single a ha b hb haopen hbopen created created' hmadeA hmadeB
        hkey
    · cases hcreated'.symm.trans hnew
      have hfalse := hold a ha haopen created hcreated
      rw [sameKey_comm, hkey] at hfalse
      cases hfalse
    · cases hcreated.symm.trans hnew
      have hfalse := hold b hb hbopen created' hcreated'
      rw [hkey] at hfalse
      cases hfalse
    · rfl

theorem KeyInv.of_create (h : KeyInv w) {operation : Operation}
    {now : Instant}
    (hd : Duty request now w (.operations (.createOperation operation))) :
    KeyInv (perform (some request) o
      (.operations (.createOperation operation)) w).2 := by
  obtain ⟨hnone, X, targetId, rfl, hfresh⟩ := hd
  cases hfault : o.fault with
  | some f =>
      simp only [perform, answer, hfault, runOperationStore, offerOf, mintOf,
        List.append_nil]
      exact h
  | none =>
      cases ht : createOperation w.operations (.new X .center
          [⟨targetId, request.endpointId⟩] request.command now) with
      | error e =>
          simp only [perform, answer, hfault, runOperationStore, ht, written,
            offerOf, mintOf, List.append_nil]
          exact h
      | ok t' =>
          simp only [perform, answer, hfault, runOperationStore, ht, written,
            offerOf, mintOf, List.append_nil]
          exact h.created hnone hfresh ht

/-- Every call of a dispatch on its contract keeps the invariant. -/
theorem KeyInv.of_duty (h : KeyInv w) {q : CenterReq} {now : Instant}
    (hd : Duty request now w q) : KeyInv (perform (some request) o q w).2 := by
  cases hqueue : isEnqueue q with
  | true =>
      cases q with
      | outbox q =>
          cases q with
          | enqueue S message n => exact h.of_enqueue hd
          | _ => cases hqueue
      | _ => cases hqueue
  | false =>
      cases hcreate : isCreate q with
      | true =>
          cases q with
          | operations q =>
              cases q with
              | createOperation operation => exact h.of_create hd
              | _ => cases hcreate
          | _ => cases hcreate
      | false => exact h.of_quiet hqueue hcreate _

end Keeps

/-! ## Runs -/

/-- One step of a run in which dispatches come one after another: no reply
moves while one is under way, and none begins beside an operation that was
never queued unless that is the only undecided one and of its key. -/
def KeyedStep (s t : State) : Prop :=
  ∃ l, s.strands l = false ∧ s.interrupts l = false ∧ next s l = some t

/-- The same step as a function. -/
def nextKeyed (s : State) (l : Label) : Option State :=
  if s.strands l || s.interrupts l then none else next s l

theorem keyedStep_of_nextKeyed {s t : State} (h : Next nextKeyed s t) :
    KeyedStep s t := by
  obtain ⟨l, h⟩ := h
  unfold nextKeyed at h
  split at h
  · cases h
  · next hl =>
      simp only [Bool.or_eq_true, not_or, Bool.not_eq_true] at hl
      exact ⟨l, hl.1, hl.2, h⟩

theorem reach_of_keyed {s : State} (h : Reach (· = init) KeyedStep s) :
    Reach (· = init) (Next next) s :=
  h.mono (fun _ h => h) fun _ _ ⟨l, _, _, hl⟩ => ⟨l, hl⟩

/-- What holds in every state of such a run. -/
structure KeyedInv (s : State) : Prop where
  keys : KeyInv s.world
  dispatch : ∀ task, s.dispatch = some task →
    Keyed task.request task.now task.rest (fun r _ => ∀ d, r = .ok d →
      ∀ X ∈ task.undecided, d.operationId = X) s.world

theorem adoptable_of_strands {s : State} {request : CenterOperationRequest}
    {now : Instant} (h : KeyInv s.world)
    (hl : s.strands (.dispatch request now) = false) :
    Adoptable s.world request := by
  intro X hX hnever
  simp only [State.strands, List.any_eq_false] at hl
  have hX' := hl X hX
  have hno : s.world.outbox.rows.any
      (fun row => row.operationId = some X) = false := by
    rw [List.any_eq_false]
    intro row hrow hop
    simp only [decide_eq_true_eq] at hop
    exact hnever _ (h.books.listed row hrow X hop)
  simp only [hno, Bool.not_false, Bool.true_and, Bool.not_eq_true,
    Bool.not_eq_false', Bool.and_eq_true, decide_eq_true_eq] at hX'
  exact ⟨hX'.1, List.mem_filter.mpr ⟨hX, hX'.2⟩⟩

theorem KeyedInv.of_step {s t : State} (h : KeyedInv s)
    (hr : ReplyProvenance.SysInv s) (hst : KeyedStep s t) : KeyedInv t := by
  obtain ⟨l, hstrands, hinterrupts, hnext⟩ := hst
  cases l with
  | dispatch request now =>
      simp only [next] at hnext
      split at hnext
      · cases hnext
        refine ⟨h.keys, fun task htask => ?_⟩
        cases htask
        exact dispatch_keyed h.keys (adoptable_of_strands h.keys hstrands)
      · cases hnext
  | dispatchCall o =>
      simp only [next] at hnext
      split at hnext
      · next request now undecided confirming q k hs =>
          split at hnext
          · next hallowed =>
              cases hnext
              obtain ⟨hduty, hrest⟩ := h.dispatch _ hs s.world (.refl _)
                (perform (some request) o q s.world).1
                (perform (some request) o q s.world).2
                ⟨h.keys, o, hallowed, rfl⟩
              refine ⟨h.keys.of_duty hduty, fun task htask => ?_⟩
              cases htask
              exact hrest
          · cases hnext
      · cases hnext
  | dispatchDone =>
      simp only [next] at hnext
      split at hnext
      · cases hnext
        exact ⟨h.keys, fun task htask => (by cases htask)⟩
      · cases hnext
  | reply site envelope now =>
      cases hnext
      exact ⟨h.keys, h.dispatch⟩
  | replyCall i o =>
      have hidle : s.dispatch = none := by
        simpa [State.interrupts] using hinterrupts
      simp only [next] at hnext
      split at hnext
      · next site envelope now projected q k hi =>
          cases hnext
          obtain ⟨⟨-, hqueue, hcreate, -⟩, -⟩ := hr.replies _
            (List.mem_of_getElem? hi) (s.world, projected)
            ⟨fun _ hx => hx, id⟩ _ ((perform none o q s.world).2, _)
            ⟨hr.books, ⟨o, rfl⟩, rfl⟩
          refine ⟨h.keys.of_quiet hqueue hcreate none, fun task htask => ?_⟩
          rw [show _ = s.dispatch from rfl, hidle] at htask
          cases htask
      · cases hnext
  | acknowledge entryId ackedAt =>
      simp only [next] at hnext
      split at hnext
      · next outcome outbox hack =>
          cases hnext
          obtain ⟨row, -, -, hshrinks⟩ := shrinks_ackOutboxEntry hack
          refine ⟨h.keys.shrinks hshrinks, fun task htask => ?_⟩
          exact (h.dispatch task htask).stable Still.trans (fun _ hd => hd)
            ⟨⟨rfl, rfl⟩, rfl⟩
      · cases hnext
  | crash =>
      cases hnext
      exact ⟨h.keys, fun task htask => (by cases htask)⟩

theorem KeyedInv.of_reach {s : State} (h : Reach (· = init) KeyedStep s) :
    KeyedInv s := by
  induction h with
  | init h =>
      subst h
      refine ⟨⟨.empty, ?_, ?_, ?_⟩, fun task htask => (by cases htask)⟩
      · intro row hrow
        cases hrow
      · intro row hrow
        cases hrow
      · intro a ha
        cases ha
  | step hs ht ih =>
      exact ih.of_step (ReplyProvenance.SysInv.of_reach (reach_of_keyed hs)) ht

/-- In every such run, with calls failing and replies coming at any point
between dispatches, a dispatch that succeeds returns the operation of its key
that was undecided when it began, and no two undecided operations were created
for one key. -/
theorem dispatch_idempotent {s : State} (hs : Reach (· = init) KeyedStep s) :
    (∀ task d, s.dispatch = some task → task.rest = .ret (.ok d) →
      ∀ X ∈ task.undecided, d.operationId = X) ∧
    ∀ a ∈ s.world.operations.rows, ∀ b ∈ s.world.operations.rows,
      a.state.isTerminal = false → b.state.isTerminal = false →
      ∀ request request', s.world.requestOf a.id = some request →
        s.world.requestOf b.id = some request' →
        sameKey request request' = true → a.id = b.id := by
  have hinv := KeyedInv.of_reach hs
  refine ⟨fun task d htask hrest X hX => ?_, hinv.keys.single⟩
  have hdone := hinv.dispatch task htask
  rw [hrest] at hdone
  exact hdone d rfl X hX

/-- Nothing fails, or the store does; the next identities are as given. -/
def answers (fault : Option Fault) (operationId : OperationId)
    (entryId : OutboxEntryId) : Oracle :=
  ⟨fault, entryId, .ok (some ⟨some ⟨5⟩⟩), .ok true,
    .ok (some ⟨⟨3⟩, .administrator, none, 0, none⟩), operationId, ⟨2⟩⟩

def resetOf (target : String) : CenterOperationRequest :=
  ⟨⟨5⟩, ⟨9⟩, target, .system (.reset "On"), ⟨3⟩⟩

/-- A dispatch that makes a number of calls, and one more that fails. -/
def stranding (target : String) (operationId : OperationId) (calls : Nat) :
    List Label :=
  .dispatch (resetOf target) 100 ::
    (List.replicate calls (.dispatchCall (answers none operationId ⟨11⟩)) ++
      [.dispatchCall (answers (some .database) operationId ⟨11⟩),
        .dispatchDone])

/-- A dispatch that makes a number of calls. -/
def dispatching (target : String) (operationId : OperationId)
    (entryId : OutboxEntryId) (calls : Nat) : List Label :=
  .dispatch (resetOf target) 100 ::
    List.replicate calls (.dispatchCall (answers none operationId entryId))

/-- The first dispatch fails before its offer is queued, the second returns the
operation it created. -/
def succeeded (task : DispatchTask) : Bool :=
  match task.rest with
  | .ret (.ok _) => true
  | _ => false

theorem dispatch_idempotent_retried : ∃ s task d,
    Reach (· = init) KeyedStep s ∧ s.dispatch = some task ∧
    task.rest = .ret (.ok d) ∧ task.undecided = [⟨1⟩] ∧
    d.operationId = ⟨1⟩ := by
  obtain ⟨s, hs, h⟩ := exists_reach_of_follow (· = init) nextKeyed
    (stranding "/redfish/v1/Systems/1" ⟨1⟩ 12 ++
      dispatching "/redfish/v1/Systems/1" ⟨2⟩ ⟨12⟩ 12)
    (fun s => s.dispatch.any fun task =>
      task.undecided = [⟨1⟩] && succeeded task)
    rfl (by decide +kernel)
  have hs := hs.mono (fun _ h => h) fun _ _ => keyedStep_of_nextKeyed
  obtain ⟨task, htask, h⟩ := (Option.any_eq_true _ _).mp h
  simp only [Bool.and_eq_true, decide_eq_true_eq] at h
  obtain ⟨hundecided, hrest⟩ := h
  unfold succeeded at hrest
  split at hrest
  · next d hd =>
      refine ⟨s, task, d, hs, htask, hd, hundecided, ?_⟩
      exact (dispatch_idempotent hs).1 task d htask hd ⟨1⟩
        (by rw [hundecided]; exact List.mem_cons_self)
  · cases hrest

/-- Beside a queued operation of another target, an operation that was never
queued is passed over: the next dispatch of its key makes a second one. -/
theorem stranded_dispatch_repeated :
    ¬ ∀ s, Reach (· = init) (Next next) s →
        ∀ a ∈ s.world.operations.rows, ∀ b ∈ s.world.operations.rows,
          a.state.isTerminal = false → b.state.isTerminal = false →
          ∀ request request', s.world.requestOf a.id = some request →
            s.world.requestOf b.id = some request' →
            request.siteId = request'.siteId →
            sameKey request request' = true → a.id = b.id := by
  intro hclaim
  obtain ⟨s, hs, h⟩ := exists_reach_of_follow (· = init) next
    (dispatching "/redfish/v1/Systems/1" ⟨1⟩ ⟨11⟩ 13 ++ [.dispatchDone] ++
      stranding "/redfish/v1/Systems/2" ⟨2⟩ 13 ++
      dispatching "/redfish/v1/Systems/2" ⟨3⟩ ⟨12⟩ 15)
    (fun s => s.world.operations.rows.any (fun a => a.id = ⟨2⟩ &&
        !a.state.isTerminal) &&
      s.world.operations.rows.any (fun b => b.id = ⟨3⟩ &&
        !b.state.isTerminal) &&
      s.world.requestOf ⟨2⟩ = some (resetOf "/redfish/v1/Systems/2") &&
      s.world.requestOf ⟨3⟩ = some (resetOf "/redfish/v1/Systems/2"))
    rfl (by decide +kernel)
  simp only [Bool.and_eq_true, List.any_eq_true, decide_eq_true_eq,
    Bool.not_eq_true'] at h
  obtain ⟨⟨⟨⟨a, ha, haid, haopen⟩, b, hb, hbid, hbopen⟩, h₂⟩, h₃⟩ := h
  rw [← haid] at h₂
  rw [← hbid] at h₃
  have hid := hclaim s hs a ha b hb haopen hbopen _ _ h₂ h₃ rfl
    (by simp [sameKey])
  rw [haid, hbid] at hid
  cases hid

end Rutilus.Proofs.DispatchKeys
