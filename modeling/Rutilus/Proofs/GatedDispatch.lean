import Rutilus.Proofs.DispatchKeys
import Rutilus.Proofs.OfferAims

/-!
# The contract of a dispatch under its gate

What a dispatch does while others move between its calls. Once it has found its
endpoint at its site it counts on being the only one that queues offers for the
operations on that endpoint; in return it queues offers only for such
operations, and only where they aim at no other target. A dispatch that begins
while an operation of its key has ended unknown creates nothing: the outcome
stays on the list of its endpoint, and the newest offer of the operation, in
whatever queue it stands, carries the request's target because all its offers
do.
-/

namespace Rutilus.Proofs.GatedDispatch

open Rutilus.Domain Rutilus.Lib Rutilus.Store Rutilus.Engine
  Rutilus.App.CenterBoundary Rutilus.App.CenterSync
  Rutilus.App.CenterDispatch Rutilus.App.DispatchGates
  Rutilus.Proofs.CenterBooks Rutilus.Proofs.OfferAims
  Rutilus.Proofs.OutboxRows
open Rutilus.App.CenterSystem hiding DispatchTask State Label init next
  beginDispatch

/-! ## The contract of a dispatch -/

/-- The tables and what a dispatch remembers. -/
structure View where
  world : World
  issued : Option OperationId
  routed : Bool
  denied : Bool

/-- What a dispatch on an endpoint can count on between two of its points. -/
structure Keeps (endpointId : EndpointId) (a b : View) : Prop where
  moves : Moves a.world b.world
  leaves : a.routed = true → Leaves endpointId a.world b.world
  routed : a.routed = true → b.routed = true
  issued : ∀ X, a.issued = some X → b.issued = some X ∧
    (a.world.operations.find X = none → b.world.operations.find X = none)

/-- What the others may do between two calls of a dispatch. -/
structure Rely (endpointId : EndpointId) (a b : View) : Prop
    extends Keeps endpointId a b where
  same : b.routed = a.routed ∧ b.denied = a.denied

/-- A call of a dispatch. -/
def Calls (request : CenterOperationRequest) : Sem center View :=
  fun q a r b => AimInv a.world ∧
    (∃ o, perform (some request) o q a.world = (r, b.world)) ∧
    (∀ X, issues q r = some X → a.world.operations.find X = none) ∧
    b.issued = (issues q r).or a.issued ∧
    b.routed = (a.routed || names request.siteId q r) ∧
    b.denied = (a.denied || denies request q r)

/-- What each call of a dispatch answers for: it creates a record only where
it was not blocked, under the identity it generated, and queues offers only for
operations on its endpoint that are not aimed at another target. -/
def Duty (request : CenterOperationRequest) (now : Instant) (blocked : Bool)
    (v : View) : CenterReq → Prop
  | .operations (.createOperation operation) =>
      blocked = false ∧ v.routed = true ∧ ∃ X targetId,
        operation = .new X .center [⟨targetId, request.endpointId⟩]
          request.command now ∧ v.issued = some X ∧
        v.world.operations.find X = none
  | .operations (.findOperation _) => True
  | .operations (.listOperations _) => True
  | .operations _ => False
  | .findEndpointProjection endpointId => endpointId = request.endpointId
  | .outbox (.enqueue _ message _) => v.routed = true ∧ ∃ X offer,
      message = .operationOffer offer ∧ offer.operationId = some X ∧
        offer.target = request.targetODataId ∧
        On request.endpointId X v.world ∧
        Free v.world X (canonicalTargetKey request.targetODataId)
  | _ => True

abbrev Gated {α : Type} (request : CenterOperationRequest) (now : Instant)
    (blocked : Bool) (p : Prog center α) (Q : α → View → Prop) (v : View) :
    Prop :=
  Safe (Calls request) (Rely request.endpointId)
    (fun q a _ => Duty request now blocked a q) p Q v

section Keeps

variable {endpointId : EndpointId} {a b c : View} {X : OperationId}
  {key : List Char}

theorem Keeps.refl (a : View) : Keeps endpointId a a :=
  ⟨.refl _, fun _ => .refl _, id, fun _ hX => ⟨hX, id⟩⟩

theorem Keeps.trans (h₁ : Keeps endpointId a b) (h₂ : Keeps endpointId b c) :
    Keeps endpointId a c where
  moves := h₁.moves.trans h₂.moves
  leaves ha := .trans h₁.moves (h₁.leaves ha) (h₂.leaves (h₁.routed ha))
  routed ha := h₂.routed (h₁.routed ha)
  issued X hX := by
    obtain ⟨hb, habsent⟩ := h₁.issued X hX
    obtain ⟨hc, habsent'⟩ := h₂.issued X hb
    exact ⟨hc, habsent' ∘ habsent⟩

theorem Rely.trans (h₁ : Rely endpointId a b) (h₂ : Rely endpointId b c) :
    Rely endpointId a c :=
  ⟨h₁.toKeeps.trans h₂.toKeeps, h₂.same.1.trans h₁.same.1,
    h₂.same.2.trans h₁.same.2⟩

/-- An operation on the endpoint stays as free as it was. -/
theorem Keeps.free (h : Keeps endpointId a b) (ha : a.routed = true)
    (hX : On endpointId X a.world) (hfree : Free a.world X key) :
    Free b.world X key := by
  rcases hfree with haimed | hnone
  · exact .inl (h.moves.aims X key haimed)
  · exact .inr fun key' hkey' => hnone key' (h.leaves ha X key' hX hkey')

end Keeps

/-- An operation of a request's key that ended unknown. -/
def UnknownOf (request : CenterOperationRequest) (X : OperationId)
    (w : World) : Prop :=
  (∃ row, w.operations.find X = some row ∧ row.source = .center ∧
    row.state = .unknown ∧ row.command = request.command) ∧
  On request.endpointId X w ∧
  Aimed w X (canonicalTargetKey request.targetODataId)

theorem UnknownOf.moves {request : CenterOperationRequest} {X : OperationId}
    {a b : World} (h : UnknownOf request X a) (hab : Moves a b) :
    UnknownOf request X b := by
  obtain ⟨⟨row, hrow, hsource, hstate, hcommand⟩, hon, haimed⟩ := h
  obtain ⟨row', hrow', hsource', -, hcommand', hstate'⟩ :=
    hab.records X row hrow
  exact ⟨⟨row', hrow', hsource'.trans hsource, hstate' hstate,
    hcommand'.trans hcommand⟩, hab.on hon, hab.aims X _ haimed⟩

theorem mem_unknownUnder {w : World} (h : AimInv w)
    {request : CenterOperationRequest} {X : OperationId} :
    X ∈ unknownUnder w request ↔ UnknownOf request X w := by
  unfold unknownUnder
  rw [List.mem_map]
  constructor
  · rintro ⟨row, hrow, rfl⟩
    obtain ⟨hrow, hp⟩ := List.mem_filter.mp hrow
    have hfind : w.operations.find row.id = some row :=
      Table.find_eq_some_iff.mpr ⟨hrow, rfl⟩
    obtain ⟨-, endpointId, hon⟩ := h.records row.id row hfind
    obtain ⟨row', targetId, hrow', htargets⟩ := hon
    cases hfind.symm.trans hrow'
    simp only [htargets, List.any_cons, List.any_nil, Bool.or_false,
      Bool.and_eq_true, decide_eq_true_eq] at hp
    obtain ⟨⟨⟨⟨hsource, hstate⟩, hendpoint⟩, hcommand⟩, haims⟩ := hp
    refine ⟨⟨row, hfind, hsource, hstate, hcommand⟩,
      ⟨row, targetId, hfind, ?_⟩, aimsAt_iff.mp haims⟩
    rw [htargets, hendpoint]
  · rintro ⟨⟨row, hfind, hsource, hstate, hcommand⟩, hon, haimed⟩
    obtain ⟨row', targetId, hrow', htargets⟩ := hon
    cases hfind.symm.trans hrow'
    obtain ⟨hrow, rfl⟩ := Table.find_eq_some_iff.mp hfind
    refine ⟨row, List.mem_filter.mpr ⟨hrow, ?_⟩, rfl⟩
    simp [hsource, hstate, hcommand, htargets, aimsAt_iff.mpr haimed]

/-! ## The parts of a dispatch -/

section Program

variable {request : CenterOperationRequest} {now : Instant} {blocked : Bool}
  {X : OperationId} {v a b : View}

/-- A call that neither queues nor creates nor generates. -/
theorem keeps_call {q : CenterReq} {r : q.Resp} (h : Calls request q a r b)
    (hqueue : isEnqueue q = false) (hcreate : isCreate q = false)
    (hissues : issues q r = none) : Keeps request.endpointId a b := by
  obtain ⟨hinv, ⟨o, ho⟩, -, hissued, hrouted, -⟩ := h
  have hquiet : Quiet a.world b.world := by
    have := hinv.quiet_perform o (some request) hqueue hcreate
    rwa [ho] at this
  rw [hissues, Option.none_or] at hissued
  refine ⟨hquiet.toMoves, fun _ X key _ => hquiet.leaves X key, fun ha => ?_,
    fun X hX => ⟨hissued.trans hX, hquiet.absent X⟩⟩
  rw [hrouted, ha, Bool.true_or]

/-- A dispatch that ends in an error was denied something. -/
def Fails {ε α : Type} (r : Except ε α) (w : View) : Prop :=
  ∀ e, r = .error e → w.denied = true

theorem denied_call {q : CenterReq} {r : q.Resp} (h : Calls request q a r b)
    (hd : denies request q r = true) : b.denied = true := by
  rw [h.2.2.2.2.2, hd, Bool.or_true]

theorem fails_ok {ε α : Type} {x : α} {w : View} :
    Fails (.ok x : Except ε α) w :=
  fun _ h => (by cases h)

theorem fails_denied {ε α : Type} {r : Except ε α} {w : View}
    (h : w.denied = true) : Fails r w :=
  fun _ _ => h

/-- Queueing an offer. -/
theorem enqueueOffer_gated {expiresAt n : Instant} (hv : v.routed = true)
    (hX : On request.endpointId X v.world)
    (hfree : Free v.world X (canonicalTargetKey request.targetODataId)) :
    Gated request now blocked (enqueueOffer request X expiresAt n)
      (fun r w => Moves v.world w.world ∧ w.routed = true ∧ Fails r w) v := by
  intro v₁ h₁ r v₂ h₂
  have hv₁ := h₁.routed hv
  have hrouted : v₂.routed = true := by
    rw [h₂.2.2.2.2.1, hv₁, Bool.true_or]
  have hmoves : Moves v₁.world v₂.world := by
    obtain ⟨-, ⟨o, ho⟩, -⟩ := h₂
    obtain ⟨hsame, haims, -⟩ := aimed_enqueue o (some request) n
      (w := v₁.world) (S := request.siteId) (X := X)
      (show OperationOffer.operationId ⟨some X, some request.endpointId,
        some request.siteId, some request.command, request.targetODataId,
        some (unixTimestamp expiresAt * second),
        toString request.actor.uuid⟩ = some X from rfl)
    rw [show perform _ _ _ _ = _ from ho] at hsame haims
    exact ⟨fun Y row hrow => ⟨row, by rw [hsame, hrow], rfl, rfl, rfl, id⟩,
      haims⟩
  refine ⟨⟨hv₁, X, _, rfl, rfl, rfl, h₁.moves.on hX,
    h₁.toKeeps.free hv hX hfree⟩, ?_⟩
  cases r with
  | error e =>
      exact ⟨h₁.moves.trans hmoves, hrouted, fails_denied (denied_call h₂ rfl)⟩
  | ok entry => exact ⟨h₁.moves.trans hmoves, hrouted, fails_ok⟩

theorem acknowledgeAll_gated {n : Instant} (entryIds : List OutboxEntryId) :
    Gated request now blocked (acknowledgeAll n entryIds)
      (fun r w => Keeps request.endpointId v w ∧ Fails r w) v := by
  induction entryIds generalizing v with
  | nil => exact ⟨.refl v, fails_ok⟩
  | cons entryId entryIds ih =>
      intro v₁ h₁ r v₂ h₂
      refine ⟨trivial, ?_⟩
      have hkeeps := h₁.toKeeps.trans (keeps_call h₂ rfl rfl rfl)
      cases r with
      | error e => exact ⟨hkeeps, fails_denied (denied_call h₂ rfl)⟩
      | ok u => exact ih.imp fun _ w h => ⟨hkeeps.trans h.1, h.2⟩

/-- The facts of a scan are aims of the outbox. -/
theorem pendingFacts_gated {siteId : InstanceId} :
    Gated request now blocked (pendingFacts siteId)
      (fun r w => Keeps request.endpointId v w ∧ Fails r w ∧
        ∀ facts, r = .ok facts → ∀ fact ∈ facts,
          Aimed w.world fact.operationId (canonicalTargetKey fact.target))
      v := by
  intro v₁ h₁ r v₂ h₂
  refine ⟨trivial, ?_⟩
  have h₃ := keeps_call h₂ rfl rfl rfl
  have hkeeps := h₁.toKeeps.trans h₃
  cases r with
  | error e =>
      exact ⟨hkeeps, fails_denied (denied_call h₂ rfl),
        fun facts h => (by cases h)⟩
  | ok entries =>
      refine ⟨hkeeps, fails_ok, fun facts h fact hfact => ?_⟩
      cases h
      obtain ⟨entry, hentry, hfacts⟩ := List.mem_filterMap.mp hfact
      obtain ⟨hinv, ⟨o, ho⟩, -⟩ := h₂
      have hlist := listPending_ok (congrArg Prod.fst ho)
      obtain ⟨row, hrow, rfl, -⟩ := mem_of_listPendingOutbox hlist hentry
      exact h₃.moves.aims _ _ ⟨row, hrow, fact, hfacts, rfl, rfl⟩

theorem settleDuplicateOffers_gated {n : Instant} :
    Gated request now blocked (settleDuplicateOffers request X n)
      (fun r w => Keeps request.endpointId v w ∧ Fails r w) v := by
  refine Safe.bindE.mpr (pendingFacts_gated.imp ?_)
  rintro r v₁ ⟨hkeeps, hfails, -⟩
  cases r with
  | error e => exact ⟨hkeeps, fails_denied (hfails e rfl)⟩
  | ok facts =>
      exact (acknowledgeAll_gated _).imp fun _ w h => ⟨hkeeps.trans h.1, h.2⟩

/-- What a program that answers with a dispatched operation ends in. -/
def Answers (X : OperationId) (v : View)
    (r : Except CenterDispatchError DispatchedOperation) (w : View) : Prop :=
  Moves v.world w.world ∧ Fails r w ∧ ∀ d, r = .ok d → d.operationId = X

theorem deliverRetry_gated {n : Instant} (hv : v.routed = true)
    (hX : On request.endpointId X v.world)
    (hfree : Free v.world X (canonicalTargetKey request.targetODataId)) :
    Gated request now blocked (deliverRetry request X n) (Answers X v) v := by
  refine Safe.bindE.mpr ((enqueueOffer_gated hv hX hfree).imp ?_)
  rintro r v₁ ⟨hmoves, -, hfails⟩
  cases r with
  | error e =>
      exact ⟨hmoves, fails_denied (hfails e rfl), fun d h => (by cases h)⟩
  | ok entry =>
      refine Safe.bindE.mpr (settleDuplicateOffers_gated.imp ?_)
      rintro r v₂ ⟨hkeeps, hfails⟩
      cases r with
      | error e =>
          exact ⟨hmoves.trans hkeeps.moves, fails_denied (hfails e rfl),
            fun d h => (by cases h)⟩
      | ok u =>
          refine ⟨hmoves.trans hkeeps.moves, fails_ok, fun d h => ?_⟩
          cases h
          rfl

end Program

/-! ## Candidates -/

section Candidates

variable {request : CenterOperationRequest} {now : Instant} {blocked : Bool}
  {X : OperationId} {facts : List OfferFact} {v : View}

/-- What a verdict on a candidate means. -/
def Verdict (endpointId : EndpointId) (X : OperationId) (v : View)
    (r : Except CenterDispatchError CandidateVerdict) (w : View) : Prop :=
  match r with
  | .ok (.resolved d) => Moves v.world w.world ∧ d.operationId = X
  | .ok .neverEnqueued =>
      Keeps endpointId v w ∧ ∀ key, ¬ Aimed w.world X key
  | .ok .differentTarget => Keeps endpointId v w
  | .error _ => w.denied = true

theorem Verdict.after {v' w : View}
    {r : Except CenterDispatchError CandidateVerdict}
    (hv : Keeps request.endpointId v v')
    (h : Verdict request.endpointId X v' r w) :
    Verdict request.endpointId X v r w := by
  cases r with
  | error e => exact h
  | ok verdict =>
      cases verdict with
      | resolved d => exact ⟨hv.moves.trans h.1, h.2⟩
      | neverEnqueued => exact ⟨hv.trans h.1, h.2⟩
      | differentTarget => exact hv.trans h

theorem judgeOffer_gated {newest : OfferFact} {stale : List OutboxEntryId}
    (hv : v.routed = true) (hX : On request.endpointId X v.world)
    (haimed : Aimed v.world X (canonicalTargetKey newest.target)) :
    Gated request now blocked (judgeOffer request X newest stale now)
      (Verdict request.endpointId X v) v := by
  unfold judgeOffer
  split
  · exact .refl v
  · next heq =>
      rw [not_not.mp heq] at haimed
      split
      · refine Safe.bindE.mpr ((acknowledgeAll_gated stale).imp ?_)
        rintro r v₁ ⟨hkeeps, hfails⟩
        cases r with
        | error e => exact hfails e rfl
        | ok u =>
            refine Safe.bindE.mpr ((deliverRetry_gated (hkeeps.routed hv)
              (hkeeps.moves.on hX)
              (.inl (hkeeps.moves.aims _ _ haimed))).imp ?_)
            rintro r v₂ ⟨hmoves, hfails, hd⟩
            cases r with
            | error e => exact hfails e rfl
            | ok d => exact ⟨hkeeps.moves.trans hmoves, hd d rfl⟩
      · exact ⟨.refl _, rfl⟩

theorem resolveCandidate_gated (hv : v.routed = true)
    (hX : On request.endpointId X v.world)
    (hfacts : ∀ fact ∈ facts,
      Aimed v.world fact.operationId (canonicalTargetKey fact.target)) :
    Gated request now blocked (resolveCandidate request X facts now)
      (Verdict request.endpointId X v) v := by
  unfold resolveCandidate
  dsimp only
  split
  · next newest hnewest =>
      obtain ⟨hmem, hop⟩ := List.mem_filter.mp (mem_of_newestFact hnewest)
      have haimed := hfacts newest hmem
      rw [show newest.operationId = X by simpa using hop] at haimed
      exact judgeOffer_gated hv hX haimed
  · intro v₁ h₁ r v₂ h₂
    refine ⟨trivial, ?_⟩
    have h₃ := keeps_call h₂ rfl rfl rfl
    have hkeeps := h₁.toKeeps.trans h₃
    cases r with
    | error e => exact denied_call h₂ rfl
    | ok found =>
        obtain ⟨hinv, ⟨o, ho⟩, -⟩ := h₂
        obtain ⟨-, t', hfind⟩ := findAcross_ok (congrArg Prod.fst ho)
        obtain ⟨hnever, hknown⟩ := hinv.findAcross hfind
        dsimp only [Prog.bind, Except.mapError, ExceptT.bindCont]
        cases hfound : found.bind offerFacts with
        | none =>
            -- nobody else offers an operation on this endpoint
            refine ⟨hkeeps, fun key hkey => hnever hfound key ?_⟩
            exact h₃.leaves (h₁.routed hv) X key (h₁.moves.on hX) hkey
        | some directed =>
            refine (judgeOffer_gated (hkeeps.routed hv) (hkeeps.moves.on hX)
              (h₃.moves.aims _ _ (hknown directed hfound))).imp ?_
            exact fun r w h => h.after hkeeps

/-- What a scan over candidates ends in: the operation it returns is on
record. -/
def Scanned (endpointId : EndpointId) (v : View)
    (r : Except CenterDispatchError (Option DispatchedOperation)) (w : View) :
    Prop :=
  match r with
  | .ok (some d) => On endpointId d.operationId w.world
  | .ok none => Keeps endpointId v w
  | .error _ => w.denied = true

theorem Scanned.after {v' w : View}
    {r : Except CenterDispatchError (Option DispatchedOperation)}
    (hv : Keeps request.endpointId v v')
    (h : Scanned request.endpointId v' r w) :
    Scanned request.endpointId v r w := by
  cases r with
  | error e => exact h
  | ok found =>
      cases found with
      | none => exact hv.trans h
      | some d => exact h

/-- The candidate that was resolved is returned once its duplicates are
settled. -/
theorem settled_gated {d : DispatchedOperation} {v₁ : View}
    (hX : On request.endpointId X v.world) (hmoves : Moves v.world v₁.world)
    (hd : d.operationId = X) :
    Gated request now blocked (do
      settleDuplicateOffers request X now
      return some d : App.CenterDispatch.M (Option DispatchedOperation))
      (Scanned request.endpointId v) v₁ := by
  refine Safe.bindE.mpr (settleDuplicateOffers_gated.imp ?_)
  rintro r v₂ ⟨hkeeps, hfails⟩
  cases r with
  | error e => exact hfails e rfl
  | ok u =>
      show On _ d.operationId _
      rw [hd]
      exact (hmoves.trans hkeeps.moves).on hX

theorem resolveFirst_gated (hv : v.routed = true)
    (hfacts : ∀ fact ∈ facts,
      Aimed v.world fact.operationId (canonicalTargetKey fact.target))
    (candidates : List OperationId)
    (hcandidates : ∀ X ∈ candidates, On request.endpointId X v.world) :
    Gated request now blocked (resolveFirst request facts now candidates)
      (Scanned request.endpointId v) v := by
  induction candidates generalizing v with
  | nil => exact .refl v
  | cons X candidates ih =>
      have hX := hcandidates X List.mem_cons_self
      refine Safe.bindE.mpr ((resolveCandidate_gated hv hX hfacts).imp ?_)
      intro r v₁ hverdict
      have hnext : Keeps request.endpointId v v₁ →
          Gated request now blocked (resolveFirst request facts now candidates)
            (Scanned request.endpointId v) v₁ := by
        intro hkeeps
        refine (ih (hkeeps.routed hv)
          (fun fact hfact => hkeeps.moves.aims _ _ (hfacts fact hfact))
          fun Y hY => hkeeps.moves.on
            (hcandidates Y (List.mem_cons_of_mem _ hY))).imp ?_
        exact fun r w h => h.after hkeeps
      cases r with
      | error e => exact hverdict
      | ok verdict =>
          cases verdict with
          | resolved d => exact settled_gated hX hverdict.1 hverdict.2
          | neverEnqueued => exact hnext hverdict.1
          | differentTarget => exact hnext hverdict

theorem resolveSingle_gated (hv : v.routed = true)
    (hX : On request.endpointId X v.world)
    (hfacts : ∀ fact ∈ facts,
      Aimed v.world fact.operationId (canonicalTargetKey fact.target)) :
    Gated request now blocked (resolveSingle request X facts now)
      (Scanned request.endpointId v) v := by
  refine Safe.bindE.mpr ((resolveCandidate_gated hv hX hfacts).imp ?_)
  intro r v₁ hverdict
  cases r with
  | error e => exact hverdict
  | ok verdict =>
      cases verdict with
      | resolved d => exact settled_gated hX hverdict.1 hverdict.2
      | differentTarget => exact hverdict
      | neverEnqueued =>
          obtain ⟨hkeeps, hnone⟩ := hverdict
          have hX₁ := hkeeps.moves.on hX
          refine Safe.bindE.mpr ((deliverRetry_gated (hkeeps.routed hv) hX₁
            (.inr hnone)).imp ?_)
          rintro r v₂ ⟨hmoves, hfails, hd⟩
          cases r with
          | error e => exact hfails e rfl
          | ok d =>
              show On _ d.operationId _
              rw [hd d rfl]
              exact hmoves.on hX₁

/-- The operations a listing has found that are the request's own are on
record on its endpoint. -/
def Found (request : CenterOperationRequest) (operations : List Operation)
    (w : World) : Prop :=
  ∀ operation ∈ operations, isOfRequest request operation = true →
    On request.endpointId operation.id w

theorem found_of_list {state : OperationState} {operations : List Operation}
    {a b : View} (h : Calls request (.listOperationsForEndpoint (some state)
      request.endpointId) a (.ok operations) b) :
    listOperationsForEndpoint a.world.operations (some state)
      request.endpointId = .ok operations := by
  obtain ⟨-, ⟨o, ho⟩, -⟩ := h
  have hr := congrArg Prod.fst ho
  simp only [perform, answer] at hr
  cases hfault : o.fault with
  | some f =>
      rw [hfault] at hr
      cases hr
  | none =>
      rw [hfault] at hr
      exact hr

theorem Found.of_list {w : World} (h : AimInv w) {state : OperationState}
    {operations : List Operation}
    (hlist : listOperationsForEndpoint w.operations (some state)
      request.endpointId = .ok operations) : Found request operations w := by
  intro operation ho hof
  obtain ⟨row, hrow, hstored, -⟩ :=
    (DispatchKeys.listed_one hlist).sound operation ho
  have hfind : w.operations.find row.id = some row :=
    Table.find_eq_some_iff.mpr ⟨hrow, rfl⟩
  obtain ⟨-, endpointId, row', targetId, hrow', htargets⟩ :=
    h.records row.id row hfind
  cases hfind.symm.trans hrow'
  rw [(mapStoredOperation_ok hstored).1]
  simp only [isOfRequest, mapStoredOperation_targets hstored htargets,
    List.head?_cons, Option.any_some, Bool.and_eq_true,
    decide_eq_true_eq] at hof
  exact ⟨row, targetId, hfind, by rw [htargets, hof.1.2]⟩

theorem Found.moves {operations : List Operation} {a b : World}
    (h : Found request operations a) (hab : Moves a b) :
    Found request operations b :=
  fun operation ho hof => hab.on (h operation ho hof)

theorem listForEndpoint_gated (states : List OperationState) :
    Gated request now blocked (listForEndpoint request.endpointId states)
      (fun r w => Keeps request.endpointId v w ∧ Fails r w ∧
        ∀ operations, r = .ok operations → Found request operations w.world)
      v := by
  induction states generalizing v with
  | nil =>
      refine ⟨.refl v, fails_ok, fun operations h => ?_⟩
      cases h
      exact fun operation ho => absurd ho List.not_mem_nil
  | cons state states ih =>
      intro v₁ h₁ r v₂ h₂
      refine ⟨trivial, ?_⟩
      have h₃ := keeps_call h₂ rfl rfl rfl
      have hkeeps := h₁.toKeeps.trans h₃
      cases r with
      | error e =>
          exact ⟨hkeeps, fails_denied (denied_call h₂ rfl),
            fun operations h => (by cases h)⟩
      | ok found =>
          have hfound := (Found.of_list h₂.1 (found_of_list h₂)).moves h₃.moves
          refine Safe.bindE.mpr (ih.imp ?_)
          rintro r v₃ ⟨hkeeps₃, hfails, hrest⟩
          cases r with
          | error e =>
              exact ⟨hkeeps.trans hkeeps₃, fails_denied (hfails e rfl),
                fun operations h => (by cases h)⟩
          | ok rest =>
              refine ⟨hkeeps.trans hkeeps₃, fails_ok, fun operations h => ?_⟩
              cases h
              intro operation ho
              rcases List.mem_append.mp ho with ho | ho
              · exact hfound.moves hkeeps₃.moves operation ho
              · exact hrest rest rfl operation ho

theorem on_of_candidate {operations : List Operation} {w : World}
    (h : Found request operations w)
    (hX : X ∈ candidatesOf request operations) :
    On request.endpointId X w := by
  unfold candidatesOf at hX
  obtain ⟨operation, ho, rfl⟩ := List.mem_map.mp hX
  rw [List.mem_insertionSort, List.mem_filter, Bool.and_eq_true] at ho
  exact h operation ho.1 ho.2.1

theorem resolveCandidates_gated (hv : v.routed = true)
    (hfacts : ∀ fact ∈ facts,
      Aimed v.world fact.operationId (canonicalTargetKey fact.target))
    {candidates : List OperationId}
    (hcandidates : ∀ X ∈ candidates, On request.endpointId X v.world) :
    Gated request now blocked (resolveCandidates request candidates facts now)
      (Scanned request.endpointId v) v := by
  unfold resolveCandidates
  split
  · next X =>
      split
      · exact resolveSingle_gated hv (hcandidates X List.mem_cons_self) hfacts
      · exact resolveFirst_gated hv hfacts _ hcandidates
  · exact resolveFirst_gated hv hfacts _ hcandidates

theorem findUndecided_gated (hv : v.routed = true) :
    Gated request now blocked (findUndecided request now)
      (Scanned request.endpointId v) v := by
  refine Safe.bindE.mpr ((listForEndpoint_gated _).imp ?_)
  rintro r v₁ ⟨hkeeps, hfails, hfound⟩
  cases r with
  | error e => exact hfails e rfl
  | ok operations =>
      have hfound := hfound operations rfl
      dsimp only
      split
      · exact hkeeps
      · refine Safe.bindE.mpr (pendingFacts_gated.imp ?_)
        rintro r v₂ ⟨hscan, hfails, hfacts⟩
        cases r with
        | error e => exact hfails e rfl
        | ok facts =>
            have hkeeps₂ := hkeeps.trans hscan
            refine (resolveCandidates_gated (hkeeps₂.routed hv)
              (hfacts facts rfl) fun X hX => ?_).imp
                fun r w h => h.after hkeeps₂
            exact on_of_candidate (hfound.moves hscan.moves) hX

end Candidates

/-! ## The whole dispatch -/

section Whole

variable {request : CenterOperationRequest} {now : Instant} {blocked : Bool}
  {v : View}

/-- The search among unknown operations stops at one that is aimed at the
request's target. -/
theorem confirmUnknown_gated (operationIds : List OperationId) :
    Gated request now blocked (confirmUnknown request operationIds)
      (fun r w => Keeps request.endpointId v w ∧ Fails r w ∧
        (∀ Y, r = .ok (some Y) → Y ∈ operationIds ∧
          Aimed w.world Y (canonicalTargetKey request.targetODataId)) ∧
        (r = .ok none → ∀ X ∈ operationIds,
          ¬ Aimed v.world X (canonicalTargetKey request.targetODataId))) v := by
  induction operationIds generalizing v with
  | nil =>
      exact ⟨.refl v, fails_ok, fun Y h => (by cases h),
        fun _ X hX => absurd hX List.not_mem_nil⟩
  | cons operationId operationIds ih =>
      intro v₁ h₁ r v₂ h₂
      refine ⟨trivial, ?_⟩
      have h₃ := keeps_call h₂ rfl rfl rfl
      have hkeeps := h₁.toKeeps.trans h₃
      cases r with
      | error e =>
          exact ⟨hkeeps, fails_denied (denied_call h₂ rfl),
            fun Y h => (by cases h), fun h => (by cases h)⟩
      | ok found =>
          obtain ⟨hinv, ⟨o, ho⟩, -⟩ := h₂
          obtain ⟨-, t', hfind⟩ := findAcross_ok (congrArg Prod.fst ho)
          obtain ⟨hnever, hknown⟩ := hinv.findAcross hfind
          show Gated request now blocked (if _ then _ else _) _ v₂
          split
          · next hany =>
              obtain ⟨fact, hfact, hkey⟩ := (Option.any_eq_true _ _).mp hany
              simp only [decide_eq_true_eq] at hkey
              refine ⟨hkeeps, fails_ok, fun Y h => ?_, fun h => (by cases h)⟩
              cases h
              have haimed := h₃.moves.aims _ _ (hknown fact hfact)
              rw [hkey] at haimed
              exact ⟨List.mem_cons_self, haimed⟩
          · next hany =>
              -- the one key of the operation is not the request's
              have hother : ¬ Aimed v.world operationId
                  (canonicalTargetKey request.targetODataId) := by
                intro haimed
                have haimed := h₁.moves.aims _ _ haimed
                cases hfound : found.bind offerFacts with
                | none => exact hnever hfound _ haimed
                | some fact =>
                    refine hany ?_
                    rw [hfound, Option.any_some, decide_eq_true_eq]
                    exact hinv.single _ _ _ (hknown fact hfound) haimed
              refine ih.imp ?_
              rintro r w ⟨hkeeps₂, hfails, hsome, hnone⟩
              refine ⟨hkeeps.trans hkeeps₂, hfails, fun Y h => ?_,
                fun h X hX => ?_⟩
              · obtain ⟨hmem, haimed⟩ := hsome Y h
                exact ⟨List.mem_cons_of_mem _ hmem, haimed⟩
              · rcases List.mem_cons.mp hX with rfl | hX
                · exact hother
                · exact fun haimed =>
                    hnone h X hX (hkeeps.moves.aims _ _ haimed)

/-- The unknown operations of a request's endpoint and command are those on the
list. -/
theorem mem_unknown {w : World} (h : AimInv w) {operations : List Operation}
    (hlist : listOperationsForEndpoint w.operations (some .unknown)
      request.endpointId = .ok operations) (X : OperationId) :
    X ∈ (((operations.filter (isOfRequest request)).insertionSort
      recoveredBefore).map Operation.id) ↔
    (∃ row, w.operations.find X = some row ∧ row.source = .center ∧
      row.state = .unknown ∧ row.command = request.command) ∧
      On request.endpointId X w := by
  have hlisted := DispatchKeys.listed_one hlist
  rw [List.mem_map]
  constructor
  · rintro ⟨operation, ho, rfl⟩
    rw [List.mem_insertionSort, List.mem_filter] at ho
    obtain ⟨row, hrow, hstored, hstate, -⟩ := hlisted.sound operation ho.1
    obtain ⟨hid, hsource, hcommand, -⟩ := mapStoredOperation_ok hstored
    have hof := ho.2
    simp only [isOfRequest, Bool.and_eq_true, decide_eq_true_eq] at hof
    refine ⟨⟨row, ?_, hsource.symm.trans hof.1.1, List.mem_singleton.mp hstate,
      hcommand.symm.trans hof.2⟩, Found.of_list h hlist operation ho.1 ho.2⟩
    rw [hid]
    exact Table.find_eq_some_iff.mpr ⟨hrow, rfl⟩
  · rintro ⟨⟨row, hfind, hsource, hstate, hcommand⟩, row', targetId, hfind',
      htargets⟩
    cases hfind.symm.trans hfind'
    obtain ⟨hrow, rfl⟩ := Table.find_eq_some_iff.mp hfind
    obtain ⟨operation, ho, hstored⟩ := hlisted.complete row hrow
      (List.mem_singleton.mpr hstate) (by simp [htargets])
    obtain ⟨hid, hsource', hcommand', -⟩ := mapStoredOperation_ok hstored
    refine ⟨operation, ?_, hid⟩
    rw [List.mem_insertionSort, List.mem_filter]
    refine ⟨ho, ?_⟩
    simp [isOfRequest, mapStoredOperation_targets hstored htargets, hsource',
      hsource, hcommand', hcommand]

theorem findUnknownOutcome_gated :
    Gated request now blocked (findUnknownOutcome request)
      (fun r w => Keeps request.endpointId v w ∧ Fails r w ∧
        (∀ Y, r = .ok (some Y) → UnknownOf request Y w.world) ∧
        (r = .ok none → ∀ X, ¬ UnknownOf request X v.world)) v := by
  intro v₁ h₁ r v₂ h₂
  refine ⟨trivial, ?_⟩
  have h₃ := keeps_call h₂ rfl rfl rfl
  have hkeeps := h₁.toKeeps.trans h₃
  cases r with
  | error e =>
      exact ⟨hkeeps, fails_denied (denied_call h₂ rfl), fun Y h => (by cases h),
        fun h => (by cases h)⟩
  | ok operations =>
      have hmem := mem_unknown h₂.1 (found_of_list h₂)
      refine (confirmUnknown_gated _).imp ?_
      rintro r w ⟨hkeeps₂, hfails, hsome, hnone⟩
      refine ⟨hkeeps.trans hkeeps₂, hfails, fun Y h => ?_, fun h X hX => ?_⟩
      · obtain ⟨hY, haimed⟩ := hsome Y h
        obtain ⟨⟨row, hrow, hsource, hstate, hcommand⟩, hon⟩ := (hmem Y).mp hY
        have hmoves := h₃.moves.trans hkeeps₂.moves
        obtain ⟨row', hrow', hsource', -, hcommand', hstate'⟩ :=
          hmoves.records Y row hrow
        exact ⟨⟨row', hrow', hsource'.trans hsource, hstate' hstate,
          hcommand'.trans hcommand⟩, hmoves.on hon, haimed⟩
      · obtain ⟨hrow, hon, haimed⟩ := hX.moves h₁.moves
        exact hnone h X ((hmem X).mpr ⟨hrow, hon⟩)
          (h₃.moves.aims _ _ haimed)

/-- What a dispatch ends in: the operation it returns is on record, and unless
it was denied something it refuses with an unknown outcome of its key. -/
def Done (request : CenterOperationRequest)
    (r : Except CenterDispatchError DispatchedOperation) (w : View) : Prop :=
  (∀ d, r = .ok d → On request.endpointId d.operationId w.world) ∧
  ∀ e, r = .error e → w.denied = true ∨
    ∃ Y, e = .unknownOutcomePending Y ∧ UnknownOf request Y w.world

theorem Done.denied {r : Except CenterDispatchError DispatchedOperation}
    {e : CenterDispatchError} {w : View} (hr : r = .error e)
    (h : w.denied = true) : Done request r w := by
  subst hr
  exact ⟨fun d hd => (by cases hd), fun _ _ => .inl h⟩

theorem Done.moves {request : CenterOperationRequest}
    {r : Except CenterDispatchError DispatchedOperation} {a b : View}
    (h : Done request r a) (hab : Rely request.endpointId a b) :
    Done request r b := by
  refine ⟨fun d hd => hab.moves.on (h.1 d hd), fun e he => ?_⟩
  rcases h.2 e he with hdenied | ⟨Y, hY, hunknown⟩
  · exact .inl (hab.same.2.trans hdenied)
  · exact .inr ⟨Y, hY, hunknown.moves hab.moves⟩

theorem createAndOffer_gated (hv : v.routed = true) (hb : blocked = false) :
    Gated request now blocked (createAndOffer request now)
      (Done request) v := by
  intro v₁ h₁ X v₂ h₂
  refine ⟨trivial, ?_⟩
  intro v₃ h₃ targetId v₄ h₄
  refine ⟨trivial, ?_⟩
  intro v₅ h₅ r v₆ h₆
  -- the identity is new when it is generated and stays the dispatch's own
  have habsent₂ : v₂.world.operations.find X = none := by
    obtain ⟨hinv, ⟨o, ho⟩, hfresh, -⟩ := h₂
    have hquiet := hinv.quiet_perform o (some request)
      (q := .generateOperationId) rfl rfl
    rw [ho] at hquiet
    exact hquiet.absent X (hfresh X rfl)
  have hissued₂ : v₂.issued = some X := h₂.2.2.2.1
  have hrouted₂ : v₂.routed = true := by
    rw [h₂.2.2.2.2.1, h₁.routed hv, Bool.true_or]
  have hkeeps := (h₃.toKeeps.trans (keeps_call h₄ rfl rfl rfl)).trans h₅.toKeeps
  obtain ⟨hissued, habsent⟩ := hkeeps.issued X hissued₂
  have habsent := habsent habsent₂
  have hrouted := hkeeps.routed hrouted₂
  refine ⟨⟨hb, hrouted, X, targetId, rfl, hissued, habsent⟩, ?_⟩
  cases r with
  | error e => exact .denied rfl (denied_call h₆ rfl)
  | ok u =>
      obtain ⟨hinv, ⟨o, ho⟩, -, -, hrouted₆, -⟩ := h₆
      have hon : On request.endpointId X v₆.world := by
        rcases (find_create habsent ho).2 with ⟨⟨e, he⟩, -⟩ | ⟨-, hfind⟩
        · cases he
        · exact ⟨_, targetId, (hfind X).trans (if_pos rfl), rfl⟩
      -- what is not on record was never offered
      have hfree : ∀ key, ¬ Aimed v₆.world X key := by
        intro key hkey
        obtain ⟨-, -, -, haimed⟩ := hinv.create habsent ho
        obtain ⟨e, row, target, hrow, -⟩ := hinv.recorded X key
          (haimed X key hkey)
        rw [habsent] at hrow
        cases hrow
      refine Safe.bindE.mpr ((enqueueOffer_gated
        (by rw [hrouted₆, hrouted, Bool.true_or]) hon (.inr hfree)).imp ?_)
      rintro r w ⟨hmoves, -, hfails⟩
      cases r with
      | error e => exact .denied rfl (hfails e rfl)
      | ok entry =>
          refine ⟨fun d hd => ?_, fun e he => (by cases he)⟩
          cases hd
          exact hmoves.on hon

theorem dispatchRouted_gated (hv : v.routed = true)
    (hb : blocked = true → ∃ X, UnknownOf request X v.world) :
    Gated request now blocked (dispatchRouted request now)
      (Done request) v := by
  refine Safe.bindE.mpr ((findUndecided_gated hv).imp ?_)
  intro r v₁ h₁
  cases r with
  | error e => exact .denied rfl h₁
  | ok found =>
      cases found with
      | some existing =>
          refine ⟨fun d hd => ?_, fun e he => (by cases he)⟩
          cases hd
          exact h₁
      | none =>
          have hkeeps : Keeps request.endpointId v v₁ := h₁
          refine Safe.bindE.mpr (findUnknownOutcome_gated.imp ?_)
          rintro r v₂ ⟨hkeeps₂, hfails, hsome, hnone⟩
          cases r with
          | error e => exact .denied rfl (hfails e rfl)
          | ok unknown =>
              cases unknown with
              | some Y =>
                  refine ⟨fun d hd => (by cases hd), fun e he => ?_⟩
                  cases he
                  exact .inr ⟨Y, rfl, hsome Y rfl⟩
              | none =>
                  refine createAndOffer_gated
                    ((hkeeps.trans hkeeps₂).routed hv) ?_
                  cases hblocked : blocked with
                  | false => rfl
                  | true =>
                      obtain ⟨X, hX⟩ := hb hblocked
                      exact absurd (hX.moves hkeeps.moves) (hnone rfl X)

/-- The contract of a dispatch. -/
theorem dispatch_gated
    (hb : blocked = true → ∃ X, UnknownOf request X v.world) :
    Gated request now blocked (App.CenterDispatch.dispatch request now)
      (Done request) v := by
  intro v₁ h₁ r v₂ h₂
  refine ⟨trivial, ?_⟩
  have hkeeps₂ := h₁.toKeeps.trans (keeps_call h₂ rfl rfl rfl)
  cases r with
  | error e => exact .denied rfl (denied_call h₂ rfl)
  | ok assignment =>
      cases assignment with
      | none => exact .denied rfl (denied_call h₂ rfl)
      | some assignment =>
          show Gated request now blocked (if _ then _ else _) _ v₂
          split
          · next hrole =>
              refine .denied rfl (denied_call h₂ ?_)
              simpa [denies] using hrole
          · intro v₃ h₃ r v₄ h₄
            refine ⟨rfl, ?_⟩
            have hkeeps₄ := hkeeps₂.trans
              (h₃.toKeeps.trans (keeps_call h₄ rfl rfl rfl))
            cases r with
            | error e => exact .denied rfl (denied_call h₄ rfl)
            | ok projection =>
                cases projection with
                | none => exact .denied rfl (denied_call h₄ rfl)
                | some endpoint =>
                    show Gated request now blocked (if _ then _ else _) _ v₄
                    split
                    · next hsite =>
                        refine .denied rfl (denied_call h₄ ?_)
                        simpa [denies] using hsite
                    · next hsite =>
                        have hrouted : v₄.routed = true := by
                          rw [h₄.2.2.2.2.1]
                          simp [names, not_not.mp hsite]
                        intro v₅ h₅ r v₆ h₆
                        refine ⟨trivial, ?_⟩
                        have hkeeps₆ := h₅.toKeeps.trans
                          (keeps_call h₆ rfl rfl rfl)
                        cases r with
                        | error e => exact .denied rfl (denied_call h₆ rfl)
                        | ok known =>
                            show Gated request now blocked (if _ then _ else _)
                              _ v₆
                            split
                            · next hknown =>
                                exact .denied rfl (denied_call h₆ hknown)
                            · refine dispatchRouted_gated
                                (hkeeps₆.routed hrouted) fun hblocked => ?_
                              obtain ⟨X, hX⟩ := hb hblocked
                              exact ⟨X, hX.moves
                                (hkeeps₄.trans hkeeps₆).moves⟩

end Whole

end Rutilus.Proofs.GatedDispatch
