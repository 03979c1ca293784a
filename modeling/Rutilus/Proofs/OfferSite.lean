import Rutilus.Proofs.ReplyProvenance

/-!
# One site for each operation

A dispatch queues an offer only for its own site, and for an operation it takes
from the books. There are four ways it comes by the operation: it was minted
just now, the site's own queue holds a pending offer of it, no queue holds any,
or the newest offer over all queues has expired. In the first three no other
site was ever offered it. In the last one nothing says whose queue that offer
lies in; as long as it is the site's own, every operation is offered to one site
only.
-/

namespace Rutilus.Proofs.OfferSite

open Rutilus.Domain Rutilus.Lib Rutilus.Store Rutilus.App.CenterBoundary
  Rutilus.App.CenterDispatch Rutilus.App.CenterTracking
  Rutilus.App.CenterSystem Rutilus.Proofs.CenterBooks
  Rutilus.Proofs.OutboxRows

/-- Every operation was offered to one site at most. -/
def Single (offered : List (OperationId × InstanceId)) : Prop :=
  ∀ X S S', (X, S) ∈ offered → (X, S') ∈ offered → S = S'

/-- The world and whether the dispatch has turned to the unknown outcomes. -/
abbrev View : Type := World × Bool

/-- No site but this one was offered the operation. -/
def Free (site : InstanceId) (X : OperationId) (v : View) : Prop :=
  ∀ S, (X, S) ∈ v.1.offered → S = site

/-- The offers and the phase are as they were. -/
def Same (a b : View) : Prop :=
  b.1.offered = a.1.offered ∧ b.2 = a.2

theorem Same.trans {a b c : View} (h₁ : Same a b) (h₂ : Same b c) :
    Same a c :=
  ⟨h₂.1.trans h₁.1, h₂.2.trans h₁.2⟩

theorem Free.same {site : InstanceId} {X : OperationId} {a b : View}
    (h : Free site X a) (hab : Same a b) : Free site X b := by
  intro S hS
  rw [hab.1] at hS
  exact h S hS

/-- The lookup that goes wrong. -/
def misroute (request : CenterOperationRequest) (now : Instant) (v : View) :
    CenterReq → Bool
  | .outbox (.findOfferByOperationAcrossInstances X) => !v.2 &&
      match findOfferByOperationAcrossInstances v.1.outbox X with
      | .ok (some entry, _) => isExpiredElsewhere request now entry
      | _ => false
  | _ => false

/-- A call of a dispatch. -/
def Calls (request : CenterOperationRequest) (now : Instant) :
    Sem center View := fun q a r b =>
  Books a.1.outbox a.1.offered ∧ Single a.1.offered ∧
    (∃ o, allowed o a.1 q = true ∧ perform (some request) o q a.1 = (r, b.1) ∧
      (o.fault = none → misroute request now a q = false)) ∧
    b.2 = (a.2 || isConfirming q)

/-- Offers are added for the request's site only, and only of operations that
no other site was offered. -/
def Guar (request : CenterOperationRequest) (q : CenterReq) (a b : View) :
    Prop :=
  (∀ x ∈ b.1.offered, x ∈ a.1.offered ∨ x.2 = request.siteId) ∧
    ∀ S message now X, q = .outbox (.enqueue S message now) →
      payloadOperationId (some ⟨0, 0, some message⟩) = some X →
        S = request.siteId ∧ Free request.siteId X a

abbrev Routed {α : Type} (request : CenterOperationRequest) (now : Instant)
    (p : Prog center α) (Q : α → View → Prop) (v : View) : Prop :=
  Safe (Calls request now) Same (Guar request) p Q v

/-- The phase is as it was and no operation was offered elsewhere. -/
def Onward (request : CenterOperationRequest) (a b : View) : Prop :=
  b.2 = a.2 ∧ ∀ X, Free request.siteId X a → Free request.siteId X b

theorem Onward.trans {request : CenterOperationRequest} {a b c : View}
    (h₁ : Onward request a b) (h₂ : Onward request b c) :
    Onward request a c :=
  ⟨h₂.1.trans h₁.1, fun X h => h₂.2 X (h₁.2 X h)⟩

theorem Same.onward {request : CenterOperationRequest} {a b : View}
    (h : Same a b) : Onward request a b :=
  ⟨h.2, fun _ hfree => hfree.same h⟩

section Program

variable {request : CenterOperationRequest} {now : Instant} {X : OperationId}
  {v : View} {a b : View}

theorem Free.guar {q : CenterReq} (h : Free request.siteId X a)
    (hg : Guar request q a b) : Free request.siteId X b := by
  intro S hS
  rcases hg.1 _ hS with hS | hS
  · exact h S hS
  · exact hS

theorem same_call {q : CenterReq} {r : q.Resp} (h : Calls request now q a r b)
    (hq : isEnqueue q = false) (hc : isConfirming q = false) : Same a b := by
  obtain ⟨-, -, ⟨o, -, ho, -⟩, hb⟩ := h
  refine ⟨?_, by rw [hb, hc, Bool.or_false]⟩
  have hw := congrArg Prod.snd ho
  rw [← show _ = b.1 from hw]
  exact offered_of_not_isEnqueue hq _ o a.1

theorem guar_call {q : CenterReq} {r : q.Resp} (h : Calls request now q a r b)
    (hq : isEnqueue q = false) : Guar request q a b := by
  obtain ⟨-, -, ⟨o, -, ho, -⟩, -⟩ := h
  refine ⟨fun x hx => .inl ?_, fun S message n X heq => ?_⟩
  · have hw := congrArg Prod.snd ho
    rw [← show _ = b.1 from hw, offered_of_not_isEnqueue hq] at hx
    exact hx
  · rw [heq] at hq
    cases hq

theorem mem_offerOf {S : InstanceId} {message : EnvelopeMessage}
    {n : Instant} {r : Except OutboxRepositoryError OutboxEntry}
    {x : OperationId × InstanceId}
    (h : x ∈ offerOf (.outbox (.enqueue S message n)) r) :
    payloadOperationId (some ⟨0, 0, some message⟩) = some x.1 ∧ x.2 = S := by
  cases r with
  | error e => cases h
  | ok entry =>
      obtain ⟨Y, hY, rfl⟩ := List.mem_map.mp h
      exact ⟨Option.mem_toList.mp hY, rfl⟩

/-- Queueing an offer of a free operation for the request's site. -/
theorem guar_enqueue {message : EnvelopeMessage} {n : Instant}
    {r : Except OutboxRepositoryError OutboxEntry}
    (hX : payloadOperationId (some ⟨0, 0, some message⟩) = some X)
    (hfree : Free request.siteId X a)
    (h : Calls request now
      (.outbox (.enqueue request.siteId message n)) a r b) :
    Guar request (.outbox (.enqueue request.siteId message n)) a b ∧
      Onward request a b := by
  obtain ⟨-, -, ⟨o, -, ho, -⟩, hphase⟩ := h
  have hguar : Guar request (.outbox (.enqueue request.siteId message n))
      a b := by
    refine ⟨fun x hx => ?_, fun S message' m Y heq hY => ?_⟩
    · have hw := congrArg Prod.snd ho
      rw [← show _ = b.1 from hw] at hx
      rcases List.mem_append.mp hx with hx | hx
      · exact .inl hx
      · exact .inr (mem_offerOf hx).2
    · cases heq
      cases hX.symm.trans hY
      exact ⟨rfl, hfree⟩
  refine ⟨hguar, ?_, fun Y hY => hY.guar hguar⟩
  rw [hphase]
  exact Bool.or_false _

theorem enqueueOffer_routed {expiresAt n : Instant}
    (hfree : Free request.siteId X v) :
    Routed request now (enqueueOffer request X expiresAt n)
      (fun _ v' => Onward request v v') v := by
  intro v₁ h₁ r v₂ h₂
  obtain ⟨hguar, honward⟩ := guar_enqueue rfl (hfree.same h₁) h₂
  exact ⟨hguar, by cases r <;> exact h₁.onward.trans honward⟩

/-! A part of a dispatch that queues nothing. -/

/-- Calls that queue nothing and stay in the phase. -/
theorem mild {q : CenterReq} {r : q.Resp} {α : Type} {k : Prog center α}
    {Q : α → View → Prop} (h : Calls request now q a r b)
    (hq : isEnqueue q = false) (hc : isConfirming q = false)
    (hk : Same a b → Routed request now k Q b) :
    Guar request q a b ∧ Routed request now k Q b :=
  ⟨guar_call h hq, hk (same_call h hq hc)⟩

theorem acknowledgeAll_mild {n : Instant} (entryIds : List OutboxEntryId) :
    Routed request now (acknowledgeAll n entryIds)
      (fun _ v' => Same v v') v := by
  induction entryIds generalizing v with
  | nil => exact ⟨rfl, rfl⟩
  | cons entryId entryIds ih =>
      intro v₁ h₁ r v₂ h₂
      refine mild h₂ rfl rfl fun h₃ => ?_
      have hsame := h₁.trans h₃
      cases r with
      | error e => exact hsame
      | ok u => exact ih.imp fun _ v' h' => hsame.trans h'

/-- The pending offers of the site are of operations no other site was
offered. -/
theorem pendingFacts_free :
    Routed request now (pendingFacts request.siteId)
      (fun r v' => Same v v' ∧ ∀ facts, r = .ok facts →
        ∀ fact ∈ facts, Free request.siteId fact.operationId v') v := by
  intro v₁ h₁ r v₂ h₂
  refine mild h₂ rfl rfl fun h₃ => ?_
  have hsame := h₁.trans h₃
  cases r with
  | error e => exact ⟨hsame, fun facts h => (by cases h)⟩
  | ok entries =>
      refine ⟨hsame, fun facts h fact hfact => ?_⟩
      cases h
      obtain ⟨entry, hentry, hfacts⟩ := List.mem_filterMap.mp hfact
      obtain ⟨hbooks, hsingle, ⟨o, -, ho, -⟩, -⟩ := h₂
      have hlist := listPending_ok (congrArg Prod.fst ho)
      obtain ⟨row, hrow, rfl, hsite⟩ := mem_of_listPendingOutbox hlist hentry
      have hlisted := hbooks.listed row hrow fact.operationId
        ((hbooks.column row hrow).trans (offerFacts_operationId hfacts))
      rw [hsite] at hlisted
      have hfree : Free request.siteId fact.operationId v₁ :=
        fun S hS => hsingle _ _ _ hS hlisted
      exact hfree.same h₃

theorem settleDuplicateOffers_mild {n : Instant} :
    Routed request now (settleDuplicateOffers request X n)
      (fun _ v' => Same v v') v := by
  refine Safe.bindE.mpr (pendingFacts_free.imp ?_)
  rintro r v₁ ⟨hsame, -⟩
  cases r with
  | error e => exact hsame
  | ok facts =>
      exact (acknowledgeAll_mild _).imp fun _ v' h' => hsame.trans h'

theorem deliverRetry_routed {n : Instant}
    (hfree : Free request.siteId X v) :
    Routed request now (deliverRetry request X n)
      (fun _ v' => Onward request v v') v := by
  refine Safe.bindE.mpr ((enqueueOffer_routed hfree).imp ?_)
  intro r v₁ h₁
  cases r with
  | error e => exact h₁
  | ok entry =>
      refine Safe.bindE.mpr (settleDuplicateOffers_mild.imp ?_)
      intro r v₂ h₂
      cases r <;> exact h₁.trans h₂.onward

/-- The verdict on a known offer queues one only if it has expired. -/
theorem judgeOffer_routed {newest : OfferFact} {stale : List OutboxEntryId}
    (hfree : canonicalTargetKey newest.target =
      canonicalTargetKey request.targetODataId → newest.expiresAt < now →
      Free request.siteId X v) :
    Routed request now (judgeOffer request X newest stale now)
      (fun r v' => r ≠ .ok .neverEnqueued ∧ Onward request v v') v := by
  have hrefl : Onward request v v := ⟨rfl, fun _ h => h⟩
  unfold judgeOffer
  split
  · exact ⟨fun h => (by cases h), hrefl⟩
  · next hkey =>
      split
      · next hexpired =>
          have hfree := hfree (not_not.mp hkey) hexpired
          refine Safe.bindE.mpr ((acknowledgeAll_mild stale).imp ?_)
          intro r v₁ hsame
          cases r with
          | error e => exact ⟨fun h => (by cases h), hsame.onward⟩
          | ok u =>
              refine Safe.bindE.mpr ((deliverRetry_routed
                (hfree.same hsame)).imp ?_)
              intro r v₂ h₂
              have honward := hsame.onward.trans h₂
              cases r <;> exact ⟨fun h => (by cases h), honward⟩
      · exact ⟨fun h => (by cases h), hrefl⟩

/-- What a lookup over all queues tells: the operation was offered nowhere, or
the offer it found is the site's own once it has expired. -/
theorem findAcross_free {found : Option OutboxEntry}
    (hphase : a.2 = false)
    (h : Calls request now
      (.outbox (.findOfferByOperationAcrossInstances X)) a (.ok found) b) :
    (found.bind offerFacts = none → Free request.siteId X a) ∧
      ∀ fact, found.bind offerFacts = some fact →
        canonicalTargetKey fact.target =
          canonicalTargetKey request.targetODataId →
        fact.expiresAt < now → Free request.siteId X a := by
  obtain ⟨hbooks, hsingle, ⟨o, -, ho, hmisroute⟩, -⟩ := h
  obtain ⟨hfault, t', hfind⟩ := findAcross_ok (congrArg Prod.fst ho)
  have hmisroute := hmisroute hfault
  obtain ⟨hnever, hknown⟩ := hbooks.findAcross hfind
  refine ⟨fun hnone S hS => absurd hS (hnever hnone S), ?_⟩
  intro fact hfact hkey hexpired S hS
  obtain ⟨row, hrow, rfl, hfacts, hX, -⟩ := hknown fact hfact
  have hown : row.entry.instanceId = request.siteId := by
    by_contra hne
    simp only [misroute, hphase, hfind, isExpiredElsewhere, Bool.not_false,
      Bool.true_and] at hmisroute
    simp [hne, hfacts, hkey, hexpired] at hmisroute
  have hlisted := hbooks.listed row hrow X hX
  rw [hown] at hlisted
  exact hsingle X S request.siteId hS hlisted

/-- The facts in hand are of operations no other site was offered. -/
def Known (request : CenterOperationRequest) (facts : List OfferFact)
    (v : View) : Prop :=
  v.2 = false ∧ ∀ fact ∈ facts, Free request.siteId fact.operationId v

theorem Known.onward {facts : List OfferFact} (h : Known request facts a)
    (hab : Onward request a b) : Known request facts b :=
  ⟨hab.1.trans h.1, fun fact hfact => hab.2 _ (h.2 fact hfact)⟩

theorem resolveCandidate_routed {facts : List OfferFact}
    (hknown : Known request facts v) :
    Routed request now (resolveCandidate request X facts now)
      (fun r v' => Known request facts v' ∧
        (r = .ok .neverEnqueued → Free request.siteId X v')) v := by
  unfold resolveCandidate
  dsimp only
  split
  · next newest hnewest =>
      refine (judgeOffer_routed fun _ _ => ?_).imp ?_
      · obtain ⟨hmem, hX⟩ := List.mem_filter.mp (mem_of_newestFact hnewest)
        simp only [decide_eq_true_eq] at hX
        exact hX ▸ hknown.2 newest hmem
      · rintro r v₁ ⟨hne, honward⟩
        exact ⟨hknown.onward honward, fun h => absurd h hne⟩
  · intro v₁ h₁ r v₂ h₂
    refine mild h₂ rfl rfl fun h₃ => ?_
    have hknown₂ := hknown.onward (h₁.trans h₃).onward
    cases r with
    | error e => exact ⟨hknown₂, fun h => (by cases h)⟩
    | ok found =>
        obtain ⟨hnever, hexpired⟩ := findAcross_free
          (h₁.2.trans hknown.1) h₂
        dsimp only [Prog.bind, Except.mapError, ExceptT.bindCont]
        cases hfacts : found.bind offerFacts with
        | none => exact ⟨hknown₂, fun _ => (hnever hfacts).same h₃⟩
        | some directed =>
            refine (judgeOffer_routed fun hkey hlate =>
              (hexpired directed hfacts hkey hlate).same h₃).imp ?_
            rintro r v₄ ⟨hne, honward⟩
            exact ⟨hknown₂.onward honward, fun h => absurd h hne⟩

theorem resolveFirst_routed {facts : List OfferFact}
    (candidates : List OperationId) (hknown : Known request facts v) :
    Routed request now (resolveFirst request facts now candidates)
      (fun _ _ => True) v := by
  induction candidates generalizing v with
  | nil => trivial
  | cons candidate candidates ih =>
      refine Safe.bindE.mpr ((resolveCandidate_routed hknown).imp ?_)
      rintro r v₁ ⟨hknown₁, -⟩
      cases r with
      | error e => trivial
      | ok verdict =>
          cases verdict with
          | resolved dispatched =>
              refine Safe.bindE.mpr (settleDuplicateOffers_mild.imp ?_)
              intro r v₂ _
              cases r <;> trivial
          | neverEnqueued => exact ih hknown₁
          | differentTarget => exact ih hknown₁

theorem resolveSingle_routed {facts : List OfferFact}
    (hknown : Known request facts v) :
    Routed request now (resolveSingle request X facts now)
      (fun _ _ => True) v := by
  refine Safe.bindE.mpr ((resolveCandidate_routed hknown).imp ?_)
  rintro r v₁ ⟨-, hnever⟩
  cases r with
  | error e => trivial
  | ok verdict =>
      cases verdict with
      | resolved dispatched =>
          refine Safe.bindE.mpr (settleDuplicateOffers_mild.imp ?_)
          intro r v₂ _
          cases r <;> trivial
      | neverEnqueued =>
          refine Safe.bindE.mpr ((deliverRetry_routed (hnever rfl)).imp ?_)
          intro r v₂ _
          cases r <;> trivial
      | differentTarget => trivial

theorem listForEndpoint_mild {endpointId : EndpointId}
    (states : List OperationState) (hstates : .unknown ∉ states) :
    Routed request now (listForEndpoint endpointId states)
      (fun _ v' => Same v v') v := by
  induction states generalizing v with
  | nil => exact ⟨rfl, rfl⟩
  | cons state states ih =>
      rw [List.mem_cons, not_or] at hstates
      have hconfirming : isConfirming
          (.listOperationsForEndpoint (some state) endpointId) = false := by
        cases state <;> first | rfl | exact absurd rfl hstates.1
      intro v₁ h₁ r v₂ h₂
      refine mild h₂ rfl hconfirming fun h₃ => ?_
      have hsame := h₁.trans h₃
      cases r with
      | error e => exact hsame
      | ok found =>
          refine Safe.bindE.mpr ((ih hstates.2).imp ?_)
          intro r v₃ h₃
          cases r <;> exact hsame.trans h₃

theorem findUndecided_routed (hphase : v.2 = false) :
    Routed request now (findUndecided request now) (fun _ _ => True) v := by
  refine Safe.bindE.mpr ((listForEndpoint_mild _ (by decide)).imp ?_)
  intro r v₁ h₁
  cases r with
  | error e => trivial
  | ok operations =>
      dsimp only
      split
      · trivial
      · refine Safe.bindE.mpr (pendingFacts_free.imp ?_)
        rintro r v₂ ⟨h₂, hfree⟩
        cases r with
        | error e => trivial
        | ok facts =>
            have hknown : Known request facts v₂ :=
              ⟨(h₁.trans h₂).2.trans hphase, hfree facts rfl⟩
            show Routed request now (resolveCandidates request _ facts now) _ v₂
            unfold resolveCandidates
            split
            · split
              · exact resolveSingle_routed hknown
              · exact resolveFirst_routed _ hknown
            · exact resolveFirst_routed _ hknown

theorem confirmUnknown_routed (candidates : List OperationId) :
    Routed request now (confirmUnknown request candidates)
      (fun _ _ => True) v := by
  induction candidates generalizing v with
  | nil => trivial
  | cons candidate candidates ih =>
      intro v₁ h₁ r v₂ h₂
      refine ⟨guar_call h₂ rfl, ?_⟩
      cases r with
      | error e => trivial
      | ok found =>
          show Routed request now (if _ then _ else _) _ v₂
          split
          · trivial
          · exact ih

theorem findUnknownOutcome_routed :
    Routed request now (findUnknownOutcome request) (fun _ _ => True) v := by
  intro v₁ h₁ r v₂ h₂
  refine ⟨guar_call h₂ rfl, ?_⟩
  cases r with
  | error e => trivial
  | ok unknown => exact confirmUnknown_routed _

theorem createAndOffer_routed :
    Routed request now (createAndOffer request now) (fun _ _ => True) v := by
  intro v₁ h₁ X v₂ h₂
  refine ⟨guar_call h₂ rfl, ?_⟩
  -- a fresh identity was offered to nobody
  have hfree : Free request.siteId X v₂ := by
    have hsame := same_call h₂ rfl rfl
    obtain ⟨-, -, ⟨o, hfresh, ho, -⟩, -⟩ := h₂
    cases congrArg Prod.fst ho
    intro S hS
    rw [hsame.1] at hS
    simp only [allowed, World.isFresh, Bool.and_eq_true, Bool.not_eq_true',
      List.any_eq_false, decide_eq_true_eq] at hfresh
    exact absurd rfl (hfresh.1.2 _ hS)
  intro v₃ h₃ targetId v₄ h₄
  refine mild h₄ rfl rfl fun h₅ => ?_
  intro v₅ h₆ r v₆ h₇
  refine mild h₇ rfl rfl fun h₈ => ?_
  cases r with
  | error e => trivial
  | ok u =>
      refine Safe.bindE.mpr ((enqueueOffer_routed ?_).imp ?_)
      · exact (((hfree.same h₃).same h₅).same h₆).same h₈
      · intro r v₇ _
        cases r <;> trivial

theorem dispatchRouted_routed (hphase : v.2 = false) :
    Routed request now (dispatchRouted request now) (fun _ _ => True) v := by
  refine Safe.bindE.mpr ((findUndecided_routed hphase).imp ?_)
  intro r v₁ _
  cases r with
  | error e => trivial
  | ok existing =>
      cases existing with
      | some existing => trivial
      | none =>
          refine Safe.bindE.mpr (findUnknownOutcome_routed.imp ?_)
          intro r v₂ _
          cases r with
          | error e => trivial
          | ok found =>
              cases found with
              | some operationId => trivial
              | none => exact createAndOffer_routed

/-- The contract of the whole dispatch. -/
theorem dispatch_routed (hphase : v.2 = false) :
    Routed request now (dispatch request now) (fun _ _ => True) v := by
  intro v₁ h₁ r v₂ h₂
  refine mild h₂ rfl rfl fun h₃ => ?_
  have hphase₂ := (h₁.trans h₃).2.trans hphase
  cases r with
  | error e => trivial
  | ok assignment =>
      cases assignment with
      | none => trivial
      | some assignment =>
          show Routed request now (if _ then _ else _) _ v₂
          split
          · trivial
          · intro v₃ h₄ r v₄ h₅
            refine mild h₅ rfl rfl fun h₆ => ?_
            have hphase₄ := (h₄.trans h₆).2.trans hphase₂
            cases r with
            | error e => trivial
            | ok projection =>
                cases projection with
                | none => trivial
                | some endpoint =>
                    show Routed request now (if _ then _ else _) _ v₄
                    split
                    · trivial
                    · intro v₅ h₇ r v₆ h₈
                      refine mild h₈ rfl rfl fun h₉ => ?_
                      have hphase₆ := (h₇.trans h₉).2.trans hphase₄
                      cases r with
                      | error e => trivial
                      | ok known =>
                          show Routed request now (if _ then _ else _) _ v₆
                          split
                          · trivial
                          · exact dispatchRouted_routed hphase₆

end Program

/-! ## Runs -/

/-- One step in a run in which no dispatch finds a candidate's newest offer
expired in another site's queue. -/
def RoutedStep (s t : State) : Prop :=
  ∃ l, s.misroutes l = false ∧ next s l = some t

/-- The same step as a function. -/
def nextRouted (s : State) (l : Label) : Option State :=
  if s.misroutes l then none else next s l

theorem routedStep_of_nextRouted {s t : State} (h : Next nextRouted s t) :
    RoutedStep s t := by
  obtain ⟨l, h⟩ := h
  unfold nextRouted at h
  split at h
  · cases h
  · next hl => exact ⟨l, by simpa using hl, h⟩

theorem reach_of_routed {s : State} (h : Reach (· = init) RoutedStep s) :
    Reach (· = init) (Next next) s :=
  h.mono (fun _ h => h) fun _ _ ⟨l, _, hl⟩ => ⟨l, hl⟩

/-- A call under the contract of a dispatch keeps every operation with one
site. -/
theorem Single.perform {request : CenterOperationRequest} {o : Oracle}
    {q : CenterReq} {w : World} {p : Bool} (h : Single w.offered)
    (hg : Guar request q (w, p) ((perform (some request) o q w).2, p)) :
    Single (perform (some request) o q w).2.offered := by
  cases hq : isEnqueue q with
  | false =>
      rw [offered_of_not_isEnqueue hq]
      exact h
  | true =>
      cases q with
      | outbox q =>
          cases q with
          | enqueue S message n =>
              -- a new offer is for the site, and no other site had one
              have hnew : ∀ X T, (X, T) ∈ offerOf
                  (.outbox (.enqueue S message n))
                  (answer o (.outbox (.enqueue S message n)) w).1 →
                  T = request.siteId ∧ Free request.siteId X (w, p) := by
                intro X T hX
                obtain ⟨hpayload, rfl⟩ := mem_offerOf hX
                exact hg.2 _ message n X rfl hpayload
              intro X T T' hT hT'
              rcases List.mem_append.mp hT with hT | hT <;>
                rcases List.mem_append.mp hT' with hT' | hT'
              · exact h X T T' hT hT'
              · obtain ⟨rfl, hfree⟩ := hnew X T' hT'
                exact hfree T hT
              · obtain ⟨rfl, hfree⟩ := hnew X T hT
                exact (hfree T' hT').symm
              · rw [(hnew X T hT).1, (hnew X T' hT').1]
          | _ => cases hq
      | _ => cases hq

/-- What holds in every state of such a run. -/
structure RoutedInv (s : State) : Prop where
  single : Single s.world.offered
  dispatch : ∀ task, s.dispatch = some task → Routed task.request task.now
    task.rest (fun _ _ => True) (s.world, task.confirming)

theorem misroute_of_misroutes {s : State} {o : Oracle}
    {request : CenterOperationRequest} {now : Instant}
    {undecided : List OperationId} {confirming : Bool} {q : CenterReq}
    {k : q.Resp → Prog center (Except CenterDispatchError DispatchedOperation)}
    (hs : s.dispatch = some ⟨request, now, undecided, confirming, .call q k⟩)
    (h : s.misroutes (.dispatchCall o) = false) (hfault : o.fault = none) :
    misroute request now (s.world, confirming) q = false := by
  cases q with
  | outbox q =>
      cases q with
      | findOfferByOperationAcrossInstances X =>
          cases confirming with
          | true => rfl
          | false =>
              simp only [State.misroutes, hs, hfault, decide_true,
                Bool.true_and] at h
              exact h
      | _ => rfl
  | _ => rfl

theorem RoutedInv.of_step {s t : State} (h : RoutedInv s)
    (hr : ReplyProvenance.SysInv s) (hst : RoutedStep s t) : RoutedInv t := by
  obtain ⟨l, hl, hnext⟩ := hst
  -- the moves of others leave the list of offers alone
  have hstable : ∀ {w : World}, w.offered = s.world.offered →
      ∀ task, s.dispatch = some task → Routed task.request task.now task.rest
        (fun _ _ => True) (w, task.confirming) := by
    intro w hw task htask
    exact (h.dispatch task htask).stable Same.trans (fun _ _ => trivial)
      ⟨hw, rfl⟩
  cases l with
  | dispatch request now =>
      simp only [next] at hnext
      split at hnext
      · cases hnext
        refine ⟨h.single, fun task htask => ?_⟩
        cases htask
        exact dispatch_routed rfl
      · cases hnext
  | dispatchCall o =>
      simp only [next] at hnext
      split at hnext
      · next request now undecided confirming q k hs =>
          split at hnext
          · next hallowed =>
              cases hnext
              obtain ⟨hguar, hrest⟩ := h.dispatch _ hs (s.world, confirming)
                ⟨rfl, rfl⟩ (perform (some request) o q s.world).1
                ((perform (some request) o q s.world).2,
                  confirming || isConfirming q)
                ⟨hr.books, h.single, ⟨o, hallowed, rfl,
                  misroute_of_misroutes hs hl⟩, rfl⟩
              refine ⟨h.single.perform (p := confirming) ⟨hguar.1, hguar.2⟩,
                fun task htask => ?_⟩
              cases htask
              exact hrest
          · cases hnext
      · cases hnext
  | dispatchDone =>
      simp only [next] at hnext
      split at hnext
      · cases hnext
        exact ⟨h.single, fun task htask => (by cases htask)⟩
      · cases hnext
  | reply site envelope now =>
      cases hnext
      exact ⟨h.single, h.dispatch⟩
  | replyCall i o =>
      simp only [next] at hnext
      split at hnext
      · next site envelope now projected q k hi =>
          cases hnext
          obtain ⟨⟨-, hq, -⟩, -⟩ := hr.replies _ (List.mem_of_getElem? hi)
            (s.world, projected) ⟨fun _ hx => hx, id⟩ _
            ((perform none o q s.world).2, _) ⟨hr.books, ⟨o, rfl⟩, rfl⟩
          have hoffered := offered_of_not_isEnqueue hq none o s.world
          refine ⟨?_, hstable hoffered⟩
          show Single (perform none o q s.world).2.offered
          rw [hoffered]
          exact h.single
      · cases hnext
  | acknowledge entryId ackedAt =>
      simp only [next] at hnext
      split at hnext
      · cases hnext
        exact ⟨h.single, hstable rfl⟩
      · cases hnext
  | crash =>
      cases hnext
      exact ⟨h.single, fun task htask => (by cases htask)⟩

theorem RoutedInv.of_reach {s : State} (h : Reach (· = init) RoutedStep s) :
    RoutedInv s := by
  induction h with
  | init h =>
      subst h
      exact ⟨fun X S S' hS => (by cases hS), fun task htask => (by cases htask)⟩
  | step hs ht ih =>
      exact ih.of_step (ReplyProvenance.SysInv.of_reach (reach_of_routed hs)) ht

/-- Nothing fails, and the endpoint belongs to the given site. -/
def homedAt (site : InstanceId) (entryId : OutboxEntryId) : Oracle :=
  ⟨none, entryId, .ok (some ⟨some site⟩), .ok true,
    .ok (some ⟨⟨3⟩, .administrator, none, 0, none⟩), ⟨1⟩, ⟨2⟩⟩

def resetAt (site : InstanceId) : CenterOperationRequest :=
  ⟨site, ⟨9⟩, "/redfish/v1/Systems/1", .system (.reset "On"), ⟨3⟩⟩

/-- One dispatch to site 5, whose offer the site acknowledges. -/
def acknowledgedOffer : List Label :=
  .dispatch (resetAt ⟨5⟩) 100 ::
    (List.replicate 13 (.dispatchCall (homedAt ⟨5⟩ ⟨11⟩)) ++
      [.dispatchDone, .acknowledge ⟨11⟩ 200])

/-- A second dispatch, some time later. -/
def retriedAt (site : InstanceId) (now : Instant) (calls : Nat) : List Label :=
  .dispatch (resetAt site) now ::
    List.replicate calls (.dispatchCall (homedAt site ⟨12⟩))

end Rutilus.Proofs.OfferSite
