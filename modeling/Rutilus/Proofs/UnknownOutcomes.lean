import Rutilus.Proofs.GatedDispatch

/-!
# An unknown outcome blocks the next dispatch

The contracts of the dispatches fit together as long as no two of them have
found one endpoint at their sites. The gates keep dispatches to one site apart;
an endpoint comes to another site only after its owner's binding was revoked or
after its owner deleted it. A revocation waits for the gate, so it cannot take
the endpoint away under a dispatch. A deletion can, and then an operation may
be offered for two targets, and the newest offer hides the other one.
-/

namespace Rutilus.Proofs.UnknownOutcomes

open Rutilus.Domain Rutilus.Lib Rutilus.Store Rutilus.Engine
  Rutilus.App.CenterBoundary Rutilus.App.CenterSync
  Rutilus.App.CenterDispatch Rutilus.App.DispatchGates
  Rutilus.Proofs.CenterBooks Rutilus.Proofs.OfferAims
  Rutilus.Proofs.OutboxRows Rutilus.Proofs.GatedDispatch
open Rutilus.App.CenterSystem hiding DispatchTask State Label init next
  beginDispatch

/-! ## What a dispatch does to the others -/

section Others

variable {request : CenterOperationRequest} {now : Instant} {blocked : Bool}
  {a : View} {o : Oracle} {w' : World}

/-- A call that a dispatch answers for: the operations on other endpoints get
no aim, and no identity but the one it generated comes on record. -/
theorem perform_of_duty (h : AimInv a.world) {q : CenterReq} {r : q.Resp}
    (hd : Duty request now blocked a q)
    (hcall : perform (some request) o q a.world = (r, w')) :
    AimInv w' ∧ Moves a.world w' ∧
      (∀ e, (a.routed = true → e ≠ request.endpointId) →
        Leaves e a.world w') ∧
      ∀ X, a.issued ≠ some X → a.world.operations.find X = none →
        w'.operations.find X = none := by
  have hbooks := h.books.of_perform (some request) o q
  rw [hcall] at hbooks
  have hquiet : isEnqueue q = false → isCreate q = false → AimInv w' ∧
      Moves a.world w' ∧ (∀ e, (a.routed = true → e ≠ request.endpointId) →
        Leaves e a.world w') ∧
      ∀ X, a.issued ≠ some X → a.world.operations.find X = none →
        w'.operations.find X = none := by
    intro hqueue hcreate
    have hq := h.quiet_perform o (some request) hqueue hcreate
    rw [hcall] at hq
    exact ⟨h.quiet hq hbooks, hq.toMoves, fun e _ X key _ => hq.leaves X key,
      fun X _ => hq.absent X⟩
  cases q with
  | outbox q =>
      cases q with
      | enqueue S message n =>
          obtain ⟨hrouted, X, offer, rfl, hX, htarget, hon, hfree⟩ := hd
          rw [← htarget] at hfree
          have hinv := h.enqueue o (some request) n (S := S) hX hon hfree
          obtain ⟨hsame, haims, hnew⟩ := aimed_enqueue o (some request) n
            (w := a.world) (S := S) hX
          rw [hcall] at hinv hsame haims hnew
          refine ⟨hinv, ⟨fun Y row hrow => ⟨row, ?_, rfl, rfl, rfl, id⟩,
            haims⟩, fun e he Y key hY hkey => ?_, fun Y _ hY => ?_⟩
          · rw [hsame]
            exact hrow
          · rcases hnew Y key hkey with hkey | ⟨rfl, -⟩
            · exact hkey
            · exact absurd (hY.unique hon) (he hrouted)
          · rw [hsame]
            exact hY
      | _ => exact hquiet rfl rfl
  | operations q =>
      cases q with
      | createOperation operation =>
          obtain ⟨-, -, X, targetId, rfl, hissued, habsent⟩ := hd
          obtain ⟨hinv, hmoves, hfind, haimed⟩ := h.create habsent hcall
          refine ⟨hinv, hmoves, fun e _ Y key _ => haimed Y key,
            fun Y hY hnone => hfind Y ?_ hnone⟩
          rintro rfl
          exact hY hissued
      | _ => exact hquiet rfl rfl
  | _ => exact hquiet rfl rfl

end Others

/-! ## Runs -/

/-- What a dispatch under way sees. -/
def viewOf (w : World) (task : DispatchTask) : View :=
  ⟨w, task.issued, task.routed, task.denied⟩

/-- Two dispatches under way. -/
structure Apart (a b : DispatchTask) : Prop where
  issued : ∀ X, a.issued = some X → b.issued ≠ some X
  routed : a.routed = true → b.routed = true →
    a.request.endpointId ≠ b.request.endpointId

/-- What holds in every state: there is one dispatch for each site, each has a
binding in force and an endpoint that is nobody else's, and every program under
way is on its contract. -/
structure GateInv (s : State) : Prop where
  aims : AimInv s.world
  gates : (s.dispatches.map fun task => task.request.siteId).Nodup
  bound : ∀ task ∈ s.dispatches,
    s.bindings task.request.siteId = some .bound
  placed : ∀ task ∈ s.dispatches, task.routed = true → ∀ site,
    s.owners task.request.endpointId = some site → site = task.request.siteId
  apart : ∀ a ∈ s.dispatches, ∀ b ∈ s.dispatches,
    a.request.siteId ≠ b.request.siteId → Apart a b
  dispatches : ∀ task ∈ s.dispatches, Gated task.request task.now task.blocked
    task.rest (Done task.request) (viewOf s.world task)
  replies : ∀ task ∈ s.replies, ReplyProvenance.Provenance task.site
    task.envelope task.rest (fun _ _ => True) (s.world, task.projected)

section Steps

variable {s t : State}

/-- A dispatch stands still while others move. -/
theorem gated_of_rely {task : DispatchTask} {w w' : World}
    (h : Gated task.request task.now task.blocked task.rest
      (Done task.request) (viewOf w task))
    (hmoves : Moves w w')
    (hleaves : task.routed = true → Leaves task.request.endpointId w w')
    (habsent : ∀ X, task.issued = some X → w.operations.find X = none →
      w'.operations.find X = none) :
    Gated task.request task.now task.blocked task.rest (Done task.request)
      (viewOf w' task) := by
  have hrely : Rely task.request.endpointId (viewOf w task)
      (viewOf w' task) :=
    ⟨⟨hmoves, hleaves, id, fun X hX => ⟨hX, habsent X hX⟩⟩, rfl, rfl⟩
  exact h.stable Rely.trans (fun r hr => hr.moves hrely) hrely

/-- A quiet move of the world. -/
theorem GateInv.quiet (h : GateInv s) {w' : World} (hq : Quiet s.world w')
    (hbooks : Books w'.outbox w'.offered)
    (hoffered : ∀ x ∈ s.world.offered, x ∈ w'.offered) :
    GateInv { s with world := w' } :=
  { aims := h.aims.quiet hq hbooks
    gates := h.gates
    bound := h.bound
    placed := h.placed
    apart := h.apart
    dispatches := fun task htask => gated_of_rely (h.dispatches task htask)
      hq.toMoves (fun _ X key _ => hq.leaves X key) fun X _ => hq.absent X
    replies := ReplyProvenance.stable_replies h.replies hoffered }

/-- A new dispatch. -/
theorem GateInv.begin (h : GateInv s) {request : CenterOperationRequest}
    {now : Instant} (hbound : s.bindings request.siteId = some .bound)
    (hgate : s.gateHeld request.siteId = false) :
    GateInv { s with
      dispatches := s.dispatches ++ [beginDispatch s.world request now] } := by
  have hother : ∀ task ∈ s.dispatches,
      task.request.siteId ≠ request.siteId := by
    intro task htask hsite
    simp only [State.gateHeld, List.any_eq_false] at hgate
    exact hgate task htask (by simpa using hsite)
  have hmem : ∀ task, task ∈ s.dispatches ++
      [beginDispatch s.world request now] ↔ task ∈ s.dispatches ∨
        task = beginDispatch s.world request now := by
    intro task
    rw [List.mem_append, List.mem_singleton]
  refine ⟨h.aims, ?_, fun task htask => ?_, fun task htask hrouted => ?_,
    fun a ha b hb hsites => ?_, fun task htask => ?_, h.replies⟩
  · rw [List.map_append, List.nodup_append]
    refine ⟨h.gates, List.nodup_singleton _, ?_⟩
    intro site hsite site' hsite' heq
    obtain ⟨task, htask, rfl⟩ := List.mem_map.mp hsite
    exact hother task htask (heq.trans (List.mem_singleton.mp hsite'))
  · rcases (hmem task).mp htask with htask | rfl
    · exact h.bound task htask
    · exact hbound
  · rcases (hmem task).mp htask with htask | rfl
    · exact h.placed task htask hrouted
    · cases hrouted
  · rcases (hmem a).mp ha with ha | rfl
    · rcases (hmem b).mp hb with hb | rfl
      · exact h.apart a ha b hb hsites
      · exact ⟨fun X _ hX => (by cases hX), fun _ hr => (by cases hr)⟩
    · exact ⟨fun X hX => (by cases hX), fun hr => (by cases hr)⟩
  · rcases (hmem task).mp htask with htask | rfl
    · exact h.dispatches task htask
    · refine dispatch_gated fun hblocked => ?_
      have hne : unknownUnder s.world request ≠ [] := by
        simpa [beginDispatch] using hblocked
      obtain ⟨X, hX⟩ := List.exists_mem_of_ne_nil _ hne
      exact ⟨X, (mem_unknownUnder h.aims).mp hX⟩

section Answers

variable {request : CenterOperationRequest} {now : Instant} {blocked : Bool}
  {v : View} {made : Option CenterOperationRequest} {o : Oracle}
  {q : CenterReq} {r : q.Resp} {w' : World} {X : OperationId}

/-- An endpoint that is found at the site is the site's. -/
theorem owner_of_names (hd : Duty request now blocked v q)
    (hallowed : s.allowed o q = true)
    (hcall : perform made o q s.world = (r, w'))
    (hnames : names request.siteId q r = true) :
    s.owners request.endpointId = some request.siteId := by
  cases q with
  | findEndpointProjection endpointId =>
      cases hd
      have hr : o.projection = r := congrArg Prod.fst hcall
      subst hr
      simp only [State.allowed] at hallowed
      cases hprojection : o.projection with
      | error e =>
          rw [hprojection] at hnames
          cases hnames
      | ok endpoint =>
          rw [hprojection] at hallowed hnames
          cases howner : s.owners request.endpointId with
          | none =>
              rw [howner] at hallowed
              obtain rfl : endpoint = none := by simpa using hallowed
              cases hnames
          | some owner =>
              rw [howner] at hallowed
              obtain rfl : endpoint = some ⟨some owner⟩ := by
                simpa using hallowed
              simpa [names] using hnames
  | _ => cases hnames

/-- A generated identity is nobody else's. -/
theorem not_issued (hallowed : s.allowed o q = true)
    (hcall : perform made o q s.world = (r, w'))
    (hX : issues q r = some X) :
    ∀ task ∈ s.dispatches, task.issued ≠ some X := by
  cases q with
  | generateOperationId =>
      obtain rfl : r = X := Option.some.inj hX
      obtain rfl : o.operationId = r := congrArg Prod.fst hcall
      simp only [State.allowed, Bool.and_eq_true, Bool.not_eq_true',
        List.any_eq_false] at hallowed
      intro task htask hissued
      exact hallowed.2 task htask (by simpa using hissued)
  | _ => cases hX

theorem absent_of_issues (hallowed : s.allowed o q = true)
    (hcall : perform made o q s.world = (r, w'))
    (hX : issues q r = some X) : s.world.operations.find X = none := by
  cases q with
  | generateOperationId =>
      obtain rfl : r = X := Option.some.inj hX
      obtain rfl : o.operationId = r := congrArg Prod.fst hcall
      simp only [State.allowed, World.isFresh, Table.has, Bool.and_eq_true,
        Bool.not_eq_true', Option.isSome_eq_false_iff,
        Option.isNone_iff_eq_none] at hallowed
      exact hallowed.1.1.1
  | _ => cases hX

end Answers

/-- A call of a dispatch. -/
theorem GateInv.call (h : GateInv s) {i : Nat}
    {request : CenterOperationRequest} {now : Instant} {blocked : Bool}
    {issued : Option OperationId} {routed denied : Bool} {q : CenterReq}
    {k : q.Resp → Prog center (Except CenterDispatchError DispatchedOperation)}
    {o : Oracle} (hi : s.dispatches[i]? = some
      ⟨request, now, blocked, issued, routed, denied, .call q k⟩)
    (hallowed : s.allowed o q = true) {r : q.Resp} {w' : World}
    (hcall : perform (some request) o q s.world = (r, w')) :
    GateInv { s with
      world := w'
      dispatches := s.dispatches.set i ⟨request, now, blocked,
        (issues q r).or issued, routed || names request.siteId q r,
        denied || denies request q r, k r⟩ } := by
  have htask := List.mem_of_getElem? hi
  have hissued : ∀ X, issues q r = some X →
      s.world.operations.find X = none :=
    fun X => absent_of_issues hallowed hcall
  obtain ⟨hduty, hrest⟩ := h.dispatches _ htask (viewOf s.world
      ⟨request, now, blocked, issued, routed, denied, .call q k⟩)
    ⟨.refl _, rfl, rfl⟩ r ⟨w', (issues q r).or issued,
      routed || names request.siteId q r, denied || denies request q r⟩
    ⟨h.aims, ⟨o, hcall⟩, hissued, rfl, rfl, rfl⟩
  obtain ⟨hinv, hmoves, hleaves, habsent⟩ :=
    perform_of_duty h.aims hduty hcall
  have hmem := fun task => mem_set_of_nodup (x := task)
    (b := (⟨request, now, blocked, (issues q r).or issued,
      routed || names request.siteId q r, denied || denies request q r,
      k r⟩ : DispatchTask)) h.gates hi
  -- the endpoint is at the site the dispatch has found it at
  have hplaced : (routed || names request.siteId q r) = true → ∀ site,
      s.owners request.endpointId = some site →
        site = request.siteId := by
    intro hrouted site hsite
    cases hr : routed with
    | true => exact h.placed _ htask hr site hsite
    | false =>
        rw [hr, Bool.false_or] at hrouted
        exact Option.some.inj (hsite.symm.trans
          (owner_of_names hduty hallowed hcall hrouted))
  -- nobody else has the identity or the endpoint
  have hapart : ∀ task ∈ s.dispatches,
      task.request.siteId ≠ request.siteId →
      Apart ⟨request, now, blocked, (issues q r).or issued,
        routed || names request.siteId q r, denied || denies request q r,
        k r⟩ task := by
    intro task hother hsite
    have hold := h.apart _ htask task hother (Ne.symm hsite)
    refine ⟨fun X hX => ?_, fun hrouted hrouted' hendpoint => ?_⟩
    · rcases Option.or_eq_some_iff.mp hX with hX | ⟨-, hX⟩
      · exact not_issued hallowed hcall hX task hother
      · exact hold.issued X hX
    · cases hr : routed with
      | true => exact hold.routed hr hrouted' hendpoint
      | false =>
          have hrouted : (routed || names request.siteId q r) = true :=
            hrouted
          rw [hr, Bool.false_or] at hrouted
          have hsite' := owner_of_names hduty hallowed hcall hrouted
          refine hsite (h.placed task hother hrouted' request.siteId ?_).symm
          rw [← hendpoint]
          exact hsite'
  refine ⟨hinv, ?_, fun task ht => ?_, fun task ht hrouted => ?_,
    fun a ha b hb hsites => ?_, fun task ht => ?_, ?_⟩
  · have hkeys : ((s.dispatches.set i ⟨request, now, blocked, (issues q r).or issued,
        routed || names request.siteId q r, denied || denies request q r,
        k r⟩).map fun task => task.request.siteId) =
        s.dispatches.map fun task => task.request.siteId := map_set_of_key hi rfl
    exact hkeys ▸ h.gates
  · have hbound := h.bound _ htask
    rcases (hmem task).mp ht with rfl | ⟨ht, -⟩
    · exact hbound
    · exact h.bound task ht
  · rcases (hmem task).mp ht with rfl | ⟨ht, -⟩
    · exact hplaced hrouted
    · exact h.placed task ht hrouted
  · rcases (hmem a).mp ha with rfl | ⟨ha, hsite⟩
    · rcases (hmem b).mp hb with rfl | ⟨hb, hsite⟩
      · exact absurd rfl hsites
      · exact hapart b hb hsite
    · rcases (hmem b).mp hb with rfl | ⟨hb, -⟩
      · obtain ⟨hissued, hrouted⟩ := hapart a ha hsite
        exact ⟨fun X hX hX' => hissued X hX' hX,
          fun hr hr' heq => hrouted hr' hr heq.symm⟩
      · exact h.apart a ha b hb hsites
  · rcases (hmem task).mp ht with rfl | ⟨ht, hsite⟩
    · exact hrest
    · have hold := h.apart task ht _ htask hsite
      refine gated_of_rely (h.dispatches task ht) hmoves
        (fun hr => hleaves _ fun hr' => hold.routed hr hr') fun X hX => ?_
      exact habsent X fun hX' => hold.issued X hX hX'
  · refine ReplyProvenance.stable_replies h.replies ?_
    have hoffered := ReplyProvenance.offered_perform (some request) o q
      (w := s.world)
    rwa [hcall] at hoffered

/-- Moves of the endpoints and of the bindings. -/
theorem GateInv.replaced (h : GateInv s)
    {owners : EndpointId → Option InstanceId}
    {bindings : InstanceId → Option CenterBindingState}
    (hplaced : ∀ task ∈ s.dispatches, task.routed = true → ∀ site,
      owners task.request.endpointId = some site → site = task.request.siteId)
    (hbound : ∀ task ∈ s.dispatches,
      bindings task.request.siteId = some .bound) :
    GateInv { s with owners, bindings } :=
  { aims := h.aims, gates := h.gates, bound := hbound, placed := hplaced
    apart := h.apart, dispatches := h.dispatches, replies := h.replies }

theorem GateInv.reported (h : GateInv s) {endpointId : EndpointId}
    {site : InstanceId} (hroot : s.uproots (.report endpointId site) = false)
    (ht : s.reported endpointId site = some t) : GateInv t := by
  have hclaimed : GateInv { s with
      owners := Function.update s.owners endpointId (some site) } := by
    refine h.replaced (fun task htask hrouted site' hsite => ?_) h.bound
    by_cases hendpoint : task.request.endpointId = endpointId
    · rw [hendpoint, Function.update_self] at hsite
      cases hsite
      simp only [State.uproots, List.any_eq_false] at hroot
      have := hroot task htask
      simp only [hrouted, hendpoint, decide_true, Bool.true_and,
        decide_eq_true_eq, ne_eq, not_not] at this
      exact this.symm
    · rw [Function.update_of_ne hendpoint] at hsite
      exact h.placed task htask hrouted site' hsite
  unfold State.reported at ht
  dsimp only at ht
  split at ht
  · cases ht
    exact hclaimed
  · split at ht
    · cases ht
      exact hclaimed
    · cases ht

theorem GateInv.deleted (h : GateInv s) {endpointId : EndpointId}
    {site : InstanceId} (ht : s.deleted endpointId site = some t) :
    GateInv t := by
  unfold State.deleted at ht
  split at ht
  · cases ht
  · split at ht
    · cases ht
      refine h.replaced (fun task htask hrouted site' hsite => ?_) h.bound
      by_cases hendpoint : task.request.endpointId = endpointId
      · rw [hendpoint, Function.update_self] at hsite
        cases hsite
      · rw [Function.update_of_ne hendpoint] at hsite
        exact h.placed task htask hrouted site' hsite
    · cases ht

/-- Only a site that deletes an endpoint makes room for another one under a
dispatch: a binding is not revoked while a dispatch to its site is under
way. -/
theorem GateInv.deleted_of_uproots (h : GateInv s) {endpointId : EndpointId}
    {site : InstanceId} (hroot : s.uproots (.report endpointId site) = true)
    (ht : s.reported endpointId site = some t) :
    s.owners endpointId = none := by
  simp only [State.uproots, List.any_eq_true, Bool.and_eq_true,
    decide_eq_true_eq] at hroot
  obtain ⟨task, htask, ⟨hrouted, rfl⟩, hsite⟩ := hroot
  cases howner : s.owners task.request.endpointId with
  | none => rfl
  | some owner =>
      obtain rfl := h.placed task htask hrouted owner howner
      unfold State.reported at ht
      simp only [howner, State.isRevoked, h.bound task htask] at ht
      rw [if_neg (by simpa using hsite)] at ht
      cases ht

end Steps

/-- One step of a run in which no endpoint comes to another site while a
dispatch that has found it at its site is under way. -/
def SteadyStep (s t : State) : Prop :=
  ∃ l, s.uproots l = false ∧ next s l = some t

/-- The same step as a function. -/
def nextSteady (s : State) (l : Label) : Option State :=
  if s.uproots l then none else next s l

theorem steadyStep_of_nextSteady {s t : State} (h : Next nextSteady s t) :
    SteadyStep s t := by
  obtain ⟨l, h⟩ := h
  unfold nextSteady at h
  split at h
  · cases h
  · next hl => exact ⟨l, by simpa using hl, h⟩

theorem GateInv.of_step {s t : State} (h : GateInv s) (hst : SteadyStep s t) :
    GateInv t := by
  obtain ⟨l, hroot, hnext⟩ := hst
  cases l with
  | dispatch request now =>
      simp only [next] at hnext
      split at hnext
      · next hcond =>
          cases hnext
          simp only [Bool.and_eq_true, decide_eq_true_eq,
            Bool.not_eq_true'] at hcond
          exact h.begin hcond.1 hcond.2
      · cases hnext
  | dispatchCall i o =>
      simp only [next] at hnext
      split at hnext
      · next hi =>
          split at hnext
          · next hallowed =>
              cases hnext
              exact h.call hi hallowed rfl
          · cases hnext
      · cases hnext
  | dispatchDone i =>
      simp only [next] at hnext
      split at hnext
      · cases hnext
        have hsub := List.eraseIdx_sublist s.dispatches i
        exact
          { aims := h.aims
            gates := (hsub.map _).nodup h.gates
            bound := fun task ht => h.bound task (hsub.subset ht)
            placed := fun task ht => h.placed task (hsub.subset ht)
            apart := fun a ha b hb =>
              h.apart a (hsub.subset ha) b (hsub.subset hb)
            dispatches := fun task ht => h.dispatches task (hsub.subset ht)
            replies := h.replies }
      · cases hnext
  | reply site envelope now =>
      cases hnext
      refine ⟨h.aims, h.gates, h.bound, h.placed, h.apart, h.dispatches, ?_⟩
      intro task ht
      rw [List.mem_append, List.mem_singleton] at ht
      rcases ht with ht | rfl
      · exact h.replies task ht
      · exact ReplyProvenance.onReply_guarded
  | replyCall i o =>
      simp only [next] at hnext
      split at hnext
      · next site envelope now projected q k hi =>
          split at hnext
          · cases hnext
            obtain ⟨⟨-, hqueue, hcreate, -⟩, hrest⟩ := h.replies _
              (List.mem_of_getElem? hi) (s.world, projected)
              ⟨fun _ hx => hx, id⟩ _ ((perform none o q s.world).2, _)
              ⟨h.aims.books, ⟨o, rfl⟩, rfl⟩
            have hquiet := h.quiet
              (h.aims.quiet_perform o none hqueue hcreate)
              (h.aims.books.of_perform none o q)
              (ReplyProvenance.offered_perform none o q)
            refine ⟨hquiet.aims, hquiet.gates, hquiet.bound, hquiet.placed,
              hquiet.apart, hquiet.dispatches, ?_⟩
            intro task ht
            rcases List.mem_or_eq_of_mem_set ht with ht | rfl
            · exact hquiet.replies task ht
            · exact hrest
          · cases hnext
      · cases hnext
  | acknowledge entryId ackedAt =>
      simp only [next] at hnext
      split at hnext
      · next outcome outbox hack =>
          cases hnext
          obtain ⟨row, -, -, hshrinks⟩ := shrinks_ackOutboxEntry hack
          exact h.quiet (h.aims.quiet_shrinks hshrinks)
            (h.aims.books.shrinks hshrinks) fun x hx => hx
      · cases hnext
  | report endpointId site => exact h.reported hroot hnext
  | delete endpointId site => exact h.deleted hnext
  | bind site =>
      simp only [next] at hnext
      split at hnext
      · cases hnext
      · cases hnext
        refine h.replaced h.placed fun task ht => ?_
        by_cases hsite : task.request.siteId = site
        · rw [hsite, Function.update_self]
        · rw [Function.update_of_ne hsite]
          exact h.bound task ht
  | revoke site =>
      simp only [next] at hnext
      split at hnext
      · cases hnext
      · next hgate =>
          cases hnext
          refine h.replaced h.placed fun task ht => ?_
          have hsite : task.request.siteId ≠ site := by
            intro hsite
            simp only [State.gateHeld, Bool.or_eq_true, List.any_eq_true,
              decide_eq_true_eq, not_or, not_exists, not_and] at hgate
            exact hgate.1 task ht hsite
          rw [Function.update_of_ne hsite]
          exact h.bound task ht
  | crash =>
      cases hnext
      exact ⟨h.aims, List.nodup_nil, fun _ ht => (by cases ht),
        fun _ ht => (by cases ht), fun _ ha => (by cases ha),
        fun _ ht => (by cases ht), fun _ ht => (by cases ht)⟩

theorem GateInv.of_reach {s : State} (h : Reach (· = init) SteadyStep s) :
    GateInv s := by
  refine Reach.inv (P := GateInv) ?_ (fun s t hs hst => hs.of_step hst) h
  rintro s rfl
  exact ⟨.empty, List.nodup_nil, fun _ ht => (by cases ht),
    fun _ ht => (by cases ht), fun _ ha => (by cases ha),
    fun _ ht => (by cases ht), fun _ ht => (by cases ht)⟩

/-- A dispatch that began while an operation of its key had ended unknown never
comes to create a record. It returns an operation that is on record, or it
refuses with an unknown outcome of its key, unless an answer denied it
something: it was not permitted or not routed, or a call of the store failed.
And where a report could take an endpoint away under a dispatch, the owner has
deleted it. -/
theorem unknown_blocks {s : State} (hs : Reach (· = init) SteadyStep s) :
    (∀ task ∈ s.dispatches, task.blocked = true →
      (∀ operation k,
        task.rest ≠ .call (.operations (.createOperation operation)) k) ∧
      ∀ r, task.rest = .ret r →
        (∀ d, r = .ok d → s.world.operations.has d.operationId = true) ∧
        (task.denied = false → ∀ e, r = .error e →
          ∃ Y ∈ unknownUnder s.world task.request,
            e = .unknownOutcomePending Y)) ∧
    ∀ l t, s.uproots l = true → next s l = some t →
      ∃ endpointId site, l = .report endpointId site ∧
        s.owners endpointId = none := by
  have hinv := GateInv.of_reach hs
  refine ⟨fun task ht hb => ?_, fun l t hroot hnext => ?_⟩
  · have hgated := hinv.dispatches task ht
    refine ⟨fun operation k hrest => ?_, fun r hrest => ?_⟩
    · rw [hrest] at hgated
      -- whatever the call answers, it would have to be allowed
      obtain ⟨⟨hfalse, -⟩, -⟩ := hgated (viewOf s.world task)
        ⟨.refl _, rfl, rfl⟩ (.error (.fault .database))
        ⟨s.world, task.issued, task.routed, true⟩
        ⟨hinv.aims, ⟨⟨some .database, ⟨0⟩, .ok none, .ok true, .ok none, ⟨0⟩,
          ⟨0⟩⟩, by simp [perform, answer, runOperationStore, offerOf, mintOf,
            viewOf]⟩, fun X hX => (by cases hX), rfl,
          by simp [viewOf, names], by simp [viewOf, denies]⟩
      rw [hb] at hfalse
      cases hfalse
    · rw [hrest] at hgated
      refine ⟨fun d hd => ?_, fun hdenied e he => ?_⟩
      · obtain ⟨row, -, hrow, -⟩ := hgated.1 d hd
        simp [Table.has, show s.world.operations.find d.operationId = _ from
          hrow]
      · rcases hgated.2 e he with h | ⟨Y, hY, hunknown⟩
        · rw [show task.denied = true from h] at hdenied
          cases hdenied
        · exact ⟨Y, (mem_unknownUnder hinv.aims).mpr hunknown, hY⟩
  · cases l with
    | report endpointId site =>
        exact ⟨endpointId, site, rfl, hinv.deleted_of_uproots hroot hnext⟩
    | _ => cases hroot

/-! ## Runs on fixed inputs -/

/-- Nothing fails; the endpoint is at a site, and the next identities are as
given. -/
def answers (site : InstanceId) (operationId : OperationId)
    (entryId : OutboxEntryId) : Oracle :=
  ⟨none, entryId, .ok (some ⟨some site⟩), .ok true,
    .ok (some ⟨⟨3⟩, .administrator, none, 0, none⟩), operationId, ⟨2⟩⟩

def resetAt (site : InstanceId) (target : String) : CenterOperationRequest :=
  ⟨site, ⟨9⟩, target, .system (.reset "On"), ⟨3⟩⟩

/-- A dispatch that makes a number of calls. -/
def dispatching (site : InstanceId) (target : String) (now : Instant)
    (i calls : Nat) (operationId : OperationId) (entryId : OutboxEntryId) :
    List Label :=
  .dispatch (resetAt site target) now ::
    List.replicate calls (.dispatchCall i (answers site operationId entryId))

/-- A site says that it does not know how an operation ended. -/
def endingUnknown (site : InstanceId) (operationId : OperationId) :
    List Label :=
  .reply site ⟨1, 0, some (.operationCompleted (some operationId) false
      "unknown")⟩ 300 ::
    List.replicate 4 (.replyCall 0 (answers site ⟨0⟩ ⟨0⟩))

/-- A dispatch after the one before it ended unknown is refused. -/
def failed (task : DispatchTask) : Bool :=
  match task.rest with
  | .ret (.error _) => true
  | _ => false

theorem unknown_blocks_second : ∃ s task e,
    Reach (· = init) SteadyStep s ∧ task ∈ s.dispatches ∧
    task.blocked = true ∧ task.denied = false ∧
    task.rest = .ret (.error e) ∧ e = .unknownOutcomePending ⟨1⟩ := by
  obtain ⟨s, hs, h⟩ := exists_reach_of_follow (· = init) nextSteady
    ([.bind ⟨5⟩, .report ⟨9⟩ ⟨5⟩] ++
      dispatching ⟨5⟩ "/redfish/v1/Systems/1" 100 0 13 ⟨1⟩ ⟨11⟩ ++
      [.dispatchDone 0] ++ endingUnknown ⟨5⟩ ⟨1⟩ ++
      dispatching ⟨5⟩ "/redfish/v1/systems/1/" 400 0 10 ⟨2⟩ ⟨12⟩)
    (fun s => s.dispatches.any fun task => task.blocked && !task.denied &&
      unknownUnder s.world task.request = [⟨1⟩] && failed task)
    rfl (by decide +kernel)
  have hs := hs.mono (fun _ h => h) fun _ _ => steadyStep_of_nextSteady
  obtain ⟨task, htask, h⟩ := List.any_eq_true.mp h
  simp only [Bool.and_eq_true, Bool.not_eq_true', decide_eq_true_eq] at h
  obtain ⟨⟨⟨hblocked, hdenied⟩, hunknown⟩, hrest⟩ := h
  unfold failed at hrest
  split at hrest
  · next e he =>
      obtain ⟨-, hends⟩ := (unknown_blocks hs).1 task htask hblocked
      obtain ⟨Y, hY, rfl⟩ := (hends _ he).2 hdenied e rfl
      rw [hunknown, List.mem_singleton] at hY
      subst hY
      exact ⟨s, task, _, hs, htask, hblocked, hdenied, he, rfl⟩
  · cases hrest

def creating (task : DispatchTask) : Bool :=
  match task.rest with
  | .call (.operations (.createOperation _)) _ => true
  | _ => false

/-- A dispatch is about to queue its offer when the site deletes the endpoint
and another site reports it. The next dispatch, for another target, finds the
record without an offer and queues it for its own target. Once the operation
has ended unknown, a dispatch for the first target creates another record. -/
theorem unknown_outcome_repeated :
    ¬ ∀ s, Reach (· = init) (Next next) s → ∀ task ∈ s.dispatches,
        task.blocked = true → ∀ operation k,
          task.rest ≠ .call (.operations (.createOperation operation)) k := by
  intro hclaim
  obtain ⟨s, hs, h⟩ := exists_reach_of_follow (· = init) next
    ([.bind ⟨5⟩, .bind ⟨6⟩, .report ⟨9⟩ ⟨5⟩] ++
      dispatching ⟨5⟩ "/redfish/v1/Systems/1" 100 0 12 ⟨1⟩ ⟨11⟩ ++
      [.delete ⟨9⟩ ⟨5⟩, .report ⟨9⟩ ⟨6⟩] ++
      dispatching ⟨6⟩ "/redfish/v1/Systems/2" 200 1 12 ⟨2⟩ ⟨12⟩ ++
      [.dispatchCall 0 (answers ⟨5⟩ ⟨1⟩ ⟨11⟩)] ++
      [.dispatchDone 1] ++ endingUnknown ⟨6⟩ ⟨1⟩ ++
      dispatching ⟨6⟩ "/redfish/v1/Systems/1" 400 1 12 ⟨2⟩ ⟨13⟩)
    (fun s => s.dispatches.any fun task => task.blocked && creating task)
    rfl (by decide +kernel)
  obtain ⟨task, htask, h⟩ := List.any_eq_true.mp h
  rw [Bool.and_eq_true] at h
  obtain ⟨hblocked, hrest⟩ := h
  unfold creating at hrest
  split at hrest
  · next operation k hcall => exact hclaim s hs task htask hblocked _ _ hcall
  · cases hrest

end Rutilus.Proofs.UnknownOutcomes
