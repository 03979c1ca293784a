import Rutilus.Proofs.CenterBooks

/-!
# Where a credited reply comes from

A reply changes a record only after the center has made sure of the site it
came from: the projection named that site as the endpoint's when the reply was
handled, or the site's own queue held an offer of the operation. The contract
of the handler carries this from the check to the writes; in between offers may
be queued and acknowledged by others, but none disappears from the books.
-/

namespace Rutilus.Proofs.ReplyProvenance

open Rutilus.Domain Rutilus.Lib Rutilus.Store Rutilus.App.CenterBoundary
  Rutilus.App.CenterDispatch Rutilus.App.CenterTracking
  Rutilus.App.CenterSystem Rutilus.Proofs.CenterBooks

/-- The world and whether the projection has named the replying site. -/
abbrev View : Type := World × Bool

/-- The site may be credited with a reply about an operation. -/
def Credit (site : InstanceId) (X : OperationId) (v : View) : Prop :=
  (X, site) ∈ v.1.offered ∨ v.2 = true

/-- Nothing is taken back. -/
def Grows (a b : View) : Prop :=
  (∀ x ∈ a.1.offered, x ∈ b.1.offered) ∧ (a.2 = true → b.2 = true)

theorem Grows.trans {a b c : View} (h₁ : Grows a b) (h₂ : Grows b c) :
    Grows a c :=
  ⟨fun x hx => h₂.1 x (h₁.1 x hx), h₂.2 ∘ h₁.2⟩

theorem Credit.grows {site : InstanceId} {X : OperationId} {a b : View}
    (h : Credit site X a) (hab : Grows a b) : Credit site X b :=
  h.imp (hab.1 _) hab.2

/-- A call of a reply's handling. -/
def Calls (site : InstanceId) : Sem center View := fun q a r b =>
  Books a.1.outbox a.1.offered ∧
    (∃ o, perform none o q a.1 = (r, b.1)) ∧ b.2 = (a.2 || names site q r)

/-- The operation a call writes to. -/
def writes : CenterReq → Option OperationId
  | .operations (.createOperation operation) => some operation.id
  | .operations (.applyTransition X _ _) => some X
  | .operations (.applyTransitionIfCurrent X _ _ _) => some X
  | .operations (.recordFailureKind X _) => some X
  | _ => none

/-- A call queues and creates nothing, and may write only to the record the
reply is about, and only once its site may be credited. -/
def Guar (site : InstanceId) (envelope : Envelope) (q : CenterReq)
    (a b : View) : Prop :=
  Grows a b ∧ isEnqueue q = false ∧ isCreate q = false ∧
    ∀ X, writes q = some X →
      replyOperationId envelope.message = some X ∧ Credit site X a

abbrev Provenance {α : Type} (site : InstanceId) (envelope : Envelope)
    (p : Prog center α) (Q : α → View → Prop) (v : View) : Prop :=
  Safe (Calls site) Grows (Guar site envelope) p Q v

section Handler

variable {site : InstanceId} {envelope : Envelope} {X : OperationId}
  {now : Instant} {v : View}

theorem grows_call {q : CenterReq} {r : q.Resp} {a b : View}
    (h : Calls site q a r b) : Grows a b := by
  obtain ⟨-, ⟨o, ho⟩, hb⟩ := h
  refine ⟨fun x hx => ?_, fun ha => by rw [hb, ha]; rfl⟩
  have hw := congrArg Prod.snd ho
  simp only [perform] at hw
  rw [← hw]
  exact List.mem_append_left _ hx

/-- A program that writes no record. -/
theorem guar_of_no_write {q : CenterReq} {r : q.Resp} {a b : View}
    (h : Calls site q a r b) (hqueue : isEnqueue q = false)
    (hcreate : isCreate q = false) (hq : writes q = none) :
    Guar site envelope q a b :=
  ⟨grows_call h, hqueue, hcreate, fun X hX => by rw [hq] at hX; cases hX⟩

theorem recordReply_mild (X : OperationId) :
    Provenance site envelope (recordReply site envelope X now)
      (fun _ _ => True) v := by
  intro v₁ h₁ r v₂ h₂
  refine ⟨guar_of_no_write h₂ rfl rfl rfl, ?_⟩
  cases r <;> trivial

theorem advanceReceipt_mild (X : OperationId) (events : List InboxEvent) :
    Provenance site envelope (advanceReceipt X events)
      (fun _ _ => True) v := by
  induction events generalizing v with
  | nil => trivial
  | cons event events ih =>
      intro v₁ h₁ r v₂ h₂
      refine ⟨guar_of_no_write h₂ rfl rfl rfl, ?_⟩
      cases r with
      | error e => trivial
      | ok outcome => exact ih

theorem logReply_mild (X : OperationId) :
    Provenance site envelope (logReply site envelope X now)
      (fun _ _ => True) v := by
  intro v₁ h₁ r v₂ h₂
  refine ⟨guar_of_no_write h₂ rfl rfl rfl, ?_⟩
  have hadvance : Provenance site envelope
      (advanceReceipt X (replyEvents envelope.message) >>= fun u : Unit =>
        Prog.ret (.ok u : Except TrackingError Unit)) (fun _ _ => True) v₂ :=
    Safe.bind.mpr ((advanceReceipt_mild X _).imp fun _ _ _ => trivial)
  cases r with
  | error e => trivial
  | ok outcome =>
      cases outcome with
      | created => trivial
      | duplicateInProgress => exact hadvance
      | duplicateResolved state => exact hadvance

/-- An offer in the site's own queue is on the books. -/
theorem offered_of_find {a b : View} {entry : OutboxEntry}
    (h : Calls site (.outbox (.findOfferByOperation site X)) a
      (.ok (some entry)) b) : (X, site) ∈ a.1.offered := by
  obtain ⟨hbooks, ⟨o, ho⟩, -⟩ := h
  have hr : (runOutbox o.fault o.entryId (.findOfferByOperation site X)
      a.1.outbox).1 = .ok (some entry) := congrArg Prod.fst ho
  cases hfault : o.fault with
  | some f =>
      rw [hfault] at hr
      cases hr
  | none =>
      rw [hfault] at hr
      cases hfind : findOutboxEntryByOperation a.1.outbox site X with
      | error e =>
          simp only [runOutbox, hfind, answered] at hr
          cases hr
      | ok found =>
          simp only [runOutbox, hfind, answered] at hr
          obtain ⟨-, hfound⟩ := hbooks.findByOperation hfind
          obtain ⟨row, hrow, hamong, -, hX⟩ := hfound entry (Except.ok.inj hr)
          have hlisted := hbooks.listed row hrow X hX
          simp only [decide_eq_true_eq] at hamong
          rwa [hamong] at hlisted

/-- The check passes only for a site that may be credited. -/
theorem offerSite_credit (operation : Operation) :
    Provenance site envelope (offerSite operation site)
      (fun r v' => r = .ok (some site) → Credit site operation.id v') v := by
  have hfacts : ∀ v, Provenance site envelope
      (offerSiteFromOfferFacts operation.id site)
      (fun r v' => r = .ok (some site) → Credit site operation.id v') v := by
    intro v v₁ h₁ r v₂ h₂
    refine ⟨guar_of_no_write h₂ rfl rfl rfl, ?_⟩
    cases r with
    | error e => exact fun h => (by cases h)
    | ok found =>
        cases found with
        | none => exact fun h => (by cases h)
        | some entry =>
            exact fun _ => .inl ((grows_call h₂).1 _ (offered_of_find h₂))
  unfold offerSite
  cases operation.targets.head? with
  | none => exact fun h => (by cases h)
  | some first =>
      intro v₁ h₁ r v₂ h₂
      refine ⟨guar_of_no_write h₂ rfl rfl rfl, ?_⟩
      cases r with
      | error e => exact fun h => (by cases h)
      | ok projection =>
          cases projection with
          | none => exact hfacts v₂
          | some projection =>
              show Provenance site envelope (if projection.siteId = some site
                then _ else _) _ v₂
              by_cases hsite : projection.siteId = some site
              · rw [if_pos hsite]
                obtain ⟨-, -, hnamed⟩ := h₂
                refine fun _ => .inr ?_
                rw [hnamed]
                simp [names, hsite]
              · rw [if_neg hsite]
                exact hfacts v₂

theorem recordUnsupported_guarded {target : ReplyTarget}
    (hX : replyOperationId envelope.message = some X)
    (hcredit : Credit site X v) :
    Provenance site envelope (recordUnsupported X target)
      (fun _ v' => Credit site X v') v := by
  unfold recordUnsupported
  split
  · intro v₁ h₁ r v₂ h₂
    have hcredit₁ := hcredit.grows h₁
    refine ⟨⟨grows_call h₂, rfl, rfl, fun Y hY => ?_⟩, ?_⟩
    · cases hY
      exact ⟨hX, hcredit₁⟩
    · cases r <;> exact hcredit₁.grows (grows_call h₂)
  · exact hcredit

theorem storeState_guarded {operation : Operation} {state : OperationState}
    (hX : replyOperationId envelope.message = some operation.id)
    (hcredit : Credit site operation.id v) :
    Provenance site envelope (storeState operation state now)
      (fun _ _ => True) v := by
  unfold storeState
  split
  · intro v₁ h₁ r v₂ h₂
    refine ⟨⟨grows_call h₂, rfl, rfl, fun Y hY => ?_⟩, ?_⟩
    · cases hY
      exact ⟨hX, hcredit.grows h₁⟩
    · cases r <;> trivial
  · trivial

theorem creditReply_guarded {operation : Operation} {target : ReplyTarget}
    (hX : replyOperationId envelope.message = some operation.id)
    (hcredit : Credit site operation.id v) :
    Provenance site envelope (creditReply site envelope operation target now)
      (fun _ _ => True) v := by
  unfold creditReply
  refine Safe.bindE.mpr ((recordUnsupported_guarded hX hcredit).imp ?_)
  intro r₁ v₁ h₁
  cases r₁ with
  | error e => trivial
  | ok u =>
      refine Safe.bindE.mpr ((storeState_guarded hX h₁).imp ?_)
      intro r₂ v₂ _
      cases r₂ with
      | error e => trivial
      | ok u => exact logReply_mild operation.id

theorem id_of_find {a b : View} {operation : Operation}
    (h : Calls site (.operations (.findOperation X)) a
      (.ok (some operation)) b) : operation.id = X := by
  obtain ⟨-, ⟨o, ho⟩, -⟩ := h
  have hr : (runOperationStore o.fault (.findOperation X)
      a.1.operations).1 = .ok (some operation) := congrArg Prod.fst ho
  cases hfault : o.fault with
  | some f =>
      rw [hfault] at hr
      cases hr
  | none =>
      rw [hfault] at hr
      obtain ⟨row, hrow, hstored⟩ := findOperation_ok hr
      exact (mapStoredOperation_ok hstored).1.trans (Table.key_of_find hrow)

/-- The contract of the whole handler. -/
theorem onReply_guarded :
    Provenance site envelope (onReply site envelope now)
      (fun _ _ => True) v := by
  unfold onReply
  cases hX : replyOperationId envelope.message with
  | none =>
      intro v₁ h₁ r v₂ h₂
      exact ⟨guar_of_no_write h₂ rfl rfl rfl, recordReply_mild r⟩
  | some X =>
      cases replyTarget envelope.message with
      | none => trivial
      | some target =>
          intro v₁ h₁ r v₂ h₂
          refine ⟨guar_of_no_write h₂ rfl rfl rfl, ?_⟩
          cases r with
          | error e => trivial
          | ok found =>
              cases found with
              | none => exact recordReply_mild X
              | some operation =>
                  have hid := id_of_find h₂
                  subst hid
                  refine Safe.bindE.mpr ((offerSite_credit operation).imp ?_)
                  intro r₃ v₃ h₃
                  cases r₃ with
                  | error e => trivial
                  | ok expected =>
                      show Provenance site envelope (if expected ≠ some site
                        then _ else _) _ v₃
                      by_cases hsite : expected = some site
                      · rw [if_neg (not_not.mpr hsite)]
                        exact creditReply_guarded hX (h₃ (by rw [hsite]))
                      · rw [if_pos hsite]
                        exact recordReply_mild operation.id

end Handler

/-! ## Runs -/

/-- A call leaves every record alone but the one it writes to. -/
theorem find_perform (request : Option CenterOperationRequest) (o : Oracle)
    (q : CenterReq) (w : World) {X : OperationId} (h : writes q ≠ some X) :
    (perform request o q w).2.operations.find X = w.operations.find X := by
  cases q with
  | operations q =>
      show (runOperationStore o.fault q w.operations).2.find X = _
      cases o.fault with
      | some f => rw [runOperationStore_fault]
      | none =>
          cases q with
          | createOperation operation =>
              cases hc : createOperation w.operations operation with
              | error e => simp only [runOperationStore, hc, written]
              | ok t =>
                  simp only [runOperationStore, hc, written]
                  rw [createOperation_ok hc X, if_neg]
                  rintro ⟨rfl, -⟩
                  exact h rfl
          | findOperation id => rfl
          | applyTransition id state now =>
              cases ha : applyTransition w.operations id state now with
              | error e => simp only [runOperationStore, ha, written]
              | ok t =>
                  simp only [runOperationStore, ha, written]
                  obtain ⟨row, -, -, hfind⟩ := applyTransition_ok ha
                  rw [hfind X, if_neg fun hX => h (by rw [hX]; rfl)]
          | applyTransitionIfCurrent id expected state now =>
              cases ha : applyTransitionIfCurrent w.operations id expected
                  state now with
              | error e => simp only [runOperationStore, ha, written]
              | ok t =>
                  simp only [runOperationStore, ha, written]
                  obtain ⟨row, -, -, -, hfind⟩ := applyTransitionIfCurrent_ok ha
                  rw [hfind X, if_neg fun hX => h (by rw [hX]; rfl)]
          | recordFailureKind id kind =>
              cases hr : recordFailureKind w.operations id kind with
              | error e => simp only [runOperationStore, hr, written]
              | ok t =>
                  simp only [runOperationStore, hr, written]
                  obtain ⟨row, -, hfind⟩ := recordFailureKind_ok hr
                  rw [hfind X, if_neg fun hX => h (by rw [hX]; rfl)]
          | listOperations state => rfl
  | listOperationsForEndpoint state endpointId =>
      simp only [perform, answer]
      cases o.fault <;> rfl
  | _ => rfl

/-- The books hold and every reply under way is on its contract. -/
structure SysInv (s : State) : Prop where
  books : Books s.world.outbox s.world.offered
  replies : ∀ task ∈ s.replies, Provenance task.site task.envelope task.rest
    (fun _ _ => True) (s.world, task.projected)

/-- The moves of others do not disturb a reply under way. -/
theorem stable_replies {replies : List ReplyTask} {w w' : World}
    (h : ∀ task ∈ replies, Provenance task.site task.envelope task.rest
      (fun _ _ => True) (w, task.projected))
    (hgrows : ∀ x ∈ w.offered, x ∈ w'.offered) :
    ∀ task ∈ replies, Provenance task.site task.envelope task.rest
      (fun _ _ => True) (w', task.projected) := by
  intro task htask
  exact (h task htask).stable Grows.trans (fun _ _ => trivial)
    ⟨hgrows, id⟩

theorem offered_perform (request : Option CenterOperationRequest) (o : Oracle)
    (q : CenterReq) {w : World} :
    ∀ x ∈ w.offered, x ∈ (perform request o q w).2.offered := by
  intro x hx
  exact List.mem_append_left _ hx

theorem SysInv.of_next {s t : State} {l : Label} (h : SysInv s)
    (hl : next s l = some t) : SysInv t := by
  refine ⟨h.books.of_next hl, ?_⟩
  cases l with
  | dispatch request now =>
      simp only [next] at hl
      split at hl
      · cases hl
        exact h.replies
      · cases hl
  | dispatchCall o =>
      simp only [next] at hl
      split at hl
      · split at hl
        · cases hl
          exact stable_replies h.replies (offered_perform _ o _)
        · cases hl
      · cases hl
  | dispatchDone =>
      simp only [next] at hl
      split at hl
      · cases hl
        exact h.replies
      · cases hl
  | reply site envelope now =>
      cases hl
      intro task htask
      rw [List.mem_append, List.mem_singleton] at htask
      rcases htask with htask | rfl
      · exact h.replies task htask
      · exact onReply_guarded
  | replyCall i o =>
      simp only [next] at hl
      split at hl
      · next site envelope now projected q k hi =>
          cases hl
          have htask := h.replies _ (List.mem_of_getElem? hi)
          have hothers := stable_replies h.replies
            (offered_perform none o q)
          intro task ht
          rcases List.mem_or_eq_of_mem_set ht with ht | rfl
          · exact hothers task ht
          · exact (htask (s.world, projected) ⟨fun _ hx => hx, id⟩ _
              ((perform none o q s.world).2, _)
              ⟨h.books, ⟨o, rfl⟩, rfl⟩).2
      · cases hl
  | acknowledge entryId ackedAt =>
      simp only [next] at hl
      split at hl
      · cases hl
        exact stable_replies h.replies fun _ hx => hx
      · cases hl
  | crash =>
      cases hl
      intro task htask
      cases htask

theorem SysInv.of_reach {s : State} (h : Reach (· = init) (Next next) s) :
    SysInv s := by
  refine h.inv ?_ fun s t hs ⟨l, hl⟩ => hs.of_next hl
  rintro s rfl
  refine ⟨.empty, ?_⟩
  intro task htask
  cases htask

/-- In every state of every run, a call made for a reply changes a record only
if the reply is about it, and an offer of it was queued for the replying site
or the projection named that site as the endpoint's when this reply was
handled. -/
theorem reply_changes_only_offered_or_projected {s t : State}
    (hs : Reach (· = init) (Next next) s) {i : Nat} {o : Oracle}
    (ht : next s (.replyCall i o) = some t) :
    ∃ task, s.replies[i]? = some task ∧
      ∀ X, t.world.operations.find X ≠ s.world.operations.find X →
        replyOperationId task.envelope.message = some X ∧
          ((X, task.site) ∈ s.world.offered ∨ task.projected = true) := by
  have hinv := SysInv.of_reach hs
  simp only [next] at ht
  split at ht
  · next site envelope now projected q k hi =>
      cases ht
      refine ⟨_, hi, fun X hX => ?_⟩
      have htask := hinv.replies _ (List.mem_of_getElem? hi)
      obtain ⟨⟨-, -, -, hguar⟩, -⟩ := htask (s.world, projected)
        ⟨fun _ hx => hx, id⟩ _ ((perform none o q s.world).2, _)
        ⟨hinv.books, ⟨o, rfl⟩, rfl⟩
      refine hguar X ?_
      by_contra hwrites
      exact hX (find_perform none o q s.world hwrites)
  · cases ht

/-! ## A reply of a site that was never offered the operation -/

/-- Nothing fails, and the endpoint belongs to the given site. -/
def homedAt (site : InstanceId) : Oracle :=
  ⟨none, ⟨11⟩, .ok (some ⟨some site⟩), .ok true,
    .ok (some ⟨⟨3⟩, .administrator, none, 0, none⟩), ⟨1⟩, ⟨2⟩⟩

def resetRequest : CenterOperationRequest :=
  ⟨⟨5⟩, ⟨9⟩, "/redfish/v1/Systems/1", .system (.reset "On"), ⟨3⟩⟩

/-- One dispatch to site 5, which mints the operation and queues its offer. -/
def dispatched : List Label :=
  .dispatch resetRequest 100 ::
    (List.replicate 13 (.dispatchCall (homedAt ⟨5⟩)) ++ [.dispatchDone])

/-- A terminal report of a site, up to the call that stores its outcome. -/
def reported (site : InstanceId) : List Label :=
  [.reply site ⟨1, 0, some (.operationCompleted (some ⟨1⟩) true "succeeded")⟩
      200, .replyCall 0 (homedAt site), .replyCall 0 (homedAt site)]

theorem reply_changes_only_offered_or_projected_addressed : ∃ s t task,
    Reach (· = init) (Next next) s ∧
    next s (.replyCall 0 (homedAt ⟨5⟩)) = some t ∧
    s.replies[0]? = some task ∧
    t.world.operations.find ⟨1⟩ ≠ s.world.operations.find ⟨1⟩ ∧
    (((⟨1⟩, task.site) : OperationId × InstanceId) ∈ s.world.offered ∨
      task.projected = true) := by
  obtain ⟨s, hs, h⟩ := exists_reach_of_follow (· = init) next
    (dispatched ++ reported ⟨5⟩)
    (fun s => (next s (.replyCall 0 (homedAt ⟨5⟩))).any fun t =>
      t.world.operations.find ⟨1⟩ ≠ s.world.operations.find ⟨1⟩)
    rfl (by decide +kernel)
  obtain ⟨t, ht, hchanged⟩ := (Option.any_eq_true _ _).mp h
  simp only [decide_eq_true_eq] at hchanged
  obtain ⟨task, htask, hcredit⟩ := reply_changes_only_offered_or_projected hs ht
  exact ⟨s, t, task, hs, ht, htask, hchanged, (hcredit ⟨1⟩ hchanged).2⟩

/-- The endpoint moved to site 6, which reports on the operation that only site
5 was offered, and is credited. -/
theorem rehomed_site_credited :
    ¬ ∀ (s t : State) (i : Nat) (o : Oracle) (task : ReplyTask)
        (X : OperationId), Reach (· = init) (Next next) s →
        next s (.replyCall i o) = some t → s.replies[i]? = some task →
        t.world.operations.find X ≠ s.world.operations.find X →
        (X, task.site) ∈ s.world.offered := by
  intro hclaim
  obtain ⟨s, hs, h⟩ := exists_reach_of_follow (· = init) next
    (dispatched ++ reported ⟨6⟩)
    (fun s => ((next s (.replyCall 0 (homedAt ⟨6⟩))).any fun t =>
      t.world.operations.find ⟨1⟩ ≠ s.world.operations.find ⟨1⟩) &&
      (s.replies[0]?.any fun task =>
        (((⟨1⟩, task.site) : OperationId × InstanceId) ∉ s.world.offered)))
    rfl (by decide +kernel)
  simp only [Bool.and_eq_true, Option.any_eq_true, decide_eq_true_eq] at h
  obtain ⟨⟨t, ht, hchanged⟩, task, htask, hnot⟩ := h
  exact hnot (hclaim s t 0 _ task ⟨1⟩ hs ht htask hchanged)

end Rutilus.Proofs.ReplyProvenance
