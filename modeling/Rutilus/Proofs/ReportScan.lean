import Rutilus.Proofs.OfferRuns
import Rutilus.Proofs.ReportTracks

/-!
# Every accepted operation is reported

The sync loop against the facts of `ReportTracks`, call by call: a report keeps
all of them, a delivery all but one, for the two calls between the creation of
its operation and its entry in the map. The discovery scan moreover takes the
states and the operations of its queries from the exceptions, one after the
other, until none is left.
-/

namespace Rutilus.Proofs.Report

open Rutilus.Domain Rutilus.Lib Rutilus.Store
open Rutilus.App.CenterSync Rutilus.App.SyncSite

variable {c : Prop} {offer : Option OperationOffer} {reads : Reads} {w w' : World}
  {X : OperationId} {states : List OperationState}
  {pending : List OperationId} {α β : Type}

/-- The contract of a report. -/
abbrev ReportSafe (c : Prop) (offer : Option OperationOffer) (reads : Reads)
    (p : Prog sync α) (Q : α → World → Prop) (w : World) : Prop :=
  Safe (Performed offer reads) (Around c) (fun _ => Keeping c) p Q w

/-! ## Programs of calm calls -/

def CalmProg (c : Prop) (offer : Option OperationOffer) (reads : Reads)
    (p : Prog sync α) : Prop :=
  ∀ w, ReportSafe c offer reads p (fun _ _ => True) w

theorem CalmProg.call {q : SyncReq} (hq : Calm q) :
    CalmProg c offer reads (call q) :=
  fun _ _ _ _ _ h => ⟨keeping_calm hq h, trivial⟩

theorem CalmProg.bind {p : M α} {f : α → M β} (hp : CalmProg c offer reads p.run)
    (hf : ∀ a, CalmProg c offer reads (f a).run) :
    CalmProg c offer reads (p >>= f).run := by
  intro w
  refine Safe.bindE.mpr ((hp w).imp ?_)
  rintro (e | a) w -
  · trivial
  · exact hf a w

theorem CalmProg.orThrow {ε : Type} {p : Prog sync (Except ε α)}
    {wrap : ε → CenterSyncError} (hp : CalmProg c offer reads p) :
    CalmProg c offer reads (orThrow p wrap).run :=
  fun w => Safe.orThrow.mpr ((hp w).imp fun _ _ _ => trivial)

theorem CalmProg.lift {p : Prog sync α} (hp : CalmProg c offer reads p) :
    CalmProg c offer reads (liftM p : M α).run :=
  fun w => Safe.liftE.mpr ((hp w).imp fun _ _ _ => trivial)

theorem CalmProg.pure {a : α} :
    CalmProg c offer reads (pure a : M α).run := fun _ => trivial

/-- A calm program in front of another one. -/
theorem CalmProg.then {p : M α} {f : α → M β}
    {Q : Except CenterSyncError β → World → Prop} {J : World → Prop}
    (hp : CalmProg c offer reads p.run) (hR : ∀ a b, Around c a b → J a → J b)
    (hG : ∀ a b, Keeping c a b → J a → J b) (hw : J w)
    (herr : ∀ e w, J w → Q (.error e) w)
    (hf : ∀ a w, J w → ReportSafe c offer reads (f a).run Q w) :
    ReportSafe c offer reads (p >>= f).run Q w := by
  refine Safe.bindE.mpr (((hp w).keeps hR (fun _ => hG) hw).imp ?_)
  rintro (e | a) w ⟨-, hw⟩
  · exact herr e w hw
  · exact hf a w hw

variable {instanceId : InstanceId} {operation : Operation}

theorem calm_enqueue (message : EnvelopeMessage) :
    CalmProg c offer reads (enqueueOutboxEntry instanceId message).run :=
  .bind (.lift (.call trivial)) fun _ => .orThrow (.call trivial)

theorem calm_completedSummary :
    CalmProg c offer reads (completedSummary operation).run := by
  unfold completedSummary
  split
  · exact .pure
  · refine .bind (.orThrow (.call trivial)) fun kind => ?_
    cases kind with
    | none => exact .pure
    | some kind => exact .pure

theorem calm_enqueueProgress (detail : String) :
    CalmProg c offer reads (enqueueProgress instanceId operation detail).run :=
  .bind (calm_enqueue _) fun _ => .pure

theorem calm_enqueueCompleted :
    CalmProg c offer reads (enqueueCompleted instanceId operation).run :=
  .bind calm_completedSummary fun _ => .bind (calm_enqueue _) fun _ => .pure

theorem calm_advance {event : InboxEvent} (h : event ≠ .completed) :
    CalmProg c offer reads (advance X event).run := by
  refine .bind (.orThrow (.call ?_)) fun _ => .pure
  cases event with
  | accepted => trivial
  | rejected => trivial
  | completed => exact absurd rfl h

theorem calm_insertProgress (state : Option OperationState) :
    CalmProg c offer reads (insertProgress X state).run := .lift (.call trivial)

theorem calm_decideOffer {offered : OperationOffer} {entry : InboxEntry}
    {endpointId : EndpointId} {now : Instant} :
    CalmProg c offer reads (decideOffer offered entry endpointId now).run := by
  unfold decideOffer
  refine .bind (.orThrow (.call trivial)) fun endpoint => ?_
  cases endpoint with
  | none => exact .pure
  | some endpoint =>
  cases offered.command with
  | none => exact .pure
  | some command =>
  refine .bind (.orThrow (.call trivial)) fun entries => ?_
  split
  · exact .pure
  refine .bind (.orThrow (.call trivial)) fun credentials => ?_
  split
  · exact .pure
  refine .bind (.orThrow (.call trivial)) fun items => ?_
  split
  · exact .pure
  split
  · exact .pure
  · exact .pure

/-! ## Closing an entry -/

/-- A queued completion is there afterwards. -/
theorem enqueueCompleted_safe :
    ReportSafe c offer reads (enqueueCompleted instanceId operation).run
      (fun r w => ∀ u, r = .ok u → 0 < completions w operation.id) w := by
  refine Safe.bindE.mpr ((calm_completedSummary w).imp ?_)
  rintro (e | summary) w -
  · exact nofun
  refine Safe.bindE.mpr (Safe.bindE.mpr (Safe.liftE.mpr ?_))
  intro w₁ _ now w₂ hnow
  refine ⟨keeping_calm (by trivial) hnow, Safe.orThrow.mpr ?_⟩
  intro w₃ _ r w₄ hcall
  refine ⟨keeping_calm (by trivial) hcall, ?_⟩
  cases r with
  | error e => exact nofun
  | ok entry =>
      rintro u ⟨⟩
      exact (performed_enqueue hcall).2.2.2.2 entry rfl _ _ _ rfl

/-- Closing an entry whose completion is queued. -/
theorem advanceCompleted_safe (hw : 0 < completions w X) :
    ReportSafe c offer reads (advance X .completed).run
      (fun r w => ∀ u, r = .ok u → ¬Open w X) w := by
  refine Safe.bindE.mpr (Safe.orThrow.mpr ?_)
  intro w₁ h₁ r w₂ hcall
  have hkeeping : Keeping c w₁ w₂ := keeping_advance (fun _ => h₁.completions X ▸ hw) hcall
  refine ⟨hkeeping, ?_⟩
  obtain ⟨-, -, -, ⟨⟨e, rfl⟩, -⟩ | ⟨-, hto⟩⟩ := performed_advance hcall
  · exact nofun
  · cases r with
    | error e => exact nofun
    | ok outcome =>
        rintro u ⟨⟩ hopen
        have := hto X
        rw [if_pos rfl] at this
        rw [Open, this] at hopen
        rcases hopen with hopen | hopen <;> cases hopen

theorem forget_safe {Q : Except CenterSyncError Unit → World → Prop}
    (hw : ∀ row, w.operations.find X = some row → row.source = .center →
      ¬Open w X)
    (hQ : ∀ w', (∀ row, w'.operations.find X = some row →
      row.source = .center → ¬Open w' X) → Q (.ok ()) w') :
    ReportSafe c offer reads (forgetProgress X).run Q w := by
  refine Safe.liftE.mpr ?_
  intro w₁ h₁ r w₂ hcall
  have hw₁ : ∀ row, w₁.operations.find X = some row → row.source = .center →
      ¬Open w₁ X := by
    intro row hrow hcenter
    obtain ⟨old, hold, hsource, -⟩ := h₁.center hrow hcenter
    rw [h₁.open_iff]
    exact hw old hold hsource
  refine ⟨keeping_forget hw₁ hcall, ?_⟩
  obtain ⟨-, -, rest, o, h⟩ := hcall
  obtain ⟨-, rfl⟩ := Prod.mk.inj h
  exact hQ _ hw₁

/-! ## The report of one operation -/

/-- The operation needs no exception any more. -/
def Settled (X : OperationId) (w : World) : Prop :=
  ∀ row, w.operations.find X = some row → row.source = .center → Open w X →
    Known w X

theorem Tracked.settle (h : Tracked c states (X :: pending) w)
    (hX : Settled X w) : Tracked c states pending w := by
  intro hc k row hrow hcenter hopen
  rcases h hc k row hrow hcenter hopen with hk | hk | hk
  · exact .inl hk
  · exact .inr (.inl hk)
  · rcases List.mem_cons.mp hk with rfl | hk
    · exact .inl (hX row hrow hcenter hopen)
    · exact .inr (.inr hk)

theorem performed_findByOperation
    {r : Except InboxRepositoryError (Option InboxEntry)}
    (h : Performed offer reads (.inbox (.findByOperation X)) w r w') :
    ∀ entry, r = .ok entry →
      inboxState w'.inbox X = entry.map InboxEntry.state := by
  obtain ⟨-, -, rest, ⟨fault, clock, entryId⟩, h⟩ := h
  obtain ⟨hr, rfl⟩ := Prod.mk.inj h
  rintro entry rfl
  cases fault with
  | some f => cases hr
  | none =>
      cases hr
      rfl

/-- An entry that is missing or closed is not open. -/
theorem not_open {entry : Option InboxEntry}
    (h : inboxState w.inbox X = entry.map InboxEntry.state)
    (hclosed : (entry.all fun entry => entry.state.isTerminal) = true) :
    ¬Open w X := by
  intro hopen
  rw [Open, h] at hopen
  cases entry with
  | none => rcases hopen with hopen | hopen <;> cases hopen
  | some entry =>
      rw [Option.all_some] at hclosed
      rcases hopen with hopen | hopen <;>
      · rw [Option.map_some, Option.some.injEq] at hopen
        rw [hopen] at hclosed
        cases hclosed

theorem insertProgress_safe {state : Option OperationState} :
    ReportSafe c offer reads (insertProgress X state).run
      (fun _ w => Known w X) w := by
  refine Safe.liftE.mpr ?_
  intro w₁ h₁ r w₂ hcall
  refine ⟨keeping_calm (by trivial) hcall, ?_⟩
  obtain ⟨-, -, rest, o, h⟩ := hcall
  obtain ⟨-, rfl⟩ := Prod.mk.inj h
  simp [Known, answer, runProgress]

theorem reportOpenEntry_safe :
    ReportSafe c offer reads (reportOpenEntry instanceId operation).run
      (fun r w => ∀ u, r = .ok u → Settled operation.id w) w := by
  refine Safe.bindE.mpr (Safe.orThrow.mpr ?_)
  intro w₁ _ r w₂ hcall
  refine ⟨keeping_calm (by trivial) hcall, ?_⟩
  cases r with
  | error e => exact nofun
  | ok entry =>
  have hentry := performed_findByOperation hcall entry rfl
  cases entry with
  | none => exact fun _ _ _ _ _ hopen => absurd hopen (not_open hentry rfl)
  | some entry =>
  show ReportSafe c offer reads (ExceptT.run (ite _ _ _)) _ w₂
  split
  · next hterminal =>
      exact fun _ _ _ _ _ hopen => absurd hopen (not_open hentry hterminal)
  have hrepair : CalmProg c offer reads
      (repairEntry operation.id entry.state).run := by
    unfold repairEntry
    split
    · exact calm_advance (by decide)
    · exact .pure
  refine hrepair.then (J := fun _ => True) (fun _ _ _ _ => trivial)
    (fun _ _ _ _ => trivial) trivial (fun _ _ _ => nofun) fun _ w _ => ?_
  show ReportSafe c offer reads (ExceptT.run (ite _ _ _)) _ w
  split
  · refine Safe.bindE.mpr (enqueueCompleted_safe.imp ?_)
    rintro (e | u) w hqueued
    · exact nofun
    refine Safe.bindE.mpr ((advanceCompleted_safe (hqueued u rfl)).imp ?_)
    rintro (e | u) w hclosed
    · exact nofun
    exact forget_safe (fun row _ _ => hclosed u rfl)
      fun w' hw' u _ row hrow hcenter hopen =>
        absurd hopen (hw' row hrow hcenter)
  · refine Safe.bindE.mpr (Safe.liftE.mpr ?_)
    intro w₃ _ reported w₄ hcall
    refine ⟨keeping_calm (by trivial) hcall, ?_⟩
    show ReportSafe c offer reads (ExceptT.run (ite _ _ _)) _ w₄
    split
    · next hreported =>
        rintro u - row - - -
        obtain ⟨-, -, rest, o, h⟩ := hcall
        obtain ⟨hr, rfl⟩ := Prod.mk.inj h
        have hr : (w₃.progress.lastProgress.find? fun e =>
            e.1 = operation.id).bind (·.2) = some operation.state :=
          hr.trans hreported
        obtain ⟨e, he, -⟩ := Option.bind_eq_some_iff.mp hr
        refine List.mem_map.mpr ⟨e, List.mem_of_find?_eq_some he, ?_⟩
        simpa using List.find?_some he
    · refine (calm_enqueueProgress "").then (J := fun _ => True)
        (fun _ _ _ _ => trivial) (fun _ _ _ _ => trivial) trivial
        (fun _ _ _ => nofun) fun _ w _ => ?_
      exact insertProgress_safe.imp fun _ _ hknown _ _ _ _ _ _ => hknown

/-! ## The discovery scan -/

/-- The operations a query of the scan works on. -/
def pendingOf (operations : List Operation) : List OperationId :=
  (operations.filter fun operation => operation.source = .center).map
    Operation.id

/-- A query moves its state over to the operations it found. -/
theorem tracked_list {state : OperationState} {found : List Operation}
    (h : Tracked c (state :: states) [] w)
    (hcall : Performed offer reads
      (.operations (.listOperations (some state))) w (.ok found) w') :
    Tracked c states (pendingOf found) w' := by
  obtain ⟨-, -, rest, ⟨fault, clock, entryId⟩, hcall⟩ := hcall
  obtain ⟨hr, rfl⟩ := Prod.mk.inj hcall
  cases fault with
  | some f => cases hr
  | none =>
      have hr : listOperations w.operations (some state) = .ok found := hr
      intro hc X row hrow hcenter hopen
      rcases h hc X row hrow hcenter hopen with hknown | hin | hin
      · exact .inl hknown
      · rcases List.mem_cons.mp hin with rfl | hin
        · obtain ⟨hmem, hid⟩ := Table.find_eq_some_iff.mp hrow
          obtain ⟨operation, hop, hmap⟩ := exists_mapM_of_mem hr
            ((List.mem_insertionSort _).mpr
              (List.mem_filter.mpr ⟨hmem, by simp⟩))
          obtain ⟨hopid, hsource, -⟩ := mapStoredOperation_ok hmap
          refine .inr (.inr (List.mem_map.mpr ⟨operation, ?_, hopid.trans hid⟩))
          exact List.mem_filter.mpr
            ⟨hop, decide_eq_true (hsource.trans hcenter)⟩
        · exact .inr (.inl hin)
      · cases hin

theorem reportAll_safe {found : List Operation} (hup : Upward states)
    (hw : Tracked c states (pendingOf found) w) :
    ReportSafe c offer reads (found.forM fun operation =>
        if operation.source = .center then
          reportOpenEntry instanceId operation
        else pure () : M Unit).run
      (fun r w => ∀ u, r = .ok u → Tracked c states [] w) w := by
  induction found generalizing w with
  | nil => exact fun _ _ => hw
  | cons operation found ih =>
      refine Safe.bindE.mpr ?_
      beta_reduce
      split
      · next hcenter =>
          have hpending : pendingOf (operation :: found) =
              operation.id :: pendingOf found := by
            simp [pendingOf, hcenter]
          rw [hpending] at hw
          refine (reportOpenEntry_safe.keeps (fun _ _ hR h => h.around hup hR)
            (fun _ _ _ hG h => hG.tracked _ _ h) hw).imp ?_
          rintro (e | u) w ⟨hsettled, hw⟩
          · exact nofun
          · exact ih (hw.settle (hsettled u rfl))
      · next hcenter =>
          have hpending : pendingOf (operation :: found) = pendingOf found := by
            simp [pendingOf, hcenter]
          exact ih (hpending ▸ hw)

theorem discover_safe {state : OperationState} (hup : Upward (state :: states))
    (hup' : Upward states) (hw : Tracked c (state :: states) [] w) :
    ReportSafe c offer reads (discover instanceId state).run
      (fun r w => ∀ u, r = .ok u → Tracked c states [] w) w := by
  refine Safe.bindE.mpr (Safe.orThrow.mpr ?_)
  intro w₁ h₁ r w₂ hcall
  refine ⟨keeping_calm (by trivial) hcall, ?_⟩
  cases r with
  | error e => exact nofun
  | ok found => exact reportAll_safe hup' (tracked_list (hw.around hup h₁) hcall)

theorem scan_safe (k : Nat) (hw : Tracked c (centerReportStates.drop k) [] w) :
    ReportSafe c offer reads
      ((centerReportStates.drop k).forM (discover instanceId)).run
      (fun r w => ∀ u, r = .ok u → Tracked c [] [] w) w := by
  generalize hdrop : centerReportStates.drop k = states at hw
  induction states generalizing k w with
  | nil => exact fun _ _ => hw
  | cons state states ih =>
      have hnext : centerReportStates.drop (k + 1) = states := by
        rw [← List.drop_drop, hdrop]
        rfl
      refine Safe.bindE.mpr ((discover_safe (hdrop ▸ upward_drop k)
        (hnext ▸ upward_drop (k + 1)) hw).imp ?_)
      rintro (e | u) w hw
      · exact nofun
      · exact ih (k + 1) hnext (hw u rfl)

/-! ## The report of the operations in the map -/

theorem performed_findOperation
    {r : Except OperationRepositoryError (Option Operation)}
    (h : Performed offer reads (.operations (.findOperation X)) w r w') :
    (r = .ok none → w'.operations.find X = none) ∧
      ∀ operation, r = .ok (some operation) → operation.id = X := by
  obtain ⟨-, -, rest, ⟨fault, clock, entryId⟩, h⟩ := h
  obtain ⟨hr, rfl⟩ := Prod.mk.inj h
  refine ⟨?_, ?_⟩
  · rintro rfl
    cases fault with
    | some f => cases hr
    | none => exact findOperation_none hr
  · rintro operation rfl
    cases fault with
    | some f => cases hr
    | none =>
        obtain ⟨row, hrow, hmap⟩ := findOperation_ok hr
        exact (mapStoredOperation_ok hmap).1.trans (Table.key_of_find hrow)

theorem calm_reportKnown :
    CalmProg c offer reads (reportKnown instanceId X).run := by
  intro w
  refine Safe.bindE.mpr (Safe.orThrow.mpr ?_)
  intro w₁ _ r w₂ hcall
  refine ⟨keeping_calm (by trivial) hcall, ?_⟩
  cases r with
  | error e => trivial
  | ok entry =>
  have hentry := performed_findByOperation hcall entry rfl
  cases entry with
  | none =>
      exact forget_safe (fun _ _ _ => not_open hentry rfl) fun _ _ => trivial
  | some entry =>
  show ReportSafe c offer reads (ExceptT.run (ite _ _ _)) _ w₂
  split
  · next hterminal =>
      exact forget_safe (fun _ _ _ => not_open hentry hterminal)
        fun _ _ => trivial
  refine Safe.bindE.mpr (Safe.orThrow.mpr ?_)
  intro w₃ _ r w₄ hcall
  refine ⟨keeping_calm (by trivial) hcall, ?_⟩
  rcases r with e | _ | operation
  · trivial
  · have hnone := (performed_findOperation hcall).1 rfl
    refine forget_safe (fun row hrow _ => ?_) fun _ _ => trivial
    rw [hnone] at hrow
    cases hrow
  · exact reportOpenEntry_safe.imp fun _ _ _ => trivial

theorem CalmProg.forM {f : α → M Unit} (l : List α)
    (hf : ∀ a, CalmProg c offer reads (f a).run) :
    CalmProg c offer reads (l.forM f).run := by
  induction l with
  | nil => exact .pure
  | cons a l ih => exact .bind (hf a) fun _ => ih

/-! ## Reports and deliveries -/

/-- The contract of a task: no entry is closed without its completion. -/
abbrev TaskSafe (c : Prop) (offer : Option OperationOffer) (reads : Reads)
    (p : Prog sync α) (Q : α → World → Prop) (w : World) : Prop :=
  Safe (Performed offer reads) (Around c)
    (fun _ w w' => Closed w → Closed w') p Q w

/-- After the discovery scan all open operations are in the map, but some. -/
def Covered (c : Prop) (pending : List OperationId) (w : World) : Prop :=
  w.progress.discoveryDone = true → Tracked c [] pending w

theorem Covered.around (h : Covered c pending w) (hw : Around c w w') :
    Covered c pending w' := by
  intro hdone
  rw [hw.progress] at hdone
  exact (h hdone).around upward_nil hw

theorem Covered.keeping (h : Covered c pending w) (hw : Keeping c w w') :
    Covered c pending w' := by
  intro hdone
  rw [hw.discovered] at hdone
  exact hw.tracked _ _ (h hdone)

/-- What a report keeps, a task keeps. -/
theorem ReportSafe.task {p : Prog sync α} {Q : α → World → Prop}
    (hp : ReportSafe c offer reads p Q w) (hw : Covered c pending w) :
    TaskSafe c offer reads p (fun a w => Q a w ∧ Covered c pending w) w :=
  (hp.keeps (fun _ _ hR h => h.around hR) (fun _ _ _ hG h => h.keeping hG)
    hw).mono (fun _ _ hR => hR) fun _ _ _ hG => hG.closed

theorem reportCenterOperations_safe (hw : Covered c [] w) :
    TaskSafe c offer reads (reportCenterOperations instanceId).run
      (fun _ w => Covered c [] w) w := by
  refine Safe.bindE.mpr (Safe.liftE.mpr ?_)
  intro w₁ h₁ done w₂ hcall
  have hkeeping : Keeping c w₁ w₂ := keeping_calm (by trivial) hcall
  refine ⟨hkeeping.closed, ?_⟩
  have hw := (hw.around h₁).keeping hkeeping
  have hdone : w₂.progress.discoveryDone = done := by
    obtain ⟨-, -, rest, o, h⟩ := hcall
    obtain ⟨hr, rfl⟩ := Prod.mk.inj h
    exact hr
  show TaskSafe c offer reads (ExceptT.run (ite _ _ _)) _ w₂
  split
  · next hnot =>
      -- the scan begins with all states to be asked for
      have hall : Tracked c (centerReportStates.drop 0) [] w₂ := by
        intro _ X row _ _ _
        refine .inr (.inl ?_)
        cases row.state <;> decide
      refine Safe.bindE.mpr (((ReportSafe.task (scan_safe 0 hall) hw)).imp ?_)
      rintro (e | u) w ⟨htracked, hw⟩
      · exact hw
      · refine Safe.liftE.mpr ?_
        intro w₃ h₃ r w₄ hcall
        obtain ⟨-, -, rest, o, h⟩ := hcall
        obtain ⟨-, rfl⟩ := Prod.mk.inj h
        have htracked := (htracked u rfl).around upward_nil h₃
        exact ⟨fun h => h, fun _ => htracked⟩
  · refine Safe.bindE.mpr (Safe.liftE.mpr ?_)
    intro w₃ h₃ known w₄ hcall
    have hkeeping : Keeping c w₃ w₄ := keeping_calm (by trivial) hcall
    refine ⟨hkeeping.closed, ?_⟩
    exact (ReportSafe.task (CalmProg.forM known (fun X => calm_reportKnown) w₄)
      ((hw.around h₃).keeping hkeeping)).imp fun _ _ h => h.2

/-! ## Deliveries -/

section Handling

variable {offered : OperationOffer} {entry : InboxEntry}
  {endpointId : EndpointId} {now : Instant}

/-- A task in front of another one; an error ends it. -/
theorem TaskSafe.then {p : M α} {f : α → M β} {P : α → World → Prop}
    {Q : World → Prop}
    (hp : TaskSafe c offer reads p.run
      (fun r w => (∀ e, r = .error e → Q w) ∧ ∀ a, r = .ok a → P a w) w)
    (hf : ∀ a w, P a w → TaskSafe c offer reads (f a).run (fun _ w => Q w) w) :
    TaskSafe c offer reads (p >>= f).run (fun _ w => Q w) w := by
  refine Safe.bindE.mpr (hp.imp ?_)
  rintro (e | a) w ⟨herr, hok⟩
  · exact herr e rfl
  · exact hf a w (hok a rfl)

/-- A calm program in front of a task. -/
theorem CalmProg.thenTask {p : M α} {f : α → M β}
    (hp : CalmProg c offer reads p.run) (hw : Covered c [] w)
    (hf : ∀ a w, Covered c [] w →
      TaskSafe c offer reads (f a).run (fun _ w => Covered c [] w) w) :
    TaskSafe c offer reads (p >>= f).run (fun _ w => Covered c [] w) w :=
  TaskSafe.then ((ReportSafe.task (hp w) hw).imp
    fun _ _ h => ⟨fun _ _ => h.2, fun _ _ => h.2⟩) hf

theorem CalmProg.task {p : M α} (hp : CalmProg c offer reads p.run)
    (hw : Covered c [] w) :
    TaskSafe c offer reads p.run (fun _ w => Covered c [] w) w :=
  (ReportSafe.task (hp w) hw).imp fun _ _ h => h.2

/-- A created operation is not in the map yet. -/
theorem create_safe {operation : Operation} (hw : Covered c [] w) :
    TaskSafe c offer reads (orThrow
        (call (.operations (.createOperation operation))) .operation :
          M Unit).run
      (fun r w => (∀ e, r = .error e → Covered c [] w) ∧
        ∀ u, r = .ok u → Covered c [operation.id] w) w := by
  refine Safe.orThrow.mpr ?_
  intro w₁ h₁ r w₂ hcall
  have hw := hw.around h₁
  obtain ⟨-, -, rest, ⟨fault, clock, entryId⟩, hcall⟩ := hcall
  obtain ⟨hr, rfl⟩ := Prod.mk.inj hcall
  refine ⟨fun h => h, ?_⟩
  cases fault with
  | some f =>
      obtain rfl : r = .error (.fault f) := hr.symm
      exact ⟨fun _ _ => hw, fun u hu => by cases hu⟩
  | none =>
      cases hcreate : createOperation w₁.operations operation with
      | error e =>
          have hanswer : runOperationStore none (.createOperation operation)
              w₁.operations = (.error e, w₁.operations) := by
            simp only [runOperationStore, hcreate, written]
          obtain rfl : r = .error e := by
            rw [← hr]
            exact congrArg Prod.fst hanswer
          refine ⟨fun _ _ hdone hc X row hrow => hw hdone hc X row ?_,
            fun u hu => by cases hu⟩
          have hrow : (runOperationStore none (.createOperation operation)
              w₁.operations).2.find X = some row := hrow
          rwa [hanswer] at hrow
      | ok table =>
          have hanswer : runOperationStore none (.createOperation operation)
              w₁.operations = (.ok (), table) := by
            simp only [runOperationStore, hcreate, written]
          obtain rfl : r = .ok () := by
            rw [← hr]
            exact congrArg Prod.fst hanswer
          refine ⟨fun e he => (by cases he),
            fun _ _ hdone hc X row hrow hcenter hopen => ?_⟩
          have hrow : (runOperationStore none (.createOperation operation)
              w₁.operations).2.find X = some row := hrow
          rw [hanswer, createOperation_ok hcreate] at hrow
          split at hrow
          · next hnew => exact .inr (.inr (by simp [hnew.1]))
          · exact (hw hdone hc X row hrow hcenter hopen).imp_right
              (Or.imp_right fun hmem => absurd hmem List.not_mem_nil)

theorem insertPending_safe {state : Option OperationState}
    (hw : Covered c [X] w) :
    TaskSafe c offer reads (insertProgress X state).run
      (fun _ w => Covered c [] w) w := by
  refine (ReportSafe.task insertProgress_safe hw).imp ?_
  rintro r w ⟨hknown, hw⟩ hdone
  exact (hw hdone).settle fun _ _ _ _ => hknown

theorem decideAndRecord_safe (hw : Covered c [] w) :
    TaskSafe c offer reads
      (decideAndRecord instanceId offered entry endpointId now).run
      (fun _ w => Covered c [] w) w := by
  refine calm_decideOffer.thenTask hw fun decision w hw => ?_
  cases decision with
  | accept command =>
      refine CalmProg.thenTask (.lift (.call trivial)) hw fun targetId w hw => ?_
      refine TaskSafe.then (create_safe hw) fun _ w hw => ?_
      refine TaskSafe.then (P := fun _ w => Covered c [] w)
        ((insertPending_safe hw).imp
          fun _ _ h => ⟨fun _ _ => h, fun _ _ => h⟩) fun _ w hw => ?_
      refine (calm_enqueue _).thenTask hw fun _ w hw => ?_
      refine (calm_advance (by decide)).thenTask hw fun _ w hw => ?_
      exact CalmProg.pure.task hw
  | reject reason detail =>
      refine (calm_enqueue _).thenTask hw fun _ w hw => ?_
      refine (calm_advance (by decide)).thenTask hw fun _ w hw => ?_
      exact CalmProg.pure.task hw

/-- The completion of a finished operation, then its entry. -/
theorem closeDuplicate_safe (hid : operation.id = X) (hw : Covered c [] w) :
    TaskSafe c offer reads (do
        enqueueCompleted instanceId operation
        advance X .accepted
        advance X .completed
        forgetProgress X
        return .duplicateProgress : M OfferOutcome).run
      (fun _ w => Covered c [] w) w := by
  suffices h : ReportSafe c offer reads (do
        enqueueCompleted instanceId operation
        advance X .accepted
        advance X .completed
        forgetProgress X
        return .duplicateProgress : M OfferOutcome).run (fun _ _ => True) w from
    (h.task hw).imp fun _ _ h => h.2
  refine Safe.bindE.mpr (enqueueCompleted_safe.imp ?_)
  rintro (e | u) w hqueued
  · trivial
  replace hqueued := hid ▸ hqueued u rfl
  refine Safe.bindE.mpr (Safe.bindE.mpr (Safe.orThrow.mpr ?_))
  intro w₁ h₁ r w₂ hcall
  refine ⟨keeping_calm (by trivial) hcall, ?_⟩
  have hqueued : 0 < completions w₂ X := by
    rw [completions, (performed_advance hcall).2.1, ← completions,
      h₁.completions X]
    exact hqueued
  cases r with
  | error e => trivial
  | ok outcome =>
  refine Safe.bindE.mpr ((advanceCompleted_safe hqueued).imp ?_)
  rintro (e | u) w hclosed
  · trivial
  exact Safe.bindE.mpr (forget_safe (fun _ _ _ => hclosed u rfl)
    fun _ _ => trivial)

theorem replyToInProgressDuplicate_safe (hw : Covered c [] w) :
    TaskSafe c offer reads (replyToInProgressDuplicate instanceId offered entry
      endpointId now).run (fun _ w => Covered c [] w) w := by
  refine TaskSafe.then (P := fun found w => Covered c [] w ∧
    ∀ operation, found = some operation →
      operation.id = entry.operationId) ?_ ?_
  · refine Safe.orThrow.mpr ?_
    intro w₁ h₁ r w₂ hcall
    have hkeeping : Keeping c w₁ w₂ := keeping_calm (by trivial) hcall
    have hw := (hw.around h₁).keeping hkeeping
    refine ⟨hkeeping.closed, fun _ _ => hw, fun found hfound => ⟨hw, ?_⟩⟩
    rintro operation rfl
    cases r with
    | error e => cases hfound
    | ok found =>
        cases hfound
        exact (performed_findOperation hcall).2 operation rfl
  · rintro found w ⟨hw, hid⟩
    cases found with
    | none => exact decideAndRecord_safe hw
    | some operation =>
        show TaskSafe c offer reads (ExceptT.run (ite _ _ _)) _ w
        split
        · exact closeDuplicate_safe (hid operation rfl) hw
        · refine (calm_enqueueProgress _).thenTask hw fun _ w hw => ?_
          refine (calm_advance (by decide)).thenTask hw fun _ w hw => ?_
          refine (calm_insertProgress _).thenTask hw fun _ w hw => ?_
          exact CalmProg.pure.task hw

theorem replyToResolvedDuplicate_safe {state : InboxEntryState}
    (hw : Covered c [] w) :
    TaskSafe c offer reads (replyToResolvedDuplicate instanceId offered entry
      endpointId state now).run (fun _ w => Covered c [] w) w := by
  cases state with
  | rejected =>
      refine calm_decideOffer.thenTask hw fun decision w hw => ?_
      refine (calm_enqueue _).thenTask hw fun _ w hw => ?_
      exact CalmProg.pure.task hw
  | completed =>
      refine CalmProg.thenTask (.orThrow (.call trivial)) hw fun found w hw => ?_
      cases found with
      | none =>
          refine (calm_enqueue _).thenTask hw fun _ w hw => ?_
          exact CalmProg.pure.task hw
      | some operation =>
          refine calm_enqueueCompleted.thenTask hw fun _ w hw => ?_
          exact CalmProg.pure.task hw
  | received => exact replyToInProgressDuplicate_safe hw
  | accepted => exact replyToInProgressDuplicate_safe hw

theorem handleOffer_safe {received : Envelope} (hw : Covered c [] w) :
    TaskSafe c offer reads (handleOffer instanceId offered received now).run
      (fun _ w => Covered c [] w) w := by
  unfold handleOffer
  split
  · exact hw
  split
  · refine CalmProg.thenTask (.orThrow (.call (by rfl))) hw
      fun outcome w hw => ?_
    cases outcome with
    | created => exact decideAndRecord_safe hw
    | duplicateInProgress => exact replyToInProgressDuplicate_safe hw
    | duplicateResolved state => exact replyToResolvedDuplicate_safe hw
  · exact hw

end Handling

/-! ## Every run -/

/-- The drivers only move operations forward. -/
def Forward (s : State) : Label → Prop
  | .drive X state _ => ∀ row, s.world.operations.find X = some row →
      row.state.rank < state.rank
  | _ => True

def ForwardStep (instanceId : InstanceId) (s t : State) : Prop :=
  ∃ l, Forward s l ∧ next instanceId s l = some t

/-- The same under a condition. -/
def StepIf (c : Prop) (instanceId : InstanceId) (s t : State) : Prop :=
  ∃ l, (c → Forward s l) ∧ next instanceId s l = some t

structure SysInv (c : Prop) (s : State) : Prop where
  agreed : Offer.SysInv False s
  closed : Closed s.world
  idle : s.task = none → Covered c [] s.world
  task : ∀ task, s.task = some task →
    TaskSafe c task.offer task.reads task.rest (fun _ w => Covered c [] w) s.world

variable {s t : State}

/-- The rest of the site moves. -/
theorem SysInv.env {w' : World} (hs : SysInv c s)
    (hagreed : Offer.SysInv False { s with world := w' })
    (he : Around c s.world w') : SysInv c { s with world := w' } where
  agreed := hagreed
  closed := by
    intro X hX
    rw [he.inbox] at hX
    exact he.completions X ▸ hs.closed X hX
  idle := fun hnone => (hs.idle hnone).around he
  task := by
    intro task htask
    have hsafe := hs.task task htask
    cases hrest : task.rest with
    | ret r =>
        rw [hrest] at hsafe
        exact Covered.around hsafe he
    | call q k =>
        rw [hrest] at hsafe
        exact fun w₁ h₁ => hsafe w₁ (he.trans h₁)

theorem payload_of_isCompletionOf {row : OutboxRow}
    (hrow : isCompletionOf X row = true) :
    payloadOperationId row.entry.payload = none := by
  unfold isCompletionOf messageOf at hrow
  unfold payloadOperationId
  split
  · next hp => simp [hp] at hrow
  · rfl

theorem around_drive {state : OperationState} {now : Instant}
    {table : OperationTable}
    (hforward : c → ∀ row, w.operations.find X = some row →
      row.state.rank < state.rank)
    (hok : applyTransition w.operations X state now = .ok table)
    (hagreed : Agreed { w with operations := table }) :
    Around c w { w with operations := table } := by
  refine ⟨rfl, rfl, fun _ => rfl, fun k => ?_, hagreed⟩
  obtain ⟨row, hrow, -, hfind⟩ := applyTransition_ok hok
  rw [hfind]
  split
  · next hk =>
      rw [hk, hrow]
      exact ⟨rfl, fun hc => .inr (hforward hc row hrow)⟩
  · exact .refl _ _

theorem around_classify {kind : FailureKind} {table : OperationTable}
    (hok : recordFailureKind w.operations X kind = .ok table)
    (hagreed : Agreed { w with operations := table }) :
    Around c w { w with operations := table } := by
  refine ⟨rfl, rfl, fun _ => rfl, fun k => ?_, hagreed⟩
  obtain ⟨row, hrow, hfind⟩ := recordFailureKind_ok hok
  rw [hfind]
  split
  · next hk =>
      rw [hk, hrow]
      exact ⟨rfl, fun _ => .inl rfl⟩
  · exact .refl _ _

theorem around_submit {operation : Operation} {table : OperationTable}
    (hsource : operation.source ≠ .center)
    (hinbox : w.inbox.find operation.id = none)
    (hok : createOperation w.operations operation = .ok table)
    (hagreed : Agreed { w with operations := table }) :
    Around c w { w with operations := table } := by
  refine ⟨rfl, rfl, fun _ => rfl, fun k => ?_, hagreed⟩
  rw [createOperation_ok hok]
  split
  · next hnew =>
      rw [hnew.2, hnew.1]
      exact ⟨by rw [inboxState, hinbox]; rfl, hsource⟩
  · exact .refl _ _

theorem completions_content {entryId : OutboxEntryId} {payload : Payload}
    {now : Instant} {entry : OutboxEntry} {table : OutboxTable}
    (hok : Store.enqueueOutboxEntry w.outbox entryId instanceId
      (.content payload) now = .ok (entry, table)) :
    table.rows.countP (isCompletionOf X) = completions w X := by
  obtain ⟨sequence, -, -, -, -, hrows⟩ := enqueueOutboxEntry_ok hok
  rw [hrows, List.countP_append]
  rfl

theorem around_outbox {table : OutboxTable}
    (hcount : ∀ X, table.rows.countP (isCompletionOf X) = completions w X)
    (hagreed : Agreed { w with outbox := table }) :
    Around c w { w with outbox := table } :=
  ⟨rfl, rfl, hcount, fun _ => .refl _ _, hagreed⟩

theorem SysInv.call (hs : SysInv c s) {o : Oracle}
    (h : next instanceId s (.call o) = some t)
    (hagreed : Offer.SysInv False t) : SysInv c t := by
  simp only [next] at h
  split at h
  · next offer reads q k htask =>
      cases h
      have hsafe := hs.task _ htask
      have hagreed' : Agreed s.world := hs.agreed.views
      have haround : Around c s.world s.world :=
        ⟨rfl, rfl, fun _ => rfl, fun _ => .refl _ _, hagreed'⟩
      obtain ⟨hclosed, hrest⟩ := hsafe s.world haround _ _
        ⟨hagreed', hagreed.views, _, o, rfl⟩
      refine ⟨hagreed, hclosed hs.closed, fun hnone => (by cases hnone), ?_⟩
      rintro task ⟨⟩
      exact hrest
  · cases h

theorem SysInv.step (hs : SysInv c s) (h : StepIf c instanceId s t) :
    SysInv c t := by
  obtain ⟨l, hforward, h⟩ := h
  have hagreed : Offer.SysInv False t := (hs.agreed.step ⟨l, False.elim, h⟩).inv
  cases l with
  | deliver received now reads =>
      simp only [next] at h
      split at h
      · next offer hnone _ =>
          split at h
          · cases h
          · cases h
            refine ⟨hagreed, hs.closed, fun hnone => (by cases hnone), ?_⟩
            rintro task ⟨⟩
            have hsafe : TaskSafe c (some offer) reads
                (handleOffer instanceId offer received now).run
                (fun _ w => Covered c [] w) s.world :=
              handleOffer_safe (hs.idle hnone)
            exact Safe.bind.mpr (hsafe.imp fun _ _ h => h)
      · cases h
  | report =>
      simp only [next] at h
      split at h
      · next hnone =>
          cases h
          refine ⟨hagreed, hs.closed, fun hnone => (by cases hnone), ?_⟩
          rintro task ⟨⟩
          have hsafe : TaskSafe c none .none
              (reportCenterOperations instanceId).run
              (fun _ w => Covered c [] w) s.world :=
            reportCenterOperations_safe (hs.idle hnone)
          exact Safe.bind.mpr (hsafe.imp fun _ _ h => h)
      · cases h
  | call o => exact hs.call h hagreed
  | finish =>
      simp only [next] at h
      split at h
      · next htask =>
          cases h
          exact ⟨hagreed, hs.closed, fun _ => hs.task _ htask,
            fun task htask => (by cases htask)⟩
      · cases h
  | crash =>
      cases h
      exact ⟨hagreed, hs.closed, fun _ hdone => (by cases hdone),
        fun task htask => (by cases htask)⟩
  | drive X state now =>
      simp only [next] at h
      split at h
      · next table hok =>
          cases h
          have he : Around c s.world { s.world with operations := table } :=
            around_drive hforward hok hagreed.views
          exact hs.env hagreed he
      · cases h
  | classify X kind =>
      simp only [next] at h
      split at h
      · next table hok =>
          cases h
          have he : Around c s.world { s.world with operations := table } :=
            around_classify hok hagreed.views
          exact hs.env hagreed he
      · cases h
  | submit id source targets command createdAt =>
      simp only [next] at h
      split at h
      · cases h
      · next hfree =>
          rw [not_or, not_or, not_or] at hfree
          obtain ⟨hsource, -, hinbox, -⟩ := hfree
          split at h
          · next table hok =>
              cases h
              have hinbox : s.world.inbox.find id = none := by
                simpa [Table.has] using hinbox
              have he : Around c s.world { s.world with operations := table } :=
                around_submit hsource hinbox hok hagreed.views
              exact hs.env hagreed he
          · cases h
  | queue entryId payload createdAt =>
      simp only [next] at h
      split at h
      · next entry table hok =>
          cases h
          have he : Around c s.world { s.world with outbox := table } :=
            around_outbox (fun X => completions_content hok) hagreed.views
          exact hs.env hagreed he
      · cases h
  | acknowledge entryId ackedAt =>
      simp only [next] at h
      split at h
      · next outcome table hok =>
          cases h
          have hcount : ∀ X, table.rows.countP (isCompletionOf X) =
              completions s.world X := fun X =>
            hs.agreed.column.countP_ack (fun _ => payload_of_isCompletionOf)
              (fun _ => rfl) hok
          have he : Around c s.world { s.world with outbox := table } :=
            around_outbox hcount hagreed.views
          exact hs.env hagreed he
      · cases h

theorem SysInv.of_reach
    (h : Reach (· = init) (StepIf c instanceId) s) : SysInv c s := by
  refine h.inv (P := SysInv c) ?_ fun _ _ hs => hs.step
  rintro _ rfl
  exact ⟨.init, fun X hX => (by cases hX), fun _ hdone => (by cases hdone),
    fun task htask => (by cases htask)⟩

/-- Whatever is delivered, reported or crashes: where operations move forward,
every operation of the center with an open entry is in the progress map when the
discovery scan is done; and the entry of such an operation is closed only when
its completion is queued, wherever operations move. -/
theorem center_operations_reported (instanceId : InstanceId) :
    (∀ s, Reach (· = init) (ForwardStep instanceId) s → s.task = none →
      s.world.progress.discoveryDone = true →
      ∀ X row, s.world.operations.find X = some row → row.source = .center →
        (∃ entry, s.world.inbox.find X = some entry ∧
          entry.state.isTerminal = false) →
        X ∈ s.world.progress.lastProgress.map (·.1)) ∧
    ∀ s, Reach (· = init) (Next (next instanceId)) s →
      ∀ X row, s.world.operations.find X = some row → row.source = .center →
        ∀ entry, s.world.inbox.find X = some entry →
          entry.state.isTerminal = true →
            ∃ queued ∈ s.world.outbox.rows, isCompletionOf X queued = true := by
  constructor
  · rintro s hs hnone hdone X row hrow hcenter ⟨entry, hentry, hopen⟩
    have h : SysInv True s := .of_reach (hs.mono (fun _ h => h)
      fun _ _ hstep => hstep.imp fun l hl => ⟨fun _ => hl.1, hl.2⟩)
    have hopen : Open s.world X := by
      rw [Open, inboxState, hentry, Option.map_some]
      cases hstate : entry.state with
      | received => exact .inl rfl
      | accepted => exact .inr rfl
      | rejected =>
          rw [hstate] at hopen
          cases hopen
      | completed =>
          rw [hstate] at hopen
          cases hopen
    rcases h.idle hnone hdone trivial X row hrow hcenter hopen with
      hknown | hin | hin
    · exact hknown
    · cases hin
    · cases hin
  · intro s hs X row hrow hcenter entry hentry hterminal
    have h : SysInv False s := .of_reach (hs.mono (fun _ h => h)
      fun _ _ hstep => hstep.imp fun l hl => ⟨False.elim, hl⟩)
    have hstate : inboxState s.world.inbox X = some entry.state := by
      rw [inboxState, hentry]
      rfl
    refine List.countP_pos_iff.mp (h.closed X ?_)
    have hviews : Agreed s.world := h.agreed.views
    have hnot := (hviews.entry hrow hcenter).2
    rw [hstate] at hnot ⊢
    cases hs : entry.state with
    | completed => rfl
    | rejected => exact absurd (congrArg some hs) hnot
    | received =>
        rw [hs] at hterminal
        cases hterminal
    | accepted =>
        rw [hs] at hterminal
        cases hterminal

/-- A driver takes an operation back. -/
def retreats (s : State) : Label → Bool
  | .drive X state _ => (s.world.operations.find X).any fun row =>
      state.rank ≤ row.state.rank
  | _ => false

/-- The same step as a function. -/
def nextForward (instanceId : InstanceId) (s : State) (l : Label) :
    Option State :=
  if retreats s l then none else next instanceId s l

theorem forward_of_retreats {l : Label} (h : retreats s l = false) :
    Forward s l := by
  cases l with
  | drive X state now =>
      intro row hrow
      simp only [retreats, hrow, Option.any_some, decide_eq_false_iff_not] at h
      exact Nat.lt_of_not_le h
  | _ => trivial

theorem forwardStep_of_nextForward (h : Next (nextForward instanceId) s t) :
    ForwardStep instanceId s t := by
  obtain ⟨l, h⟩ := h
  unfold nextForward at h
  split at h
  · cases h
  · next hl => exact ⟨l, forward_of_retreats (by simpa using hl), h⟩

/-- An accepted offer begins to be validated, the process is started again and
reports. -/
def acceptedAndRestarted : List Label :=
  [.deliver (Offer.resetOffer "On") 100 (Offer.rechecks .supported)] ++
    Offer.calls 11 20 ++ [.finish, .drive ⟨1⟩ .validating 101, .crash, .report] ++
    Offer.calls 16 21 ++ [.finish]

theorem center_operations_reported_restarted : ∃ s,
    Reach (· = init) (ForwardStep ⟨5⟩) s ∧
      s.world.progress.discoveryDone = true ∧
      ⟨1⟩ ∈ s.world.progress.lastProgress.map (·.1) := by
  obtain ⟨s, hs, h⟩ := exists_reach_of_follow (· = init) (nextForward ⟨5⟩)
    acceptedAndRestarted
    (fun s => s.task.isNone && s.world.progress.discoveryDone &&
      ((s.world.operations.find ⟨1⟩).any fun row => row.source = .center) &&
      (s.world.inbox.find ⟨1⟩).any fun entry => !entry.state.isTerminal)
    rfl (by decide +kernel)
  simp only [Bool.and_eq_true, Option.isNone_iff_eq_none, Option.any_eq_true,
    decide_eq_true_eq, Bool.not_eq_true'] at h
  obtain ⟨⟨⟨hnone, hdone⟩, row, hrow, hcenter⟩, entry, hentry, hopen⟩ := h
  have hs := hs.mono (fun _ h => h) fun _ _ => forwardStep_of_nextForward
  exact ⟨s, hs, hdone, (center_operations_reported ⟨5⟩).1 s hs hnone hdone ⟨1⟩
    row hrow hcenter ⟨entry, hentry, hopen⟩⟩

end Rutilus.Proofs.Report
