import Rutilus.Lib.Listing
import Rutilus.Lib.Outcome
import Rutilus.Store.Audit

/-!
# Every stored trail is a trail

One relation says when an event may follow another. Both checks of the store are
about it: the check of an append asks it of the last event and the new one, the
check of a stored trail of any two neighbours. A row is read back to the event it
was written for unless its event is one that the table refuses, so the rows of an
operation are always the appended events, and they are read back as such.
-/

namespace Rutilus.Proofs.AuditTrails

open Rutilus.Domain hiding AuditRedfishOperation
open Rutilus.Domain.Audit Rutilus.Domain.Endpoint Rutilus.Lib Rutilus.Store
open Rutilus.Store.Audit

variable {parseUrl : ParseUrl}

/-! ## Trails -/

/-- `event` may come right after `previous`. -/
structure Follows (previous event : AuditEvent parseUrl) : Prop where
  running : previous.outcome.isTerminal = false
  sequence : event.sequence.get = previous.sequence.get + 1
  context : event.context = previous.context
  time : previous.occurredAt ≤ event.occurredAt

structure Trail (events : List (AuditEvent parseUrl)) : Prop where
  starts : ∀ event ∈ events.head?, event.outcome = .started
  chain : events.IsChain Follows

section Trail

variable {events : List (AuditEvent parseUrl)} {first event : AuditEvent parseUrl}

theorem Trail.nil : Trail ([] : List (AuditEvent parseUrl)) :=
  ⟨fun _ h => absurd h (by simp), .nil⟩

theorem Trail.single (h : event.outcome = .started) : Trail [event] :=
  ⟨fun _ he => Option.mem_some_iff.mp he ▸ h, List.isChain_singleton event⟩

theorem Trail.append (h : Trail events) {last : AuditEvent parseUrl}
    (hlast : events.getLast? = some last) (hfollows : Follows last event) :
    Trail (events ++ [event]) := by
  have hne : events ≠ [] := by
    rintro rfl
    cases hlast
  refine ⟨fun e he => ?_, ?_⟩
  · rw [List.head?_append_of_ne_nil _ hne] at he
    exact h.starts e he
  · refine List.isChain_append.mpr ⟨h.chain, List.isChain_singleton event, ?_⟩
    intro x hx y hy
    rw [hlast] at hx
    cases hx
    cases hy
    exact hfollows

/-- The sequences of a chain count on from its first one. -/
theorem sequences_of_chain (h : (first :: events).IsChain Follows) :
    (first :: events).map (fun e => e.sequence.get) =
      List.range' first.sequence.get (events.length + 1) := by
  induction events generalizing first with
  | nil => rfl
  | cons event rest ih =>
      obtain ⟨hfollows, hrest⟩ := List.isChain_cons_cons.mp h
      rw [List.map_cons, ih hrest, hfollows.sequence]
      rfl

theorem Trail.sequences (h : Trail events) :
    events.map (fun e => e.sequence.get) = List.range' 1 events.length := by
  cases events with
  | nil => rfl
  | cons first rest =>
      have hone : first.sequence.get = 1 :=
        AuditEvent.sequence_eq_first_iff.mpr (h.starts first rfl)
      rw [sequences_of_chain h.chain, hone]
      rfl

theorem open_of_chain (h : events.IsChain Follows) :
    ∀ event ∈ events.dropLast, event.outcome.isTerminal = false := by
  induction events with
  | nil => exact fun _ he => absurd he List.not_mem_nil
  | cons first rest ih =>
      cases rest with
      | nil => exact fun _ he => absurd he List.not_mem_nil
      | cons second rest =>
          obtain ⟨hfollows, hrest⟩ := List.isChain_cons_cons.mp h
          intro event he
          rw [List.dropLast_cons_cons] at he
          rcases List.mem_cons.mp he with rfl | he
          · exact hfollows.running
          · exact ih hrest event he

theorem context_of_chain (h : (first :: events).IsChain Follows) :
    ∀ event ∈ events, event.context = first.context := by
  induction events generalizing first with
  | nil => exact fun _ he => absurd he List.not_mem_nil
  | cons second rest ih =>
      obtain ⟨hfollows, hrest⟩ := List.isChain_cons_cons.mp h
      intro event he
      rcases List.mem_cons.mp he with rfl | he
      · exact hfollows.context
      · exact (ih hrest event he).trans hfollows.context

theorem Trail.context (h : Trail events) :
    ∀ a ∈ events, ∀ b ∈ events, a.context = b.context := by
  cases events with
  | nil => exact fun _ ha => absurd ha List.not_mem_nil
  | cons first rest =>
      have hfirst : ∀ e ∈ first :: rest, e.context = first.context := by
        intro e he
        rcases List.mem_cons.mp he with rfl | he
        · rfl
        · exact context_of_chain h.chain e he
      exact fun a ha b hb => (hfirst a ha).trans (hfirst b hb).symm

theorem Trail.times (h : Trail events) :
    events.Pairwise fun a b => a.occurredAt ≤ b.occurredAt := by
  have hchain : (events.map AuditEvent.occurredAt).IsChain (· ≤ ·) :=
    List.isChain_map_of_isChain _ (fun a b hab => hab.time) h.chain
  exact List.pairwise_map.mp (List.isChain_iff_pairwise.mp hchain)

/-! ## The two checks -/

theorem validateAppend_none {operationId : AuditOperationId}
    (h : validateAppend operationId none event = .ok ()) :
    event.outcome = .started := by
  unfold validateAppend at h
  dsimp only at h
  split at h
  · next hfirst =>
      cases houtcome : event.outcome with
      | started => rfl
      | _ =>
          rw [houtcome] at hfirst
          cases hfirst.2
  · cases h

theorem validateAppend_some {operationId : AuditOperationId}
    {previous : AuditEvent parseUrl}
    (h : validateAppend operationId (some previous) event = .ok ()) :
    Follows previous event := by
  unfold validateAppend at h
  dsimp only at h
  split at h
  · cases h
  · next hopen =>
      split at h
      · cases h
      · next expected hnext =>
          split at h
          · cases h
          · next hsequence =>
              split at h
              · cases h
              · next hcontext =>
                  split at h
                  · cases h
                  · next htime =>
                      have heq : event.sequence = expected := not_not.mp hsequence
                      exact ⟨eq_false_of_ne_true hopen,
                        heq ▸ AuditSequence.next_ok hnext, not_not.mp hcontext,
                        Int.not_lt.mp htime⟩

theorem validateFrom_of_chain (h : (first :: events).IsChain Follows) :
    validateFrom first events = .ok () := by
  induction events generalizing first with
  | nil => rfl
  | cons event rest ih =>
      obtain ⟨hfollows, hrest⟩ := List.isChain_cons_cons.mp h
      unfold validateFrom
      rw [if_neg (by rw [hfollows.running]; decide),
        AuditSequence.next_of_get hfollows.sequence]
      dsimp only
      rw [if_neg (not_not.mpr rfl), if_neg (not_not.mpr hfollows.context),
        if_neg (Int.not_lt.mpr hfollows.time)]
      exact ih hrest

theorem AuditSequence.eq_first {s : AuditSequence} (h : s.get = 1) :
    s = AuditSequence.first := by
  obtain ⟨n, hpos, hbound⟩ := s
  obtain rfl : n = 1 := h
  rfl

theorem Trail.validated (h : Trail events) :
    validateStoredTrail events = .ok () := by
  cases events with
  | nil => rfl
  | cons first rest =>
      have hstarted : first.outcome = .started := h.starts first rfl
      have hsequence : first.sequence = .first :=
        AuditSequence.eq_first (AuditEvent.sequence_eq_first_iff.mpr hstarted)
      have hpass : ¬(first.sequence ≠ .first ∨ first.outcome.kind ≠ .started) := by
        rw [hsequence, hstarted]
        decide
      exact (if_neg hpass).trans (validateFrom_of_chain h.chain)

end Trail

/-! ## Rows -/

/-- An event whose row can be read back. -/
structure Storable (event : AuditEvent parseUrl) : Prop where
  rows : ∀ rowCount, event.context.parameters = .csvEndpointImport rowCount →
    rowCount ≠ 0
  target : event.context.targetPrincipalId.isSome = true →
    event.context.action = .changePassword

theorem action_of_asStr {action : AuditAction}
    (h : action.asStr = "change-password") : action = .changePassword := by
  have hback := AuditAction.fromStr_asStr action
  rw [h] at hback
  exact (Option.some.inj hback).symm

/-- The table refuses what could not be read back. -/
theorem storable_of_checks {event : AuditEvent parseUrl}
    (h : checks (projectEvent event) = true) : Storable event := by
  unfold checks at h
  simp only [Bool.and_eq_true] at h
  obtain ⟨⟨⟨⟨⟨⟨-, htarget⟩, -⟩, -⟩, hparameters⟩, -⟩, -⟩ := h
  refine ⟨fun rowCount heq => ?_, fun hsome => ?_⟩
  · rintro rfl
    have hrow : ∀ row : AuditEventModel, ckParameters row = true →
        row.parameterKind = "csv-endpoint-import" → row.rowCount ≠ some 0 := by
      intro row hrow hkind hcount
      unfold ckParameters at hrow
      rw [hkind, hcount] at hrow
      simp at hrow
    have hproject : projectParameters event.context.parameters =
        ("csv-endpoint-import", none, none, some 0) := by
      rw [heq]
      rfl
    refine hrow (projectEvent event) hparameters ?_ ?_
    · exact congrArg (·.1) hproject
    · exact congrArg (·.2.2.2) hproject
  · unfold ckTargetPrincipal projectEvent at htarget
    dsimp only at htarget
    rcases of_decide_eq_true htarget with hnone | ⟨haction, -⟩
    · rw [Option.isNone_map, Option.isNone_iff_eq_none] at hnone
      rw [hnone] at hsome
      cases hsome
    · exact action_of_asStr haction

section Project

variable {event : AuditEvent parseUrl}

theorem mapTarget_project (hurl : parseUrl.RoundTrips) {model : AuditEventModel}
    {target : AuditTarget parseUrl} (hkind : model.targetKind = (projectTarget target).1)
    (hid : model.targetEndpointId = (projectTarget target).2.1)
    (haddress : model.targetEndpointAddress = (projectTarget target).2.2) :
    mapTarget parseUrl model = .ok target := by
  unfold mapTarget
  cases target with
  | product =>
      dsimp only [projectTarget] at hkind hid haddress
      rw [hid, haddress, hkind]
      rfl
  | endpoint endpointId =>
      dsimp only [projectTarget] at hkind hid haddress
      rw [hid, haddress, hkind]
      rfl
  | endpointAddress address =>
      dsimp only [projectTarget] at hkind hid haddress
      rw [hid, haddress, hkind]
      dsimp only
      rw [if_pos rfl, EndpointAddress.parse_toString hurl]

theorem mapParameters_project {model : AuditEventModel}
    {parameters : AuditParameterSummary}
    (hrows : ∀ rowCount, parameters = .csvEndpointImport rowCount → rowCount ≠ 0)
    (hkind : model.parameterKind = (projectParameters parameters).1)
    (hcredential : model.credentialId = (projectParameters parameters).2.1)
    (htrust : model.trustMode = (projectParameters parameters).2.2.1)
    (hcount : model.rowCount = (projectParameters parameters).2.2.2) :
    mapParameters model = .ok parameters := by
  unfold mapParameters
  cases parameters with
  | endpointRefresh =>
      dsimp only [projectParameters] at hkind hcredential htrust hcount
      rw [hcredential, htrust, hcount, hkind]
      rfl
  | endpointEnrollment credentialId trust =>
      dsimp only [projectParameters] at hkind hcredential htrust hcount
      rw [hcredential, htrust, hcount, hkind]
      dsimp only
      rw [if_pos rfl, AuditTlsTrust.fromStr_asStr]
      rfl
  | csvEndpointImport rowCount =>
      have hbound : rowCount.toNat < 4294967296 := rowCount.toNat_lt
      dsimp only [projectParameters] at hkind hcredential htrust hcount
      rw [hcredential, htrust, hcount, hkind]
      dsimp only
      rw [if_pos rfl, if_pos ⟨Int.natCast_nonneg _, by omega⟩,
        Int.toNat_natCast, UInt32.ofNat_toNat]
      unfold AuditParameterSummary.csvEndpointImportOf
      rw [if_neg (hrows rowCount rfl)]
      rfl

theorem tryNew_self (context : AuditOperationContext parseUrl) :
    AuditOperationContext.tryNewWithActorPrincipal context.operationId context.actor
      context.origin context.target context.parameters context.permission
      context.action context.redfishOperation context.actorPrincipalId =
      some { context with targetPrincipalId := none } := by
  unfold AuditOperationContext.tryNewWithActorPrincipal
  rw [dif_pos context.principal, dif_pos context.consistent]

theorem mapContext_project (hurl : parseUrl.RoundTrips) (h : Storable event) :
    mapContext parseUrl (projectEvent event) = .ok event.context := by
  have hprincipal : ((event.context.actorPrincipalId.map
      fun p : User.PrincipalId => p.uuid).map User.PrincipalId.mk) =
      event.context.actorPrincipalId := by
    cases event.context.actorPrincipalId <;> rfl
  have htarget : mapTarget parseUrl (projectEvent event) = .ok event.context.target :=
    mapTarget_project hurl rfl rfl rfl
  have hparameters : mapParameters (projectEvent event) =
      .ok event.context.parameters :=
    mapParameters_project h.rows rfl rfl rfl rfl
  unfold mapContext
  rw [htarget, hparameters]
  unfold projectEvent
  dsimp only
  rw [AuditActor.fromStr_asStr, DeploymentPosture.fromStr_asStr,
    ProductPermission.fromStr_asStr, AuditAction.fromStr_asStr,
    AuditRedfishOperation.fromStr_asStr, hprincipal]
  simp only [orUnknown, bind, Except.bind]
  rw [tryNew_self]
  have haction := h.target
  generalize event.context = context at haction ⊢
  obtain ⟨_, _, _, _, _, _, action, _, _, targetPrincipalId, _, _⟩ := context
  cases targetPrincipalId with
  | none => rfl
  | some targetPrincipalId =>
      obtain rfl : action = .changePassword := haction rfl
      rfl

theorem mapSequence_project :
    mapSequence (projectEvent event) = .ok event.sequence := by
  obtain ⟨id, context, ⟨n, hpos, hbound⟩, outcome, occurredAt, hs, hp⟩ := event
  unfold mapSequence projectEvent
  dsimp only
  rw [dif_pos ⟨Int.natCast_nonneg n, by omega⟩]
  simp only [Int.toNat_natCast, AuditSequence.tryNew, dif_pos hpos]

theorem mapOutcome_project :
    mapOutcome (projectEvent event) = .ok event.outcome := by
  unfold mapOutcome projectEvent
  dsimp only
  rw [AuditOutcomeKind.fromStr_asStr]
  cases event.outcome with
  | started => rfl
  | succeeded => rfl
  | progress milestone => cases milestone <;> rfl
  | failed failure verification =>
      cases verification <;> cases failure <;> rfl

/-- A row is read back to its event. -/
theorem mapStoredEvent_project (hurl : parseUrl.RoundTrips) (h : Storable event) :
    mapStoredEvent parseUrl (projectEvent event) = .ok event := by
  unfold mapStoredEvent
  rw [mapContext_project hurl h, mapSequence_project, mapOutcome_project]
  show (AuditEvent.tryFromParts event.id event.context event.sequence event.outcome
    event.occurredAt).mapError _ = _
  rw [AuditEvent.tryFromParts_self]
  rfl

end Project

/-! ## What the store holds -/

/-- The rows are the appended events, and what is appended is trails. -/
structure Inv (s : State parseUrl) : Prop where
  rows : s.table.rows = s.appended.map projectEvent
  storable : ∀ event ∈ s.appended, Storable event
  trails : ∀ operationId, Trail (s.trail operationId)

variable {s s' : State parseUrl}

theorem Inv.initial (h : Initial s) : Inv s := by
  obtain ⟨table, appended⟩ := s
  obtain ⟨rfl, rfl⟩ := h
  exact ⟨rfl, fun _ h => absurd h List.not_mem_nil, fun _ => .nil⟩

theorem Inv.modelsOf (h : Inv s) (operationId : AuditOperationId) :
    modelsOf s.table operationId = (s.trail operationId).map projectEvent := by
  have hrows : (s.table.rows.filter fun row =>
      row.operationId = operationId.uuid) =
      (s.trail operationId).map projectEvent := by
    rw [h.rows, List.filter_map]
    refine congrArg (List.map projectEvent) (List.filter_congr fun event _ => ?_)
    refine decide_eq_decide.mpr ⟨fun heq => ?_, fun heq => congrArg (·.uuid) heq⟩
    exact congrArg AuditOperationId.mk heq
  have hsorted : ((s.trail operationId).map projectEvent).Pairwise
      fun a b => a.eventSequence ≤ b.eventSequence := by
    have hnumbers : ((s.trail operationId).map
        fun e => e.sequence.get).Pairwise (· < ·) := by
      rw [(h.trails operationId).sequences]
      exact List.pairwise_lt_range'
    refine List.pairwise_map.mpr ((List.pairwise_map.mp hnumbers).imp ?_)
    exact fun hlt => Int.ofNat_le.mpr (Nat.le_of_lt hlt)
  unfold Audit.modelsOf
  rw [hrows]
  exact hsorted.insertionSort_eq

/-- What is read is what was appended. -/
theorem Inv.find (h : Inv s) (hurl : parseUrl.RoundTrips)
    (operationId : AuditOperationId) :
    findAuditOperation parseUrl s.table operationId =
      .ok (s.trail operationId) := by
  have hstorable : ∀ event ∈ s.trail operationId, Storable event :=
    fun event hevent => h.storable event (List.mem_filter.mp hevent).1
  have hread : ((s.trail operationId).map projectEvent).mapM
      (mapStoredEvent parseUrl) = .ok (s.trail operationId) := by
    generalize s.trail operationId = events at hstorable
    induction events with
    | nil => rfl
    | cons event rest ih =>
        rw [List.map_cons, List.mapM_cons, mapStoredEvent_project hurl
          (hstorable event List.mem_cons_self),
          ih fun e he => hstorable e (List.mem_cons_of_mem _ he)]
        rfl
  unfold findAuditOperation
  rw [h.modelsOf operationId, hread]
  simp only [Except.mapError, bind, Except.bind, (h.trails operationId).validated]
  rfl

theorem trail_append (s : State parseUrl) (table : AuditTable)
    (event : AuditEvent parseUrl) (operationId : AuditOperationId) :
    State.trail ⟨table, s.appended ++ [event]⟩ operationId =
      if event.context.operationId = operationId then
        s.trail operationId ++ [event]
      else s.trail operationId := by
  unfold State.trail
  rw [List.filter_append]
  split
  · next heq => rw [List.filter_cons_of_pos (by simpa using heq), List.filter_nil]
  · next hne =>
      rw [List.filter_cons_of_neg (by simpa using hne), List.filter_nil,
        List.append_nil]

/-- An insert that succeeds adds a row the table accepts. -/
theorem insert_ok {t t' : AuditTable} {row : AuditEventModel}
    (h : insert t row = .ok t') :
    t'.rows = t.rows ++ [row] ∧ checks row = true := by
  unfold Audit.insert at h
  split at h
  · cases h
  · next hfree =>
      cases h
      obtain ⟨hkey, hrest⟩ := not_or.mp hfree
      refine ⟨Table.rows_insertNew ?_, eq_true_of_ne_false (not_or.mp hrest).2⟩
      simpa [Table.has] using hkey

/-- What one append does: it fails and leaves the table, it meets its own event at
the end of the trail, or it adds the event's row to a trail it may continue. -/
theorem Inv.append_cases (h : Inv s) (hurl : parseUrl.RoundTrips)
    (fault : Option Fault) (event : AuditEvent parseUrl) :
    (∃ e, appendAuditEvent fault event s.table = (.error e, s.table)) ∨
    (appendAuditEvent fault event s.table = (.ok (), s.table) ∧
      s.record event = s.appended) ∨
    ∃ t', appendAuditEvent fault event s.table = (.ok (), t') ∧
      s.record event = s.appended ++ [event] ∧ Inv ⟨t', s.appended ++ [event]⟩ := by
  rcases transaction_cases AuditRepositoryError.fault fault s.table
    (fun t => append t event) with ⟨e, hfail⟩ | ⟨u, t', -, hbody, hdone⟩
  · exact .inl ⟨e, hfail⟩
  · obtain ⟨existing, hexisting, hbody⟩ := bind_ok hbody
    rw [h.find hurl] at hexisting
    cases hexisting
    split at hbody
    · next hagain =>
        cases hbody
        exact .inr (.inl ⟨hdone, if_pos hagain⟩)
    · next hnew =>
        obtain ⟨v, hvalid, hbody⟩ := bind_ok hbody
        obtain ⟨t'', hinsert, hbody⟩ := bind_ok hbody
        cases hbody
        obtain ⟨hrows, hchecks⟩ := insert_ok hinsert
        refine .inr (.inr ⟨_, hdone, if_neg hnew, ?_, ?_, fun operationId => ?_⟩)
        · rw [hrows, h.rows, List.map_append]
          rfl
        · intro e he
          rcases List.mem_append.mp he with he | he
          · exact h.storable e he
          · exact List.mem_singleton.mp he ▸ storable_of_checks hchecks
        · rw [trail_append]
          split
          · next heq =>
              subst heq
              cases hlast : (s.trail event.context.operationId).getLast? with
              | none =>
                  rw [hlast] at hvalid
                  rw [List.getLast?_eq_none_iff.mp hlast]
                  exact .single (validateAppend_none hvalid)
              | some previous =>
                  rw [hlast] at hvalid
                  exact (h.trails _).append hlast (validateAppend_some hvalid)
          · exact h.trails operationId

theorem Inv.next (h : Inv s) (hurl : parseUrl.RoundTrips)
    {l : Option Fault × AuditEvent parseUrl} (hstep : next s l = some s') :
    Inv s' := by
  unfold Audit.next at hstep
  rcases h.append_cases hurl l.1 l.2 with ⟨e, hfail⟩ | ⟨hok, hrecord⟩ |
    ⟨t', hok, hrecord, hinv⟩
  · rw [hfail] at hstep
    cases hstep
    exact h
  · rw [hok, hrecord] at hstep
    cases hstep
    exact h
  · rw [hok, hrecord] at hstep
    cases hstep
    exact hinv

theorem inv_of_reach (hurl : parseUrl.RoundTrips)
    (h : Reach Initial (Next next) s) : Inv s :=
  h.inv (fun _ => Inv.initial) fun _ _ hinv ⟨_, hstep⟩ => hinv.next hurl hstep

/-- The events of one operation, as an audit reader expects them. -/
structure WellFormed (events : List (AuditEvent parseUrl)) : Prop where
  numbered : events.map (fun e => e.sequence.get) = List.range' 1 events.length
  started : ∀ event ∈ events.head?, event.outcome = .started
  terminal : ∀ event ∈ events.dropLast, event.outcome.isTerminal = false
  context : ∀ a ∈ events, ∀ b ∈ events, a.context = b.context
  times : events.Pairwise fun a b => a.occurredAt ≤ b.occurredAt

theorem Trail.wellFormed {events : List (AuditEvent parseUrl)} (h : Trail events) :
    WellFormed events :=
  ⟨h.sequences, h.starts, open_of_chain h.chain, h.context, h.times⟩

/-- The last event of a trail is there, so its append has nothing to do. -/
theorem Inv.append_again (h : Inv s) (hurl : parseUrl.RoundTrips)
    {event : AuditEvent parseUrl}
    (hlast : (s.trail event.context.operationId).getLast? = some event) :
    appendAuditEvent none event s.table = (.ok (), s.table) := by
  have hagain : append s.table event = .ok ((), s.table) := by
    unfold Audit.append
    dsimp only
    rw [h.find hurl]
    show (if _ then _ else _) = _
    rw [if_pos]
    · rfl
    · rw [hlast]
      exact decide_eq_true rfl
  unfold appendAuditEvent transaction
  dsimp only
  rw [hagain]

/-- In every state a sequence of appends leads to, the rows of each operation are
its appended events in their order, they are well-formed, and they are read back as
they were appended. An append that fails changes nothing, one of the last event
succeeds and changes nothing, and one that succeeds leaves its event at the end. -/
theorem audit_trails_hold (hurl : parseUrl.RoundTrips) (s : State parseUrl)
    (hs : Reach Initial (Next next) s) :
    (∀ operationId, WellFormed (s.trail operationId) ∧
      modelsOf s.table operationId = (s.trail operationId).map projectEvent ∧
      findAuditOperation parseUrl s.table operationId =
        .ok (s.trail operationId)) ∧
    (∀ fault (event : AuditEvent parseUrl) e t,
      appendAuditEvent fault event s.table = (.error e, t) → t = s.table) ∧
    (∀ event : AuditEvent parseUrl,
      (s.trail event.context.operationId).getLast? = some event →
      appendAuditEvent none event s.table = (.ok (), s.table)) ∧
    (∀ fault (event : AuditEvent parseUrl) t,
      appendAuditEvent fault event s.table = (.ok (), t) →
      (t = s.table ∧ ∃ last, (s.trail event.context.operationId).getLast? = some last ∧
        last.id = event.id) ∨
      t.rows = s.table.rows ++ [projectEvent event]) := by
  have h := inv_of_reach hurl hs
  refine ⟨fun operationId => ⟨(h.trails operationId).wellFormed,
    h.modelsOf operationId, h.find hurl operationId⟩, ?_,
    fun event hlast => h.append_again hurl hlast, ?_⟩
  · intro fault event e t hfail
    rcases h.append_cases hurl fault event with ⟨e', hsame⟩ | ⟨hok, -⟩ | ⟨t', hok, -⟩
    · rw [hsame] at hfail
      cases hfail
      rfl
    · rw [hok] at hfail
      cases hfail
    · rw [hok] at hfail
      cases hfail
  · intro fault event t hdone
    rcases h.append_cases hurl fault event with ⟨e', hfail⟩ | ⟨hok, hrecord⟩ |
      ⟨t', hok, hrecord, hinv⟩
    · rw [hfail] at hdone
      cases hdone
    · rw [hok] at hdone
      cases hdone
      refine .inl ⟨rfl, ?_⟩
      unfold State.record at hrecord
      split at hrecord
      · next hagain =>
          obtain ⟨last, hlast, hid⟩ := (Option.any_eq_true _ _).mp hagain
          exact ⟨last, hlast, of_decide_eq_true hid⟩
      · exact absurd hrecord (by simp)
    · rw [hok] at hdone
      cases hdone
      refine .inr ?_
      rw [hinv.rows, List.map_append, h.rows]
      rfl

/-! One enrollment, with a library that knows one address. -/

def address : String := "https://bmc.example.test:8443/redfish"

def parseAddress : ParseUrl := fun value =>
  if value = address then
    some ⟨address, "https", some "bmc.example.test", "", none, none, none⟩
  else none

theorem parseAddress_roundTrips : parseAddress.RoundTrips := by
  intro value url h
  unfold parseAddress at h
  split at h
  · cases h
    rfl
  · cases h

def enrollment : AuditOperationContext parseAddress where
  operationId := ⟨1⟩
  actor := .localOperator
  origin := .standalone
  target := .endpointAddress
    ⟨⟨address, "https", some "bmc.example.test", "", none, none, none⟩,
      ⟨address, rfl⟩, rfl⟩
  parameters := .endpointEnrollment ⟨4⟩ .pinnedCertificate
  permission := .manageEndpoints
  action := .enrollEndpoint
  redfishOperation := .probeCoreCapabilities
  actorPrincipalId := none
  targetPrincipalId := none
  principal := rfl
  consistent := rfl

/-- The trail is written whole, and its last event again. -/
def enrollmentRun : List (Option Fault × AuditEvent parseAddress) :=
  [(none, .started ⟨10⟩ enrollment 5),
    (some .database, ⟨⟨11⟩, enrollment, ⟨2, by decide, by decide⟩,
      .progress .endpointCreated, 6, rfl, rfl⟩),
    (none, ⟨⟨11⟩, enrollment, ⟨2, by decide, by decide⟩, .progress .endpointCreated,
      6, rfl, rfl⟩),
    (none, ⟨⟨12⟩, enrollment, ⟨3, by decide, by decide⟩, .succeeded, 6, rfl, rfl⟩),
    (none, ⟨⟨12⟩, enrollment, ⟨3, by decide, by decide⟩, .succeeded, 6, rfl, rfl⟩)]

theorem enrollment_trail_holds :
    ∃ s : State parseAddress, s.appended.length = 3 ∧
      findAuditOperation parseAddress s.table ⟨1⟩ = .ok (s.trail ⟨1⟩) := by
  obtain ⟨s, hs, hlength⟩ := exists_reach_of_follow Initial next enrollmentRun
    (fun s => s.appended.length = 3) (s := ⟨.empty, []⟩) ⟨rfl, rfl⟩ (by decide)
  exact ⟨s, of_decide_eq_true hlength,
    ((audit_trails_hold parseAddress_roundTrips s hs).1 ⟨1⟩).2.2⟩

end Rutilus.Proofs.AuditTrails
