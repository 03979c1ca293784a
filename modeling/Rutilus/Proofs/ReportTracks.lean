import Rutilus.Proofs.OfferRuns

/-!
# What the site still has to report

A center operation whose inbox entry is open has to be known to the progress map
once the discovery scan is over, or nobody reports its end. `Tracked` says this
with two exceptions that the scan works off: the states it has not asked for yet
and the operations of the query it is working on.

Operations move forward, and the scan asks for the states in that order, so no
move of the others makes an exception larger. This is the condition `c`; nothing
else depends on it. A call of the loop does not
either, but for the creation of an operation, which is put into the map right
after.
-/

namespace Rutilus.Proofs.Report

open Rutilus.Domain Rutilus.Lib Rutilus.Store
open Rutilus.App.CenterSync Rutilus.App.SyncSite
open Rutilus.Proofs.Offer (view)

/-! ## The facts -/

def isCompletionOf (X : OperationId) (row : OutboxRow) : Bool :=
  match messageOf row with
  | some (.operationCompleted id _ _) => id = some X
  | _ => false

/-- How many completions of an operation were queued. -/
def completions (w : World) (X : OperationId) : Nat :=
  w.outbox.rows.countP (isCompletionOf X)

/-- The progress map has the operation. -/
def Known (w : World) (X : OperationId) : Prop :=
  X ∈ w.progress.lastProgress.map (·.1)

/-- The entry of the operation is open. -/
def Open (w : World) (X : OperationId) : Prop :=
  inboxState w.inbox X = some .received ∨ inboxState w.inbox X = some .accepted

/-- A closed entry has a queued completion. -/
def Closed (w : World) : Prop :=
  ∀ X, inboxState w.inbox X = some .completed → 0 < completions w X

/-- Every open operation of the center is in the map, in one of some states or
among some operations. -/
def Tracked (c : Prop) (states : List OperationState) (pending : List OperationId)
    (w : World) : Prop :=
  c → ∀ X row, w.operations.find X = some row → row.source = .center →
    Open w X → Known w X ∨ row.state ∈ states ∨ X ∈ pending

/-- What the three tables agree on, whatever was delivered. -/
def Agreed (w : World) : Prop := ∀ X, (view w X).Inv False

theorem Agreed.entry {w : World} (h : Agreed w) {X : OperationId}
    {row : OperationRow} (hrow : w.operations.find X = some row)
    (hcenter : row.source = .center) :
    inboxState w.inbox X ≠ none ∧ inboxState w.inbox X ≠ some .rejected :=
  (h X).taken (Offer.originOf row) (by simp [view, hrow]) hcenter

/-- With a state come all states an operation can reach from it. -/
def Upward (states : List OperationState) : Prop :=
  ∀ state ∈ states, ∀ state', state.rank < state'.rank → state' ∈ states

theorem upward_nil : Upward [] := fun _ h => absurd h List.not_mem_nil

theorem upward_drop (k : Nat) : Upward (centerReportStates.drop k) := by
  rcases Nat.lt_or_ge k 9 with hk | hk
  · intro state hstate state' hlt
    revert k state
    cases state' <;> decide
  · intro state hstate
    rw [List.drop_eq_nil_of_le hk] at hstate
    cases hstate

/-! ## The moves of the others -/

/-- What happens to the row of an id between two calls: its operation moves
forward, or one of the site's own appears where there is no entry. -/
def RowMoves (c : Prop) (entry : Option InboxEntryState) :
    Option OperationRow → Option OperationRow → Prop
  | some row, some row' => row'.source = row.source ∧
      (c → row'.state = row.state ∨ row.state.rank < row'.state.rank)
  | none, some row' => entry = none ∧ row'.source ≠ .center
  | none, none => True
  | some _, none => False

structure Around (c : Prop) (w w' : World) : Prop where
  inbox : w'.inbox = w.inbox
  progress : w'.progress = w.progress
  completions : ∀ X, completions w' X = completions w X
  rows : ∀ X, RowMoves c (inboxState w.inbox X) (w.operations.find X)
    (w'.operations.find X)
  agreed : Agreed w'

variable {c : Prop} {w w' w'' : World} {X : OperationId} {states : List OperationState}
  {pending : List OperationId}

theorem RowMoves.refl (entry : Option InboxEntryState)
    (row : Option OperationRow) : RowMoves c entry row row := by
  cases row with
  | none => trivial
  | some row => exact ⟨rfl, fun _ => .inl rfl⟩

theorem RowMoves.trans {entry : Option InboxEntryState}
    {x y z : Option OperationRow} (h : RowMoves c entry x y)
    (h' : RowMoves c entry y z) : RowMoves c entry x z := by
  cases x with
  | none =>
      cases y with
      | none => exact h'
      | some y =>
          cases z with
          | none => trivial
          | some z => exact ⟨h.1, fun hz => h.2 (h'.1.symm.trans hz)⟩
  | some x =>
      cases y with
      | none => exact h.elim
      | some y =>
          cases z with
          | none => exact h'
          | some z =>
              refine ⟨h'.1.trans h.1, fun hc => ?_⟩
              rcases h.2 hc with h | h <;> rcases h'.2 hc with h' | h'
              · exact .inl (h'.trans h)
              · exact .inr (h ▸ h')
              · exact .inr (h' ▸ h)
              · exact .inr (h.trans h')

theorem Around.trans (h : Around c w w') (h' : Around c w' w'') :
    Around c w w'' where
  inbox := h'.inbox.trans h.inbox
  progress := h'.progress.trans h.progress
  completions := fun X => (h'.completions X).trans (h.completions X)
  rows := fun X => (h.rows X).trans (h.inbox ▸ h'.rows X)
  agreed := h'.agreed

theorem Around.known (h : Around c w w') : Known w' X ↔ Known w X := by
  rw [Known, h.progress, Known]

theorem Around.open_iff (h : Around c w w') : Open w' X ↔ Open w X := by
  rw [Open, h.inbox, Open]

/-- A center operation was there before. -/
theorem Around.center (h : Around c w w') {row' : OperationRow}
    (hrow : w'.operations.find X = some row') (hcenter : row'.source = .center) :
    ∃ row, w.operations.find X = some row ∧ row.source = .center ∧
      (c → row'.state = row.state ∨ row.state.rank < row'.state.rank) := by
  have hmoves := h.rows X
  rw [hrow] at hmoves
  cases hold : w.operations.find X with
  | none =>
      rw [hold] at hmoves
      exact absurd hcenter hmoves.2
  | some row =>
      rw [hold] at hmoves
      exact ⟨row, rfl, hmoves.1.symm.trans hcenter, hmoves.2⟩

theorem Tracked.around (hup : Upward states) (h : Tracked c states pending w)
    (hw : Around c w w') : Tracked c states pending w' := by
  intro hc X row' hrow hcenter hopen
  obtain ⟨row, hold, hsource, hstate⟩ := hw.center hrow hcenter
  rw [hw.known]
  rcases h hc X row hold hsource (hw.open_iff.mp hopen) with hknown | hin | hin
  · exact .inl hknown
  · refine .inr (.inl ?_)
    rcases hstate hc with hsame | hlt
    · exact hsame ▸ hin
    · exact hup row.state hin row'.state hlt
  · exact .inr (.inr hin)

/-! ## The calls of the loop -/

/-- What a call keeps. -/
structure Keeping (c : Prop) (w w' : World) : Prop where
  closed : Closed w → Closed w'
  tracked : ∀ states pending, Tracked c states pending w →
    Tracked c states pending w'
  discovered : w'.progress.discoveryDone = w.progress.discoveryDone

/-- A call that opens no entry, forgets no operation and takes back no
completion. -/
theorem Keeping.of_facts (hops : w'.operations = w.operations)
    (hclosed : ∀ X, inboxState w'.inbox X = some .completed →
      inboxState w.inbox X = some .completed ∨ 0 < completions w X)
    (hopen : ∀ X row, w.operations.find X = some row → row.source = .center →
      Open w' X → Open w X)
    (hcompletions : ∀ X, completions w X ≤ completions w' X)
    (hknown : ∀ X, Open w' X → Known w X → Known w' X)
    (hdiscovered : w'.progress.discoveryDone = w.progress.discoveryDone) :
    Keeping c w w' where
  closed := by
    intro h X hX
    rcases hclosed X hX with hX | hX
    · exact lt_of_lt_of_le (h X hX) (hcompletions X)
    · exact lt_of_lt_of_le hX (hcompletions X)
  tracked := by
    intro states pending h hc X row hrow hcenter hX
    rw [hops] at hrow
    exact (h hc X row hrow hcenter (hopen X row hrow hcenter hX)).imp_left
      (hknown X hX)
  discovered := hdiscovered

/-- A call that moves nothing but the list of deliveries. -/
theorem Keeping.same (hops : w'.operations = w.operations)
    (hin : w'.inbox = w.inbox) (hout : w'.outbox = w.outbox)
    (hprogress : w'.progress = w.progress) : Keeping c w w' :=
  .of_facts hops (fun X h => .inl (hin ▸ h))
    (fun X _ _ _ h => by rwa [Open, hin] at h)
    (fun X => by rw [completions, completions, hout])
    (fun X _ h => by rwa [Known, hprogress]) (by rw [hprogress])

variable {offer : Option OperationOffer} {reads : Reads}

/-- A call, between states in which the tables agree. -/
def Performed (offer : Option OperationOffer) (reads : Reads) :
    Sem sync World := fun q w r w' =>
  Agreed w ∧ Agreed w' ∧
    ∃ rest o, perform ⟨offer, reads, rest⟩ o q w = (r, w')

/-- A call that is not one of the four that matter: the creation of an
operation, the end of the discovery, the closing of an entry and the removal
from the map. -/
def Calm : SyncReq → Prop
  | .inbox (.insert entry) => entry.state = .received
  | .inbox (.advance _ .completed) => False
  | .operations (.findOperation _) | .operations (.listOperations _) => True
  | .operations _ => False
  | .outbox (.enqueue ..) => True
  | .outbox _ => False
  | .progress (.forget _) | .progress .finishDiscovery => False
  | _ => True

theorem keeping_insert {entry : InboxEntry} {r : InboxReq.Resp (.insert entry)}
    (hentry : entry.state = .received)
    (h : Performed offer reads (.inbox (.insert entry)) w r w') :
    Keeping c w w' := by
  obtain ⟨hagreed, -, rest, ⟨fault, clock, entryId⟩, h⟩ := h
  obtain ⟨-, rfl⟩ := Prod.mk.inj h
  cases fault with
  | some f => exact .same rfl rfl rfl rfl
  | none =>
      have hspec := fun k => (createInboxEntry_spec (t := w.inbox) (k := k)
        entry hentry).2
      have hstate : ∀ X, inboxState (createInboxEntry w.inbox entry).2 X =
          inboxState w.inbox X ∨ inboxState w.inbox X = none ∧
            inboxState (createInboxEntry w.inbox entry).2 X =
              some .received := by
        intro X
        rw [hspec X]
        by_cases hX : X = entry.operationId
        · rw [if_pos hX, hX]
          cases inboxState w.inbox entry.operationId with
          | none => exact .inr ⟨rfl, rfl⟩
          | some state => exact .inl rfl
        · exact .inl (if_neg hX)
      refine .of_facts rfl (fun X hX => ?_) (fun X row hrow hcenter hX => ?_)
        (fun X => le_rfl) (fun X _ h => h) rfl
      · rcases hstate X with hs | ⟨-, hs⟩
        · exact .inl (hs.symm.trans hX)
        · have : inboxState (createInboxEntry w.inbox entry).2 X =
            some .completed := hX
          rw [hs] at this
          cases this
      · rcases hstate X with hs | ⟨hnone, -⟩
        · have : Open { w with inbox := (createInboxEntry w.inbox entry).2 } X :=
            hX
          rwa [Open, hs] at this
        · exact absurd hnone (hagreed.entry hrow hcenter).1

/-- The effect of an advance. -/
theorem performed_advance {event : InboxEvent}
    {r : InboxReq.Resp (.advance X event)}
    (h : Performed offer reads (.inbox (.advance X event)) w r w') :
    w'.operations = w.operations ∧ w'.outbox = w.outbox ∧
      w'.progress = w.progress ∧
      ((∃ e, r = .error e) ∧ w'.inbox = w.inbox ∨
        (inboxState w.inbox X = some event.fromState ∨
            inboxState w.inbox X = some event.toState) ∧
          ∀ k, inboxState w'.inbox k = if k = X then some event.toState
            else inboxState w.inbox k) := by
  obtain ⟨-, -, rest, ⟨fault, clock, entryId⟩, h⟩ := h
  obtain ⟨hr, rfl⟩ := Prod.mk.inj h
  refine ⟨rfl, rfl, rfl, ?_⟩
  cases fault with
  | some f => exact .inl ⟨⟨_, hr.symm⟩, rfl⟩
  | none =>
      simp only [answer, runInbox] at hr ⊢
      cases hadv : advanceInboxEntry w.inbox X event with
      | error e =>
          rw [hadv] at hr
          exact .inl ⟨⟨e, hr.symm⟩, rfl⟩
      | ok p => exact .inr (advanceInboxEntry_ok hadv)

theorem keeping_advance {event : InboxEvent} {r : InboxReq.Resp (.advance X event)}
    (hevent : event = .completed → 0 < completions w X)
    (h : Performed offer reads (.inbox (.advance X event)) w r w') :
    Keeping c w w' := by
  obtain ⟨hops, hout, hprogress, ⟨-, hin⟩ | ⟨hfrom, hto⟩⟩ := performed_advance h
  · exact .same hops hin hout hprogress
  · refine .of_facts hops (fun k hk => ?_) (fun k row _ _ hk => ?_)
      (fun k => by rw [completions, completions, hout])
      (fun k _ h => by rwa [Known, hprogress]) (by rw [hprogress])
    · rw [hto] at hk
      split at hk
      · next heq =>
          subst heq
          refine .inr (hevent ?_)
          cases event <;> first | rfl | cases hk
      · exact .inl hk
    · rw [Open, hto] at hk
      split at hk
      · next heq =>
          subst heq
          cases event with
          | accepted => exact hfrom
          | rejected => rcases hk with hk | hk <;> cases hk
          | completed => rcases hk with hk | hk <;> cases hk
      · exact hk

/-- The effect of a queued message on the completions. -/
theorem performed_enqueue {instanceId : InstanceId} {message : EnvelopeMessage}
    {now : Instant} {r : OutboxReq.Resp (.enqueue instanceId message now)}
    (h : Performed offer reads (.outbox (.enqueue instanceId message now)) w r
      w') :
    w'.operations = w.operations ∧ w'.inbox = w.inbox ∧
      w'.progress = w.progress ∧ (∀ X, completions w X ≤ completions w' X) ∧
      ∀ entry, r = .ok entry → ∀ X succeeded summary,
        message = .operationCompleted (some X) succeeded summary →
          0 < completions w' X := by
  obtain ⟨-, -, rest, ⟨fault, clock, entryId⟩, h⟩ := h
  obtain ⟨hr, rfl⟩ := Prod.mk.inj h
  refine ⟨rfl, rfl, rfl, ?_⟩
  cases fault with
  | some f =>
      refine ⟨fun X => le_rfl, ?_⟩
      rintro entry rfl
      cases hr
  | none =>
      simp only [answer, runOutbox, completions] at hr ⊢
      cases henq : Store.enqueueOutboxEntry w.outbox entryId instanceId message
          now with
      | error e =>
          rw [henq] at hr
          refine ⟨fun X => le_rfl, ?_⟩
          rintro entry rfl
          cases hr
      | ok p =>
          obtain ⟨entry, t'⟩ := p
          obtain ⟨sequence, -, -, -, -, hrows⟩ := enqueueOutboxEntry_ok henq
          simp only [answered, hrows, List.countP_append]
          refine ⟨fun X => Nat.le_add_right _ _, ?_⟩
          rintro - - X succeeded summary rfl
          simp [isCompletionOf, messageOf, outboxRowOf, OutboxEntry.new]

theorem keeping_calm {q : SyncReq} {r : q.Resp} (hq : Calm q)
    (h : Performed offer reads q w r w') : Keeping c w w' := by
  cases q with
  | inbox q =>
      cases q with
      | insert entry => exact keeping_insert hq h
      | findByOperation X =>
          obtain ⟨-, -, rest, ⟨fault, clock, entryId⟩, h⟩ := h
          obtain ⟨-, rfl⟩ := Prod.mk.inj h
          cases fault <;> exact .same rfl rfl rfl rfl
      | advance X event =>
          refine keeping_advance ?_ h
          rintro rfl
          exact hq.elim
  | operations q =>
      obtain ⟨-, -, rest, ⟨fault, clock, entryId⟩, h⟩ := h
      obtain ⟨-, rfl⟩ := Prod.mk.inj h
      cases q with
      | findOperation X => cases fault <;> exact .same rfl rfl rfl rfl
      | listOperations state => cases fault <;> exact .same rfl rfl rfl rfl
      | _ => exact hq.elim
  | findFailureKind X =>
      obtain ⟨-, -, rest, ⟨fault, clock, entryId⟩, h⟩ := h
      obtain ⟨-, rfl⟩ := Prod.mk.inj h
      cases fault <;> exact .same rfl rfl rfl rfl
  | outbox q =>
      cases q with
      | enqueue instanceId message now =>
          obtain ⟨hops, hin, hprogress, hle, -⟩ := performed_enqueue h
          exact .of_facts hops (fun X hX => .inl (hin ▸ hX))
            (fun X _ _ _ hX => by rwa [Open, hin] at hX) hle
            (fun X _ hX => by rwa [Known, hprogress]) (by rw [hprogress])
      | _ => exact hq.elim
  | progress q =>
      obtain ⟨-, -, rest, o, h⟩ := h
      obtain ⟨-, rfl⟩ := Prod.mk.inj h
      cases q with
      | insert X state =>
          refine .of_facts rfl (fun _ h => .inl h) (fun _ _ _ _ h => h)
            (fun _ => le_rfl) (fun k _ hk => ?_) rfl
          by_cases hX : k = X
          · simp [Known, answer, runProgress, hX]
          · obtain ⟨e, he, rfl⟩ := List.mem_map.mp hk
            refine List.mem_map.mpr ⟨e, ?_, rfl⟩
            exact List.mem_append_left _ (List.mem_filter.mpr
              ⟨he, by simpa using hX⟩)
      | reported X => exact .same rfl rfl rfl rfl
      | known => exact .same rfl rfl rfl rfl
      | discoveryDone => exact .same rfl rfl rfl rfl
      | forget X => exact hq.elim
      | finishDiscovery => exact hq.elim
  | recheck q =>
      obtain ⟨-, -, rest, o, h⟩ := h
      obtain ⟨-, rfl⟩ := Prod.mk.inj h
      exact .same rfl rfl rfl rfl
  | now =>
      obtain ⟨-, -, rest, o, h⟩ := h
      obtain ⟨-, rfl⟩ := Prod.mk.inj h
      exact .same rfl rfl rfl rfl

/-- Forgetting an operation without an open entry, or without a row of the
center's. -/
theorem keeping_forget {r : ProgressReq.Resp (.forget X)}
    (hX : ∀ row, w.operations.find X = some row → row.source = .center →
      ¬Open w X)
    (h : Performed offer reads (.progress (.forget X)) w r w') :
    Keeping c w w' := by
  obtain ⟨-, -, rest, o, h⟩ := h
  obtain ⟨-, rfl⟩ := Prod.mk.inj h
  refine ⟨fun h => h, ?_, rfl⟩
  intro states pending htracked hc k row hrow hcenter hopen
  refine (htracked hc k row hrow hcenter hopen).imp_left fun hknown => ?_
  obtain ⟨e, he, rfl⟩ := List.mem_map.mp hknown
  refine List.mem_map.mpr ⟨e, List.mem_filter.mpr ⟨he, ?_⟩, rfl⟩
  rw [decide_eq_true_eq]
  intro heq
  exact hX row (heq ▸ hrow) hcenter (heq ▸ hopen)

end Rutilus.Proofs.Report
