import Rutilus.Lib.Listing
import Rutilus.Lib.Outcome
import Rutilus.Lib.Rely
import Rutilus.Lib.Runs
import Rutilus.Report.CenterProjection

/-!
# The dead letters of absorbed events

An event whose endpoint the reporting site does not own is absorbed: in its place a row
of the center's own is written, under a reserved message id and with the event's
timestamp. The row names the event's message id in its text only, and the unique index
does not see the text. So absorbed events of one endpoint and one second share the row
of the first of them, whatever their messages were, and those of other endpoints or
seconds have each a row of their own.
-/

namespace Rutilus.Proofs.DeadLetters

open Rutilus.Domain Rutilus.Lib Rutilus.Store Rutilus.Report.CenterProjection

/-! ## What a consumption wrote -/

/-- The owners it was answered, the writes that landed, and whether the cursor moved. -/
structure Seen where
  owners : Owners
  writes : List (InstanceId × List Event)
  advanced : Bool

def Seen.none : Seen := ⟨[], [], false⟩

def watch (s : Seen) : (q : ProjectionReq) → q.Resp → Seen
  | .findEndpointProjections _, .ok owners => { s with owners }
  | .upsertEvents events site, .ok () =>
      { s with writes := s.writes ++ [(site, events)] }
  | .setCursor _, .ok () => { s with advanced := true }
  | _, _ => s

def seen (log : List (Entry projectionSig)) : Seen :=
  log.foldl (fun s e => watch s e.1 e.2) .none

/-- The site owns the endpoint of the event. -/
def owned (owners : Owners) (site : InstanceId) (event : Event) : Bool :=
  owners.lookup event.endpointId = some (some site)

/-- The row can stand for the event. -/
def IsLetterOf (event letter : Event) : Prop :=
  letter.endpointId = event.endpointId ∧
    letter.messageId.text = centerAbsorbedEventMessageId ∧
    letter.eventTimestamp = event.eventTimestamp

/-- What is written for an event. -/
def RecordFor (owners : Owners) (site : InstanceId) (event record : Event) : Prop :=
  if owned owners site event = true then record = event else IsLetterOf event record

/-- The consumption got past its batch: a write landed, or the cursor moved. -/
def Seen.consumed (s : Seen) : Bool := !s.writes.isEmpty || s.advanced

/-- A batch that was consumed had each of its events written, or its dead letter. -/
def Written (site : InstanceId) (events : List Event) (s : Seen) : Prop :=
  s.writes = [] ∧ (s.advanced = true → events = []) ∨
    ∃ records, s.writes = [(site, records)] ∧
      List.Forall₂ (RecordFor s.owners site) events records

theorem absorbedMessageId_parse :
    ∃ messageId, MessageId.parse centerAbsorbedEventMessageId = .ok messageId ∧
      messageId.text = centerAbsorbedEventMessageId :=
  ⟨⟨centerAbsorbedEventMessageId, by decide⟩, rfl, rfl⟩

theorem absorptionDeadLetter_ok (id : EventId) (event : Event) (site : InstanceId)
    (reason : String) :
    ∃ letter, absorptionDeadLetter id event site reason = .ok letter ∧
      IsLetterOf event letter := by
  obtain ⟨messageId, hparse, htext⟩ := absorbedMessageId_parse
  have htimeline : ¬ event.observedAt < event.eventTimestamp.instant :=
    Int.not_lt.mpr event.timeline
  unfold absorptionDeadLetter
  rw [hparse]
  simp only [Except.mapError, Event.new, dif_neg htimeline]
  exact ⟨_, rfl, rfl, htext, rfl⟩

section Watched

variable {site : InstanceId} {s : Seen}

theorem absorbEvent_watched (event : Event) (reason : String) :
    Watched watch (absorbEvent event site reason)
      (fun record s' => s' = s ∧ ∃ letter, record = some letter ∧
        IsLetterOf event letter) s := by
  refine Safe.bind.mpr (Watched.ask.mpr fun id => ?_)
  obtain ⟨letter, hletter, his⟩ := absorptionDeadLetter_ok id event site reason
  refine ⟨rfl, letter, ?_, his⟩
  rw [hletter]
  rfl

theorem recordOf_watched (owners : Owners) (event : Event) :
    Watched watch (recordOf owners site event)
      (fun record s' => s' = s ∧ ∃ e, record = some e ∧
        RecordFor owners site event e) s := by
  have habsorb : ∀ reason, owned owners site event ≠ true →
      Watched watch (absorbEvent event site reason)
        (fun record s' => s' = s ∧ ∃ e, record = some e ∧
          RecordFor owners site event e) s := by
    intro reason howned
    refine (absorbEvent_watched event reason).imp fun record s' h => ?_
    obtain ⟨hs, letter, hrecord, his⟩ := h
    exact ⟨hs, letter, hrecord, by rwa [RecordFor, if_neg howned]⟩
  unfold recordOf
  split
  · next owner hlookup =>
      split
      · next howner =>
          have hown : owned owners site event = true := by
            rw [owned, hlookup, howner, decide_eq_true_eq]
          exact ⟨rfl, event, rfl, by rw [RecordFor, if_pos hown]⟩
      · next howner =>
          refine habsorb _ ?_
          rw [owned, hlookup, ne_eq, decide_eq_true_eq]
          exact fun h => howner (Option.some.inj h)
  · next hlookup =>
      refine habsorb _ ?_
      rw [owned, hlookup, ne_eq, decide_eq_true_eq]
      exact nofun

theorem recordsOf_watched (owners : Owners) (events : List Event) :
    Watched watch (recordsOf owners site events)
      (fun records s' => s' = s ∧
        List.Forall₂ (RecordFor owners site) events records) s := by
  induction events with
  | nil => exact ⟨rfl, .nil⟩
  | cons event events ih =>
      refine Safe.bind.mpr ((recordOf_watched owners event).imp fun record s' h => ?_)
      obtain ⟨rfl, e, rfl, hrecord⟩ := h
      refine Safe.bind.mpr (ih.imp fun records s'' h => ?_)
      obtain ⟨rfl, hrecords⟩ := h
      exact ⟨rfl, .cons hrecord hrecords⟩

theorem passesCursor_watched {stream : SyncStream} {sequence : Nat} :
    Watched watch (passesCursor site stream sequence) (fun _ s' => s' = s) s := by
  refine Safe.bindE.mpr (Safe.orThrow.mpr (Watched.ask.mpr fun answer => ?_))
  cases answer with
  | error e => exact rfl
  | ok cursor =>
      match cursor with
      | none => exact rfl
      | some ⟨_, _, none, _⟩ => exact rfl
      | some ⟨_, _, some _, _⟩ => exact rfl

/-- The cursor moves or does not; the writes stay. -/
theorem advanceCursor_watched {stream : SyncStream} {sequence : Nat} {now : Instant} :
    Watched watch (advanceCursor site stream sequence now)
      (fun _ s' => s' = s ∨ s' = { s with advanced := true }) s := by
  refine Safe.orThrow.mpr (Watched.ask.mpr fun answer => ?_)
  cases answer with
  | error e => exact .inl rfl
  | ok u => exact .inr rfl

theorem consumeEventBatch_watched (sequence : Nat) (records : List EventRecord)
    (now : Instant) :
    Watched watch (consumeEventBatch site sequence records now)
      (fun _ s => Written site (decodedEvents records now) s) .none := by
  have hnothing : Written site (decodedEvents records now) .none := .inl ⟨rfl, nofun⟩
  refine Safe.bindE.mpr (passesCursor_watched.imp fun passes s hs => ?_)
  subst hs
  match passes with
  | .error e => exact hnothing
  | .ok false => exact hnothing
  | .ok true =>
      refine Safe.bindE.mpr (Safe.orThrow.mpr (Watched.ask.mpr fun answer => ?_))
      cases answer with
      | error e => exact hnothing
      | ok owners =>
          refine Safe.bindE.mpr (Safe.liftE.mpr
            ((recordsOf_watched owners _).imp fun letters s hs => ?_))
          obtain ⟨rfl, hletters⟩ := hs
          cases letters with
          | nil =>
              have hevents := List.forall₂_nil_right_iff.mp hletters
              refine advanceCursor_watched.imp fun _ s hs => ?_
              rcases hs with rfl | rfl
              · exact .inl ⟨rfl, fun _ => hevents⟩
              · exact .inl ⟨rfl, fun _ => hevents⟩
          | cons letter letters =>
              refine Safe.bindE.mpr (Safe.orThrow.mpr
                (Watched.ask.mpr fun answer => ?_))
              cases answer with
              | error e => exact .inl ⟨rfl, nofun⟩
              | ok u =>
                  refine advanceCursor_watched.imp fun _ s hs => ?_
                  rcases hs with rfl | rfl
                  · exact .inr ⟨_, rfl, hletters⟩
                  · exact .inr ⟨_, rfl, hletters⟩

end Watched

/-! ## The site's batches, one after the other -/

/-- The events the center holds, and every event it absorbed so far. -/
structure State where
  table : EventTable
  absorbed : List Event

/-- The events of the batch that were not the site's to report. -/
def absorbedIn (site : InstanceId) (records : List EventRecord) (now : Instant)
    (s : Seen) : List Event :=
  if s.consumed then (decodedEvents records now).filter (!owned s.owners site ·) else []

def writeAll (t : EventTable) (writes : List (InstanceId × List Event)) :
    Except EventRepositoryError EventTable :=
  writes.foldlM (fun t w => appendCenterEvents t w.1 w.2) t

/-- No row of the center's own yet. -/
def Init (s : State) : Prop :=
  (∀ row ∈ s.table.rows, row.event.messageId.text ≠ centerAbsorbedEventMessageId) ∧
    s.absorbed = []

/-- A site's batch is consumed, to its end or to a failing call; whatever the boundary
answers, a write it reports as landed is in the table. -/
inductive Step : State → State → Prop where
  | consume {s : State} {table : EventTable} {site : InstanceId} {sequence : Nat}
      {records : List EventRecord} {now : Instant} {log : List (Entry projectionSig)}
      {result : Except CenterProjectionError Unit}
      (hrun : Runs (consumeEventBatch site sequence records now) log result)
      (hwrites : writeAll s.table (seen log).writes = .ok table) :
      Step s ⟨table, s.absorbed ++ absorbedIn site records now (seen log)⟩

/-! ## Rows of the reserved id -/

theorem appendCenterEvents_rows {site : InstanceId} {events : List Event}
    {t t' : EventTable} (h : appendCenterEvents t site events = .ok t') :
    (∀ row ∈ t.rows, row ∈ t'.rows) ∧
      (∀ event ∈ events, ∃ row ∈ t'.rows,
        row.identity = (EventRow.mk event (some site)).identity) ∧
      ∀ row ∈ t'.rows, row ∈ t.rows ∨ row.event ∈ events := by
  induction events generalizing t with
  | nil =>
      cases h
      exact ⟨fun row hrow => hrow, nofun, fun row hrow => .inl hrow⟩
  | cons event events ih =>
      obtain ⟨t₁, happend, hrest⟩ := bind_ok h
      obtain ⟨hkept, hstored, hnew⟩ := ih hrest
      rcases EventTable.append_ok happend with ⟨-, -, hrows⟩ | ⟨⟨row, hrow, hid⟩, rfl⟩
      · have hlast : ⟨event, some site⟩ ∈ t₁.rows := by
          rw [hrows]
          exact List.mem_append_right _ (List.mem_singleton_self _)
        refine ⟨fun row hrow => ?_, fun e he => ?_, fun row hrow => ?_⟩
        · exact hkept row (by rw [hrows]; exact List.mem_append_left _ hrow)
        · rcases List.mem_cons.mp he with rfl | he
          · exact ⟨_, hkept _ hlast, rfl⟩
          · exact hstored e he
        · rcases hnew row hrow with hrow | hrow
          · rw [hrows, List.mem_append, List.mem_singleton] at hrow
            rcases hrow with hrow | rfl
            · exact .inl hrow
            · exact .inr List.mem_cons_self
          · exact .inr (List.mem_cons_of_mem _ hrow)
      · refine ⟨hkept, fun e he => ?_, fun row hrow => ?_⟩
        · rcases List.mem_cons.mp he with rfl | he
          · exact ⟨row, hkept row hrow, hid⟩
          · exact hstored e he
        · exact (hnew row hrow).imp_right (List.mem_cons_of_mem _)

theorem reserved_text {messageId : MessageId}
    (h : messageId.text = centerAbsorbedEventMessageId) :
    isReserved messageId = true := by
  unfold isReserved
  rw [h]
  decide

theorem Event.new_messageId {id : EventId} {endpointId : EndpointId}
    {messageId : MessageId} {severity : EventSeverity} {message : Option String}
    {eventTimestamp : OffsetDateTime} {observedAt : Instant} {event : Event}
    (h : Event.new id endpointId messageId severity message eventTimestamp observedAt =
      .ok event) : event.messageId = messageId := by
  unfold Event.new at h
  split at h
  · cases h
  · cases h
    rfl

/-- No event of a site is in the namespace of the center's own rows. -/
theorem decodeEvent_unreserved {record : EventRecord} {now : Instant} {event : Event}
    (h : decodeEvent record now = .ok event) :
    event.messageId.text ≠ centerAbsorbedEventMessageId := by
  intro htext
  unfold decodeEvent at h
  split at h
  case h_2 => cases h
  split at h
  case h_2 => cases h
  obtain ⟨messageId, -, h⟩ := bind_ok h
  cases hreserved : isReserved messageId with
  | true =>
      rw [hreserved, if_pos rfl] at h
      cases h
  | false =>
      rw [hreserved, if_neg Bool.false_ne_true] at h
      have hnew : ∀ {severity eventTimestamp id endpointId}, (Event.new id endpointId
          messageId severity none eventTimestamp now).mapError
            (fun _ => "event timestamp is after the receive time") = .ok event →
          False := by
        intro severity eventTimestamp id endpointId h
        have hid := Event.new_messageId (mapError_ok h)
        rw [← hid, reserved_text htext] at hreserved
        cases hreserved
      cases htime : OffsetDateTime.fromUnixTimestamp record.occurredAtUnix with
      | none =>
          rw [htime] at h
          cases hseverity : record.severity <;> rw [hseverity] at h <;> cases h
      | some eventTimestamp =>
          rw [htime] at h
          cases hseverity : record.severity with
          | ok => rw [hseverity] at h; exact hnew h
          | warning => rw [hseverity] at h; exact hnew h
          | critical => rw [hseverity] at h; exact hnew h
          | unspecified => rw [hseverity] at h; cases h
          | unknown => rw [hseverity] at h; cases h

theorem mem_decodedEvents {records : List EventRecord} {now : Instant} {event : Event}
    (h : event ∈ decodedEvents records now) :
    event.messageId.text ≠ centerAbsorbedEventMessageId := by
  obtain ⟨record, -, hdecoded⟩ := List.mem_filterMap.mp h
  cases hresult : decodeEvent record now with
  | error reason =>
      rw [hresult] at hdecoded
      cases hdecoded
  | ok decoded =>
      rw [hresult] at hdecoded
      cases hdecoded
      exact decodeEvent_unreserved hresult

/-! ## One step -/

/-- Every absorbed event has a row that can stand for it, and every row of the center's
own stands for one. -/
structure Inv (s : State) : Prop where
  lettered : ∀ event ∈ s.absorbed, ∃ row ∈ s.table.rows, IsLetterOf event row.event
  absorbed : ∀ row ∈ s.table.rows,
    row.event.messageId.text = centerAbsorbedEventMessageId →
      ∃ event ∈ s.absorbed, IsLetterOf event row.event

theorem mem_absorbedIn {site : InstanceId} {records : List EventRecord} {now : Instant}
    {s : Seen} {event : Event} (h : event ∈ absorbedIn site records now s) :
    s.consumed = true ∧ event ∈ decodedEvents records now ∧
      owned s.owners site event ≠ true := by
  unfold absorbedIn at h
  split at h
  · next hconsumed =>
      obtain ⟨hmem, howned⟩ := List.mem_filter.mp h
      refine ⟨hconsumed, hmem, ?_⟩
      simpa using howned
  · cases h

theorem absorbedIn_of_mem {site : InstanceId} {records : List EventRecord}
    {now : Instant} {s : Seen} {event : Event} (hconsumed : s.consumed = true)
    (hmem : event ∈ decodedEvents records now)
    (howned : owned s.owners site event ≠ true) :
    event ∈ absorbedIn site records now s := by
  unfold absorbedIn
  rw [if_pos hconsumed]
  exact List.mem_filter.mpr ⟨hmem, by simpa using howned⟩

/-- Only the message id, the endpoint and the timestamp of a row count. -/
theorem IsLetterOf.of_identity {event letter : Event} {row : EventRow}
    {site : InstanceId} (h : IsLetterOf event letter)
    (hid : row.identity = (EventRow.mk letter (some site)).identity) :
    IsLetterOf event row.event := by
  obtain ⟨hendpoint, hmessage, htime⟩ := h
  obtain ⟨he, hkey⟩ := Prod.mk.inj hid
  obtain ⟨hm, ht⟩ := DedupKey.mk.inj hkey
  exact ⟨he.trans hendpoint, (congrArg MessageId.text hm).trans hmessage,
    ht.trans htime⟩

theorem Inv.step {s t : State} (hinv : Inv s) (h : Step s t) : Inv t := by
  cases h with
  | @consume table site sequence records now log result hrun hwrites =>
      have hwritten : Written site (decodedEvents records now) (seen log) :=
        hrun.of_watched (consumeEventBatch_watched sequence records now)
      rcases hwritten with ⟨hnone, hempty⟩ | ⟨letters, hone, hletters⟩
      · -- nothing landed; a batch that moved the cursor all the same had no event
        have htable : table = s.table := by
          rw [hnone] at hwrites
          exact (Except.ok.inj hwrites).symm
        have hnothing : absorbedIn site records now (seen log) = [] := by
          refine List.eq_nil_iff_forall_not_mem.mpr fun event hevent => ?_
          obtain ⟨hconsumed, hmem, -⟩ := mem_absorbedIn hevent
          have hadvanced : (seen log).advanced = true := by
            simpa [Seen.consumed, hnone] using hconsumed
          rw [hempty hadvanced] at hmem
          cases hmem
        subst htable
        rw [hnothing, List.append_nil]
        exact hinv
      · have happend : appendCenterEvents s.table site letters = .ok table := by
          rw [hone] at hwrites
          obtain ⟨t', ht', hdone⟩ := bind_ok hwrites
          cases hdone
          exact ht'
        obtain ⟨hkept, hstored, hnew⟩ := appendCenterEvents_rows happend
        have hconsumed : (seen log).consumed = true := by
          rw [Seen.consumed, hone]
          rfl
        refine ⟨fun event hevent => ?_, fun row hrow hreserved => ?_⟩
        · rcases List.mem_append.mp hevent with hevent | hevent
          · obtain ⟨row, hrow, his⟩ := hinv.lettered event hevent
            exact ⟨row, hkept row hrow, his⟩
          · obtain ⟨-, hmem, howned⟩ := mem_absorbedIn hevent
            obtain ⟨letter, hletter, hfor⟩ := exists_of_forall₂ hletters hmem
            rw [RecordFor, if_neg howned] at hfor
            obtain ⟨row, hrow, hid⟩ := hstored letter hletter
            exact ⟨row, hrow, hfor.of_identity hid⟩
        · rcases hnew row hrow with hrow | hletter
          · obtain ⟨event, hevent, his⟩ := hinv.absorbed row hrow hreserved
            exact ⟨event, List.mem_append_left _ hevent, his⟩
          · obtain ⟨event, hmem, hfor⟩ := exists_of_forall₂ hletters.flip hletter
            change RecordFor _ site event row.event at hfor
            unfold RecordFor at hfor
            split at hfor
            · -- what the site owns is stored as it is, under an id of its own
              rw [hfor] at hreserved
              exact absurd hreserved (mem_decodedEvents hmem)
            · next howned =>
                exact ⟨event, List.mem_append_right _
                  (absorbedIn_of_mem hconsumed hmem howned), hfor⟩

theorem inv_of_reach {s : State} (h : Reach Init Step s) : Inv s := by
  refine h.inv (fun s hinit => ?_) fun s t hinv hstep => hinv.step hstep
  obtain ⟨hrows, habsorbed⟩ := hinit
  refine ⟨fun event hevent => ?_, fun row hrow hreserved => ?_⟩
  · rw [habsorbed] at hevent
    cases hevent
  · exact absurd hreserved (hrows row hrow)

/-! ## A site that owns nothing -/

/-- Every call succeeds, and no endpoint is projected. -/
def unprojected (id : EventId) : (q : ProjectionReq) → q.Resp
  | .getCursor .. => .ok none
  | .setCursor _ => .ok ()
  | .upsertEndpoint .. => .error (.fault .database)
  | .deleteEndpoint .. => .error (.fault .database)
  | .upsertResource .. => .error (.fault .database)
  | .deleteResource .. => .error (.fault .database)
  | .findEndpointProjections _ => .ok []
  | .generateEventId => id
  | .upsertEvents .. => .ok ()
  | .declareArtifact .. => .ok ()
  | .findArtifact _ => .ok none
  | .findArtifactSite _ => .ok none
  | .updateArtifact .. => .ok ()
  | .writeChunkAt .. => .ok ()
  | .hashArtifactFile _ => .error .database

/-- A warning of one endpoint. -/
def warning (messageId : String) (seconds : Int) : EventRecord where
  eventId := some ⟨1⟩
  messageId := messageId
  severity := .warning
  target := ""
  occurredAtUnix := seconds
  payloadJson := []
  endpointId := some ⟨2⟩

def deliverySeen (id : EventId) (records : List EventRecord) : Seen :=
  seen (record (unprojected id)
    (consumeEventBatch ⟨3⟩ 1 records (60 * nanosPerSecond))).1

/-- The batch arrives within a minute of the epoch. -/
def deliver (id : EventId) (records : List EventRecord) (s : State) : State where
  table := (writeAll s.table (deliverySeen id records).writes).toOption.getD s.table
  absorbed := s.absorbed ++
    absorbedIn ⟨3⟩ records (60 * nanosPerSecond) (deliverySeen id records)

theorem deliver_step {id : EventId} {records : List EventRecord} {s : State}
    (h : (writeAll s.table (deliverySeen id records).writes).isOk = true) :
    Step s (deliver id records s) := by
  refine .consume (runs_record (S := projectionSig) (unprojected id)
    (consumeEventBatch ⟨3⟩ 1 records (60 * nanosPerSecond))) ?_
  change writeAll s.table (deliverySeen id records).writes =
    .ok ((writeAll s.table (deliverySeen id records).writes).toOption.getD s.table)
  cases hwrites : writeAll s.table (deliverySeen id records).writes with
  | error e =>
      rw [hwrites] at h
      cases h
  | ok table => rfl

def silent : State := ⟨.empty, []⟩

theorem silent_reach : Reach Init Step silent := .init ⟨nofun, rfl⟩

/-- Two events of one endpoint, the first of them a second time. -/
def threeBatches : State :=
  deliver ⟨12⟩ [warning "Fan.1" 5]
    (deliver ⟨11⟩ [warning "Power.1" 6] (deliver ⟨10⟩ [warning "Fan.1" 5] silent))

theorem threeBatches_reach : Reach Init Step threeBatches :=
  ((silent_reach.step (deliver_step (by decide))).step (deliver_step (by decide))).step
    (deliver_step (by decide))

/-! ## Letters of their own -/

/-- The same message at the same endpoint and time. -/
def SameRecord (a b : Event) : Prop :=
  a.endpointId = b.endpointId ∧ a.messageId = b.messageId ∧
    a.eventTimestamp = b.eventTimestamp

/-- Each absorbed event has its dead letter among the rows, two events have one letter
only where they are the same record, and no letter is left over. -/
structure LettersOfTheirOwn (s : State) (letter : Event → Option EventRow) : Prop where
  stands : ∀ event ∈ s.absorbed, ∃ row ∈ s.table.rows,
    letter event = some row ∧ IsLetterOf event row.event
  own : ∀ a ∈ s.absorbed, ∀ b ∈ s.absorbed, letter a = letter b ↔ SameRecord a b
  others : ∀ row ∈ s.table.rows,
    row.event.messageId.text = centerAbsorbedEventMessageId →
      ∃ event ∈ s.absorbed, letter event = some row

/-- Different messages at one endpoint and time. -/
def SameTime (a b : Event) : Prop :=
  a.endpointId = b.endpointId ∧ a.eventTimestamp = b.eventTimestamp ∧
    a.messageId ≠ b.messageId

instance (a b : Event) : Decidable (SameTime a b) :=
  inferInstanceAs (Decidable (_ ∧ _ ∧ _))

instance (event letter : Event) : Decidable (IsLetterOf event letter) :=
  inferInstanceAs (Decidable (_ ∧ _ ∧ _))

/-- The unique index lets one row stand for an event. -/
theorem IsLetterOf.unique {t : EventTable} {a b : Event} {row row' : EventRow}
    (hrow : row ∈ t.rows) (hrow' : row' ∈ t.rows) (h : IsLetterOf a row.event)
    (h' : IsLetterOf b row'.event) (hendpoint : a.endpointId = b.endpointId)
    (htime : a.eventTimestamp = b.eventTimestamp) : row = row' := by
  refine List.inj_on_of_nodup_map t.unique hrow hrow' ?_
  obtain ⟨he, hm, ht⟩ := h
  obtain ⟨he', hm', ht'⟩ := h'
  have hid : row.event.messageId = row'.event.messageId :=
    MessageId.text_inj (hm.trans hm'.symm)
  unfold EventRow.identity Event.dedupKey
  rw [hid, he, he', ht, ht', hendpoint, htime]

/-- The row that can stand for the event. -/
def letterIn (t : EventTable) (event : Event) : Option EventRow :=
  t.rows.find? fun row => IsLetterOf event row.event

theorem letterIn_eq_some {t : EventTable} {event : Event} {row : EventRow} :
    letterIn t event = some row ↔ row ∈ t.rows ∧ IsLetterOf event row.event := by
  have hfound : ∀ row, letterIn t event = some row →
      row ∈ t.rows ∧ IsLetterOf event row.event := by
    intro row h
    unfold letterIn at h
    exact ⟨List.mem_of_find?_eq_some h, by simpa using List.find?_some h⟩
  constructor
  · exact hfound row
  · rintro ⟨hrow, his⟩
    cases hfind : letterIn t event with
    | none =>
        have hnone := List.find?_eq_none.mp hfind row hrow
        exact absurd (decide_eq_true his) hnone
    | some found =>
        obtain ⟨hmem, his'⟩ := hfound found hfind
        rw [his'.unique hmem hrow his rfl rfl]

/-- Two messages of one endpoint and time have one row between them. -/
theorem LettersOfTheirOwn.not_sameTime {s : State} {letter : Event → Option EventRow}
    (h : LettersOfTheirOwn s letter) {a b : Event} (ha : a ∈ s.absorbed)
    (hb : b ∈ s.absorbed) : ¬ SameTime a b := by
  rintro ⟨hendpoint, htime, hmessage⟩
  obtain ⟨row, hrow, hla, his⟩ := h.stands a ha
  obtain ⟨row', hrow', hlb, his'⟩ := h.stands b hb
  have heq : row = row' := his.unique hrow hrow' his' hendpoint htime
  have hsame : letter a = letter b := by rw [hla, hlb, heq]
  exact hmessage ((h.own a ha b hb).mp hsame).2.1

/-- Two absorbed events have one row only where endpoint and time agree. -/
theorem Inv.letterIn_eq_iff {s : State} (hinv : Inv s) {a b : Event}
    (ha : a ∈ s.absorbed) (hb : b ∈ s.absorbed) :
    letterIn s.table a = letterIn s.table b ↔
      a.endpointId = b.endpointId ∧ a.eventTimestamp = b.eventTimestamp := by
  obtain ⟨row, hrow, his⟩ := hinv.lettered a ha
  have hla := letterIn_eq_some.mpr ⟨hrow, his⟩
  constructor
  · intro hsame
    obtain ⟨-, his'⟩ := letterIn_eq_some.mp (hsame.symm.trans hla)
    exact ⟨his.1.symm.trans his'.1, his.2.2.symm.trans his'.2.2⟩
  · intro hsame
    obtain ⟨row', hrow', his'⟩ := hinv.lettered b hb
    rw [hla, letterIn_eq_some.mpr ⟨hrow', his'⟩,
      his.unique hrow hrow' his' hsame.1 hsame.2]

theorem dead_letters (s : State) (h : Reach Init Step s) :
    (∃ letter, LettersOfTheirOwn s letter) ↔
      ¬ ∃ a ∈ s.absorbed, ∃ b ∈ s.absorbed, SameTime a b := by
  have hinv := inv_of_reach h
  constructor
  · rintro ⟨letter, hletter⟩ ⟨a, ha, b, hb, hab⟩
    exact hletter.not_sameTime ha hb hab
  · intro hclash
    refine ⟨letterIn s.table, fun event hevent => ?_, fun a ha b hb => ?_,
      fun row hrow hreserved => ?_⟩
    · obtain ⟨row, hrow, his⟩ := hinv.lettered event hevent
      exact ⟨row, hrow, letterIn_eq_some.mpr ⟨hrow, his⟩, his⟩
    · rw [hinv.letterIn_eq_iff ha hb]
      constructor
      · rintro ⟨hendpoint, htime⟩
        refine ⟨hendpoint, ?_, htime⟩
        by_contra hmessage
        exact hclash ⟨a, ha, b, hb, hendpoint, htime, hmessage⟩
      · exact fun hsame => ⟨hsame.1, hsame.2.2⟩
    · obtain ⟨event, hevent, his⟩ := hinv.absorbed row hrow hreserved
      exact ⟨event, hevent, letterIn_eq_some.mpr ⟨hrow, his⟩⟩

theorem redelivery_adds_none :
    threeBatches.absorbed.length = 3 ∧ threeBatches.table.rows.length = 2 ∧
      ∃ letter, LettersOfTheirOwn threeBatches letter :=
  ⟨by decide, by decide, (dead_letters threeBatches threeBatches_reach).mpr (by decide)⟩

/-- Two messages of one endpoint and second. -/
def sameSecond : State :=
  deliver ⟨10⟩ [warning "Fan.1" 5, warning "Power.1" 5] silent

theorem two_messages_one_letter :
    ¬ ∀ s, Reach Init Step s → ∃ letter, LettersOfTheirOwn s letter := by
  intro hall
  obtain ⟨letter, hletter⟩ :=
    hall sameSecond (silent_reach.step (deliver_step (by decide)))
  have hclash : ∃ a ∈ sameSecond.absorbed, ∃ b ∈ sameSecond.absorbed, SameTime a b := by
    decide
  obtain ⟨a, ha, b, hb, hab⟩ := hclash
  exact hletter.not_sameTime ha hb hab

end Rutilus.Proofs.DeadLetters
