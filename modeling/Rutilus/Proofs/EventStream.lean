import Rutilus.Lib.Rely
import Rutilus.Report.Stores

/-!
# The site reports its events in their order

The event cursor stands at an event. A round lists what is stored after it, queues one
batch and only then moves the cursor to the end of the batch; it may fail at any call
and be cut between any two. The listeners store events meanwhile, and the rest of the
site works on the outbox.

The product keeps no list of what it has reported. `queued` is the batch of a round that
has not moved the cursor, `settled` what the rounds have reported that did, and `late`
the events that were stored behind one that was there.
-/

namespace Rutilus.Proofs.EventStream

open Rutilus.Domain Rutilus.Lib Rutilus.Store Rutilus.Report
open Rutilus.Report.SiteReports (Config ReportError ReportReq call recordOf
  reportEventBatch reportSig)

/-! ## Runs -/

structure View where
  site : SiteStore
  queued : List EventRecord
  settled : List EventRecord
  late : List EventId

structure State where
  view : View
  round : Option (SiteReports.M Unit)

inductive Label where
  | store (event : Event)
  | report
  | call (o : SiteOracle)
  | stop
  | queue (fault : Option Fault) (entryId : OutboxEntryId) (q : OutboxReq)

/-- What an answered call has done. -/
def View.after (v : View) (site : SiteStore) : (q : ReportReq) → q.Resp → View
  | .outbox (.enqueue _ (.eventBatch records) _), .ok _ =>
      { v with site, queued := records }
  | .setEventCursor _, .ok _ =>
      { v with site, queued := [], settled := v.settled ++ v.queued }
  | _, _ => { v with site }

/-- The events of a table. -/
def Stored (t : EventTable) (event : Event) : Prop := event ∈ t.rows.map EventRow.event

/-- An event comes after all that are stored. -/
def isNewest (t : EventTable) (event : Event) : Bool :=
  t.rows.all fun row => decide (observedAfter row.event event)

def View.store (v : View) (event : Event) (events : EventTable) : View :=
  { v with
    site := { v.site with events }
    late := if isNewest v.site.events event then v.late else event.id :: v.late }

variable (sha : Bytes → Digest) (c : Config)

def next (s : State) : Label → Option State
  | .store event => match appendEvent s.view.site.events event with
    | .ok events => some { s with view := s.view.store event events }
    | .error _ => none
  | .report => match s.round with
    | some _ => none
    | none => some { s with round := some (reportEventBatch c) }
  | .call o => match s.round with
    | some (.call q k) =>
      let r := performSite sha c.instanceId o q s.view.site
      some ⟨s.view.after r.2 q r.1, some (k r.1)⟩
    | _ => none
  | .stop => some { s with round := none }
  | .queue fault entryId q =>
    let site := s.view.site
    let outbox := (runOutbox fault entryId q site.outbox).2
    some { s with view := { s.view with site := { site with outbox } } }

/-- A cursor that stands at a stored event; nothing was reported yet. -/
def Starts (start : Event) (s : State) : Prop :=
  ((getSyncCursor s.view.site.eventCursors c.instanceId .event).bind
    SyncCursor.cursorValue = some start.id ∧ Stored s.view.site.events start) ∧
      s.view.settled = [] ∧ s.round = none

/-! ## The order of the events -/

theorem observedBefore_total (a b : Event) :
    observedBefore a b ∨ observedBefore b a := by
  unfold observedBefore
  grind

theorem observedBefore_trans {a b d : Event} (h : observedBefore a b)
    (h' : observedBefore b d) : observedBefore a d := by
  unfold observedBefore at *
  grind

theorem observedAfter_trans {a b d : Event} (h : observedAfter a b)
    (h' : observedAfter b d) : observedAfter a d := by
  unfold observedAfter at *
  grind

theorem observedAfter_of_not {a b d : Event} (h : ¬ observedAfter a b)
    (h' : observedAfter a d) : observedAfter b d := by
  unfold observedAfter at *
  grind

theorem not_observedAfter_self (a : Event) : ¬ observedAfter a a := by
  simp [observedAfter]

theorem findEvent_eq_some_iff {t : EventTable} {id : EventId} {event : Event} :
    findEvent t id = some event ↔ Stored t event ∧ event.id = id := by
  unfold findEvent Stored
  rw [Option.map_eq_some_iff, List.mem_map]
  constructor
  · rintro ⟨row, hfind, rfl⟩
    obtain ⟨hmem, hid⟩ := Table.find_eq_some_iff.mp hfind
    exact ⟨⟨row, hmem, rfl⟩, hid⟩
  · rintro ⟨⟨row, hmem, rfl⟩, hid⟩
    exact ⟨row, Table.find_eq_some_iff.mpr ⟨hmem, hid⟩, rfl⟩

/-- What a listing after an event has: the events after it in their order, up to one
that those it leaves out come after. -/
structure Listed (now : Event) (t : EventTable) (late : List EventId)
    (events : List Event) : Prop where
  sorted : events.Pairwise observedAfter
  stored : ∀ e ∈ events, Stored t e ∧ observedAfter now e
  complete : ∀ e, Stored t e → observedAfter now e → e.id ∉ late →
    e ∈ events ∨ ∀ a ∈ events, observedAfter a e

theorem listEventsAfter_ok {t : EventTable} {now : Event} {limit : Nat}
    {events : List Event} {late : List EventId} (hnow : Stored t now)
    (h : listEventsAfter t now.id limit = .ok events) : Listed now t late events := by
  unfold listEventsAfter at h
  rw [findEvent_eq_some_iff.mpr ⟨hnow, rfl⟩] at h
  cases h
  have : Std.Total observedBefore := ⟨observedBefore_total⟩
  have : IsTrans Event observedBefore := ⟨fun _ _ _ => observedBefore_trans⟩
  set found := (t.rows.map EventRow.event).filter fun e => decide (observedAfter now e)
  have hmem : ∀ e, e ∈ found.insertionSort observedBefore ↔
      Stored t e ∧ observedAfter now e := by
    intro e
    rw [List.mem_insertionSort, List.mem_filter, decide_eq_true_eq]
    rfl
  have hids : (found.insertionSort observedBefore).Pairwise fun a b => a.id ≠ b.id := by
    refine ((List.perm_insertionSort _ _).pairwise_iff Ne.symm).mpr
      (List.Pairwise.filter _ ?_)
    exact List.pairwise_map.mpr (List.pairwise_map.mp t.nodup)
  have hsorted : (found.insertionSort observedBefore).Pairwise observedAfter := by
    refine (List.pairwise_insertionSort observedBefore found).imp₂
      (fun a b hab hne => ?_) hids
    have huuid : a.id.uuid ≠ b.id.uuid := fun heq => hne (congrArg EventId.mk heq)
    unfold observedBefore observedAfter at *
    grind
  have hcut := (List.take_append_drop limit (found.insertionSort observedBefore))
  refine ⟨hsorted.sublist (List.take_sublist _ _), fun e he =>
    (hmem e).mp (List.mem_of_mem_take he), fun e hstored hafter _ => ?_⟩
  have he := (hmem e).mpr ⟨hstored, hafter⟩
  rw [← hcut] at he hsorted
  rcases List.mem_append.mp he with he | he
  · exact .inl he
  · exact .inr fun a ha => (List.pairwise_append.mp hsorted).2.2 a ha e he

/-! ## What is kept -/

/-- The cursor stands at an event, and the rounds have reported what lies between the
start and this event: each event once, in the order of the listing, and all but those
that were stored late. -/
structure Reported (start now : Event) (v : View) : Prop where
  cursor : (getSyncCursor v.site.eventCursors c.instanceId .event).bind
    SyncCursor.cursorValue = some now.id
  stored : Stored v.site.events now
  reached : now = start ∨ observedAfter start now
  settled : ∃ done : List Event, v.settled = done.map recordOf ∧
    done.Pairwise observedAfter ∧
    (∀ e ∈ done, Stored v.site.events e ∧ observedAfter start e ∧
      ¬ observedAfter now e) ∧
    ∀ e, Stored v.site.events e → observedAfter start e → ¬ observedAfter now e →
      e.id ∉ v.late → e ∈ done

/-- What the rest of the site may do. -/
structure Others (v v' : View) : Prop where
  cursors : v'.site.eventCursors = v.site.eventCursors
  queued : v'.queued = v.queued
  settled : v'.settled = v.settled
  kept : ∀ e, Stored v.site.events e → Stored v'.site.events e
  new : ∀ e, Stored v'.site.events e → Stored v.site.events e ∨ e.id ∈ v'.late ∨
    ∀ a, Stored v.site.events a → observedAfter a e
  late : ∀ id ∈ v.late, id ∈ v'.late

section Kept

variable {c} {start now : Event} {v v' : View} {events : List Event}

theorem Others.trans {v'' : View} (h : Others v v') (h' : Others v' v'') :
    Others v v'' where
  cursors := h'.cursors.trans h.cursors
  queued := h'.queued.trans h.queued
  settled := h'.settled.trans h.settled
  kept := fun e he => h'.kept e (h.kept e he)
  late := fun id hid => h'.late id (h.late id hid)
  new := by
    intro e he
    rcases h'.new e he with he | he | he
    · exact (h.new e he).imp_right fun hnew => hnew.imp_left (h'.late _)
    · exact .inr (.inl he)
    · exact .inr (.inr fun a ha => he a (h.kept a ha))

theorem Reported.others (h : Reported c start now v) (ho : Others v v') :
    Reported c start now v' := by
  obtain ⟨done, hsettled, hsorted, hdone, hall⟩ := h.settled
  refine ⟨by rw [ho.cursors]; exact h.cursor, ho.kept _ h.stored, h.reached, done,
    ho.settled.trans hsettled, hsorted, fun e he => ?_,
    fun e he hstart hnow hlate => ?_⟩
  · exact ⟨ho.kept _ (hdone e he).1, (hdone e he).2⟩
  · rcases ho.new e he with hold | hold | hnew
    · exact hall e hold hstart hnow fun hid => hlate (ho.late _ hid)
    · exact absurd hold hlate
    · exact absurd (hnew now h.stored) hnow

theorem Listed.others (h : Listed now v.site.events v.late events) (ho : Others v v') :
    Listed now v'.site.events v'.late events := by
  refine ⟨h.sorted, fun e he => ⟨ho.kept _ (h.stored e he).1, (h.stored e he).2⟩,
    fun e he hnow hlate => ?_⟩
  rcases ho.new e he with hold | hold | hnew
  · exact h.complete e hold hnow fun hid => hlate (ho.late _ hid)
  · exact absurd hold hlate
  · exact .inr fun a ha => hnew a (h.stored a ha).1

/-- The cursor moves to the end of a batch. -/
theorem Reported.move {last : Event} {cursor : SyncCursor EventId}
    (h : Reported c start now v) (hl : Listed now v.site.events v.late events)
    (hlast : events.getLast? = some last) (hqueued : v.queued = events.map recordOf)
    (hkey : cursor.key = (c.instanceId, .event))
    (hvalue : cursor.cursorValue = some last.id) :
    Reported c start last
      { v with
        site := { v.site with
          eventCursors := setSyncCursor v.site.eventCursors cursor }
        queued := [], settled := v.settled ++ v.queued } := by
  obtain ⟨done, hsettled, hsorted, hdone, hall⟩ := h.settled
  have hmem := List.mem_of_getLast? hlast
  have hafter := (hl.stored last hmem).2
  have hend : ∀ e ∈ events, ¬ observedAfter last e := by
    obtain ⟨front, rfl⟩ := List.getLast?_eq_some_iff.mp hlast
    intro e he hle
    rcases List.mem_append.mp he with he | he
    · have hbefore := (List.pairwise_append.mp hl.sorted).2.2 e he last (by simp)
      exact not_observedAfter_self e (observedAfter_trans hbefore hle)
    · rw [List.mem_singleton.mp he] at hle
      exact not_observedAfter_self last hle
  have hstart : ∀ e, observedAfter now e → observedAfter start e := by
    intro e he
    rcases h.reached with heq | hreached
    · exact heq ▸ he
    · exact observedAfter_trans hreached he
  refine ⟨?_, (hl.stored last hmem).1, .inr (hstart last hafter), done ++ events, ?_,
    ?_, fun e he => ?_, fun e he hs hnow hlate => ?_⟩
  · unfold getSyncCursor setSyncCursor
    rw [← hkey]
    exact (congrArg (Option.bind · SyncCursor.cursorValue)
      Table.find_put_self).trans hvalue
  · rw [hsettled, hqueued, List.map_append]
  · refine List.pairwise_append.mpr ⟨hsorted, hl.sorted, fun a ha b hb => ?_⟩
    exact observedAfter_of_not (hdone a ha).2.2 (hl.stored b hb).2
  · rcases List.mem_append.mp he with he | he
    · obtain ⟨hstored, hs, hnow⟩ := hdone e he
      exact ⟨hstored, hs, fun hle => hnow (observedAfter_trans hafter hle)⟩
    · exact ⟨(hl.stored e he).1, hstart e (hl.stored e he).2, hend e he⟩
  · rw [List.mem_append]
    by_cases hpast : observedAfter now e
    · exact .inr ((hl.complete e he hpast hlate).resolve_right fun hall =>
        hnow (hall last hmem))
    · exact .inl (hall e he hs hpast hlate)

end Kept

/-! ## A round -/

/-- What a call of a round may do. -/
def Calls : Sem reportSig View := fun q v r v' =>
  ∃ o, (performSite sha c.instanceId o q v.site).1 = r ∧
    v' = v.after (performSite sha c.instanceId o q v.site).2 q r

/-- The guarantee of a round. -/
def Keeps (start : Event) (_ : ReportReq) (_ v' : View) : Prop :=
  ∃ now, Reported c start now v'

abbrev Gives (start : Event) {α : Type} (p : SiteReports.M α) (Q : α → View → Prop)
    (v : View) : Prop :=
  Succeeds (Calls sha c) Others (Keeps c start) p Q v

section Round

variable {sha c} {start now : Event} {v : View} {events : List Event}

/-- The calls that change nothing. -/
def reads : ReportReq → Bool
  | .now | .getEventCursor | .contains _ | .listAfter .. => true
  | _ => false

theorem after_read {q : ReportReq} (hq : reads q = true) (o : SiteOracle) (v : View) :
    v.after (performSite sha c.instanceId o q v.site).2 q
      (performSite sha c.instanceId o q v.site).1 = v := by
  cases q with
  | now => rfl
  | getEventCursor =>
      simp only [performSite, View.after]
      split <;> rfl
  | contains eventId =>
      simp only [performSite, View.after]
      split <;> rfl
  | listAfter eventId limit =>
      simp only [performSite, View.after]
      split <;> rfl
  | _ => cases hq

/-- What the others keep stays, and the answer says what the state says. -/
theorem safe_read {q : ReportReq} {P : View → Prop} {A : q.Resp → View → Prop}
    (hq : reads q = true)
    (hP : ∀ v v', P v → Others v v' → P v')
    (hkeeps : ∀ v, P v → ∃ now, Reported c start now v)
    (hA : ∀ o v, P v → A (performSite sha c.instanceId o q v.site).1 v) (h : P v) :
    Safe (Calls sha c) Others (Keeps c start) (call q) (fun r v' => P v' ∧ A r v')
      v := by
  intro v₁ ho r v₂ hcall
  obtain ⟨o, rfl, hv⟩ := hcall
  rw [after_read hq] at hv
  subst hv
  have h₁ := hP v v₂ h ho
  exact ⟨hkeeps v₂ h₁, h₁, hA o v₂ h₁⟩

/-- A listing in hand, with the cursor still in front of it. -/
structure Holding (start now : Event) (events : List Event) (v : View) : Prop where
  reported : Reported c start now v
  listed : Listed now v.site.events v.late events

theorem Holding.others {v v' : View} (h : Holding (c := c) start now events v)
    (ho : Others v v') : Holding (c := c) start now events v' :=
  ⟨h.reported.others ho, h.listed.others ho⟩

theorem getEventCursor_gives (h : Reported c start now v) :
    Gives sha c start (orThrow (call .getEventCursor) .cursor) (fun cursor v' =>
      Reported c start now v' ∧
        cursor.bind SyncCursor.cursorValue = some now.id) v := by
  refine Succeeds.orThrow ((safe_read (q := .getEventCursor) rfl
    (fun _ _ => Reported.others) (fun _ h => ⟨now, h⟩)
    (A := fun r _ => ∀ cursor, r = .ok cursor →
      cursor.bind SyncCursor.cursorValue = some now.id)
    (fun o v h cursor hok => ?_) h).imp fun _ _ hr a ha => ⟨hr.1, hr.2 a ha⟩)
  simp only [performSite] at hok
  split at hok
  · cases hok
  · cases hok
    exact h.cursor

theorem selectEvents_gives {cursor : Option (SyncCursor EventId)}
    (h : Reported c start now v)
    (hcursor : cursor.bind SyncCursor.cursorValue = some now.id) :
    Gives sha c start (SiteReports.selectEvents c cursor) (fun found v' =>
      Holding (c := c) start now found.1 v' ∧
        found.2 = found.1.getLast?.map Event.id) v := by
  unfold SiteReports.selectEvents
  rw [hcursor]
  refine Succeeds.bind (Q := fun there v' => Reported c start now v' ∧ there = true)
    (Succeeds.orThrow ((safe_read (q := .contains now.id) rfl
      (fun _ _ => Reported.others) (fun _ h => ⟨now, h⟩)
      (A := fun r _ => ∀ there, r = .ok there → there = true)
      (fun o v h there hok => ?_) h).imp fun _ _ hr a ha => ⟨hr.1, hr.2 a ha⟩))
    fun there v₁ h₁ => ?_
  · simp only [performSite] at hok
    split at hok
    · cases hok
    · cases hok
      rw [findEvent_eq_some_iff.mpr ⟨h.stored, rfl⟩]
      rfl
  obtain ⟨h₁, rfl⟩ := h₁
  refine Succeeds.bind (Q := fun events v' => Holding (c := c) start now events v')
    (Succeeds.orThrow ((safe_read (q := .listAfter now.id c.eventBatchLimit)
      rfl (fun _ _ => Reported.others) (fun _ h => ⟨now, h⟩)
      (A := fun r v => ∀ events, r = .ok events →
        Listed now v.site.events v.late events)
      (fun o v h events hok => ?_) h₁).imp fun _ _ hr a ha => ⟨hr.1, hr.2 a ha⟩))
    fun events v₂ h₂ => ?_
  · simp only [performSite] at hok
    split at hok
    · cases hok
    · exact listEventsAfter_ok h.stored hok
  · intro found hok
    cases hok
    exact ⟨h₂, rfl⟩

theorem enqueue_gives (h : Holding (c := c) start now events v) :
    Gives sha c start
      (SiteReports.enqueueOutboxEntry c (.eventBatch (events.map recordOf)))
      (fun _ v' => Holding (c := c) start now events v' ∧
        v'.queued = events.map recordOf) v := by
  refine Succeeds.bind (Succeeds.lift (safe_read (q := .now) (A := fun _ _ => True)
    rfl (fun _ _ => Holding.others) (fun _ h => ⟨now, h.reported⟩)
    (fun _ _ _ => trivial) h)) fun createdAt v₁ h₁ => Succeeds.orThrow ?_
  intro v₂ ho r v₃ hcall
  obtain ⟨o, hr, rfl⟩ := hcall
  have h₂ := h₁.1.others ho
  have hkept : ∀ outbox queued, Holding (c := c) start now events
      { v₂ with site := { v₂.site with outbox }, queued } := by
    intro outbox queued
    obtain ⟨⟨hcursor, hstored, hreached, hsettled⟩, hlisted⟩ := h₂
    exact ⟨⟨hcursor, hstored, hreached, hsettled⟩, hlisted⟩
  cases r with
  | error e => exact ⟨⟨now, (hkept _ v₂.queued).reported⟩, fun _ hok => by cases hok⟩
  | ok entry => exact ⟨⟨now, (hkept _ _).reported⟩, fun _ _ => ⟨hkept _ _, rfl⟩⟩

/-- The batch is in the outbox, and the cursor moves over it. -/
theorem setEventCursor_gives {last : Event} {time : Instant}
    (h : Holding (c := c) start now events v) (hqueued : v.queued = events.map recordOf)
    (hlast : events.getLast? = some last) :
    Gives sha c start (orThrow (call (.setEventCursor
      ⟨c.instanceId, .event, some last.id, time⟩)) .cursor) (fun _ _ => True) v := by
  refine Succeeds.orThrow fun v₁ ho r v₂ hcall => ?_
  obtain ⟨o, hr, rfl⟩ := hcall
  have h₁ := h.others ho
  simp only [performSite] at hr ⊢
  split at hr
  · subst hr
    exact ⟨⟨now, h₁.reported⟩, fun _ hok => by cases hok⟩
  · subst hr
    exact ⟨⟨last, h₁.reported.move h₁.listed hlast (ho.queued.trans hqueued) rfl rfl⟩,
      fun _ _ => trivial⟩

theorem reportEventBatch_gives (h : Reported c start now v) :
    Gives sha c start (reportEventBatch c) (fun _ _ => True) v := by
  refine Succeeds.bind (getEventCursor_gives h) fun cursor v₁ h₁ => ?_
  refine Succeeds.bind (selectEvents_gives h₁.1 h₁.2) fun found v₂ h₂ => ?_
  obtain ⟨events, newest⟩ := found
  obtain ⟨h₂, hnewest⟩ := h₂
  dsimp only at h₂ hnewest ⊢
  subst hnewest
  split
  · exact fun _ _ => trivial
  refine Succeeds.bind (enqueue_gives h₂) fun _ v₃ h₃ => ?_
  refine Succeeds.bind (Succeeds.lift (safe_read (q := .now) (A := fun _ _ => True)
    (P := fun v => Holding (c := c) start now events v ∧ v.queued = events.map recordOf)
    rfl (fun _ _ h ho => ⟨h.1.others ho, ho.queued.trans h.2⟩)
    (fun _ h => ⟨now, h.1.reported⟩) (fun _ _ _ => trivial) h₃)) fun time v₄ h₄ => ?_
  cases hlast : events.getLast? with
  | none => exact Succeeds.throw
  | some last => exact setEventCursor_gives h₄.1.1 h₄.1.2 hlast

end Round

/-! ## All runs -/

/-- The cursor stands at an event, and a round that is under way keeps its contract. -/
structure Inv (start : Event) (s : State) : Prop where
  reported : ∃ now, Reported c start now s.view
  round : ∀ round, s.round = some round →
    Gives sha c start round (fun _ _ => True) s.view

section Runs

variable {sha c} {start : Event} {s t : State} {v : View}

theorem Others.refl : Others v v :=
  ⟨rfl, rfl, rfl, fun _ => id, fun _ => .inl, fun _ => id⟩

theorem others_store {event : Event} {events : EventTable}
    (h : appendEvent v.site.events event = .ok events) :
    Others v (v.store event events) := by
  have hlate : ∀ id ∈ v.late, id ∈ (v.store event events).late := by
    intro id hid
    simp only [View.store]
    split
    · exact hid
    · exact List.mem_cons_of_mem _ hid
  rcases EventTable.append_ok h with ⟨-, -, hrows⟩ | ⟨-, rfl⟩
  · have hstored : ∀ e, Stored events e ↔ Stored v.site.events e ∨ e = event := by
      intro e
      simp [Stored, hrows]
    refine ⟨rfl, rfl, rfl, fun e he => (hstored e).mpr (.inl he), fun e he => ?_, hlate⟩
    rcases (hstored e).mp he with he | rfl
    · exact .inl he
    · refine .inr ?_
      simp only [View.store]
      split
      · next hnewest =>
          refine .inr fun a ha => ?_
          obtain ⟨row, hrow, rfl⟩ := List.mem_map.mp ha
          simpa using List.all_eq_true.mp hnewest row hrow
      · exact .inl List.mem_cons_self
  · exact ⟨rfl, rfl, rfl, fun _ => id, fun _ => .inl, hlate⟩

theorem Inv.others {v : View} (h : Inv sha c start s) (ho : Others s.view v) :
    Inv sha c start { s with view := v } := by
  obtain ⟨now, hnow⟩ := h.reported
  exact ⟨⟨now, hnow.others ho⟩, fun round hround =>
    (h.round round hround).stable Others.trans (fun _ _ _ _ => trivial) ho⟩

theorem inv_next {label : Label} (h : Inv sha c start s)
    (ht : next sha c s label = some t) : Inv sha c start t := by
  cases label with
  | store event =>
      simp only [next] at ht
      split at ht
      · next happend =>
          cases ht
          exact h.others (others_store happend)
      · cases ht
  | report =>
      simp only [next] at ht
      split at ht
      · cases ht
      · cases ht
        obtain ⟨now, hnow⟩ := h.reported
        refine ⟨⟨now, hnow⟩, fun round hround => ?_⟩
        cases hround
        exact reportEventBatch_gives hnow
  | call o =>
      simp only [next] at ht
      split at ht
      · next q k hround =>
          cases ht
          obtain ⟨hkept, hrest⟩ := h.round _ hround s.view .refl _ _ ⟨o, rfl, rfl⟩
          refine ⟨hkept, fun round hsome => ?_⟩
          cases hsome
          exact hrest
      · cases ht
  | stop =>
      cases ht
      exact ⟨h.reported, fun round hround => by cases hround⟩
  | queue fault entryId q =>
      cases ht
      exact h.others ⟨rfl, rfl, rfl, fun _ => id, fun _ => .inl, fun _ => id⟩

end Runs

theorem lanReset_valid :
    parseLabel "Alert.1.0.LanReset" = .ok "Alert.1.0.LanReset" := by decide

theorem alert_timeline (n : Nat) : (0 : Int) ≤ n := Int.natCast_nonneg n

def alert (n : Nat) : Event where
  id := ⟨n⟩
  endpointId := ⟨n⟩
  messageId := ⟨"Alert.1.0.LanReset", lanReset_valid⟩
  severity := .warning
  message := none
  eventTimestamp := ⟨0, 0⟩
  observedAt := n
  timeline := alert_timeline n

def config : Config := ⟨⟨1⟩, 100, 4096⟩

def oneAlert : State where
  view :=
    { site := { SiteStore.empty with
        events := (appendEvent .empty (alert 1)).toOption.getD .empty
        eventCursors := setSyncCursor .empty ⟨⟨1⟩, .event, some ⟨1⟩, 0⟩ }
      queued := []
      settled := []
      late := [] }
  round := none

def isReported (s : State) : Bool :=
  decide (s.view.settled = [recordOf (alert 2)] ∧ s.view.late = [])

end Rutilus.Proofs.EventStream
