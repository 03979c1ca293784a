import Rutilus.Proofs.FlushQueue

/-!
# What a connection sends in the end

Both sides flush their queue in the same way: they read its window, pass over
what cannot be sent, send the rest and come back after an acknowledgement. A row
that cannot be sent stays pending, so it keeps its place in every later window.

Hence a queue is worked through if and only if, before each entry that can be
sent, fewer rows than the flush limit are stuck. The test of the product has one
bad row and a limit of 64; at the limit the queue stands still for good, with no
error.
-/

namespace Rutilus.Proofs.FlushProgress

open Rutilus.Domain Rutilus.Lib Rutilus.Store Rutilus.Proofs.FlushQueue
  Rutilus.Proofs.FlushRounds
open Rutilus.App.Session (Sent Link Config SyncError)

/-! ## The site -/

namespace Site

open Rutilus.App.Session

/-- The site's side of a connection between two frames. -/
structure SiteConn where
  peerAcked : Nat
  sent : Sent
  outbox : OutboxTable
  link : Link

/-- The connection after a part of the loop. -/
def settle (peerAcked : Nat) :
    Except SyncError Sent × (OutboxTable × Link) → Except SyncError SiteConn
  | (.ok sent, (outbox, link)) => .ok ⟨peerAcked, sent, outbox, link⟩
  | (.error e, _) => .error e

/-- One frame, without faults of the queue or the transport. -/
def frameOn (c : Config) (frame : Envelope × Instant) (s : SiteConn) :
    Except SyncError SiteConn :=
  let peerAcked := max s.peerAcked frame.1.sequence
  settle peerAcked (Prog.run (perform none false)
    (handleFrame c peerAcked frame.1 frame.2 s.sent) (s.outbox, s.link))

/-- The first flush and then the first `n` frames. -/
def siteConn (c : Config) (t : OutboxTable)
    (frames : Nat → Envelope × Instant) : Nat → Except SyncError SiteConn
  | 0 => settle 0 (Prog.run (perform none false) (flushOutbox c 0 [])
      (t, .new))
  | n + 1 => siteConn c t frames n >>= frameOn c (frames n)

/-- The frames after which the site flushes. -/
def flushes (envelope : Envelope) : Prop :=
  match envelope.message with
  | some (.ack _) => True
  | some (.operationOffer _) => True
  | _ => False

/-- What the site can send: the payload parses and the sequence is no negative
number. -/
def sendable (entry : OutboxEntry) : Bool :=
  entry.payload.isSome && decide (0 ≤ entry.sequence)

def terms (c : Config) : Terms := ⟨c.instanceId, sendable, fun _ => False⟩

def connOf (t : OutboxTable) (link : Link) (sent : Sent) : Conn :=
  ⟨t, sent, link.sent.map Prod.fst⟩

variable {c : Config} {t : OutboxTable} {link : Link} {sent : Sent}

theorem run_flushEntries (peerAcked : Nat) (entries : List OutboxEntry)
    (hnodup : (entries.map OutboxEntry.id).Nodup) (link : Link) (sent : Sent) :
    ∃ news link', Prog.run (perform none false)
        (flushEntries peerAcked sent entries) (t, link) =
          (.ok (sent ++ news), (t, link')) ∧
      Flush (terms c) entries news [] (connOf t link sent)
        (connOf t link' (sent ++ news)) := by
  induction entries generalizing link sent with
  | nil =>
      refine ⟨[], link, ?_, ?_⟩
      · rw [List.append_nil]
        rfl
      · rw [List.append_nil]
        exact .nil
  | cons entry entries ih =>
      rw [List.map_cons, List.nodup_cons] at hnodup
      obtain ⟨hother, hnodup⟩ := hnodup
      have hpass : ((terms c).sendable entry = true →
            entry.id ∈ sent.map Prod.fst) →
          flushEntries peerAcked sent (entry :: entries) =
            flushEntries peerAcked sent entries →
          ∃ news link', Prog.run (perform none false)
              (flushEntries peerAcked sent (entry :: entries)) (t, link) =
                (.ok (sent ++ news), (t, link')) ∧
            Flush (terms c) (entry :: entries) news [] (connOf t link sent)
              (connOf t link' (sent ++ news)) := by
        intro hmem heq
        obtain ⟨news, link', hrun, hflush⟩ := ih hnodup link sent
        exact ⟨news, link', heq ▸ hrun, hflush.pass hmem⟩
      by_cases hsent : sent.any (fun p => p.1 = entry.id) = true
      · refine hpass (fun _ => ?_) ?_
        · obtain ⟨p, hp, hid⟩ := List.any_eq_true.mp hsent
          exact List.mem_map.mpr ⟨p, hp, of_decide_eq_true hid⟩
        · rw [flushEntries, if_pos hsent]
      · cases hpayload : entry.payload with
        | none =>
            refine hpass (fun h => ?_) ?_
            · simp [terms, sendable, hpayload] at h
            · rw [flushEntries, if_neg hsent, hpayload]
        | some envelope =>
            by_cases hsequence : entry.sequence < 0
            · refine hpass (fun h => ?_) ?_
              · simp [terms, sendable, hpayload] at h
                omega
              · rw [flushEntries, if_neg hsent, hpayload]
                exact if_pos hsequence
            · have hfresh : entry.id ∉ sent.map Prod.fst := fun hin => by
                obtain ⟨p, hp, hid⟩ := List.mem_map.mp hin
                exact hsent (List.any_eq_true.mpr
                  ⟨p, hp, decide_eq_true hid⟩)
              have hwire : ((entry.sequence.toNat : Nat) : Int) =
                  entry.sequence := Int.toNat_of_nonneg (by omega)
              set sending : Link := { link with
                sent := link.sent ++ [(entry.id, entry.sequence)]
                up := link.up ++ [(some entry.id, { envelope with
                  sequence := entry.sequence.toNat
                  ackedSequence := peerAcked })] } with hsending
              obtain ⟨news, link', hrun, hflush⟩ :=
                ih hnodup sending (sent ++ [(entry.id, entry.sequence)])
              rw [List.append_assoc, List.singleton_append] at hrun hflush
              refine ⟨(entry.id, entry.sequence) :: news, link', ?_, ?_⟩
              · rw [flushEntries, if_neg hsent, hpayload]
                show Prog.run _ (if entry.sequence < 0 then _ else _) _ = _
                rw [if_neg hsequence, Prog.run_bindE, run_orThrow]
                show Prog.run _ (flushEntries peerAcked
                  (sent ++ [(entry.id, entry.sequence)]) entries)
                    (t, { link with
                      sent := link.sent ++
                        [(entry.id, ((entry.sequence.toNat : Nat) : Int))]
                      up := _ }) = _
                rw [hwire]
                exact hrun
              · refine Flush.send ?_ hfresh hother ?_
                · simp only [terms, sendable, hpayload, Option.isSome_some,
                    Bool.true_and, decide_eq_true_eq]
                  omega
                · have hlog : sending.sent.map Prod.fst =
                      link.sent.map Prod.fst ++ [entry.id] := by
                    rw [hsending, List.map_append]
                    rfl
                  rw [connOf, hlog] at hflush
                  exact hflush

theorem run_flushOutbox (link : Link) (sent : Sent) (peerAcked : Nat)
    (h : Tracked (terms c) (connOf t link sent)) :
    ∃ sent' link', Prog.run (perform none false)
        (flushOutbox c peerAcked sent) (t, link) = (.ok sent', (t, link')) ∧
      Flushed (terms c) c.flushLimit (connOf t link sent)
        (connOf t link' sent') := by
  obtain ⟨entries, hlist, hnodup, hwindow⟩ :=
    listPending_window h.readable c.flushLimit
  obtain ⟨news, link', hrun, hflush⟩ :=
    run_flushEntries (c := c) (t := t) peerAcked entries hnodup link sent
  refine ⟨sent ++ news, link', ?_, hflush.flushed h hwindow⟩
  rw [flushOutbox, Prog.run_bindE, run_orThrow]
  have hcall : Prog.run (perform none false)
      (call (.listPending c.instanceId c.flushLimit)) (t, link) =
        (.ok entries, (t, link)) := by
    have hlist : listPendingOutbox t c.instanceId c.flushLimit =
      .ok entries := hlist
    exact congrArg (fun r => (r, (t, link))) hlist
  rw [hcall]
  exact hrun

theorem run_ackOutbox (ackedSequence : Nat) (now : Instant) (sent : Sent)
    (t : OutboxTable) (h : Tracked (terms c) (connOf t link sent)) :
    ∃ sent' t', Prog.run (perform none false)
        (ackOutbox ackedSequence now sent) (t, link) =
          (.ok sent', (t', link)) ∧
      Quiet (terms c) (connOf t link sent) (connOf t' link sent') := by
  induction sent generalizing t with
  | nil => exact ⟨[], t, rfl, .refl h⟩
  | cons p sent ih =>
      obtain ⟨entryId, sequence⟩ := p
      obtain ⟨entry, hentry, hsendable, heq⟩ :=
        h.listed _ List.mem_cons_self
      obtain ⟨rfl, rfl⟩ := Prod.mk.inj heq
      have hwire : ¬ entry.sequence < 0 := by
        simp [terms, sendable] at hsendable
        omega
      rw [ackOutbox, if_neg hwire]
      split
      · exact ⟨_, t, rfl, .refl h⟩
      · obtain ⟨t₁, hack, hqueue⟩ :=
          runOutbox_ack_of_pending now hentry
        have hpop : Quiet (terms c) _ (connOf t₁ link sent) :=
          Quiet.pop h rfl (hqueue _)
        obtain ⟨sent', t', hrun, hquiet⟩ := ih t₁ hpop.tracked
        refine ⟨sent', t', ?_, hpop.trans hquiet⟩
        rw [Prog.run_bindE, run_orThrow]
        have hcall : Prog.run (perform none false)
            (call (.acknowledge entry.id now)) (t, link) =
              (.ok (), (t₁, link)) := by
          have hack : runOutbox none ⟨0⟩ (.acknowledge entry.id now) t =
            (.ok (), t₁) := hack
          exact congrArg (fun r => (r.1, (r.2, link))) hack
        rw [hcall]
        exact hrun

theorem not_flushes {envelope : Envelope}
    (hack : ∀ sequence, envelope.message ≠ some (.ack sequence))
    (hoffer : ∀ offer, envelope.message ≠ some (.operationOffer offer)) :
    ¬ flushes envelope := by
  intro hvisit
  unfold flushes at hvisit
  cases hm : envelope.message with
  | none =>
      rw [hm] at hvisit
      exact hvisit
  | some message =>
      rw [hm] at hvisit
      cases message with
      | ack sequence => exact hack sequence hm
      | operationOffer offer => exact hoffer offer hm
      | _ => exact hvisit

/-- One frame is a round. -/
theorem frameOn_round (frame : Envelope × Instant) (s : SiteConn)
    (h : Tracked (terms c) (connOf s.outbox s.link s.sent)) :
    ∃ s', frameOn c frame s = .ok s' ∧
      Round (terms c) c.flushLimit (flushes frame.1)
        (connOf s.outbox s.link s.sent) (connOf s'.outbox s'.link s'.sent) := by
  obtain ⟨envelope, now⟩ := frame
  set peerAcked := max s.peerAcked envelope.sequence with hpeer
  have hflush := run_flushOutbox _ _ peerAcked h
  obtain ⟨flushed, flink, hrun, hflushed⟩ := hflush
  unfold frameOn
  dsimp only
  rw [← hpeer, handleFrame]
  split
  · next sequence _ =>
      obtain ⟨sent₁, t₁, hack, hquiet⟩ := run_ackOutbox sequence now s.sent
        s.outbox h
      obtain ⟨sent', link', hrun', hflushed'⟩ :=
        run_flushOutbox _ _ peerAcked hquiet.tracked
      refine ⟨⟨peerAcked, sent', t₁, link'⟩, ?_, .inl ⟨_, hquiet, hflushed'⟩⟩
      rw [Prog.run_bindE, hack]
      dsimp only
      rw [hrun']
      rfl
  · refine ⟨⟨peerAcked, flushed, s.outbox, flink⟩, ?_,
      .inl ⟨_, .refl h, hflushed⟩⟩
    rw [hrun]
    rfl
  · next hack hoffer =>
      exact ⟨⟨peerAcked, s.sent, s.outbox, s.link⟩, rfl,
        .inr ⟨not_flushes hack hoffer, .refl h⟩⟩

/-- A fair connection of the site: it goes on flushing, and every entry that
waits for its acknowledgement is acknowledged. -/
structure Fair (c : Config) (t : OutboxTable)
    (frames : Nat → Envelope × Instant) : Prop where
  flushes : ∀ n, ∃ m, n ≤ m ∧ flushes (frames m).1
  acknowledged : ∀ n s, siteConn c t frames n = .ok s → ∀ p ∈ s.sent,
    ∃ m s', n ≤ m ∧ siteConn c t frames m = .ok s' ∧ p ∉ s'.sent

/-- The entry is sent on the connection. -/
def Sends (c : Config) (t : OutboxTable) (frames : Nat → Envelope × Instant)
    (entry : OutboxEntry) : Prop :=
  ∃ n s, siteConn c t frames n = .ok s ∧
    entry.id ∈ s.link.sent.map Prod.fst

theorem sends_iff {frames : Nat → Envelope × Instant} {entry : OutboxEntry}
    (hread : ∀ entry ∈ pendingEntries t c.instanceId, entry.isValid = true)
    (hfair : Fair c t frames)
    (hentry : entry ∈ pendingEntries t c.instanceId)
    (hsendable : sendable entry = true) :
    Sends c t frames entry ↔
      Backlog.blockers queuedAhead (fun e => !sendable e) entry
        (pendingEntries t c.instanceId) < c.flushLimit := by
  have hfirst : ∃ s, siteConn c t frames 0 = .ok s ∧
      Flushed (terms c) c.flushLimit ⟨t, [], []⟩
        (connOf s.outbox s.link s.sent) := by
    obtain ⟨sent, link, hrun, hflush⟩ := run_flushOutbox (c := c) (t := t)
      .new [] 0 (tracked_start hread)
    refine ⟨⟨0, sent, t, link⟩, ?_, hflush⟩
    rw [siteConn, hrun]
    rfl
  refine loop_sends_iff (T := terms c)
    (fun s : SiteConn => connOf s.outbox s.link s.sent) _ hread hfirst
    (fun n s hs htracked => ?_) hfair.flushes hfair.acknowledged hentry
    hsendable id
  obtain ⟨s', hs', hround⟩ := frameOn_round (frames n) s htracked
  refine ⟨s', ?_, hround⟩
  rw [siteConn, hs]
  exact hs'

end Site

/-! ## The center -/

namespace Center

open Rutilus.App.CenterSession
open Rutilus.App.Session (isContent)

/-- What surrounds the loop: the clock readings one after the other, and the
operations whose offers the consumer looks up for a frame. -/
structure Surroundings where
  clock : Nat → Instant
  lookups : Envelope → List OperationId

/-- What the calls of the loop act on. -/
structure CenterState where
  outbox : OutboxTable
  log : List OutboxEntryId
  readings : Nat

def lookUp (instanceId : InstanceId) (t : OutboxTable)
    (operationId : OperationId) : OutboxTable :=
  (runOutbox none ⟨0⟩ (.findOfferByOperation instanceId operationId) t).2

/-- The calls without faults, on a connection that stays the current one. -/
def perform (S : Surroundings) (instanceId : InstanceId) :
    (q : SessionReq) → CenterState → q.Resp × CenterState
  | .now, s => (S.clock s.readings, { s with readings := s.readings + 1 })
  | .isCurrent, s => (true, s)
  | .listPending i limit, s =>
      ((runOutbox none ⟨0⟩ (.listPending i limit) s.outbox).1, s)
  | .acknowledge entryId ackedAt, s =>
      let r := runOutbox none ⟨0⟩ (.acknowledge entryId ackedAt) s.outbox
      (r.1, { s with outbox := r.2 })
  | .send entryId _, s => (.ok (), { s with log := s.log ++ entryId.toList })
  | .onFrame envelope _, s => (.ok (), { s with
      outbox := (S.lookups envelope).foldl (lookUp instanceId) s.outbox })

/-- The center's side of a connection between two frames. -/
structure CenterConn where
  peerAcked : Nat
  sent : Sent
  state : CenterState

def settle (peerAcked : Nat) :
    Except CenterInboundEngineError Sent × CenterState →
      Except CenterInboundEngineError CenterConn
  | (.ok sent, state) => .ok ⟨peerAcked, sent, state⟩
  | (.error e, _) => .error e

def frameOn (S : Surroundings) (c : Config) (envelope : Envelope)
    (s : CenterConn) : Except CenterInboundEngineError CenterConn :=
  let peerAcked := max s.peerAcked envelope.sequence
  settle peerAcked (Prog.run (perform S c.instanceId)
    (handleFrame c peerAcked envelope s.sent) s.state)

/-- The first flush and then the first `n` frames. -/
def centerConn (S : Surroundings) (c : Config) (t : OutboxTable)
    (frames : Nat → Envelope) : Nat → Except CenterInboundEngineError CenterConn
  | 0 => settle 0 (Prog.run (perform S c.instanceId) (flushOutbox c 0 [])
      ⟨t, [], 0⟩)
  | n + 1 => centerConn S c t frames n >>= frameOn S c (frames n)

/-- What the center can send: the payload parses and has a message, and the
sequence is no negative number. -/
def sendable (entry : OutboxEntry) : Bool :=
  (entry.payload.bind Envelope.message).isSome && decide (0 ≤ entry.sequence)

/-- An offer whose expiry precedes a clock reading. -/
def Expired (S : Surroundings) (entry : OutboxEntry) : Prop :=
  ∃ n message, entry.payload.bind Envelope.message = some message ∧
    (offerExpiry message).any (fun expiresAt => expiresAt < S.clock n) = true

def terms (S : Surroundings) (c : Config) : Terms :=
  ⟨c.instanceId, sendable, Expired S⟩

def connOf (s : CenterState) (sent : Sent) : Conn := ⟨s.outbox, sent, s.log⟩

variable {S : Surroundings} {c : Config} {s : CenterState} {sent : Sent}

theorem run_flushEntries (peerAcked n : Nat) (entries : List OutboxEntry)
    (hnodup : (entries.map OutboxEntry.id).Nodup) (s : CenterState)
    (sent : Sent)
    (hqueue : ∀ entry ∈ entries, entry ∈ (terms S c).queue (connOf s sent)) :
    ∃ news retired s', Prog.run (perform S c.instanceId)
        (flushEntries peerAcked (S.clock n) sent entries) s =
          (.ok (sent ++ news), s') ∧
      Flush (terms S c) entries news retired (connOf s sent)
        (connOf s' (sent ++ news)) := by
  induction entries generalizing s sent with
  | nil =>
      refine ⟨[], [], s, ?_, ?_⟩
      · rw [List.append_nil]
        rfl
      · rw [List.append_nil]
        exact .nil
  | cons entry entries ih =>
      rw [List.map_cons, List.nodup_cons] at hnodup
      obtain ⟨hother, hnodup⟩ := hnodup
      have hentry := hqueue entry List.mem_cons_self
      have hrest : ∀ e ∈ entries, e ∈ (terms S c).queue (connOf s sent) :=
        fun e he => hqueue e (List.mem_cons_of_mem _ he)
      -- the connection is current, so the entry is looked at
      rw [flushEntries, Prog.run_bindE, Prog.run_liftE]
      change ∃ news retired s', Prog.run (perform S c.instanceId)
          (if sent.any (fun p => p.1 = entry.id) = true then
            flushEntries peerAcked (S.clock n) sent entries else _) s = _ ∧ _
      have hpass : ((terms S c).sendable entry = true →
            entry.id ∈ sent.map Prod.fst) →
          ∃ news retired s', Prog.run (perform S c.instanceId)
              (flushEntries peerAcked (S.clock n) sent entries) s =
                (.ok (sent ++ news), s') ∧
            Flush (terms S c) (entry :: entries) news retired (connOf s sent)
              (connOf s' (sent ++ news)) := by
        intro hmem
        obtain ⟨news, retired, s', hrun, hflush⟩ := ih hnodup s sent hrest
        exact ⟨news, retired, s', hrun, hflush.pass hmem⟩
      by_cases hsent : sent.any (fun p => p.1 = entry.id) = true
      · rw [if_pos hsent]
        refine hpass fun _ => ?_
        obtain ⟨p, hp, hid⟩ := List.any_eq_true.mp hsent
        exact List.mem_map.mpr ⟨p, hp, of_decide_eq_true hid⟩
      · rw [if_neg hsent]
        have hfresh : entry.id ∉ sent.map Prod.fst := fun hin => by
          obtain ⟨p, hp, hid⟩ := List.mem_map.mp hin
          exact hsent (List.any_eq_true.mpr ⟨p, hp, decide_eq_true hid⟩)
        cases hpayload : entry.payload with
        | none =>
            refine hpass fun h => ?_
            simp [terms, sendable, hpayload] at h
        | some envelope =>
            dsimp only
            by_cases hsequence : entry.sequence < 0
            · rw [if_pos hsequence]
              refine hpass fun h => ?_
              simp [terms, sendable, hpayload] at h
              omega
            · rw [if_neg hsequence]
              cases hmessage : envelope.message with
              | none =>
                  refine hpass fun h => ?_
                  simp [terms, sendable, hpayload, hmessage] at h
              | some message =>
                  dsimp only
                  have hbind : entry.payload.bind Envelope.message =
                      some message := by rw [hpayload]; exact hmessage
                  have hsendable : (terms S c).sendable entry = true := by
                    simp only [terms, sendable, hbind, Option.isSome_some,
                      Bool.true_and, decide_eq_true_eq]
                    omega
                  split
                  · next hexpired =>
                      obtain ⟨t, hack, hq⟩ := runOutbox_ack_of_pending
                        (S.clock n) hentry
                      have hack : runOutbox none ⟨0⟩
                        (.acknowledge entry.id (S.clock n)) s.outbox =
                          (.ok (), t) := hack
                      obtain ⟨news, retired, s', hrun, hflush⟩ :=
                        ih hnodup { s with outbox := t } sent
                          fun e he => by
                            show e ∈ pendingEntries t c.instanceId
                            rw [hq, List.mem_filter, decide_eq_true_eq]
                            refine ⟨hrest e he, fun hid => hother ?_⟩
                            exact List.mem_map.mpr ⟨e, he, hid⟩
                      refine ⟨news, entry.id :: retired, s', ?_,
                        hflush.retire hsendable ⟨n, message, hbind, hexpired⟩
                          hfresh hother (hq _)⟩
                      rw [Prog.run_bindE, run_orThrow]
                      have hcall : Prog.run (perform S c.instanceId)
                          (call (.acknowledge entry.id (S.clock n))) s =
                            (.ok (), { s with outbox := t }) :=
                        congrArg (fun r => (r.1, { s with outbox := r.2 })) hack
                      rw [hcall]
                      exact hrun
                  · obtain ⟨news, retired, s', hrun, hflush⟩ :=
                      ih hnodup { s with log := s.log ++ [entry.id] }
                        (sent ++ [(entry.id, entry.sequence)]) hrest
                    rw [List.append_assoc, List.singleton_append] at hrun hflush
                    refine ⟨(entry.id, entry.sequence) :: news, retired, s', ?_,
                      Flush.send hsendable hfresh hother hflush⟩
                    rw [Prog.run_bindE, run_orThrow]
                    exact hrun

theorem run_flushOutbox (sent : Sent) (peerAcked : Nat)
    (h : Tracked (terms S c) (connOf s sent)) :
    ∃ sent' s', Prog.run (perform S c.instanceId)
        (flushOutbox c peerAcked sent) s = (.ok sent', s') ∧
      Flushed (terms S c) c.flushLimit (connOf s sent) (connOf s' sent') := by
  obtain ⟨entries, hlist, hnodup, hwindow⟩ :=
    listPending_window h.readable c.flushLimit
  obtain ⟨news, retired, s', hrun, hflush⟩ :=
    run_flushEntries (S := S) (c := c) peerAcked s.readings entries hnodup
      { s with readings := s.readings + 1 } sent
      fun e he => ((hwindow e).mp he).1
  refine ⟨sent ++ news, s', ?_, Flush.flushed h hwindow hflush⟩
  rw [flushOutbox, Prog.run_bindE, run_orThrow]
  have hcall : Prog.run (perform S c.instanceId)
      (call (.listPending c.instanceId c.flushLimit)) s =
        (.ok entries, s) := by
    have hlist : listPendingOutbox s.outbox c.instanceId c.flushLimit =
      .ok entries := hlist
    exact congrArg (fun r => (r, s)) hlist
  rw [hcall]
  dsimp only [Except.mapError]
  rw [Prog.run_bindE, Prog.run_liftE]
  exact hrun

theorem run_ackEntries (ackedSequence : Nat) (now : Instant) (sent : Sent)
    (s : CenterState) (h : Tracked (terms S c) (connOf s sent)) :
    ∃ sent' s', Prog.run (perform S c.instanceId)
        (ackEntries ackedSequence now sent) s = (.ok sent', s') ∧
      Quiet (terms S c) (connOf s sent) (connOf s' sent') := by
  induction sent generalizing s with
  | nil => exact ⟨[], s, rfl, .refl h⟩
  | cons p sent ih =>
      obtain ⟨entryId, sequence⟩ := p
      obtain ⟨entry, hentry, hsendable, heq⟩ :=
        h.listed _ List.mem_cons_self
      obtain ⟨rfl, rfl⟩ := Prod.mk.inj heq
      have hwire : ¬ entry.sequence < 0 := by
        simp [terms, sendable] at hsendable
        omega
      rw [ackEntries, if_neg hwire]
      split
      · exact ⟨_, s, rfl, .refl h⟩
      · obtain ⟨t₁, hack, hqueue⟩ :=
          runOutbox_ack_of_pending now hentry
        have hpop : Quiet (terms S c) _
            (connOf { s with outbox := t₁ } sent) :=
          Quiet.pop h rfl (hqueue _)
        obtain ⟨sent', s', hrun, hquiet⟩ := ih _ hpop.tracked
        refine ⟨sent', s', ?_, hpop.trans hquiet⟩
        rw [Prog.run_bindE, run_orThrow]
        have hcall : Prog.run (perform S c.instanceId)
            (call (.acknowledge entry.id now)) s =
              (.ok (), { s with outbox := t₁ }) := by
          have hack : runOutbox none ⟨0⟩ (.acknowledge entry.id now) s.outbox =
            (.ok (), t₁) := hack
          exact congrArg (fun r => (r.1, { s with outbox := r.2 })) hack
        rw [hcall]
        exact hrun

theorem run_ackOutbox (ackedSequence : Nat)
    (h : Tracked (terms S c) (connOf s sent)) :
    ∃ sent' s', Prog.run (perform S c.instanceId)
        (ackOutbox ackedSequence sent) s = (.ok sent', s') ∧
      Quiet (terms S c) (connOf s sent) (connOf s' sent') := by
  obtain ⟨sent', s', hrun, hquiet⟩ := run_ackEntries ackedSequence
    (S.clock s.readings) sent { s with readings := s.readings + 1 } h
  refine ⟨sent', s', ?_, hquiet⟩
  rw [ackOutbox, Prog.run_bindE, Prog.run_liftE]
  exact hrun

theorem pendingEntries_lookUp (ops : List OperationId) (t : OutboxTable) :
    pendingEntries (ops.foldl (lookUp c.instanceId) t) c.instanceId =
      pendingEntries t c.instanceId := by
  induction ops generalizing t with
  | nil => rfl
  | cons op ops ih => exact (ih _).trans (pendingEntries_read op _)

theorem run_handleMessage (envelope : Envelope) (now : Instant)
    (h : Tracked (terms S c) (connOf s sent)) :
    ∃ sent' s', Prog.run (perform S c.instanceId)
        (handleMessage envelope now sent) s = (.ok sent', s') ∧
      Quiet (terms S c) (connOf s sent) (connOf s' sent') := by
  unfold handleMessage
  split
  · exact run_ackOutbox _ h
  · exact ⟨sent, s, rfl, .refl h⟩
  · exact ⟨sent, s, rfl, .refl h⟩
  · refine ⟨sent, { s with outbox := _ }, ?_,
      Quiet.of_queue_eq h (pendingEntries_lookUp (S.lookups envelope) _)⟩
    rw [Prog.run_bindE, run_orThrow]
    rfl

/-- One frame is a round. -/
theorem frameOn_round (envelope : Envelope) (v : CenterConn)
    (h : Tracked (terms S c) (connOf v.state v.sent)) :
    ∃ v', frameOn S c envelope v = .ok v' ∧
      Round (terms S c) c.flushLimit True (connOf v.state v.sent)
        (connOf v'.state v'.sent) := by
  set peerAcked := max v.peerAcked envelope.sequence with hpeer
  obtain ⟨sent₁, s₁, hrun₁, hquiet₁⟩ :=
    run_handleMessage (s := { v.state with
      readings := v.state.readings + 1 }) envelope
      (S.clock v.state.readings) h
  obtain ⟨sent₂, s₂, hrun₂, hquiet₂⟩ :=
    run_ackOutbox envelope.ackedSequence hquiet₁.tracked
  obtain ⟨sent', s', hrun, hflush⟩ :=
    run_flushOutbox _ peerAcked hquiet₂.tracked
  refine ⟨⟨peerAcked, sent', s'⟩, ?_, .inl ⟨_, hquiet₁.trans hquiet₂, hflush⟩⟩
  unfold frameOn
  dsimp only
  have hnow : Prog.run (perform S c.instanceId) (call .now) v.state =
      (S.clock v.state.readings, { v.state with
        readings := v.state.readings + 1 }) := rfl
  rw [← hpeer, handleFrame, Prog.run_bindE, Prog.run_liftE, hnow]
  dsimp only
  rw [Prog.run_bindE, hrun₁]
  dsimp only
  rw [Prog.run_bindE, hrun₂]
  dsimp only
  split
  · rw [Prog.run_bindE, run_orThrow]
    have hsend : Prog.run (perform S c.instanceId) (call (.send none
        ⟨0, peerAcked, some (.ack envelope.sequence)⟩)) s₂ = (.ok (), s₂) := by
      show ((.ok () : Except _ Unit),
        { s₂ with log := s₂.log ++ [] }) = (.ok (), s₂)
      rw [List.append_nil]
    rw [hsend]
    exact congrArg (settle peerAcked) hrun
  · exact congrArg (settle peerAcked) hrun

/-- A fair connection of the center: every entry that waits for its
acknowledgement is acknowledged. Every frame makes it flush. -/
def Fair (S : Surroundings) (c : Config) (t : OutboxTable)
    (frames : Nat → Envelope) : Prop :=
  ∀ n v, centerConn S c t frames n = .ok v → ∀ p ∈ v.sent,
    ∃ m v', n ≤ m ∧ centerConn S c t frames m = .ok v' ∧ p ∉ v'.sent

def Sends (S : Surroundings) (c : Config) (t : OutboxTable)
    (frames : Nat → Envelope) (entry : OutboxEntry) : Prop :=
  ∃ n v, centerConn S c t frames n = .ok v ∧ entry.id ∈ v.state.log

theorem sends_iff {t : OutboxTable} {frames : Nat → Envelope}
    {entry : OutboxEntry}
    (hread : ∀ entry ∈ pendingEntries t c.instanceId, entry.isValid = true)
    (hfair : Fair S c t frames)
    (hentry : entry ∈ pendingEntries t c.instanceId)
    (hsendable : sendable entry = true) (hlive : ¬ Expired S entry) :
    Sends S c t frames entry ↔
      Backlog.blockers queuedAhead (fun e => !sendable e) entry
        (pendingEntries t c.instanceId) < c.flushLimit := by
  have hfirst : ∃ v, centerConn S c t frames 0 = .ok v ∧
      Flushed (terms S c) c.flushLimit ⟨t, [], []⟩
        (connOf v.state v.sent) := by
    obtain ⟨sent, s, hrun, hflush⟩ := run_flushOutbox (S := S) (c := c)
      (s := ⟨t, [], 0⟩) [] 0 (tracked_start hread)
    refine ⟨⟨0, sent, s⟩, ?_, hflush⟩
    rw [centerConn, hrun]
    rfl
  refine loop_sends_iff (T := terms S c)
    (fun v : CenterConn => connOf v.state v.sent) (fun _ => True) hread hfirst
    (fun n v hv htracked => ?_) (fun n => ⟨n, le_rfl, trivial⟩) hfair hentry
    hsendable hlive
  obtain ⟨v', hv', hround⟩ := frameOn_round (frames n) v htracked
  refine ⟨v', ?_, hround⟩
  rw [centerConn, hv]
  exact hv'

end Center

/-! ## Both sides -/

/-- The rows ahead of an entry that cannot be sent. -/
def stuckAhead (sendable : OutboxEntry → Bool) (t : OutboxTable)
    (instanceId : InstanceId) (entry : OutboxEntry) : Nat :=
  Backlog.blockers queuedAhead (fun e => !sendable e) entry
    (pendingEntries t instanceId)

/-- For every queue that can be listed and every fair connection of either
side: an entry that can be sent, and at the center does not expire meanwhile, is
sent if and only if fewer rows than the flush limit are stuck ahead of it. So
all of them are sent if and only if that holds of each. -/
theorem connection_sends_iff (c : Config) (t : OutboxTable) :
    (∀ frames : Nat → Envelope × Instant,
      (∀ e ∈ pendingEntries t c.instanceId, e.isValid = true) →
      Site.Fair c t frames →
      (∀ e ∈ pendingEntries t c.instanceId, Site.sendable e = true →
        (Site.Sends c t frames e ↔
          stuckAhead Site.sendable t c.instanceId e < c.flushLimit)) ∧
      ((∀ e ∈ pendingEntries t c.instanceId, Site.sendable e = true →
          Site.Sends c t frames e) ↔
        ∀ e ∈ pendingEntries t c.instanceId, Site.sendable e = true →
          stuckAhead Site.sendable t c.instanceId e < c.flushLimit)) ∧
    ∀ (S : Center.Surroundings) (frames : Nat → Envelope),
      (∀ e ∈ pendingEntries t c.instanceId, e.isValid = true) →
      Center.Fair S c t frames →
      (∀ e ∈ pendingEntries t c.instanceId, Center.sendable e = true →
        ¬ Center.Expired S e →
        (Center.Sends S c t frames e ↔
          stuckAhead Center.sendable t c.instanceId e < c.flushLimit)) ∧
      ((∀ e ∈ pendingEntries t c.instanceId, Center.sendable e = true →
          ¬ Center.Expired S e → Center.Sends S c t frames e) ↔
        ∀ e ∈ pendingEntries t c.instanceId, Center.sendable e = true →
          ¬ Center.Expired S e →
          stuckAhead Center.sendable t c.instanceId e < c.flushLimit) := by
  constructor
  · intro frames hread hfair
    have hiff := fun e (he : e ∈ pendingEntries t c.instanceId) hs =>
      Site.sends_iff hread hfair he hs
    exact ⟨hiff, forall_congr' fun e => forall_congr' fun he =>
      forall_congr' fun hs => hiff e he hs⟩
  · intro S frames hread hfair
    have hiff := fun e (he : e ∈ pendingEntries t c.instanceId) hs hlive =>
      Center.sends_iff hread hfair he hs hlive
    exact ⟨hiff, forall_congr' fun e => forall_congr' fun he =>
      forall_congr' fun hs => forall_congr' fun hlive => hiff e he hs hlive⟩

/-! ## A bad row at the front -/

namespace BadRow

open Rutilus.App.Session

def bad : OutboxRow :=
  ⟨{ id := ⟨1⟩, instanceId := ⟨1⟩, sequence := 1, payload := none
     state := .pending, createdAt := 0, ackedAt := none }, none⟩

def good : OutboxRow :=
  ⟨{ id := ⟨2⟩, instanceId := ⟨1⟩, sequence := 2
     payload := some ⟨2, 0, some (.eventBatch [])⟩, state := .pending
     createdAt := 0, ackedAt := none }, none⟩

def queue : OutboxTable := (Table.empty.insertNew bad).insertNew good

/-- One row at a time. -/
def config : Config := ⟨⟨1⟩, 1⟩

/-- The center acknowledges whatever was sent, over and over. -/
def acks (_ : Nat) : Envelope × Instant := (⟨0, 0, some (.ack 9)⟩, 1)

theorem siteConn_acks (n : Nat) :
    Site.siteConn config queue acks n = .ok ⟨0, [], queue, .new⟩ := by
  induction n with
  | zero => rfl
  | succ n ih =>
      rw [Site.siteConn, ih]
      rfl

/-- The row behind the bad one is never sent, on a connection that lacks
nothing. -/
theorem good_row_waits :
    ¬ ∀ (c : Config) (t : OutboxTable) (frames : Nat → Envelope × Instant),
      1 ≤ c.flushLimit →
      (∀ e ∈ pendingEntries t c.instanceId, e.isValid = true) →
      Site.Fair c t frames →
      ∀ e ∈ pendingEntries t c.instanceId, Site.sendable e = true →
        Site.Sends c t frames e := by
  intro h
  have hfair : Site.Fair config queue acks := by
    refine ⟨fun n => ⟨n, le_rfl, trivial⟩, fun n s hs p hp => ?_⟩
    rw [siteConn_acks n] at hs
    cases hs
    cases hp
  obtain ⟨n, s, hs, hsent⟩ := h config queue acks le_rfl (by decide) hfair
    good.entry (by decide) (by decide)
  rw [siteConn_acks n] at hs
  cases hs
  cases hsent

end BadRow

end Rutilus.Proofs.FlushProgress
