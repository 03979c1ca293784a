import Mathlib.Data.List.Sort
import Rutilus.App.Session
import Rutilus.Lib.Listing
import Rutilus.Lib.Rely
import Rutilus.Lib.Runs
import Rutilus.Proofs.OutboxRows

/-!
# An acknowledged entry was handed over

The acknowledgement of the center is a number, and it covers every entry sent on
the connection up to that number. It covers nothing the center was not handed
because a connection sends its entries in ascending order: the center has
worked through a prefix of what was sent, and the number is that of an entry in
this prefix.

That the order is ascending rests on the queue. A row that is pending and not
yet sent stands above everything the connection has sent, since every flush
takes the pending rows from the bottom and every new row goes on top.
-/

namespace Rutilus.Proofs.SessionAck

open Rutilus.Domain Rutilus.Lib Rutilus.Store Rutilus.App.Session
  Rutilus.Proofs.OutboxRows

/-! ## How the queue moves -/

/-- A later state of the queue: rows are versions of earlier ones, none becomes
pending again, and new rows have fresh identities and stand above all earlier
ones of their instance; the top of an instance never sinks. -/
structure Later (fresh : OutboxEntryId → Prop) (t t' : OutboxTable) :
    Prop where
  stored : ∀ row' ∈ t'.rows,
    (∃ row ∈ t.rows, Version row' row ∧
      (row'.entry.state = .pending → row.entry.state = .pending)) ∨
    fresh row'.id ∧ ∀ row ∈ t.rows,
      row.entry.instanceId = row'.entry.instanceId →
        row.entry.sequence < row'.entry.sequence
  top : ∀ row ∈ t.rows, ∃ row' ∈ t'.rows,
    row'.entry.instanceId = row.entry.instanceId ∧
      row.entry.sequence ≤ row'.entry.sequence

section Queue

variable {fresh : OutboxEntryId → Prop} {t t' t'' : OutboxTable}

theorem Later.refl (t : OutboxTable) : Later fresh t t :=
  ⟨fun row hrow => .inl ⟨row, hrow, .refl row, id⟩,
    fun row hrow => ⟨row, hrow, rfl, le_rfl⟩⟩

theorem Later.trans (h₁ : Later fresh t t') (h₂ : Later fresh t' t'') :
    Later fresh t t'' where
  stored := by
    intro row'' hrow''
    rcases h₂.stored row'' hrow'' with ⟨row', hrow', hv', hp'⟩ | ⟨hf, habove⟩
    · rcases h₁.stored row' hrow' with ⟨row, hrow, hv, hp⟩ | ⟨hf, habove⟩
      · exact .inl ⟨row, hrow, hv'.trans hv, hp ∘ hp'⟩
      · refine .inr ⟨hv'.id ▸ hf, fun row hrow hinstance => ?_⟩
        rw [hv'.sequence]
        exact habove row hrow (hinstance.trans hv'.instanceId)
    · refine .inr ⟨hf, fun row hrow hinstance => ?_⟩
      obtain ⟨row', hrow', hinstance', hle⟩ := h₁.top row hrow
      exact hle.trans_lt (habove row' hrow' (hinstance'.trans hinstance))
  top := by
    intro row hrow
    obtain ⟨row', hrow', hinstance', hle⟩ := h₁.top row hrow
    obtain ⟨row'', hrow'', hinstance'', hle'⟩ := h₂.top row' hrow'
    exact ⟨row'', hrow'', hinstance''.trans hinstance', hle.trans hle'⟩

theorem top_of_shrinks {acked : OutboxRow → Prop}
    {history : Option (InstanceId × OperationId)}
    (h : Shrinks acked history t t') : ∀ row ∈ t.rows, ∃ row' ∈ t'.rows,
    row'.entry.instanceId = row.entry.instanceId ∧
      row.entry.sequence ≤ row'.entry.sequence := by
  intro row hrow
  rcases h.gone row hrow with ⟨row', hrow', hv⟩ |
    ⟨operationId, -, -, -, keeper, hkeeper, hof, -, hle⟩
  · exact ⟨row', hrow', hv.instanceId, hv.sequence.ge⟩
  · simp only [isAckedOf, decide_eq_true_eq] at hof
    exact ⟨keeper, hkeeper, hof.1, hle⟩

/-- An acknowledgement moves on, and touches no pending row but its own. -/
theorem later_ack {entryId : OutboxEntryId} {now : Instant}
    {outcome : AckOutcome}
    (h : ackOutboxEntry t entryId now = .ok (outcome, t')) : Later fresh t t' := by
  obtain ⟨x, -, -, hshrinks⟩ := shrinks_ackOutboxEntry h
  refine ⟨fun row' hrow' => .inl ?_, top_of_shrinks hshrinks⟩
  obtain ⟨row, hrow, -, hrows⟩ := ackOutboxEntry_ok h
  rcases hrows row' hrow' with ⟨hmem, -⟩ | rfl
  · exact ⟨row', hmem, .refl row', id⟩
  · exact ⟨row, hrow, .acked row now, fun hstate => (by cases hstate)⟩

theorem pending_of_ack {entryId : OutboxEntryId} {now : Instant}
    {outcome : AckOutcome}
    (h : ackOutboxEntry t entryId now = .ok (outcome, t')) {row : OutboxRow}
    (hrow : row ∈ t.rows) (hpending : row.entry.state = .pending)
    (hid : row.id ≠ entryId) : row ∈ t'.rows := by
  unfold ackOutboxEntry at h
  split at h
  · cases h
  · next acked hfind =>
      have hacked := Table.key_of_find hfind
      split at h
      · cases h
        refine mem_pruneOf ?_ (.inl hpending)
        exact List.mem_map.mpr ⟨row, hrow, if_neg fun heq =>
          hid (heq.trans hacked)⟩
      · unfold mapStoredOutboxEntry at h
        split at h
        · cases h
          exact mem_pruneOf hrow (.inl hpending)
        · cases h

theorem acked_of_ack {entryId : OutboxEntryId} {now : Instant}
    {outcome : AckOutcome}
    (h : ackOutboxEntry t entryId now = .ok (outcome, t')) {row' : OutboxRow}
    (hrow' : row' ∈ t'.rows) (hid : row'.id = entryId) :
    row'.entry.state = .acked := by
  obtain ⟨row, hrow, -, hrows⟩ := ackOutboxEntry_ok h
  rcases hrows row' hrow' with ⟨-, hacked⟩ | rfl
  · exact hacked hid
  · rfl

/-- A directed read moves on and keeps every entry. -/
theorem later_find {among : OutboxRow → Bool}
    {newer : OutboxRow → OutboxRow → Prop} [DecidableRel newer]
    {operationId : OperationId} {found : Option OutboxEntry}
    (h : findByOperation t among newer operationId = .ok (found, t')) :
    Later fresh t t' ∧
      ∀ row ∈ t.rows, ∃ row' ∈ t'.rows, row'.entry = row.entry := by
  rcases findByOperation_ok h with ⟨rfl, -⟩ | ⟨row, hrow, -, -, -, -, rfl⟩
  · exact ⟨.refl _, fun row hrow => ⟨row, hrow, rfl⟩⟩
  · have hentry : ∀ x ∈ t.rows, (if x.id = row.id then
        { row with operationId := some operationId } else x).entry =
          x.entry := by
      intro x hx
      split
      · next hid => rw [List.inj_on_of_nodup_map t.nodup hx hrow hid]
      · rfl
    have hshrinks : Shrinks (fun _ => False) none t _ :=
      shrinks_findByOperation h
    refine ⟨⟨fun row' hrow' => .inl ?_, top_of_shrinks hshrinks⟩,
      fun x hx => ⟨_, List.mem_map.mpr ⟨x, hx, rfl⟩, hentry x hx⟩⟩
    obtain ⟨x, hx, hv⟩ := hshrinks.stored row' hrow'
    refine ⟨x, hx, hv, fun hpending => ?_⟩
    obtain ⟨y, hy, rfl⟩ := List.mem_map.mp hrow'
    have hid : y.id = x.id := by
      rw [← hv.id]
      show y.entry.id = (OutboxRow.entry _).id
      rw [hentry y hy]
    rw [← List.inj_on_of_nodup_map t.nodup hy hx hid]
    rwa [hentry y hy] at hpending

theorem later_enqueue {row : OutboxRow}
    (habove : ∀ r ∈ t.rows, r.entry.instanceId = row.entry.instanceId →
      r.entry.sequence < row.entry.sequence)
    (hfresh : fresh row.id) (hrows : t'.rows = t.rows ++ [row]) :
    Later fresh t t' := by
  refine ⟨fun row' hrow' => ?_, fun r hr => ?_⟩
  · rw [hrows, List.mem_append, List.mem_singleton] at hrow'
    rcases hrow' with hrow' | rfl
    · exact .inl ⟨row', hrow', .refl row', id⟩
    · exact .inr ⟨hfresh, habove⟩
  · rw [hrows]
    exact ⟨r, List.mem_append_left _ hr, rfl, le_rfl⟩

end Queue

/-! ## The contract of the site's loop -/

abbrev View : Type := OutboxTable × Link

/-- What the others do while the loop is between two calls. -/
structure Moves (v v' : View) : Prop where
  sent : v'.2.sent = v.2.sent
  handed : ∀ p ∈ v.2.handed, p ∈ v'.2.handed
  later : Later (fun entryId => ∀ p ∈ v.2.sent, p.1 ≠ entryId) v.1 v'.1

theorem Moves.trans {a b c : View} (h₁ : Moves a b) (h₂ : Moves b c) :
    Moves a c := by
  refine ⟨h₂.sent.trans h₁.sent, fun p hp => h₂.handed p (h₁.handed p hp), ?_⟩
  have hlater := h₂.later
  rw [h₁.sent] at hlater
  exact h₁.later.trans hlater

theorem Moves.refl (v : View) : Moves v v :=
  ⟨rfl, fun _ hp => hp, .refl v.1⟩

/-- The queue numbers its rows, and holds replies and reports. -/
structure Queue (t : OutboxTable) : Prop where
  distinct : ∀ a ∈ t.rows, ∀ b ∈ t.rows,
    a.entry.instanceId = b.entry.instanceId →
      a.entry.sequence = b.entry.sequence → a.id = b.id
  reports : ∀ row ∈ t.rows, ∀ envelope, row.entry.payload = some envelope →
    envelope.message.any isReport = true

def Calls : Sem linkSig View := fun q a r b =>
  Queue a.1 ∧ ∃ fault lost, perform fault lost q a = (r, b)

/-- What each call of the loop answers for: it acknowledges what the center was
handed, and sends in ascending order. -/
def Duty (a : View) : LinkReq → Prop
  | .listPending .. => True
  | .acknowledge entryId _ => ∃ sequence, (entryId, sequence) ∈ a.2.handed
  | .send _ envelope => envelope.message.any isReport = true ∧
      ∀ p ∈ a.2.sent, p.2 < (envelope.sequence : Int)

abbrev Kept {α : Type} (p : Prog linkSig α) (Q : α → View → Prop)
    (v : View) : Prop :=
  Safe Calls Moves (fun q a _ => Duty a q) p Q v

/-- An entry that a flush sends. -/
def IsWireable (entry : OutboxEntry) : Prop :=
  entry.payload ≠ none ∧ 0 ≤ entry.sequence

/-- The loop between two calls of a flush that has `rest` left to look at. With
nothing left: a pending row that was sent is among `sent`, and one that was not
stands above everything sent. -/
structure Flushing (c : Config) (sent : Sent) (rest : List OutboxEntry)
    (v : View) : Prop where
  own : ∀ p ∈ sent, p ∈ v.2.sent
  cover : ∀ row ∈ v.1.rows, row.entry.instanceId = c.instanceId →
    row.entry.state = .pending → (∃ p ∈ v.2.sent, p.1 = row.id) →
      ∃ p ∈ sent, p.1 = row.id
  top : ∀ p ∈ v.2.sent, ∃ row ∈ v.1.rows,
    row.entry.instanceId = c.instanceId ∧ p.2 ≤ row.entry.sequence
  topRest : ∀ entry ∈ rest, ∃ row ∈ v.1.rows,
    row.entry.instanceId = c.instanceId ∧ entry.sequence ≤ row.entry.sequence
  ahead : ∀ entry ∈ rest, IsWireable entry → (∀ p ∈ sent, p.1 ≠ entry.id) →
    ∀ p ∈ v.2.sent, p.2 < entry.sequence
  sorted : rest.Pairwise fun a b => a.sequence < b.sequence
  outside : ∀ row ∈ v.1.rows, row.entry.instanceId = c.instanceId →
    row.entry.state = .pending → IsWireable row.entry →
    (∀ p ∈ v.2.sent, p.1 ≠ row.id) →
    (∀ entry ∈ rest, IsWireable entry → entry.id ≠ row.id) →
      (∀ p ∈ v.2.sent, p.2 < row.entry.sequence) ∧
        ∀ entry ∈ rest, entry.sequence < row.entry.sequence
  reports : ∀ entry ∈ rest, ∀ envelope, entry.payload = some envelope →
    envelope.message.any isReport = true

section Loop

variable {c : Config} {sent : Sent} {rest : List OutboxEntry} {v v' : View}

theorem Flushing.moves (h : Flushing c sent rest v) (hm : Moves v v') :
    Flushing c sent rest v' where
  own := by rw [hm.sent]; exact h.own
  cover := by
    intro row' hrow' hinstance hpending hsent
    rw [hm.sent] at hsent
    rcases hm.later.stored row' hrow' with ⟨row, hrow, hv, hp⟩ | ⟨hfresh, -⟩
    · rw [hv.id] at hsent ⊢
      exact h.cover row hrow (hv.instanceId.symm.trans hinstance)
        (hp hpending) hsent
    · obtain ⟨p, hp, hid⟩ := hsent
      exact absurd hid (hfresh p hp)
  top := by
    intro p hp
    rw [hm.sent] at hp
    obtain ⟨row, hrow, hinstance, hle⟩ := h.top p hp
    obtain ⟨row', hrow', hinstance', hle'⟩ := hm.later.top row hrow
    exact ⟨row', hrow', hinstance'.trans hinstance, hle.trans hle'⟩
  topRest := by
    intro entry hentry
    obtain ⟨row, hrow, hinstance, hle⟩ := h.topRest entry hentry
    obtain ⟨row', hrow', hinstance', hle'⟩ := hm.later.top row hrow
    exact ⟨row', hrow', hinstance'.trans hinstance, hle.trans hle'⟩
  ahead := by rw [hm.sent]; exact h.ahead
  sorted := h.sorted
  outside := by
    intro row' hrow' hinstance hpending hwire hsent hrest
    rw [hm.sent] at hsent ⊢
    rcases hm.later.stored row' hrow' with ⟨row, hrow, hv, hp⟩ |
      ⟨-, habove⟩
    · rw [hv.id] at hsent hrest
      rw [hv.sequence]
      refine h.outside row hrow (hv.instanceId.symm.trans hinstance)
        (hp hpending) ?_ hsent hrest
      rw [IsWireable, ← hv.payload, ← hv.sequence]
      exact hwire
    · -- a new row stands above the top, and so above all that was listed
      refine ⟨fun p hp => ?_, fun entry hentry => ?_⟩
      · obtain ⟨row, hrow, hinstance', hle⟩ := h.top p hp
        exact hle.trans_lt (habove row hrow (hinstance'.trans hinstance.symm))
      · obtain ⟨row, hrow, hinstance', hle⟩ := h.topRest entry hentry
        exact hle.trans_lt (habove row hrow (hinstance'.trans hinstance.symm))
  reports := h.reports

/-- What a finished piece of the loop leaves behind. -/
def Settled (c : Config) : Except SyncError Sent → View → Prop :=
  fun r v => ∀ sent, r = .ok sent → Flushing c sent [] v

theorem Flushing.skip {entry : OutboxEntry}
    (h : Flushing c sent (entry :: rest) v)
    (hskip : IsWireable entry → ∃ p ∈ v.2.sent, p.1 = entry.id) :
    Flushing c sent rest v where
  own := h.own
  cover := h.cover
  top := h.top
  topRest e he := h.topRest e (List.mem_cons_of_mem _ he)
  ahead e he := h.ahead e (List.mem_cons_of_mem _ he)
  sorted := (List.pairwise_cons.mp h.sorted).2
  outside := by
    intro row hrow hinstance hpending hwire hsent hrest
    have hall : ∀ e ∈ entry :: rest, IsWireable e → e.id ≠ row.id := by
      intro e he hwire' hid
      rcases List.mem_cons.mp he with rfl | he
      · obtain ⟨p, hp, hpid⟩ := hskip hwire'
        exact hsent p hp (hpid.trans hid)
      · exact hrest e he hwire' hid
    obtain ⟨habove, hrest'⟩ := h.outside row hrow hinstance hpending hwire
      hsent hall
    exact ⟨habove, fun e he => hrest' e (List.mem_cons_of_mem _ he)⟩
  reports e he := h.reports e (List.mem_cons_of_mem _ he)

/-- An entry that leaves is the next one in order. -/
theorem Flushing.send {entry : OutboxEntry}
    (h : Flushing c sent (entry :: rest) v) (hwire : IsWireable entry)
    (hnew : ∀ p ∈ sent, p.1 ≠ entry.id) {link : Link}
    (hlink : link.sent = v.2.sent ++ [(entry.id, entry.sequence)]) :
    Flushing c (sent ++ [(entry.id, entry.sequence)]) rest (v.1, link) where
  own := by
    intro p hp
    rw [hlink]
    exact (List.mem_append.mp hp).elim
      (fun hp => List.mem_append_left _ (h.own p hp))
      (List.mem_append_right _)
  cover := by
    intro row hrow hinstance hpending hsent
    rw [hlink] at hsent
    obtain ⟨p, hp, hid⟩ := hsent
    rcases List.mem_append.mp hp with hp | hp
    · obtain ⟨q, hq, hqid⟩ := h.cover row hrow hinstance hpending ⟨p, hp, hid⟩
      exact ⟨q, List.mem_append_left _ hq, hqid⟩
    · exact ⟨p, List.mem_append_right _ hp, hid⟩
  top := by
    intro p hp
    rw [hlink] at hp
    rcases List.mem_append.mp hp with hp | hp
    · exact h.top p hp
    · rw [List.mem_singleton.mp hp]
      exact h.topRest entry List.mem_cons_self
  topRest e he := h.topRest e (List.mem_cons_of_mem _ he)
  ahead := by
    intro e he hwire' hne p hp
    rw [hlink] at hp
    rcases List.mem_append.mp hp with hp | hp
    · exact h.ahead e (List.mem_cons_of_mem _ he) hwire'
        (fun q hq => hne q (List.mem_append_left _ hq)) p hp
    · rw [List.mem_singleton.mp hp]
      exact (List.pairwise_cons.mp h.sorted).1 e he
  sorted := (List.pairwise_cons.mp h.sorted).2
  outside := by
    intro row hrow hinstance hpending hwire' hsent hrest
    rw [hlink] at hsent ⊢
    have hall : ∀ e ∈ entry :: rest, IsWireable e → e.id ≠ row.id := by
      intro e he hwire'' hid
      rcases List.mem_cons.mp he with rfl | he
      · exact hsent _ (List.mem_append_right _ List.mem_cons_self) hid
      · exact hrest e he hwire'' hid
    obtain ⟨habove, hrest'⟩ := h.outside row hrow hinstance hpending hwire'
      (fun p hp => hsent p (List.mem_append_left _ hp)) hall
    refine ⟨fun p hp => ?_, fun e he =>
      hrest' e (List.mem_cons_of_mem _ he)⟩
    rcases List.mem_append.mp hp with hp | hp
    · exact habove p hp
    · rw [List.mem_singleton.mp hp]
      exact hrest' entry List.mem_cons_self
  reports e he := h.reports e (List.mem_cons_of_mem _ he)

theorem flushEntries_kept {peerAcked : Nat} (h : Flushing c sent rest v) :
    Kept (flushEntries peerAcked sent rest) (Settled c) v := by
  induction rest generalizing sent v with
  | nil =>
      intro sent' hsent'
      cases hsent'
      exact h
  | cons entry rest ih =>
      unfold flushEntries
      split
      · next hany =>
          obtain ⟨p, hp, hid⟩ := List.any_eq_true.mp hany
          exact ih (h.skip fun _ => ⟨p, h.own p hp, by simpa using hid⟩)
      · next hany =>
          have hnew : ∀ p ∈ sent, p.1 ≠ entry.id := fun p hp hid =>
            hany (List.any_eq_true.mpr ⟨p, hp, by simpa using hid⟩)
          split
          · next hpayload =>
              exact ih (h.skip fun hwire => absurd hpayload hwire.1)
          · next envelope hpayload =>
              split
              · next hneg =>
                  exact ih (h.skip fun hwire => absurd hwire.2 hneg.not_ge)
              · next hpos =>
                  have hpos := Int.not_lt.mp hpos
                  have hcast : ((entry.sequence.toNat : Nat) : Int) =
                      entry.sequence := Int.toNat_of_nonneg hpos
                  have hwire : IsWireable entry :=
                    ⟨by rw [hpayload]; exact Option.some_ne_none _, hpos⟩
                  intro v₁ h₁ r v₂ h₂
                  have hv₁ := h.moves h₁
                  refine ⟨⟨hv₁.reports entry List.mem_cons_self envelope
                    hpayload, fun p hp => ?_⟩, ?_⟩
                  · show p.2 < ((entry.sequence.toNat : Nat) : Int)
                    rw [hcast]
                    exact hv₁.ahead entry List.mem_cons_self hwire hnew p hp
                  · cases r with
                    | error e => exact fun sent' hs => (by cases hs)
                    | ok u =>
                        obtain ⟨-, fault, lost, hv₂⟩ := h₂
                        cases fault with
                        | some f => cases lost <;> cases hv₂
                        | none =>
                            cases hv₂
                            refine ih (hv₁.send hwire hnew ?_)
                            show v₁.2.sent ++ [(entry.id,
                              ((entry.sequence.toNat : Nat) : Int))] = _
                            rw [hcast]

theorem Flushing.listed {entries : List OutboxEntry}
    (h : Flushing c sent [] v) (hq : Queue v.1)
    (hl : listPendingOutbox v.1 c.instanceId c.flushLimit = .ok entries) :
    Flushing c sent entries v := by
  obtain ⟨hrows, hsorted, habove⟩ := listPendingOutbox_ok hq.distinct hl
  refine ⟨h.own, h.cover, h.top, fun entry he => ?_, ?_, hsorted, ?_, ?_⟩
  · obtain ⟨row, hrow, rfl, hinstance, -⟩ := hrows entry he
    exact ⟨row, hrow, hinstance, le_rfl⟩
  · intro entry he hwire hnew
    obtain ⟨row, hrow, rfl, hinstance, hpending⟩ := hrows entry he
    have hunsent : ∀ p ∈ v.2.sent, p.1 ≠ row.id := by
      intro p hp hid
      obtain ⟨q, hq, hqid⟩ := h.cover row hrow hinstance hpending ⟨p, hp, hid⟩
      exact hnew q hq hqid
    exact (h.outside row hrow hinstance hpending hwire hunsent
      (fun e he => (by cases he))).1
  · intro row hrow hinstance hpending hwire hunsent hrest
    refine ⟨(h.outside row hrow hinstance hpending hwire hunsent
      (fun e he => (by cases he))).1, ?_⟩
    exact habove row hrow hinstance hpending fun hmem =>
      hrest row.entry hmem hwire rfl
  · intro entry he envelope hpayload
    obtain ⟨row, hrow, rfl, -⟩ := hrows entry he
    exact hq.reports row hrow envelope hpayload

theorem flushOutbox_kept {peerAcked : Nat} (h : Flushing c sent [] v) :
    Kept (flushOutbox c peerAcked sent) (Settled c) v := by
  intro v₁ h₁ r v₂ h₂
  refine ⟨trivial, ?_⟩
  have hv₁ := h.moves h₁
  cases r with
  | error e => exact fun sent' hs => (by cases hs)
  | ok entries =>
      obtain ⟨hq, fault, lost, hv₂⟩ := h₂
      cases fault with
      | some f => cases hv₂
      | none =>
          have hlist := congrArg Prod.fst hv₂
          cases congrArg Prod.snd hv₂
          exact flushEntries_kept (hv₁.listed hq hlist)

/-- Acknowledged rows are no longer pending, so the rest still covers. -/
theorem Flushing.acked {p : OutboxEntryId × Int} {now : Instant}
    {outcome : AckOutcome} {t' : OutboxTable}
    (h : Flushing c (p :: sent) [] v)
    (hack : ackOutboxEntry v.1 p.1 now = .ok (outcome, t')) :
    Flushing c sent [] (t', v.2) := by
  have hlater : Flushing c (p :: sent) [] (t', v.2) :=
    h.moves ⟨rfl, fun _ hp => hp, later_ack hack⟩
  refine ⟨fun q hq => hlater.own q (List.mem_cons_of_mem _ hq), ?_, hlater.top,
    hlater.topRest, fun e he => (by cases he), .nil, hlater.outside,
    hlater.reports⟩
  intro row hrow hinstance hpending hsent
  obtain ⟨q, hq, hid⟩ := hlater.cover row hrow hinstance hpending hsent
  rcases List.mem_cons.mp hq with rfl | hq
  · have hacked := acked_of_ack hack hrow hid.symm
    rw [hacked] at hpending
    cases hpending
  · exact ⟨q, hq, hid⟩

/-- The entries an acknowledgement covers were handed over. -/
def Covered (ackedSequence : Nat) (sent : Sent) (v : View) : Prop :=
  ∀ p ∈ sent, p.2 ≤ (ackedSequence : Int) → p ∈ v.2.handed

theorem ackOutbox_kept {ackedSequence : Nat} {now : Instant}
    (h : Flushing c sent [] v) (hc : Covered ackedSequence sent v) :
    Kept (ackOutbox ackedSequence now sent) (Settled c) v := by
  induction sent generalizing v with
  | nil =>
      intro sent' hs
      cases hs
      exact h
  | cons p sent ih =>
      unfold ackOutbox
      split
      · exact fun sent' hs => (by cases hs)
      · next hpos =>
          split
          · intro sent' hs
            cases hs
            exact h
          · next hle =>
              have hle : p.2 ≤ (ackedSequence : Int) := by omega
              intro v₁ h₁ r v₂ h₂
              have hhanded := h₁.handed p (hc p List.mem_cons_self hle)
              refine ⟨⟨p.2, hhanded⟩, ?_⟩
              cases r with
              | error e => exact fun sent' hs => (by cases hs)
              | ok u =>
                  obtain ⟨-, fault, lost, hv₂⟩ := h₂
                  have hr := congrArg Prod.fst hv₂
                  have hb := congrArg Prod.snd hv₂
                  cases fault with
                  | some f => cases hr
                  | none =>
                      cases hack : ackOutboxEntry v₁.1 p.1 now with
                      | error e =>
                          simp only [perform, runOutbox, hack, Except.map,
                            answered] at hr
                          cases hr
                      | ok a =>
                          simp only [perform, runOutbox, hack, Except.map,
                            answered] at hb
                          subst hb
                          refine ih ((h.moves h₁).acked hack)
                            fun q hq hq' => ?_
                          exact h₁.handed q
                            (hc q (List.mem_cons_of_mem _ hq) hq')

theorem handleFrame_kept {peerAcked : Nat} {envelope : Envelope}
    {now : Instant} (h : Flushing c sent [] v)
    (hc : ∀ sequence, envelope.message = some (.ack sequence) →
      Covered sequence sent v) :
    Kept (handleFrame c peerAcked envelope now sent) (Settled c) v := by
  unfold handleFrame
  split
  · next sequence hmessage =>
      refine Safe.bindE.mpr ((ackOutbox_kept h (hc sequence hmessage)).imp ?_)
      intro r v₁ h₁
      cases r with
      | error e => exact fun sent' hs => (by cases hs)
      | ok sent' => exact flushOutbox_kept (h₁ sent' rfl)
  · exact flushOutbox_kept h
  · intro sent' hs
    cases hs
    exact h

end Loop

/-! ## The queue over a run -/

section Calls

variable {fresh : OutboxEntryId → Prop} {t t' : OutboxTable}

theorem Queue.versions (h : Queue t)
    (hv : ∀ row' ∈ t'.rows, ∃ row ∈ t.rows, Version row' row) : Queue t' where
  distinct := by
    intro a ha b hb hinstance hsequence
    obtain ⟨x, hx, hxv⟩ := hv a ha
    obtain ⟨y, hy, hyv⟩ := hv b hb
    rw [hxv.id, hyv.id]
    refine h.distinct x hx y hy ?_ ?_
    · rw [← hxv.instanceId, ← hyv.instanceId, hinstance]
    · rw [← hxv.sequence, ← hyv.sequence, hsequence]
  reports := by
    intro row' hrow' envelope hpayload
    obtain ⟨row, hrow, hrv⟩ := hv row' hrow'
    exact h.reports row hrow envelope (hrv.payload.symm.trans hpayload)

theorem Queue.enqueue (h : Queue t) {entryId : OutboxEntryId}
    {instanceId : InstanceId} {sequence : Int} {message : EnvelopeMessage}
    {now : Instant} (hreport : isReport message = true)
    (habove : ∀ row ∈ t.rows, row.entry.instanceId = instanceId →
      row.entry.sequence < sequence)
    (hrows : t'.rows = t.rows ++
      [outboxRowOf entryId instanceId sequence message now]) : Queue t' where
  distinct := by
    intro a ha b hb hinstance hsequence
    rw [hrows, List.mem_append, List.mem_singleton] at ha hb
    rcases ha with ha | rfl <;> rcases hb with hb | rfl
    · exact h.distinct a ha b hb hinstance hsequence
    · exact absurd hsequence (habove a ha hinstance).ne
    · exact absurd hsequence (habove b hb hinstance.symm).ne'
    · rfl
  reports := by
    intro row hrow envelope hpayload
    rw [hrows, List.mem_append, List.mem_singleton] at hrow
    rcases hrow with hrow | rfl
    · exact h.reports row hrow envelope hpayload
    · cases hpayload
      exact hreport

theorem Queue.ack (h : Queue t) {entryId : OutboxEntryId} {now : Instant}
    {outcome : AckOutcome}
    (hack : ackOutboxEntry t entryId now = .ok (outcome, t')) : Queue t' := by
  obtain ⟨x, -, -, hshrinks⟩ := shrinks_ackOutboxEntry hack
  exact h.versions hshrinks.stored

/-- The other work at the queue. -/
theorem work_spec {s : State} {entryId : OutboxEntryId} {q : OutboxReq}
    (fault : Option Fault) (h : Queue t) (hw : isWork s entryId q = true)
    (hfresh : (∀ link ∈ s.links, ∀ p ∈ link.sent, p.1 ≠ entryId) →
      fresh entryId) :
    Later fresh t (runOutbox fault entryId q t).2 ∧
      Queue (runOutbox fault entryId q t).2 ∧
      ∀ row ∈ t.rows, ∃ row' ∈ (runOutbox fault entryId q t).2.rows,
        row'.entry = row.entry := by
  have hsame : Later fresh t t ∧ Queue t ∧
      ∀ row ∈ t.rows, ∃ row' ∈ t.rows, row'.entry = row.entry :=
    ⟨.refl t, h, fun row hrow => ⟨row, hrow, rfl⟩⟩
  have hread : ∀ {among : OutboxRow → Bool}
      {newer : OutboxRow → OutboxRow → Prop} [DecidableRel newer]
      {operationId : OperationId} {r : Option OutboxEntry × OutboxTable},
      findByOperation t among newer operationId = .ok r →
      Later fresh t r.2 ∧ Queue r.2 ∧
        ∀ row ∈ t.rows, ∃ row' ∈ r.2.rows, row'.entry = row.entry := by
    intro among newer _ operationId r hr
    obtain ⟨hlater, hkept⟩ := later_find hr
    refine ⟨hlater, h.versions ?_, hkept⟩
    have hshrinks : Shrinks (fun _ => False) none t r.2 :=
      shrinks_findByOperation hr
    exact hshrinks.stored
  cases q with
  | acknowledge acknowledged now => cases hw
  | listPending instanceId limit =>
      cases fault <;> exact hsame
  | listOffers instanceId =>
      cases fault <;> exact hsame
  | findOfferByOperation instanceId operationId =>
      cases fault with
      | some f => exact hsame
      | none =>
          cases hf : findOutboxEntryByOperation t instanceId operationId with
          | error e =>
              simp only [runOutbox, hf, answered]
              exact hsame
          | ok r =>
              simp only [runOutbox, hf, answered]
              exact hread hf
  | findOfferByOperationAcrossInstances operationId =>
      cases fault with
      | some f => exact hsame
      | none =>
          cases hf : findOfferByOperationAcrossInstances t operationId with
          | error e =>
              simp only [runOutbox, hf, answered]
              exact hsame
          | ok r =>
              simp only [runOutbox, hf, answered]
              exact hread hf
  | enqueue instanceId message now =>
      simp only [isWork, Bool.and_eq_true, Bool.not_eq_true',
        List.any_eq_false, List.any_eq_true, decide_eq_true_eq] at hw
      rcases runOutbox_enqueue fault entryId instanceId message now t with
        ⟨sequence, t', hrun, habove, hrows⟩ | ⟨e, hrun⟩
      · rw [hrun]
        refine ⟨later_enqueue habove (hfresh fun link hlink p hp hid =>
          hw.2 link hlink ⟨p, hp, hid⟩) hrows,
          h.enqueue hw.1 habove hrows, fun row hrow => ?_⟩
        exact ⟨row, by rw [hrows]; exact List.mem_append_left _ hrow, rfl⟩
      · rw [hrun]
        exact hsame

end Calls

/-! ## The connections over a run -/

/-- The entry a frame on its way was built from. -/
def tag (frame : Option OutboxEntryId × Envelope) :
    Option (OutboxEntryId × Int) :=
  frame.1.map fun entryId => (entryId, (frame.2.sequence : Int))

/-- What was sent was handed over or is still on its way, in ascending order;
the center has acknowledged what it was handed, and nothing else. -/
structure LinkInv (link : Link) : Prop where
  order : link.sent = link.handed ++ link.up.filterMap tag
  ascending : link.sent.Pairwise fun a b => a.2 < b.2
  content : ∀ frame ∈ link.up, frame.1.isSome = isContent frame.2
  processing : ∀ envelope, link.processing = some envelope →
    ∃ p ∈ link.handed, p.2 = (envelope.sequence : Int)
  acks : ∀ envelope ∈ link.down, ∀ sequence,
    envelope.message = some (.ack sequence) →
      ∃ p ∈ link.handed, p.2 = (sequence : Int)

theorem isContent_of_isReport {envelope : Envelope}
    (h : envelope.message.any isReport = true) : isContent envelope = true := by
  obtain ⟨message, hmessage, hreport⟩ := (Option.any_eq_true _ _).mp h
  unfold isContent
  rw [hmessage]
  cases message <;> first | rfl | cases hreport

section Links

variable {link link' : Link}

theorem LinkInv.new : LinkInv .new :=
  ⟨rfl, .nil, fun frame h => (by cases h), fun envelope h => (by cases h),
    fun envelope h => (by cases h)⟩

/-- An acknowledgement that arrives covers only what was handed over. -/
theorem LinkInv.covered (h : LinkInv link) {envelope : Envelope}
    (hdown : envelope ∈ link.down) {sequence : Nat}
    (hack : envelope.message = some (.ack sequence)) {p : OutboxEntryId × Int}
    (hp : p ∈ link.sent) (hle : p.2 ≤ (sequence : Int)) :
    p ∈ link.handed := by
  obtain ⟨q, hq, hqs⟩ := h.acks envelope hdown sequence hack
  have hasc := h.ascending
  rw [h.order] at hp hasc
  rcases List.mem_append.mp hp with hp | hp
  · exact hp
  · have hlt := (List.pairwise_append.mp hasc).2.2 q hq p hp
    omega

theorem LinkInv.send (h : LinkInv link) {entryId : OutboxEntryId}
    {envelope : Envelope} (hreport : envelope.message.any isReport = true)
    (habove : ∀ p ∈ link.sent, p.2 < (envelope.sequence : Int)) :
    LinkInv { link with
      sent := link.sent ++ [(entryId, (envelope.sequence : Int))]
      up := link.up ++ [(some entryId, envelope)] } where
  order := by
    show link.sent ++ _ = link.handed ++ List.filterMap tag (link.up ++ _)
    rw [List.filterMap_append, ← List.append_assoc, ← h.order]
    rfl
  ascending := by
    refine List.pairwise_append.mpr ⟨h.ascending, List.pairwise_singleton _ _,
      fun p hp q hq => ?_⟩
    rw [List.mem_singleton.mp hq]
    exact habove p hp
  content := by
    intro frame hframe
    rcases List.mem_append.mp hframe with hframe | hframe
    · exact h.content frame hframe
    · rw [List.mem_singleton.mp hframe]
      exact (isContent_of_isReport hreport).symm
  processing := h.processing
  acks := h.acks

theorem LinkInv.beat (h : LinkInv link) {peerAcked : Nat} {now : Instant} :
    LinkInv { link with up := link.up ++
      [(none, ⟨0, peerAcked, some (.heartbeat now)⟩)] } where
  order := by
    show link.sent = link.handed ++ List.filterMap tag (link.up ++ _)
    have hbeat : List.filterMap tag
        [(none, ⟨0, peerAcked, some (.heartbeat now)⟩)] = [] := rfl
    rw [List.filterMap_append, hbeat, List.append_nil]
    exact h.order
  ascending := h.ascending
  content := by
    intro frame hframe
    rcases List.mem_append.mp hframe with hframe | hframe
    · exact h.content frame hframe
    · rw [List.mem_singleton.mp hframe]
      rfl
  processing := h.processing
  acks := h.acks

/-- The center takes the next frame; nothing but its hands changes. -/
theorem LinkInv.receive (h : LinkInv link) (hr : link.receive = some link') :
    LinkInv link' ∧ link'.sent = link.sent ∧
      ∀ p ∈ link.handed, p ∈ link'.handed := by
  unfold Link.receive at hr
  split at hr
  · next entryId envelope up _ _ hup =>
      have hcontent := h.content (entryId, envelope)
        (by rw [hup]; exact List.mem_cons_self)
      have horder := h.order
      rw [hup] at horder
      have hrest := fun frame hframe => h.content frame
        (by rw [hup]; exact List.mem_cons_of_mem _ hframe)
      dsimp only at hr
      split at hr
      · next hc =>
          cases hr
          rw [hc] at hcontent
          obtain ⟨entry, rfl⟩ := Option.isSome_iff_exists.mp hcontent
          refine ⟨⟨?_, h.ascending, hrest, ?_, ?_⟩, rfl, fun p hp =>
            List.mem_append_left _ hp⟩
          · show link.sent = (link.handed ++ _) ++ up.filterMap tag
            rw [horder, List.append_assoc]
            rfl
          · intro env henv
            cases henv
            exact ⟨_, List.mem_append_right _ List.mem_cons_self, rfl⟩
          · intro env henv sequence hack
            obtain ⟨p, hp, hps⟩ := h.acks env henv sequence hack
            exact ⟨p, List.mem_append_left _ hp, hps⟩
      · next hc =>
          cases hr
          rw [Bool.not_eq_true] at hc
          rw [hc, Option.isSome_eq_false_iff, Option.isNone_iff_eq_none]
            at hcontent
          refine ⟨⟨?_, h.ascending, hrest, h.processing, h.acks⟩, rfl,
            fun p hp => hp⟩
          show link.sent = link.handed ++ up.filterMap tag
          rw [horder, List.filterMap_cons]
          have hcontent : entryId = none := hcontent
          rw [hcontent]
          rfl
  · cases hr

theorem LinkInv.confirm (h : LinkInv link) (hr : link.confirm = some link') :
    LinkInv link' ∧ link'.sent = link.sent ∧ link'.handed = link.handed := by
  unfold Link.confirm at hr
  split at hr
  · next envelope _ hprocessing =>
      cases hr
      refine ⟨⟨h.order, h.ascending, h.content, fun env henv => (by cases henv),
        ?_⟩, rfl, rfl⟩
      intro env henv sequence hack
      rcases List.mem_append.mp henv with henv | henv
      · exact h.acks env henv sequence hack
      · rw [List.mem_singleton.mp henv] at hack
        cases hack
        exact h.processing envelope hprocessing
  · cases hr

end Links

/-! ## Runs -/

/-- What holds in every state of every run. -/
structure SysInv (c : Config) (s : State) : Prop where
  queue : Queue s.outbox
  links : ∀ link ∈ s.links, LinkInv link
  site : ∀ site, s.site = some site → ∃ link,
    s.links[site.link]? = some link ∧
      Kept site.rest (Settled c) (s.outbox, link)

section Run

variable {c : Config} {s t : State}

/-- The site's loop does not notice what the others do. -/
theorem SysInv.others (h : SysInv c s) (hsite : t.site = s.site)
    (hmoves : ∀ (i : Nat) link, s.links[i]? = some link → ∃ link',
      t.links[i]? = some link' ∧ Moves (s.outbox, link) (t.outbox, link')) :
    ∀ site, t.site = some site → ∃ link, t.links[site.link]? = some link ∧
      Kept site.rest (Settled c) (t.outbox, link) := by
  intro site hs
  obtain ⟨link, hlink, hkept⟩ := h.site site (hsite.symm.trans hs)
  obtain ⟨link', hlink', hm⟩ := hmoves site.link link hlink
  refine ⟨link', hlink', hkept.stable Moves.trans (fun r hr sent hok => ?_) hm⟩
  exact (hr sent hok).moves hm

/-- A step of one connection only. -/
theorem SysInv.setLink (h : SysInv c s) {i : Nat} {link' : Option Link}
    (hset : setLink s i link' = some t)
    (hlink : ∀ link, s.links[i]? = some link → ∀ new, link' = some new →
      LinkInv new ∧ new.sent = link.sent ∧
        ∀ p ∈ link.handed, p ∈ new.handed) : SysInv c t := by
  obtain ⟨new, hnew, rfl⟩ := Option.map_eq_some_iff.mp hset
  by_cases hi : i < s.links.length
  · obtain ⟨hinv, hsent, hhanded⟩ := hlink s.links[i]
      (List.getElem?_eq_getElem hi) new hnew
    refine ⟨h.queue, fun link hl => ?_, h.others rfl fun j link hj => ?_⟩
    · rcases List.mem_or_eq_of_mem_set hl with hl | rfl
      · exact h.links link hl
      · exact hinv
    · by_cases hij : i = j
      · subst hij
        refine ⟨new, by simp [hi], ?_⟩
        rw [List.getElem?_eq_getElem hi] at hj
        cases hj
        exact ⟨hsent, hhanded, .refl _⟩
      · exact ⟨link, by simpa [List.getElem?_set, hij] using hj, .refl _⟩
  · have hsame : s.links.set i new = s.links :=
      List.set_eq_of_length_le (Nat.not_lt.mp hi)
    refine ⟨h.queue, ?_, h.others rfl fun j link hj => ?_⟩
    · show ∀ link ∈ s.links.set i new, _
      rw [hsame]
      exact h.links
    · refine ⟨link, ?_, .refl _⟩
      show (s.links.set i new)[j]? = _
      rw [hsame]
      exact hj

/-- A step at the queue only. -/
theorem SysInv.setOutbox (h : SysInv c s) {outbox : OutboxTable}
    (hqueue : Queue outbox)
    (hlater : ∀ link ∈ s.links,
      Later (fun entryId => ∀ p ∈ link.sent, p.1 ≠ entryId) s.outbox outbox) :
    SysInv c { s with outbox } := by
  refine ⟨hqueue, h.links, h.others rfl fun i link hi => ⟨link, hi, ?_⟩⟩
  exact ⟨rfl, fun _ hp => hp, hlater link (List.mem_of_getElem? hi)⟩

/-- A call of the site's loop. -/
theorem SysInv.call (h : SysInv c s) {i peerAcked : Nat} {q : LinkReq}
    {k : q.Resp → Prog linkSig (Except SyncError Sent)} {link : Link}
    (hs : s.site = some ⟨i, peerAcked, .call q k⟩)
    (hlink : s.links[i]? = some link) (fault : Option Fault) (lost : Bool) :
    SysInv c { s with
      outbox := (perform fault lost q (s.outbox, link)).2.1
      site := some ⟨i, peerAcked, k (perform fault lost q (s.outbox, link)).1⟩
      links := s.links.set i (perform fault lost q (s.outbox, link)).2.2 } := by
  obtain ⟨link', hlink', hkept⟩ := h.site _ hs
  cases hlink.symm.trans hlink'
  obtain ⟨hduty, hrest⟩ := hkept (s.outbox, link) (.refl _)
    (perform fault lost q (s.outbox, link)).1
    (perform fault lost q (s.outbox, link)).2 ⟨h.queue, fault, lost, rfl⟩
  have hinv := h.links link (List.mem_of_getElem? hlink)
  have hi : i < s.links.length := (List.getElem?_eq_some_iff.mp hlink).1
  have hnew : Queue (perform fault lost q (s.outbox, link)).2.1 ∧
      LinkInv (perform fault lost q (s.outbox, link)).2.2 := by
    cases q with
    | listPending instanceId limit =>
        cases fault <;> exact ⟨h.queue, hinv⟩
    | acknowledge entryId now =>
        cases fault with
        | some f => exact ⟨h.queue, hinv⟩
        | none =>
            cases hack : ackOutboxEntry s.outbox entryId now with
            | error e =>
                simp only [perform, runOutbox, hack, Except.map, answered]
                exact ⟨h.queue, hinv⟩
            | ok r =>
                simp only [perform, runOutbox, hack, Except.map, answered]
                exact ⟨h.queue.ack hack, hinv⟩
    | send entryId envelope =>
        have hsend := @LinkInv.send link hinv entryId envelope hduty.1 hduty.2
        cases fault with
        | none => exact ⟨h.queue, hsend⟩
        | some f =>
            cases lost with
            | false => exact ⟨h.queue, hsend⟩
            | true => exact ⟨h.queue, hinv⟩
  refine ⟨hnew.1, fun l hl => ?_, fun site hsite => ?_⟩
  · rcases List.mem_or_eq_of_mem_set hl with hl | rfl
    · exact h.links l hl
    · exact hnew.2
  · cases hsite
    exact ⟨_, by simp [hi], hrest⟩

/-- A frame arrives at the site. -/
theorem SysInv.receive (h : SysInv c s) {i peerAcked : Nat} {sent : Sent}
    {link : Link} {envelope : Envelope} {down : List Envelope}
    (hs : s.site = some ⟨i, peerAcked, .ret (.ok sent)⟩)
    (hlink : s.links[i]? = some link) (hdown : link.down = envelope :: down)
    (now : Instant) :
    SysInv c { s with
      site := some ⟨i, max peerAcked envelope.sequence, (handleFrame c
        (max peerAcked envelope.sequence) envelope now sent).run⟩
      links := s.links.set i { link with down } } := by
  obtain ⟨link', hlink', hkept⟩ := h.site _ hs
  cases hlink.symm.trans hlink'
  have hinv := h.links link (List.mem_of_getElem? hlink)
  have hi : i < s.links.length := (List.getElem?_eq_some_iff.mp hlink).1
  have hready : Flushing c sent [] (s.outbox, link) := hkept sent rfl
  have hready' : Flushing c sent [] (s.outbox, { link with down }) :=
    hready.moves ⟨rfl, fun _ hp => hp, .refl _⟩
  refine ⟨h.queue, fun l hl => ?_, fun site hsite => ?_⟩
  · rcases List.mem_or_eq_of_mem_set hl with hl | rfl
    · exact h.links l hl
    · refine ⟨hinv.order, hinv.ascending, hinv.content, hinv.processing,
        fun env henv => hinv.acks env ?_⟩
      rw [hdown]
      exact List.mem_cons_of_mem _ henv
  · cases hsite
    refine ⟨_, by simp [hi], handleFrame_kept hready' ?_⟩
    intro sequence hack p hp hle
    exact hinv.covered (by rw [hdown]; exact List.mem_cons_self) hack
      (hready.own p hp) hle

theorem SysInv.of_next {l : Label} (h : SysInv c s)
    (hl : next c s l = some t) : SysInv c t := by
  have hlink : ∀ {i link}, s.links[i]? = some link → LinkInv link :=
    fun hi => h.links _ (List.mem_of_getElem? hi)
  cases l with
  | connect =>
      simp only [next] at hl
      split at hl
      · cases hl
        refine ⟨h.queue, fun link hlink => ?_, fun site hsite => ?_⟩
        · rcases List.mem_append.mp hlink with hlink | hlink
          · exact h.links link hlink
          · rw [List.mem_singleton.mp hlink]
            exact .new
        · cases hsite
          refine ⟨.new, by simp, flushOutbox_kept ⟨?_, ?_, ?_, ?_, ?_, .nil, ?_,
            ?_⟩⟩ <;> simp [Link.new]
      · cases hl
  | siteCall fault lost =>
      simp only [next] at hl
      split at hl
      · next i peerAcked q k hs =>
          obtain ⟨link, hi, rfl⟩ := Option.map_eq_some_iff.mp hl
          exact h.call hs hi fault lost
      · cases hl
  | siteReceive now =>
      simp only [next] at hl
      split at hl
      · next i peerAcked sent hs =>
          obtain ⟨link, hi, hdown⟩ := Option.bind_eq_some_iff.mp hl
          split at hdown
          · cases hdown
          · next envelope down hd =>
              cases hdown
              exact h.receive hs hi hd now
      · cases hl
  | heartbeat now =>
      simp only [next] at hl
      split at hl
      · refine h.setLink hl fun link hi new hnew => ?_
        rw [hi, Option.map_some] at hnew
        cases hnew
        exact ⟨(hlink hi).beat, rfl, fun _ hp => hp⟩
      · cases hl
  | siteEnd =>
      cases hl
      exact ⟨h.queue, h.links, fun site hsite => (by cases hsite)⟩
  | centerReceive i =>
      refine h.setLink hl fun link hi new hnew => ?_
      rw [hi, Option.bind_some] at hnew
      exact (hlink hi).receive hnew
  | centerConfirm i =>
      refine h.setLink hl fun link hi new hnew => ?_
      rw [hi, Option.bind_some] at hnew
      obtain ⟨hinv, hsent, hhanded⟩ := (hlink hi).confirm hnew
      exact ⟨hinv, hsent, fun p hp => hhanded ▸ hp⟩
  | centerSend i envelope =>
      simp only [next] at hl
      split at hl
      · cases hl
      · next hack =>
          refine h.setLink hl fun link hi new hnew => ?_
          rw [hi, Option.map_some] at hnew
          cases hnew
          have hinv := hlink hi
          refine ⟨⟨hinv.order, hinv.ascending, hinv.content, hinv.processing,
            fun env henv sequence hmessage => ?_⟩, rfl, fun _ hp => hp⟩
          rcases List.mem_append.mp henv with henv | henv
          · exact hinv.acks env henv sequence hmessage
          · rw [List.mem_singleton.mp henv] at hmessage
            simp [isAck, hmessage] at hack
  | centerEnd i =>
      refine h.setLink hl fun link hi new hnew => ?_
      rw [hi, Option.map_some] at hnew
      cases hnew
      have hinv := hlink hi
      exact ⟨⟨hinv.order, hinv.ascending, hinv.content, hinv.processing,
        hinv.acks⟩, rfl, fun _ hp => hp⟩
  | work fault entryId q =>
      simp only [next] at hl
      split at hl
      · next hw =>
          cases hl
          have hwork := @work_spec (fun _ => True) _ _ _ _ fault h.queue hw
            fun _ => trivial
          refine h.setOutbox hwork.2.1 fun link hlink => ?_
          exact (work_spec fault h.queue hw fun hall => hall link hlink).1
      · cases hl
  | retire entryId now =>
      simp only [next] at hl
      split at hl
      · split at hl
        · next outcome outbox hack =>
            cases hl
            exact h.setOutbox (h.queue.ack hack) fun link _ => later_ack hack
        · cases hl
      · cases hl

theorem SysInv.of_reach (h : Reach start (Next (next c)) s) : SysInv c s := by
  refine h.inv ?_ fun s t hs ⟨l, hl⟩ => hs.of_next hl
  rintro s ⟨hsite, hlinks, hdistinct, hreports⟩
  refine ⟨⟨hdistinct, hreports⟩, ?_, ?_⟩
  · rw [hlinks]
    exact fun link hlink => (by cases hlink)
  · rw [hsite]
    exact fun site hs => (by cases hs)

end Run

/-- In every run, with connections lost and made anew and either side crashing
at any point: a pending entry leaves that state only when it is retired as part
of a superseded artifact transfer, or when the site's loop acknowledges it on a
connection that sent it and over which the center was handed it. -/
theorem acknowledged_only_after_handed {c : Config} {s t : State} {l : Label}
    (hs : Reach start (Next (next c)) s) (hl : next c s l = some t)
    {row : OutboxRow} (hrow : row ∈ s.outbox.rows)
    (hpending : row.entry.state = .pending)
    (hout : ∀ row' ∈ t.outbox.rows, row'.id = row.id →
      row'.entry.state ≠ .pending) :
    (∃ now, l = .retire row.id now ∧ isArtifactFrame row = true) ∨
    (∃ fault lost, l = .siteCall fault lost) ∧
      ∃ site link sequence, s.site = some site ∧
        s.links[site.link]? = some link ∧ (row.id, sequence) ∈ link.sent ∧
        (row.id, sequence) ∈ link.handed := by
  have hinv := SysInv.of_reach hs
  -- a step that leaves the entry where it is contradicts its way out
  have hstays : ∀ row' ∈ t.outbox.rows, row'.entry ≠ row.entry := by
    intro row' hrow' hentry
    have hid : row'.id = row.id := congrArg OutboxEntry.id hentry
    exact hout row' hrow' hid (hentry ▸ hpending)
  have hset : ∀ {i link}, setLink s i link = some t → False := by
    intro i link hset
    obtain ⟨new, -, rfl⟩ := Option.map_eq_some_iff.mp hset
    exact hstays row hrow rfl
  cases l with
  | connect =>
      simp only [next] at hl
      split at hl
      · cases hl
        exact absurd rfl (hstays row hrow)
      · cases hl
  | siteCall fault lost =>
      simp only [next] at hl
      split at hl
      · next i peerAcked q k hsite =>
          obtain ⟨link, hi, rfl⟩ := Option.map_eq_some_iff.mp hl
          obtain ⟨link', hi', hkept⟩ := hinv.site _ hsite
          cases hi.symm.trans hi'
          obtain ⟨hduty, -⟩ := hkept (s.outbox, link) (.refl _)
            (perform fault lost q (s.outbox, link)).1
            (perform fault lost q (s.outbox, link)).2
            ⟨hinv.queue, fault, lost, rfl⟩
          refine .inr ⟨⟨fault, lost, rfl⟩, ⟨i, peerAcked, .call q k⟩, link, ?_⟩
          cases q with
          | listPending instanceId limit =>
              cases fault <;> exact absurd rfl (hstays row hrow)
          | send entryId envelope =>
              cases fault with
              | none => exact absurd rfl (hstays row hrow)
              | some f => cases lost <;> exact absurd rfl (hstays row hrow)
          | acknowledge entryId now =>
              obtain ⟨sequence, hhanded⟩ := hduty
              have hid : row.id = entryId := by
                by_contra hne
                cases fault with
                | some f => exact hstays row hrow rfl
                | none =>
                    simp only [perform, runOutbox] at hstays
                    cases hack : ackOutboxEntry s.outbox entryId now with
                    | error e =>
                        simp only [hack, Except.map, answered] at hstays
                        exact hstays row hrow rfl
                    | ok r =>
                        simp only [hack, Except.map, answered] at hstays
                        exact hstays row
                          (pending_of_ack hack hrow hpending hne) rfl
              have horder := (hinv.links link (List.mem_of_getElem? hi)).order
              rw [hid]
              refine ⟨sequence, hsite, hi, ?_, hhanded⟩
              rw [horder]
              exact List.mem_append_left _ hhanded
      · cases hl
  | siteReceive now =>
      simp only [next] at hl
      split at hl
      · obtain ⟨link, -, hdown⟩ := Option.bind_eq_some_iff.mp hl
        split at hdown
        · cases hdown
        · cases hdown
          exact absurd rfl (hstays row hrow)
      · cases hl
  | heartbeat now =>
      simp only [next] at hl
      split at hl
      · exact absurd hl hset
      · cases hl
  | siteEnd =>
      cases hl
      exact absurd rfl (hstays row hrow)
  | centerReceive i => exact absurd hl hset
  | centerConfirm i => exact absurd hl hset
  | centerSend i envelope =>
      simp only [next] at hl
      split at hl
      · cases hl
      · exact absurd hl hset
  | centerEnd i => exact absurd hl hset
  | work fault entryId q =>
      simp only [next] at hl
      split at hl
      · next hw =>
          cases hl
          have hwork := @work_spec (fun _ => True) _ _ _ _ fault hinv.queue hw
            fun _ => trivial
          obtain ⟨row', hrow', hentry⟩ := hwork.2.2 row hrow
          exact absurd hentry (hstays row' hrow')
      · cases hl
  | retire entryId now =>
      simp only [next] at hl
      split at hl
      · next hframe =>
          split at hl
          · next outcome outbox hack =>
              cases hl
              have hid : row.id = entryId := by
                by_contra hne
                exact hstays row (pending_of_ack hack hrow hpending hne) rfl
              refine .inl ⟨now, by rw [hid], ?_⟩
              rw [← hid, Table.find_eq_some_iff.mpr ⟨hrow, rfl⟩] at hframe
              exact hframe
          · cases hl
      · cases hl

/-- A queue of one reply, flushed, handed over and confirmed. -/
def confirmedReply : List Label :=
  [.work none ⟨11⟩ (.enqueue ⟨5⟩ (.operationAccepted (some ⟨1⟩) 100) 100),
    .connect, .siteCall none false, .siteCall none false, .centerReceive 0,
    .centerConfirm 0, .siteReceive 200]

/-- The confirmation arrives and the entry is acknowledged. -/
theorem acknowledged_only_after_handed_confirmed : ∃ s t row,
    Reach start (Next (next ⟨⟨5⟩, 64⟩)) s ∧
    next ⟨⟨5⟩, 64⟩ s (.siteCall none false) = some t ∧
    row ∈ s.outbox.rows ∧ row.entry.state = .pending ∧
    (∀ row' ∈ t.outbox.rows, row'.id = row.id →
      row'.entry.state ≠ .pending) ∧
    ∃ site link sequence, s.site = some site ∧
      s.links[site.link]? = some link ∧ (row.id, sequence) ∈ link.sent ∧
      (row.id, sequence) ∈ link.handed := by
  obtain ⟨s, hs, h⟩ := exists_reach_of_follow (s := ⟨.empty, none, []⟩) start
    (next ⟨⟨5⟩, 64⟩) confirmedReply
    (fun s => (s.outbox.find ⟨11⟩).any fun row =>
      row.entry.state = .pending &&
        (next ⟨⟨5⟩, 64⟩ s (.siteCall none false)).any fun t =>
          t.outbox.rows.all fun row' => row'.entry.state = .acked)
    (by refine ⟨rfl, rfl, ?_, ?_⟩ <;> intro row hrow <;> cases hrow)
    (by decide +kernel)
  obtain ⟨row, hfind, h⟩ := (Option.any_eq_true _ _).mp h
  simp only [Bool.and_eq_true, decide_eq_true_eq, Option.any_eq_true,
    List.all_eq_true] at h
  obtain ⟨hpending, t, ht, hacked⟩ := h
  have hrow := (Table.find_eq_some_iff.mp hfind).1
  have hout : ∀ row' ∈ t.outbox.rows, row'.id = row.id →
      row'.entry.state ≠ .pending := by
    intro row' hrow' _ hstate
    rw [hacked row' hrow'] at hstate
    cases hstate
  refine ⟨s, t, row, hs, ht, hrow, hpending, hout, ?_⟩
  rcases acknowledged_only_after_handed hs ht hrow hpending hout with
    ⟨now, hlabel, -⟩ | ⟨-, hhanded⟩
  · cases hlabel
  · exact hhanded

end Rutilus.Proofs.SessionAck
