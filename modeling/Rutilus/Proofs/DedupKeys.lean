import Mathlib.Data.Nat.Pairing
import Rutilus.Store.Events

/-!
# When two events have one key

The key of an event is the text of its message id and of its timestamp, with a character
between them that no message id has. A timestamp is printed with its offset, so the key
tells two spellings of one instant apart: a BMC that reports the same event again under
another offset has it stored a second time. Where the offsets agree, the key is that of
the message id and the instant.

How a timestamp is printed and what the database gives back for one are parameters. The
print tells different timestamps apart, and the database gives back the instant it was
given.
-/

namespace Rutilus.Proofs.DedupKeys

open Rutilus.Domain Rutilus.Lib Rutilus.Store

/-! ## Keys as texts -/

def keyText (display : OffsetDateTime → String) (event : Event) : String :=
  deriveDedupKey display event.messageId event.eventTimestamp

/-- The same message at the same time. -/
def SameOccurrence (a b : Event) : Prop :=
  a.messageId = b.messageId ∧ a.eventTimestamp.instant = b.eventTimestamp.instant

/-- The same message at the same time, reported with two offsets. -/
def Respelled (a b : Event) : Prop :=
  SameOccurrence a b ∧
    a.eventTimestamp.offsetSeconds ≠ b.eventTimestamp.offsetSeconds

theorem separator_notMem (messageId : MessageId) :
    dedupKeySeparator ∉ messageId.text.toList := by
  intro hmem
  have hvalid := messageId.valid
  unfold parseLabel at hvalid
  dsimp only at hvalid
  split at hvalid
  · cases hvalid
  split at hvalid
  · cases hvalid
  next hcontrol =>
  split at hvalid
  · cases hvalid
  have htext := Except.ok.inj hvalid
  rw [← htext, String.toList_ofList] at hmem
  exact hcontrol (List.any_eq_true.mpr ⟨_, hmem, by decide⟩)

variable {display : OffsetDateTime → String}

/-- The text stands for the pair it is printed from. -/
theorem deriveDedupKey_inj (hdisplay : Function.Injective display)
    {m m' : MessageId} {t t' : OffsetDateTime} :
    deriveDedupKey display m t = deriveDedupKey display m' t' ↔ m = m' ∧ t = t' := by
  constructor
  · intro h
    have hlist : m.text.toList ++ dedupKeySeparator :: (display t).toList =
        m'.text.toList ++ dedupKeySeparator :: (display t').toList := by
      have := congrArg String.toList h
      unfold deriveDedupKey at this
      simpa using this
    have hsplit := congrArg (List.splitOn dedupKeySeparator) hlist
    rw [List.splitOn_append_cons_self_of_not_mem (separator_notMem m),
      List.splitOn_append_cons_self_of_not_mem (separator_notMem m')] at hsplit
    have htext := (List.cons.inj hsplit).1
    rw [htext] at hlist
    have htime := (List.cons.inj (List.append_cancel_left hlist)).2
    exact ⟨MessageId.text_inj (String.toList_injective htext), hdisplay (String.toList_injective htime)⟩
  · rintro ⟨rfl, rfl⟩
    rfl

theorem keyText_eq_iff (hdisplay : Function.Injective display) {a b : Event} :
    keyText display a = keyText display b ↔
      SameOccurrence a b ∧
        a.eventTimestamp.offsetSeconds = b.eventTimestamp.offsetSeconds := by
  unfold keyText SameOccurrence
  rw [deriveDedupKey_inj hdisplay, and_assoc]
  refine and_congr_right fun _ => ?_
  cases a.eventTimestamp
  cases b.eventTimestamp
  rw [OffsetDateTime.mk.injEq]

/-- The unique index compares what the texts stand for. -/
theorem dedupKey_eq_iff {a b : Event} :
    a.dedupKey = b.dedupKey ↔
      SameOccurrence a b ∧
        a.eventTimestamp.offsetSeconds = b.eventTimestamp.offsetSeconds := by
  unfold Event.dedupKey SameOccurrence
  rw [DedupKey.mk.injEq, and_assoc]
  refine and_congr_right fun _ => ?_
  cases a.eventTimestamp
  cases b.eventTimestamp
  rw [OffsetDateTime.mk.injEq]

/-! ## Storing an event -/

/-- The same occurrence at the same endpoint. -/
def Reports (b : Event) (row : EventRow) : Prop :=
  row.event.endpointId = b.endpointId ∧ SameOccurrence row.event b

/-- An occurrence that is stored is absorbed, and another one becomes a row. -/
structure AppendsRight (t : EventTable) (b : Event) : Prop where
  absorbs : (∃ row ∈ t.rows, Reports b row) → appendEvent t b = .ok t
  stores : (∀ row ∈ t.rows, ¬ Reports b row) →
    ∃ t', appendEvent t b = .ok t' ∧ t'.rows = t.rows ++ [⟨b, none⟩]

/-- The occurrence is stored, but only with other offsets. -/
def OnlyRespelled (t : EventTable) (b : Event) : Prop :=
  (∃ row ∈ t.rows, Reports b row) ∧
    ∀ row ∈ t.rows, Reports b row →
      row.event.eventTimestamp.offsetSeconds ≠ b.eventTimestamp.offsetSeconds

theorem identity_eq_iff {row : EventRow} {b : Event} :
    row.identity = (EventRow.mk b none).identity ↔
      Reports b row ∧
        row.event.eventTimestamp.offsetSeconds =
          b.eventTimestamp.offsetSeconds := by
  unfold EventRow.identity Reports
  rw [Prod.mk.injEq, dedupKey_eq_iff, and_assoc]

theorem append_known {t : EventTable} {b : Event} {row : EventRow}
    (hrow : row ∈ t.rows) (hidentity : row.identity = (EventRow.mk b none).identity) :
    appendEvent t b = .ok t := by
  unfold appendEvent EventTable.append
  rw [dif_neg]
  intro hnone
  exact EventTable.findIdentity_eq_none.mp hnone row hrow hidentity

theorem append_new {t : EventTable} {b : Event} (hfresh : t.find b.id = none)
    (hnew : ∀ row ∈ t.rows, row.identity ≠ (EventRow.mk b none).identity) :
    ∃ t', appendEvent t b = .ok t' ∧ t'.rows = t.rows ++ [⟨b, none⟩] := by
  have hidentity : t.findIdentity (EventRow.mk b none).identity = none :=
    EventTable.findIdentity_eq_none.mpr hnew
  unfold appendEvent EventTable.append
  rw [dif_pos hidentity, dif_pos hfresh]
  exact ⟨_, rfl, Table.rows_insertNew hfresh⟩

theorem appendsRight_iff {t : EventTable} {b : Event} (hfresh : t.find b.id = none) :
    AppendsRight t b ↔ ¬ OnlyRespelled t b := by
  constructor
  · rintro hright ⟨hknown, hother⟩
    obtain ⟨t', happend, hrows⟩ := append_new hfresh (t := t) (b := b)
      fun row hrow hidentity =>
        have hsame := identity_eq_iff.mp hidentity
        hother row hrow hsame.1 hsame.2
    rw [hright.absorbs hknown] at happend
    cases happend
    have hlength := congrArg List.length hrows
    rw [List.length_append, List.length_singleton] at hlength
    omega
  · intro hnot
    constructor
    · intro hknown
      have hsame : ∃ row ∈ t.rows,
          row.identity = (EventRow.mk b none).identity := by
        refine Classical.byContradiction fun hnone => hnot ⟨hknown, ?_⟩
        intro row hrow hreports hoffset
        exact hnone ⟨row, hrow, identity_eq_iff.mpr ⟨hreports, hoffset⟩⟩
      obtain ⟨row, hrow, hidentity⟩ := hsame
      exact append_known hrow hidentity
    · intro hunknown
      exact append_new hfresh fun row hrow hidentity =>
        hunknown row hrow (identity_eq_iff.mp hidentity).1

/-! ## Reading an event back -/

/-- An event from its row; `reload` is what the database gives back for a timestamp. -/
def mapStoredEvent (reload : OffsetDateTime → OffsetDateTime) (row : EventRow) :
    Except EventTimelineError Event :=
  Event.new row.event.id row.event.endpointId row.event.messageId row.event.severity
    row.event.message (reload row.event.eventTimestamp) row.event.observedAt

/-- The event is read back, with the key it was stored under. -/
def KeepsKey (display : OffsetDateTime → String)
    (reload : OffsetDateTime → OffsetDateTime) (event : Event) : Prop :=
  ∃ read, mapStoredEvent reload ⟨event, none⟩ = .ok read ∧
    keyText display read = keyText display event

theorem keepsKey_iff (hdisplay : Function.Injective display)
    {reload : OffsetDateTime → OffsetDateTime}
    (hreload : ∀ t, (reload t).instant = t.instant) (event : Event) :
    KeepsKey display reload event ↔
      (reload event.eventTimestamp).offsetSeconds =
        event.eventTimestamp.offsetSeconds := by
  have htimeline : ¬ event.observedAt < (reload event.eventTimestamp).instant := by
    rw [hreload]
    exact Int.not_lt.mpr event.timeline
  unfold KeepsKey mapStoredEvent Event.new
  rw [dif_neg htimeline]
  constructor
  · rintro ⟨read, hread, hkey⟩
    cases hread
    exact ((keyText_eq_iff hdisplay).mp hkey).2
  · intro hoffset
    exact ⟨_, rfl, (keyText_eq_iff hdisplay).mpr ⟨⟨rfl, hreload _⟩, hoffset⟩⟩

/-! ## Events and keys -/

section Keys

variable (display : OffsetDateTime → String) (reload : OffsetDateTime → OffsetDateTime)

/-- Two events have one key for one occurrence, unless it was reported with two
offsets; an event is stored once for its occurrence, unless that is stored with other
offsets only; and an event is read back with its key, unless with another offset. -/
theorem key_stands_for_occurrence (hdisplay : Function.Injective display)
    (hreload : ∀ t, (reload t).instant = t.instant) (a b : Event) (t : EventTable)
    (hfresh : t.find b.id = none) :
    ((keyText display a = keyText display b ↔ SameOccurrence a b) ↔
      ¬ Respelled a b) ∧
    (AppendsRight t b ↔ ¬ OnlyRespelled t b) ∧
    (KeepsKey display reload a ↔ (reload a.eventTimestamp).offsetSeconds =
      a.eventTimestamp.offsetSeconds) := by
  refine ⟨?_, appendsRight_iff hfresh, keepsKey_iff hdisplay hreload a⟩
  rw [keyText_eq_iff hdisplay]
  unfold Respelled
  by_cases hsame : SameOccurrence a b
  · simp [hsame]
  · simp [hsame]

end Keys

/-! ## One instant, two offsets -/

/-- A number for an integer. -/
def intCode (n : Int) : Nat :=
  if n < 0 then 2 * n.natAbs + 1 else 2 * n.natAbs

theorem intCode_injective : Function.Injective intCode := by
  intro a b h
  unfold intCode at h
  split at h <;> split at h <;> omega

/-- A print that is the product's for two timestamps, and tells the others apart by its
length. -/
def someDisplay (t : OffsetDateTime) : String :=
  if t = ⟨0, 0⟩ then "1970-01-01 0:00:00.0 +00:00:00"
  else if t = ⟨0, 3600⟩ then "1970-01-01 1:00:00.0 +01:00:00"
  else String.ofList
    (List.replicate (Nat.pair (intCode t.instant) (intCode t.offsetSeconds)) 'x')

theorem replicate_ne_of_head {n : Nat} {text : String}
    (h : ∃ rest, text.toList = '1' :: rest) :
    String.ofList (List.replicate n 'x') ≠ text := by
  obtain ⟨rest, hrest⟩ := h
  intro heq
  have hlist := congrArg String.toList heq
  rw [String.toList_ofList, hrest] at hlist
  cases n with
  | zero => cases hlist
  | succ n => cases hlist

theorem someDisplay_injective : Function.Injective someDisplay := by
  have hutc : ∃ rest, "1970-01-01 0:00:00.0 +00:00:00".toList = '1' :: rest :=
    ⟨_, rfl⟩
  have hcet : ∃ rest, "1970-01-01 1:00:00.0 +01:00:00".toList = '1' :: rest :=
    ⟨_, rfl⟩
  intro a b h
  unfold someDisplay at h
  split at h
  · next ha =>
      split at h
      · next hb => rw [ha, hb]
      split at h
      · exact absurd h (by decide)
      · exact absurd h.symm (replicate_ne_of_head hutc)
  split at h
  · next ha =>
      split at h
      · exact absurd h (by decide)
      split at h
      · next hb => rw [ha, hb]
      · exact absurd h.symm (replicate_ne_of_head hcet)
  split at h
  · exact absurd h (replicate_ne_of_head hutc)
  split at h
  · exact absurd h (replicate_ne_of_head hcet)
  have hlength := congrArg (fun s => s.toList.length) h
  simp only [String.toList_ofList, List.length_replicate] at hlength
  obtain ⟨hinstant, hoffset⟩ := Nat.pair_eq_pair.mp hlength
  cases a
  cases b
  cases intCode_injective hinstant
  cases intCode_injective hoffset
  rfl

/-- An alert at the epoch, under a clock with some offset. -/
def alertAt (id : Nat) (offsetSeconds : Int) : Event where
  id := ⟨id⟩
  endpointId := ⟨1⟩
  messageId := ⟨"Alert.1.0.LanReset", by decide⟩
  severity := .warning
  message := none
  eventTimestamp := ⟨0, offsetSeconds⟩
  observedAt := 10
  timeline := show (0 : Int) ≤ 10 by decide

/-- One alert, delivered twice to an empty store that gives back what it was given. -/
theorem redelivered_alert_keyed :
    ((keyText someDisplay (alertAt 1 0) = keyText someDisplay (alertAt 2 0) ↔
        SameOccurrence (alertAt 1 0) (alertAt 2 0)) ↔
      ¬ Respelled (alertAt 1 0) (alertAt 2 0)) ∧
    (AppendsRight .empty (alertAt 2 0) ↔ ¬ OnlyRespelled .empty (alertAt 2 0)) ∧
    (KeepsKey someDisplay id (alertAt 1 0) ↔
      (id (alertAt 1 0).eventTimestamp).offsetSeconds =
        (alertAt 1 0).eventTimestamp.offsetSeconds) :=
  key_stands_for_occurrence someDisplay id someDisplay_injective (fun _ => rfl)
    (alertAt 1 0) (alertAt 2 0) .empty rfl

/-- The alert, delivered again by a BMC that shows the hour of its time zone. -/
theorem respelled_alert_kept_apart :
    ¬ (keyText someDisplay (alertAt 1 0) = keyText someDisplay (alertAt 2 3600) ↔
      SameOccurrence (alertAt 1 0) (alertAt 2 3600)) := by
  intro h
  have hkeys := h.mpr ⟨rfl, rfl⟩
  exact absurd ((keyText_eq_iff someDisplay_injective).mp hkeys).2 (by decide)

end Rutilus.Proofs.DedupKeys
