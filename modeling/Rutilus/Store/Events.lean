import Mathlib.Data.List.Sort
import Rutilus.Domain.Command
import Rutilus.Domain.Event
import Rutilus.Lib.Table
import Rutilus.Store.Operations

/-!
# The event store

The `events` table. Its primary key is the event's identity; a unique index
over the endpoint and the deduplication key absorbs an event that is already
stored. Rows are only added. At the center a row also names the site that
reported it.
-/

namespace Rutilus.Store

open Rutilus.Domain Rutilus.Lib

structure EventRow where
  event : Event
  siteId : Option InstanceId
  deriving DecidableEq, Repr

abbrev EventRow.id (row : EventRow) : EventId := row.event.id

/-- What the unique index is over. -/
def EventRow.identity (row : EventRow) : EndpointId × DedupKey :=
  (row.event.endpointId, row.event.dedupKey)

structure EventTable extends Table EventId EventRow EventRow.id where
  unique : (rows.map EventRow.identity).Nodup

inductive EventRepositoryError where
  | fault (source : Fault)
  | anchorMissing (eventId : EventId)
  deriving DecidableEq, Repr

namespace EventTable

def empty : EventTable := ⟨Table.empty, List.nodup_nil⟩

/-- The row the unique index has under an identity. -/
def findIdentity (t : EventTable) (identity : EndpointId × DedupKey) :
    Option EventRow :=
  t.rows.find? fun row => row.identity = identity

theorem findIdentity_eq_none {t : EventTable}
    {identity : EndpointId × DedupKey} :
    t.findIdentity identity = none ↔
      ∀ row ∈ t.rows, row.identity ≠ identity := by
  simp [findIdentity, List.find?_eq_none]

theorem findIdentity_eq_some {t : EventTable}
    {identity : EndpointId × DedupKey} {row : EventRow} :
    t.findIdentity identity = some row ↔
      row ∈ t.rows ∧ row.identity = identity := by
  constructor
  · intro h
    exact ⟨List.mem_of_find?_eq_some h, by simpa using List.find?_some h⟩
  · rintro ⟨hrow, rfl⟩
    cases hfind : t.findIdentity row.identity with
    | none => exact absurd rfl (findIdentity_eq_none.mp hfind row hrow)
    | some found =>
        have hmem := List.mem_of_find?_eq_some hfind
        have hid : found.identity = row.identity := by
          simpa using List.find?_some hfind
        rw [List.inj_on_of_nodup_map t.unique hmem hrow hid]

/-- Insert, absorbing a row the unique index already has. A taken primary key
is an error of the database. -/
def append (t : EventTable) (row : EventRow) :
    Except EventRepositoryError EventTable :=
  if hidentity : t.findIdentity row.identity = none then
    if hid : t.find row.id = none then
      .ok ⟨t.toTable.insertNew row, by
        rw [Table.rows_insertNew hid, List.map_append, List.map_singleton,
          List.nodup_append]
        refine ⟨t.unique, List.nodup_singleton _, ?_⟩
        intro a ha b hb
        rw [List.mem_singleton] at hb
        obtain ⟨r, hr, rfl⟩ := List.mem_map.mp ha
        exact hb ▸ findIdentity_eq_none.mp hidentity r hr⟩
    else .error (.fault .database)
  else .ok t

/-- A landed insert: the row is new at the end, or its identity is stored. -/
theorem append_ok {t t' : EventTable} {row : EventRow}
    (h : t.append row = .ok t') :
    t.findIdentity row.identity = none ∧ t.find row.id = none ∧
        t'.rows = t.rows ++ [row] ∨
      (∃ stored ∈ t.rows, stored.identity = row.identity) ∧ t' = t := by
  unfold append at h
  split at h
  · next hidentity =>
      split at h
      · next hid =>
          cases h
          exact .inl ⟨hidentity, hid, Table.rows_insertNew hid⟩
      · cases h
  · next hidentity =>
      cases h
      obtain ⟨stored, hstored⟩ := Option.ne_none_iff_exists'.mp hidentity
      obtain ⟨hmem, hid⟩ := findIdentity_eq_some.mp hstored
      exact .inr ⟨⟨stored, hmem, hid⟩, rfl⟩

end EventTable

def appendEvent (t : EventTable) (event : Event) :
    Except EventRepositoryError EventTable :=
  t.append ⟨event, none⟩

/-- One transaction: all rows or, on an error, none. -/
def appendCenterEvents (t : EventTable) (site : InstanceId) :
    List Event → Except EventRepositoryError EventTable
  | [] => .ok t
  | event :: events => do
    let t ← t.append ⟨event, some site⟩
    appendCenterEvents t site events

/-- The order of the listings: by receive time, then by identity. -/
def observedBefore (a b : Event) : Prop :=
  a.observedAt < b.observedAt ∨
    a.observedAt = b.observedAt ∧ a.id.uuid ≤ b.id.uuid

instance : DecidableRel observedBefore := fun _ _ =>
  inferInstanceAs (Decidable (_ ∨ _))

/-- Strictly after another event in that order. -/
def observedAfter (anchor event : Event) : Prop :=
  anchor.observedAt < event.observedAt ∨
    anchor.observedAt = event.observedAt ∧ anchor.id.uuid < event.id.uuid

instance : DecidableRel observedAfter := fun _ _ =>
  inferInstanceAs (Decidable (_ ∨ _))

def findEvent (t : EventTable) (eventId : EventId) : Option Event :=
  (t.find eventId).map EventRow.event

def listRecentEvents (t : EventTable) (limit : Nat) : List Event :=
  ((t.rows.map EventRow.event).insertionSort
    fun a b => observedBefore b a).take limit

def listEventsAfter (t : EventTable) (after : EventId) (limit : Nat) :
    Except EventRepositoryError (List Event) :=
  match findEvent t after with
  | none => .error (.anchorMissing after)
  | some anchor =>
      .ok ((((t.rows.map EventRow.event).filter
        fun event => observedAfter anchor event).insertionSort
          observedBefore).take limit)

end Rutilus.Store

/-!
## The cursor store

One row for each instance and stream: how far the stream has come. Site and
center each have such a table and read the stored text in their own way, the
center as a sequence, the site as the identity of what it reported last; `none`
is a text that does not parse. A write replaces the row.
-/

namespace Rutilus.Store

open Rutilus.Domain Rutilus.Lib

inductive SyncStream where
  | endpoint
  | health
  | event
  | artifact
  deriving DecidableEq, Repr

structure SyncCursor (ν : Type) where
  instanceId : InstanceId
  stream : SyncStream
  cursorValue : Option ν
  updatedAt : Instant
  deriving DecidableEq, Repr

def SyncCursor.key {ν : Type} (cursor : SyncCursor ν) :
    InstanceId × SyncStream :=
  (cursor.instanceId, cursor.stream)

abbrev CursorTable (ν : Type) : Type :=
  Table (InstanceId × SyncStream) (SyncCursor ν) SyncCursor.key

section Cursors

variable {ν : Type}

def getSyncCursor (t : CursorTable ν) (instanceId : InstanceId)
    (stream : SyncStream) : Option (SyncCursor ν) :=
  t.find (instanceId, stream)

def setSyncCursor (t : CursorTable ν) (cursor : SyncCursor ν) :
    CursorTable ν :=
  t.put cursor

theorem getSyncCursor_set {t : CursorTable ν} {cursor : SyncCursor ν}
    {instanceId : InstanceId} {stream : SyncStream} :
    getSyncCursor (setSyncCursor t cursor) instanceId stream =
      if cursor.key = (instanceId, stream) then some cursor
      else getSyncCursor t instanceId stream :=
  Table.find_put

end Cursors

end Rutilus.Store
