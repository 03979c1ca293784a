import Mathlib.Algebra.Group.Nat.Defs
import Mathlib.Data.List.Dedup
import Mathlib.Data.List.Sort
import Rutilus.Domain.Event
import Rutilus.Lib.Table
import Rutilus.Store.Operations

/-!
# The telemetry store

The tables `telemetry_series` and `telemetry_samples`. A unique index is over the
endpoint and the key of a series; a sample gets the next number of a sequence that
never goes back. The count of a series is kept up by hand: an append adds one, and a
prune counts the remaining rows of every series it takes something from.

Each write runs under the write gate, and a transaction is a sequence of statements.
Any of them may fail, and then none has happened.
-/

namespace Rutilus.Store.Telemetry

open Rutilus.Domain Rutilus.Lib

/-! ## Tables -/

structure SeriesRow where
  id : TelemetrySeriesId
  endpointId : EndpointId
  seriesKey : String
  sampleCount : Nat
  deriving DecidableEq, Repr

/-- What the unique index is over. -/
def SeriesRow.identity (row : SeriesRow) : EndpointId × String :=
  (row.endpointId, row.seriesKey)

structure SeriesTable extends Table TelemetrySeriesId SeriesRow SeriesRow.id where
  unique : (rows.map SeriesRow.identity).Nodup

structure SampleRow (φ : Type) where
  id : Nat
  seriesId : TelemetrySeriesId
  observedAt : Instant
  bmcTimestamp : Option OffsetDateTime
  value : φ

structure Db (φ : Type) where
  series : SeriesTable
  samples : List (SampleRow φ)
  nextId : Nat

def Db.empty (φ : Type) : Db φ := ⟨⟨.empty, List.nodup_nil⟩, [], 1⟩

inductive StoredTelemetryError where
  | nonFiniteValue
  | invalidSeriesKey (source : SeriesKeyError)
  deriving DecidableEq, Repr

inductive TelemetryRepositoryError where
  | fault (source : Fault)
  | seriesNotFound (seriesId : TelemetrySeriesId)
  | sampleCountOutOfRange (count : Nat)
  | corrupt (seriesId : TelemetrySeriesId) (source : StoredTelemetryError)
  deriving DecidableEq, Repr

section Statements

variable {φ α : Type}

/-! ## Transactions -/

/-- The tables as the transaction sees them, and which of its statements fail. -/
structure Session (φ : Type) where
  db : Db φ
  faults : List Bool

abbrev Txn (φ α : Type) : Type :=
  StateT (Session φ) (Except TelemetryRepositoryError) α

/-- One statement. -/
def statement (f : Db φ → Except TelemetryRepositoryError (α × Db φ)) :
    Txn φ α := fun s =>
  match s.faults with
  | true :: _ => .error (.fault .database)
  | false :: faults => (f s.db).map fun r => (r.1, ⟨r.2, faults⟩)
  | [] => (f s.db).map fun r => (r.1, ⟨r.2, []⟩)

def select (f : Db φ → α) : Txn φ α := statement fun db => .ok (f db, db)

def update (f : Db φ → Db φ) : Txn φ Unit := statement fun db => .ok ((), f db)

def commit : Txn φ Unit := update id

/-- Which failures a call meets: at the write gate, and at its statements. -/
structure Oracle where
  gate : Bool
  faults : List Bool

/-- A call: an error undoes what its statements did. -/
def transact (o : Oracle) (db : Db φ) (p : Txn φ α) :
    Except TelemetryRepositoryError α × Db φ :=
  if o.gate then (.error (.fault .coordinate), db)
  else match p ⟨db, o.faults⟩ with
    | .ok (a, s) => (.ok a, s.db)
    | .error e => (.error e, db)

/-! ## Series -/

def SeriesTable.findIdentity (t : SeriesTable)
    (identity : EndpointId × String) : Option SeriesRow :=
  t.rows.find? fun row => row.identity = identity

def mapStoredSeries (row : SeriesRow) :
    Except StoredTelemetryError TelemetrySeries :=
  match SeriesKey.parse row.seriesKey with
  | .ok seriesKey => .ok ⟨row.id, row.endpointId, seriesKey, row.sampleCount⟩
  | .error e => .error (.invalidSeriesKey e)

def readSeries (row : SeriesRow) :
    Except TelemetryRepositoryError TelemetrySeries :=
  (mapStoredSeries row).mapError (.corrupt row.id)

/-- Insert a series unless the unique index has its identity; says whether it was
inserted. A taken primary key is an error of the database. -/
def SeriesTable.insert (t : SeriesTable) (row : SeriesRow) :
    Except TelemetryRepositoryError (Bool × SeriesTable) :=
  if hidentity : ∀ r ∈ t.rows, r.identity ≠ row.identity then
    if hid : t.find row.id = none then
      .ok (true, ⟨t.toTable.insertNew row, by
        rw [Table.rows_insertNew hid, List.map_append, List.map_singleton,
          List.nodup_append]
        refine ⟨t.unique, List.nodup_singleton _, ?_⟩
        intro a ha b hb
        rw [List.mem_singleton] at hb
        obtain ⟨r, hr, rfl⟩ := List.mem_map.mp ha
        exact hb ▸ hidentity r hr⟩)
    else .error (.fault .database)
  else .ok (false, t)

def upsertSeries (newId : TelemetrySeriesId) (endpointId : EndpointId)
    (seriesKey : SeriesKey) : Txn φ TelemetrySeries := do
  match ← select fun db =>
      db.series.findIdentity (endpointId, seriesKey.text) with
  | some row => readSeries row
  | none =>
    match ← statement fun db =>
        (db.series.insert ⟨newId, endpointId, seriesKey.text, 0⟩).map
          fun r => (r.1, { db with series := r.2 }) with
    | true => return .new newId endpointId seriesKey
    | false =>
      match ← select fun db =>
          db.series.findIdentity (endpointId, seriesKey.text) with
      | some row => readSeries row
      | none => throw (.fault .database)

/-- The row with another count, where it is the one of the series. -/
def SeriesRow.counted (seriesId : TelemetrySeriesId) (f : Nat → Nat)
    (row : SeriesRow) : SeriesRow :=
  if row.id = seriesId then { row with sampleCount := f row.sampleCount } else row

@[simp]
theorem SeriesRow.id_counted (seriesId : TelemetrySeriesId) (f : Nat → Nat)
    (row : SeriesRow) : (row.counted seriesId f).id = row.id := by
  unfold SeriesRow.counted
  split <;> rfl

@[simp]
theorem SeriesRow.identity_counted (seriesId : TelemetrySeriesId) (f : Nat → Nat)
    (row : SeriesRow) : (row.counted seriesId f).identity = row.identity := by
  unfold SeriesRow.counted
  split <;> rfl

/-- Change the count of one series. -/
def SeriesTable.setCount (t : SeriesTable) (seriesId : TelemetrySeriesId)
    (f : Nat → Nat) : SeriesTable where
  toTable := t.toTable.map (SeriesRow.counted seriesId f)
    (SeriesRow.id_counted seriesId f)
  unique := by
    have hsame : SeriesRow.identity ∘ SeriesRow.counted seriesId f =
        SeriesRow.identity :=
      funext (SeriesRow.identity_counted seriesId f)
    show ((t.rows.map (SeriesRow.counted seriesId f)).map
      SeriesRow.identity).Nodup
    rw [List.map_map, hsame]
    exact t.unique

/-! ## Samples -/

variable {isFinite : φ → Bool}

def Db.insertSample (db : Db φ) (sample : TelemetrySample isFinite) : Db φ where
  series := db.series
  samples := db.samples ++ [⟨db.nextId, sample.seriesId, sample.observedAt,
    sample.bmcTimestamp, sample.value⟩]
  nextId := db.nextId + 1

def appendSample (sample : TelemetrySample isFinite) : Txn φ Unit := do
  match ← select fun db => db.series.find sample.seriesId with
  | none => throw (.seriesNotFound sample.seriesId)
  | some _ =>
    update (·.insertSample sample)
    update fun db =>
      { db with series := db.series.setCount sample.seriesId (· + 1) }
    commit

def Db.samplesOf (db : Db φ) (seriesId : TelemetrySeriesId) :
    List (SampleRow φ) :=
  db.samples.filter fun row => row.seriesId = seriesId

/-- The largest `i64`. -/
def maxCount : Nat := 2 ^ 63 - 1

/-- Count the rows of a series anew. -/
def recount (seriesId : TelemetrySeriesId) : Txn φ Unit := do
  let remaining ← select fun db => (db.samplesOf seriesId).length
  if maxCount < remaining then throw (.sampleCountOutOfRange remaining)
  else update fun db =>
    { db with series := db.series.setCount seriesId fun _ => remaining }

structure TelemetryPruneSummary where
  samplesDeleted : Nat
  seriesUpdated : Nat
  deriving DecidableEq, Repr

def SampleRow.isBefore (observedAt : Instant) (row : SampleRow φ) : Bool :=
  row.observedAt < observedAt

def pruneBefore (observedAt : Instant) : Txn φ TelemetryPruneSummary := do
  let stale : List TelemetrySeriesId ← select fun db =>
    (db.samples.filter (SampleRow.isBefore observedAt)).map SampleRow.seriesId
  let affected := (stale.insertionSort fun a b => a.uuid ≤ b.uuid).dedup
  let deleted : Nat ← statement fun db =>
    .ok ((db.samples.filter (SampleRow.isBefore observedAt)).length, { db with
      samples := db.samples.filter fun row => !row.isBefore observedAt })
  affected.forM recount
  commit
  return ⟨deleted, affected.length⟩

/-! ## Listings -/

/-- Newest first, and by the number where the stamps agree. -/
def newer (a b : SampleRow φ) : Prop :=
  b.observedAt < a.observedAt ∨ b.observedAt = a.observedAt ∧ b.id ≤ a.id

instance : DecidableRel (newer (φ := φ)) := fun _ _ =>
  inferInstanceAs (Decidable (_ ∨ _))

variable (isFinite) in
def readSample (row : SampleRow φ) :
    Except TelemetryRepositoryError (TelemetrySample isFinite) :=
  (TelemetrySample.tryFromParts isFinite row.seriesId row.observedAt
    row.bmcTimestamp row.value).mapError
      fun _ => .corrupt row.seriesId .nonFiniteValue

variable (isFinite) in
def listSamples (db : Db φ) (seriesId : TelemetrySeriesId) (limit : Nat) :
    Except TelemetryRepositoryError (List (TelemetrySample isFinite)) :=
  (((db.samplesOf seriesId).insertionSort newer).take limit).mapM
    (readSample isFinite)

def listSeries (db : Db φ) (endpointId : EndpointId) :
    Except TelemetryRepositoryError (List TelemetrySeries) :=
  ((db.series.rows.filter fun row => row.endpointId = endpointId).insertionSort
    fun a b => a.seriesKey ≤ b.seriesKey).mapM readSeries

end Statements

/-! ## Sequences of calls -/

variable {φ : Type} (isFinite : φ → Bool)

inductive Call where
  | upsertSeries (newId : TelemetrySeriesId) (endpointId : EndpointId)
      (seriesKey : SeriesKey)
  | appendSample (sample : TelemetrySample isFinite)
  | pruneBefore (observedAt : Instant)

/-- Whether a call was answered, and the tables after it. -/
def perform (o : Oracle) (db : Db φ) :
    Call isFinite → Except TelemetryRepositoryError Unit × Db φ
  | .upsertSeries newId endpointId seriesKey =>
    transact o db ((fun _ => ()) <$> upsertSeries newId endpointId seriesKey)
  | .appendSample sample => transact o db (appendSample sample)
  | .pruneBefore observedAt =>
    transact o db ((fun _ => ()) <$> pruneBefore observedAt)

def Called (db db' : Db φ) : Prop :=
  ∃ o call, (perform isFinite o db call).2 = db'

end Rutilus.Store.Telemetry
