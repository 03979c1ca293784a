import Rutilus.Lib.Prog
import Rutilus.Lib.Runs
import Rutilus.Store.Telemetry

/-!
# The telemetry sampler

A call accepts its instant under a lock, against the last one that was accepted;
then it reads the reports of its endpoint and appends the readings one by one, each
stamped with the instant. The lock is held for the comparison only. An instant that
goes back is refused, and the answer says whether the refusal repeats the one before
it.

Any number of calls and prunes may run at once, each call of the store is one step,
and a call may be dropped at any of its calls.
-/

namespace Rutilus.App.TelemetrySampler

open Rutilus.Domain Rutilus.Lib Rutilus.Store Rutilus.Store.Telemetry

variable {φ : Type} (isFinite : φ → Bool)

/-! ## Readings -/

structure MetricReportReading (φ : Type) where
  bmcTimestamp : Option OffsetDateTime
  value : φ

inductive MetricReportValuesError (φ : Type) where
  | noReadings
  | nonFiniteReading (value : φ)

/-- One metric series of a report. -/
structure MetricReportValues where
  seriesKey : SeriesKey
  readings : List (MetricReportReading φ)
  ne : readings.isEmpty = false
  finite : ∀ reading ∈ readings, isFinite reading.value = true

def MetricReportValues.tryNew (seriesKey : SeriesKey)
    (readings : List (MetricReportReading φ)) :
    Except (MetricReportValuesError φ) (MetricReportValues isFinite) :=
  if hempty : readings.isEmpty = true then .error .noReadings
  else match hfind : readings.find? fun reading => !isFinite reading.value with
    | some reading => .error (.nonFiniteReading reading.value)
    | none => .ok {
        seriesKey, readings
        ne := Bool.eq_false_iff.mpr hempty
        finite := fun reading hreading => by
          have hall := List.find?_eq_none.mp hfind reading hreading
          rw [Bool.not_eq_true, Bool.not_eq_false'] at hall
          exact hall }

/-! ## The guard -/

inductive RefusalKind where
  | clockRollback
  | cutoffUnderflow
  deriving DecidableEq, Repr

structure RefusalState where
  rollbackContinued : Bool
  underflowContinued : Bool
  deriving DecidableEq, Repr

/-- Record a refusal; the answer says whether it repeats the one before. -/
def RefusalState.note (s : RefusalState) : RefusalKind → Bool × RefusalState
  | .clockRollback => (s.rollbackContinued, { s with rollbackContinued := true })
  | .cutoffUnderflow =>
    (s.underflowContinued, { s with underflowContinued := true })

def RefusalState.clear (s : RefusalState) : RefusalKind → RefusalState
  | .clockRollback => { s with rollbackContinued := false }
  | .cutoffUnderflow => { s with underflowContinued := false }

inductive ReadFault where
  | failed
  deriving DecidableEq, Repr

inductive TelemetrySamplerError where
  | read (endpointId : EndpointId)
  | upsert (endpointId : EndpointId) (seriesKey : SeriesKey)
      (source : TelemetryRepositoryError)
  | append (endpointId : EndpointId) (seriesKey : SeriesKey)
      (source : TelemetryRepositoryError)
  | nonFiniteValue (endpointId : EndpointId) (seriesKey : SeriesKey)
  | prune (source : TelemetryRepositoryError)
  | cutoffUnderflow
  | clockRollback (previous now : Instant)
  deriving DecidableEq, Repr

structure SamplerState where
  lastSampleInstant : Option Instant
  refusals : RefusalState
  deriving DecidableEq, Repr

def SamplerState.new : SamplerState := ⟨none, ⟨false, false⟩⟩

/-- The comparison and the store under the lock. -/
def SamplerState.acceptInstant (s : SamplerState) (now : Instant) :
    Except (TelemetrySamplerError × Bool) Unit × SamplerState :=
  match s.lastSampleInstant with
  | some previous =>
    if now < previous then
      let r := s.refusals.note .clockRollback
      (.error (.clockRollback previous now, r.1), { s with refusals := r.2 })
    else (.ok (), ⟨some now, s.refusals.clear .clockRollback⟩)
  | none => (.ok (), ⟨some now, s.refusals.clear .clockRollback⟩)

/-- The instants `OffsetDateTime` can hold. -/
def earliestInstant : Instant := -377705116800 * nanosPerSecond

def latestInstant : Instant := 253402300799 * nanosPerSecond + 999999999

/-- The cutoff of a prune, or a refusal. -/
def SamplerState.cutoff (s : SamplerState) (now : Instant) (retention : Int) :
    Except (TelemetrySamplerError × Bool) Instant × SamplerState :=
  if earliestInstant ≤ now - retention ∧ now - retention ≤ latestInstant then
    (.ok (now - retention),
      { s with refusals := s.refusals.clear .cutoffUnderflow })
  else
    let r := s.refusals.note .cutoffUnderflow
    (.error (.cutoffUnderflow, r.1), { s with refusals := r.2 })

/-! ## A call -/

inductive SamplerReq where
  | readMetricReports (endpointId : EndpointId)
  | upsertSeries (endpointId : EndpointId) (seriesKey : SeriesKey)
  | appendSample (sample : TelemetrySample isFinite)

def SamplerReq.Resp : SamplerReq isFinite → Type
  | .readMetricReports _ => Except ReadFault (List (MetricReportValues isFinite))
  | .upsertSeries .. => Except TelemetryRepositoryError TelemetrySeries
  | .appendSample _ => Except TelemetryRepositoryError Unit

def samplerSig : Sig := ⟨SamplerReq isFinite, SamplerReq.Resp isFinite⟩

variable {isFinite}

abbrev call (q : SamplerReq isFinite) :
    Prog (samplerSig isFinite) (SamplerReq.Resp isFinite q) :=
  .call (S := samplerSig isFinite) q .ret

variable (isFinite) in
abbrev Sampling (α : Type) : Type :=
  ExceptT TelemetrySamplerError (Prog (samplerSig isFinite)) α

structure EndpointSampling where
  seriesSampled : Nat
  samplesAppended : Nat
  deriving DecidableEq, Repr

/-- The BMC's own timestamp, where the reading has one. -/
def stamped (sample : TelemetrySample isFinite) :
    Option OffsetDateTime → TelemetrySample isFinite
  | some bmcTimestamp => sample.withBmcTimestamp bmcTimestamp
  | none => sample

/-- The readings of one series, onto the number that were appended before. -/
def appendReadings (endpointId : EndpointId) (now : Instant)
    (seriesKey : SeriesKey) (series : TelemetrySeries) :
    List (MetricReportReading φ) → Nat → Sampling isFinite Nat
  | [], appended => return appended
  | reading :: readings, appended => do
    match TelemetrySample.new isFinite series.id now reading.value with
    | .error _ => throw (.nonFiniteValue endpointId seriesKey)
    | .ok sample =>
      orThrow (call (.appendSample (stamped sample reading.bmcTimestamp)))
        (.append endpointId seriesKey)
      appendReadings endpointId now seriesKey series readings (appended + 1)

def sampleReports (endpointId : EndpointId) (now : Instant) :
    List (MetricReportValues isFinite) → EndpointSampling →
      Sampling isFinite EndpointSampling
  | [], done => return done
  | report :: reports, done => do
    let series ← orThrow (call (.upsertSeries endpointId report.seriesKey))
      (.upsert endpointId report.seriesKey)
    let appended ← appendReadings endpointId now report.seriesKey series
      report.readings done.samplesAppended
    sampleReports endpointId now reports ⟨done.seriesSampled + 1, appended⟩

variable (isFinite) in
def sampleAccepted (endpointId : EndpointId) (now : Instant) :
    Sampling isFinite EndpointSampling := do
  let reports ← orThrow (call (.readMetricReports endpointId))
    fun (_ : ReadFault) => .read endpointId
  sampleReports endpointId now reports ⟨0, 0⟩

/-! ## One process -/

/-- A call whose instant was accepted. -/
structure Running (isFinite : φ → Bool) where
  endpointId : EndpointId
  now : Instant
  run : Sampling isFinite EndpointSampling

/-- The tables, the guard and the calls, with the number of the first sample this
process may append. -/
structure State (isFinite : φ → Bool) where
  db : Db φ
  sampler : SamplerState
  calls : List (Running isFinite)
  start : Nat

/-- A process begins; the tables hold what earlier ones left. -/
def Initial (s : State isFinite) : Prop :=
  s.sampler = .new ∧ s.calls = [] ∧ s.start = s.db.nextId ∧
    ∀ sample ∈ s.db.samples, sample.id < s.start

/-- What the boundary answers: the reports, the failures of the store, and the
identity a new series gets. -/
structure Answers (isFinite : φ → Bool) where
  reports : Except ReadFault (List (MetricReportValues isFinite))
  store : Telemetry.Oracle
  newId : TelemetrySeriesId

def perform (o : Answers isFinite) :
    (q : SamplerReq isFinite) → Db φ → SamplerReq.Resp isFinite q × Db φ
  | .readMetricReports _, db => (o.reports, db)
  | .upsertSeries endpointId seriesKey, db =>
    transact o.store db (upsertSeries o.newId endpointId seriesKey)
  | .appendSample sample, db => transact o.store db (appendSample sample)

inductive Label (isFinite : φ → Bool) where
  | sampleEndpoint (endpointId : EndpointId) (now : Instant)
  | step (i : Nat) (o : Answers isFinite)
  | drop (i : Nat)
  | pruneHistory (now : Instant) (retention : Int) (o : Telemetry.Oracle)

def next (s : State isFinite) : Label isFinite → Option (State isFinite)
  | .sampleEndpoint endpointId now =>
    match s.sampler.acceptInstant now with
    | (.ok (), sampler) => some { s with
        sampler := sampler
        calls := s.calls ++
          [⟨endpointId, now, sampleAccepted isFinite endpointId now⟩] }
    | (.error _, sampler) => some { s with sampler := sampler }
  | .step i o => match s.calls[i]? with
    | some ⟨endpointId, now, .call q k⟩ =>
      let r := perform o q s.db
      some { s with
        db := r.2
        calls := s.calls.set i ⟨endpointId, now, k r.1⟩ }
    | _ => none
  | .drop i => match s.calls[i]? with
    | some _ => some { s with calls := s.calls.eraseIdx i }
    | none => none
  | .pruneHistory now retention o =>
    match s.sampler.cutoff now retention with
    | (.ok cutoff, sampler) => some { s with
        db := (transact o s.db (pruneBefore cutoff)).2
        sampler := sampler }
    | (.error _, sampler) => some { s with sampler := sampler }

abbrev Reachable (s : State isFinite) : Prop := Reach Initial (Next next) s

/-! ## Calls in turn -/

/-- A call that is not done. -/
def Running.underWay (c : Running isFinite) : Bool :=
  match c.run with
  | .ret _ => false
  | .call .. => true

/-- The call is about to append a sample. -/
def Running.appends (c : Running isFinite) : Bool :=
  match c.run with
  | .call (.appendSample _) _ => true
  | _ => false

/-- No call appends while one of the same endpoint with an earlier instant is under
way. -/
def inTurn (s : State isFinite) : Label isFinite → Bool
  | .step i _ => match s.calls[i]? with
    | some c => !c.appends || s.calls.all fun d =>
        !(d.underWay && d.endpointId = c.endpointId && d.now < c.now)
    | none => true
  | _ => true

def nextInTurn (s : State isFinite) (l : Label isFinite) :
    Option (State isFinite) :=
  if inTurn s l then next s l else none

end Rutilus.App.TelemetrySampler
