import Rutilus.Domain.Artifact

/-!
# Events

One event of a BMC, with the BMC's own timestamp beside the time it was
received. Two reports are the same event when the message id and the BMC's
timestamp agree; the constructor derives that key. The source renders the key
as text, the message id, a control character and the timestamp with its offset:
no message id contains the control character, so the text stands for the pair.
-/

namespace Rutilus.Domain

/-- A point in time as a clock with some offset from UTC shows it. Order and
equality in the product look at the instant; the text shows both. -/
structure OffsetDateTime where
  instant : Instant
  offsetSeconds : Int
  deriving DecidableEq, Repr

def nanosPerSecond : Int := 1000000000

/-- The whole seconds since the epoch. -/
def OffsetDateTime.unixTimestamp (t : OffsetDateTime) : Int :=
  t.instant / nanosPerSecond

/-- The representable years are -9999 to 9999. -/
def OffsetDateTime.fromUnixTimestamp (seconds : Int) : Option OffsetDateTime :=
  if -377705116800 ≤ seconds ∧ seconds ≤ 253402300799 then
    some ⟨seconds * nanosPerSecond, 0⟩
  else none

structure MessageId where
  text : String
  valid : parseLabel text = .ok text
  deriving DecidableEq, Repr

def MessageId.parse (value : String) : Except LabelError MessageId :=
  match h : parseLabel value with
  | .ok text => .ok ⟨text, parseLabel_fixed h⟩
  | .error e => .error e

theorem MessageId.parse_text (messageId : MessageId) :
    MessageId.parse messageId.text = .ok messageId := by
  unfold MessageId.parse
  split
  · next text h =>
      rw [messageId.valid] at h
      cases h
      rfl
  · next e h =>
      rw [messageId.valid] at h
      cases h

theorem MessageId.text_inj {a b : MessageId} (h : a.text = b.text) : a = b := by
  cases a
  cases b
  cases h
  rfl

inductive EventSeverity where
  | ok
  | warning
  | critical
  deriving DecidableEq, Repr

structure DedupKey where
  messageId : MessageId
  eventTimestamp : OffsetDateTime
  deriving DecidableEq, Repr

structure Event where
  id : EventId
  endpointId : EndpointId
  messageId : MessageId
  severity : EventSeverity
  message : Option String
  eventTimestamp : OffsetDateTime
  observedAt : Instant
  timeline : eventTimestamp.instant ≤ observedAt
  deriving DecidableEq, Repr

def Event.dedupKey (event : Event) : DedupKey :=
  ⟨event.messageId, event.eventTimestamp⟩

/-- U+001F, a control character. -/
def dedupKeySeparator : Char := Char.ofNat 0x1f

/-- The key as text; `display` prints a timestamp. -/
def deriveDedupKey (display : OffsetDateTime → String) (messageId : MessageId)
    (eventTimestamp : OffsetDateTime) : String :=
  messageId.text ++ String.singleton dedupKeySeparator ++ display eventTimestamp

inductive EventTimelineError where
  | eventAfterReceive
  deriving DecidableEq, Repr

def Event.new (id : EventId) (endpointId : EndpointId) (messageId : MessageId)
    (severity : EventSeverity) (message : Option String)
    (eventTimestamp : OffsetDateTime) (observedAt : Instant) :
    Except EventTimelineError Event :=
  if h : observedAt < eventTimestamp.instant then .error .eventAfterReceive
  else .ok { id, endpointId, messageId, severity, message, eventTimestamp
             observedAt, timeline := Int.not_lt.mp h }

end Rutilus.Domain

/-!
## Telemetry

A series is one metric of one report of one endpoint, and a sample is one reading
of it. Samples are stamped with the product clock; the BMC's own timestamp stands
beside the stamp and orders nothing. A key is kept trimmed, without control
characters and bounded, and a reading is a finite number: both constructors see to
it, so a value that breaks the rule does not exist.

The numbers are those of `f64`; nothing here depends on more than on which of them
are finite.
-/

namespace Rutilus.Domain

structure TelemetrySeriesId where
  uuid : Nat
  deriving DecidableEq, Repr

def maxSeriesKeyChars : Nat := 512

inductive SeriesKeyError where
  | empty
  | controlCharacter
  | tooLong (actual maximum : Nat)
  deriving DecidableEq, Repr

/-- The identity of a series inside its endpoint. -/
structure SeriesKey where
  text : String
  trimmed : trim text.toList = text.toList
  ne : text.toList.isEmpty = false
  plain : text.toList.any isControl = false
  short : text.toList.length ≤ maxSeriesKeyChars
  deriving DecidableEq, Repr

def SeriesKey.parse (value : String) : Except SeriesKeyError SeriesKey :=
  let normalized := trim value.toList
  if hempty : normalized.isEmpty = true then .error .empty
  else if hcontrol : normalized.any isControl = true then
    .error .controlCharacter
  else if hlong : maxSeriesKeyChars < normalized.length then
    .error (.tooLong normalized.length maxSeriesKeyChars)
  else .ok {
    text := String.ofList normalized
    trimmed := by rw [String.toList_ofList]; exact trim_trim _
    ne := by rw [String.toList_ofList]; exact Bool.eq_false_iff.mpr hempty
    plain := by rw [String.toList_ofList]; exact Bool.eq_false_iff.mpr hcontrol
    short := by rw [String.toList_ofList]; exact Nat.le_of_not_lt hlong }

/-- A key reads back from its text. -/
theorem SeriesKey.parse_text (key : SeriesKey) :
    SeriesKey.parse key.text = .ok key := by
  obtain ⟨text, trimmed, ne, plain, short⟩ := key
  unfold SeriesKey.parse
  simp only [trimmed, ne, plain, Nat.not_lt.mpr short, Bool.false_eq_true,
    String.ofList_toList, dite_false]

theorem SeriesKey.text_inj {a b : SeriesKey} (h : a.text = b.text) : a = b := by
  cases a
  cases b
  cases h
  rfl

structure TelemetrySeries where
  id : TelemetrySeriesId
  endpointId : EndpointId
  seriesKey : SeriesKey
  sampleCount : Nat
  deriving DecidableEq, Repr

/-- A new series has no samples. -/
def TelemetrySeries.new (id : TelemetrySeriesId) (endpointId : EndpointId)
    (seriesKey : SeriesKey) : TelemetrySeries :=
  ⟨id, endpointId, seriesKey, 0⟩

inductive NonFiniteSampleValue where
  | nonFiniteSampleValue
  deriving DecidableEq, Repr

section Samples

variable {φ : Type} (isFinite : φ → Bool)

structure TelemetrySample where
  seriesId : TelemetrySeriesId
  observedAt : Instant
  bmcTimestamp : Option OffsetDateTime
  value : φ
  finite : isFinite value = true

/-- Both constructors. -/
def TelemetrySample.build (seriesId : TelemetrySeriesId) (observedAt : Instant)
    (bmcTimestamp : Option OffsetDateTime) (value : φ) :
    Except NonFiniteSampleValue (TelemetrySample isFinite) :=
  if h : isFinite value = true then
    .ok ⟨seriesId, observedAt, bmcTimestamp, value, h⟩
  else .error .nonFiniteSampleValue

def TelemetrySample.new (seriesId : TelemetrySeriesId) (observedAt : Instant)
    (value : φ) : Except NonFiniteSampleValue (TelemetrySample isFinite) :=
  TelemetrySample.build isFinite seriesId observedAt none value

def TelemetrySample.tryFromParts (seriesId : TelemetrySeriesId)
    (observedAt : Instant) (bmcTimestamp : Option OffsetDateTime) (value : φ) :
    Except NonFiniteSampleValue (TelemetrySample isFinite) :=
  TelemetrySample.build isFinite seriesId observedAt bmcTimestamp value

variable {isFinite}

def TelemetrySample.withBmcTimestamp (sample : TelemetrySample isFinite)
    (bmcTimestamp : OffsetDateTime) : TelemetrySample isFinite :=
  { sample with bmcTimestamp := some bmcTimestamp }

end Samples

end Rutilus.Domain
