import Rutilus.Domain.Command

/-!
# What a site reports

The report frames of the center protocol: endpoints, resources, events and
artifacts. As in the other frames, `none` is a text that does not parse, and the
enumerations of the wire have one more value for the codes they do not know.
-/

namespace Rutilus.Domain

structure EventId where
  uuid : Nat
  deriving DecidableEq, Repr

/-- Bytes of a file, in order. -/
abbrev Bytes : Type := List UInt8

/-! ## Endpoints and resources -/

inductive WireTlsTrust where
  | unspecified
  | systemCa
  | pinnedCertificate
  | unknown
  deriving DecidableEq, Repr

/-- A stable product code; `none` where it stands for a code no build knows. -/
abbrev ResourceFeature : Type := String

structure ResourceSummary where
  feature : Option ResourceFeature
  odataId : String
  odataType : String
  etag : String
  generation : Nat
  deriving DecidableEq, Repr

structure EndpointSnapshot where
  endpointId : Option EndpointId
  displayName : String
  address : String
  trust : WireTlsTrust
  refreshGeneration : Nat
  resources : List ResourceSummary
  health : String
  deriving DecidableEq, Repr

inductive ResourceDeltaOp where
  | unspecified
  | upsert
  | delete
  | unknown
  deriving DecidableEq, Repr

structure ResourceDelta where
  endpointId : Option EndpointId
  op : ResourceDeltaOp
  resource : Option ResourceSummary
  payloadJson : Option String
  observedAtUnix : Int
  deriving DecidableEq, Repr

/-! ## Events -/

inductive WireEventSeverity where
  | unspecified
  | ok
  | warning
  | critical
  | unknown
  deriving DecidableEq, Repr

structure EventRecord where
  eventId : Option EventId
  messageId : String
  severity : WireEventSeverity
  target : String
  occurredAtUnix : Int
  payloadJson : Bytes
  endpointId : Option EndpointId
  deriving DecidableEq, Repr

/-! ## Artifacts -/

structure ArtifactManifest where
  artifactId : Option ArtifactId
  name : String
  totalBytes : Nat
  sha256 : Bytes
  deriving DecidableEq, Repr

structure ArtifactChunk where
  artifactId : Option ArtifactId
  index : Nat
  data : Bytes
  deriving DecidableEq, Repr

end Rutilus.Domain
