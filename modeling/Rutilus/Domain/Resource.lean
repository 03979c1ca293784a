import Rutilus.Domain.Artifact
import Rutilus.Domain.Operation

/-!
# Resources and their snapshots

A resource is what an endpoint shows under one `@odata.id`. A snapshot is one
observation of it: a typed feature, the exact texts that Redfish names it by, and
a payload, which is the canonical text of a JSON object. Snapshots are grouped in
generations, numbered from one.

What JSON is stands outside: `canonicalize` parses a text and prints the object
again.
-/

namespace Rutilus.Domain.Resource

open Rutilus.Domain

structure ResourceId where
  uuid : Nat
  deriving DecidableEq, Repr

/-! ## Features -/

/-- The typed Redfish feature of a snapshot. -/
inductive ResourceFeature where
  | serviceRoot
  | systems
  | chassis
  | managers
  | oemDell
  | oemSmcSysLockdown
  | oemSmcKcsInterface
  | oemNvidiaSystemConfigProfile
  | oemNvidiaPowerCompliance
  | oemNvidiaManagedEntity
  | oemLenovoSecurityService
  | oemAmiServiceRoot
  | oemAmiConfigBmc
  | oemHpeILoServiceExt
  | oemHpeManager
  | oemLiteOnPowerSupply
  | oemDeltaPowerSupply
  | processors
  | memory
  | storages
  | networkAdapters
  | networkDeviceFunctions
  | ethernetInterfaces
  | accounts
  | bios
  | bootOptions
  | secureBoot
  | power
  | powerEquipment
  | powerSupplies
  | thermal
  | sensors
  | controls
  | environmentMetrics
  | logServices
  | managerNetworkProtocol
  | hostInterfaces
  | pcieDevices
  | assembly
  | softwareInventory
  | eventService
  | eventSubscription
  | telemetryService
  | metricDefinition
  | metricReport
  | taskService
  | task
  deriving DecidableEq, Repr

def ResourceFeature.asStr : ResourceFeature → String
  | .serviceRoot => "service-root"
  | .systems => "systems"
  | .chassis => "chassis"
  | .managers => "managers"
  | .oemDell => "dell-attributes"
  | .oemSmcSysLockdown => "supermicro-sys-lockdown"
  | .oemSmcKcsInterface => "supermicro-kcs-interface"
  | .oemNvidiaSystemConfigProfile => "nvidia-system-config-profile"
  | .oemNvidiaPowerCompliance => "nvidia-power-compliance"
  | .oemNvidiaManagedEntity => "nvidia-managed-entity"
  | .oemLenovoSecurityService => "lenovo-security-service"
  | .oemAmiServiceRoot => "ami-service-root"
  | .oemAmiConfigBmc => "ami-config-bmc"
  | .oemHpeILoServiceExt => "hpe-ilo-service-ext"
  | .oemHpeManager => "hpe-manager"
  | .oemLiteOnPowerSupply => "liteon-power-supply"
  | .oemDeltaPowerSupply => "delta-power-supply"
  | .processors => "processors"
  | .memory => "memory"
  | .storages => "storages"
  | .networkAdapters => "network-adapters"
  | .networkDeviceFunctions => "network-device-functions"
  | .ethernetInterfaces => "ethernet-interfaces"
  | .accounts => "accounts"
  | .bios => "bios"
  | .bootOptions => "boot-options"
  | .secureBoot => "secure-boot"
  | .power => "power"
  | .powerEquipment => "power-equipment"
  | .powerSupplies => "power-supplies"
  | .thermal => "thermal"
  | .sensors => "sensors"
  | .controls => "controls"
  | .environmentMetrics => "environment-metrics"
  | .logServices => "log-services"
  | .managerNetworkProtocol => "manager-network-protocol"
  | .hostInterfaces => "host-interfaces"
  | .pcieDevices => "pcie-devices"
  | .assembly => "assembly"
  | .softwareInventory => "software-inventory"
  | .eventService => "event-service"
  | .eventSubscription => "event-subscription"
  | .telemetryService => "telemetry-service"
  | .metricDefinition => "metric-definition"
  | .metricReport => "metric-report"
  | .taskService => "task-service"
  | .task => "task"

def ResourceFeature.fromStr : String → Option ResourceFeature
  | "service-root" => some .serviceRoot
  | "systems" => some .systems
  | "chassis" => some .chassis
  | "managers" => some .managers
  | "dell-attributes" => some .oemDell
  | "supermicro-sys-lockdown" => some .oemSmcSysLockdown
  | "supermicro-kcs-interface" => some .oemSmcKcsInterface
  | "nvidia-system-config-profile" => some .oemNvidiaSystemConfigProfile
  | "nvidia-power-compliance" => some .oemNvidiaPowerCompliance
  | "nvidia-managed-entity" => some .oemNvidiaManagedEntity
  | "lenovo-security-service" => some .oemLenovoSecurityService
  | "ami-service-root" => some .oemAmiServiceRoot
  | "ami-config-bmc" => some .oemAmiConfigBmc
  | "hpe-ilo-service-ext" => some .oemHpeILoServiceExt
  | "hpe-manager" => some .oemHpeManager
  | "liteon-power-supply" => some .oemLiteOnPowerSupply
  | "delta-power-supply" => some .oemDeltaPowerSupply
  | "processors" => some .processors
  | "memory" => some .memory
  | "storages" => some .storages
  | "network-adapters" => some .networkAdapters
  | "network-device-functions" => some .networkDeviceFunctions
  | "ethernet-interfaces" => some .ethernetInterfaces
  | "accounts" => some .accounts
  | "bios" => some .bios
  | "boot-options" => some .bootOptions
  | "secure-boot" => some .secureBoot
  | "power" => some .power
  | "power-equipment" => some .powerEquipment
  | "power-supplies" => some .powerSupplies
  | "thermal" => some .thermal
  | "sensors" => some .sensors
  | "controls" => some .controls
  | "environment-metrics" => some .environmentMetrics
  | "log-services" => some .logServices
  | "manager-network-protocol" => some .managerNetworkProtocol
  | "host-interfaces" => some .hostInterfaces
  | "pcie-devices" => some .pcieDevices
  | "assembly" => some .assembly
  | "software-inventory" => some .softwareInventory
  | "event-service" => some .eventService
  | "event-subscription" => some .eventSubscription
  | "telemetry-service" => some .telemetryService
  | "metric-definition" => some .metricDefinition
  | "metric-report" => some .metricReport
  | "task-service" => some .taskService
  | "task" => some .task
  | _ => none
theorem ResourceFeature.fromStr_asStr (f : ResourceFeature) :
    ResourceFeature.fromStr f.asStr = some f := by
  cases f <;> rfl

/-! ## Exact texts -/

def maxODataIdBytes : Nat := 4 * 1024

def maxODataTypeBytes : Nat := 512

def maxEtagBytes : Nat := 512

inductive ExactTextError where
  | empty
  | surroundingWhitespace
  | controlCharacter
  | tooLong (actual maximum : Nat)
  deriving DecidableEq, Repr

def validateExactText (value : String) (maximum : Nat) :
    Except ExactTextError Unit :=
  if value.isEmpty then .error .empty
  else if trim value.toList ≠ value.toList then .error .surroundingWhitespace
  else if value.toList.any isControl then .error .controlCharacter
  else if maximum < value.utf8ByteSize then
    .error (.tooLong value.utf8ByteSize maximum)
  else .ok ()

/-- A discovered `@odata.id`. -/
structure ResourceODataId where
  text : String
  valid : validateExactText text maxODataIdBytes = .ok ()
  deriving DecidableEq

def ResourceODataId.parse (value : String) :
    Except ExactTextError ResourceODataId :=
  match h : validateExactText value maxODataIdBytes with
  | .error e => .error e
  | .ok () => .ok ⟨value, h⟩

/-- An opaque entity tag. -/
structure ResourceEtag where
  text : String
  valid : validateExactText text maxEtagBytes = .ok ()
  deriving DecidableEq

def ResourceEtag.parse (value : String) : Except ExactTextError ResourceEtag :=
  match h : validateExactText value maxEtagBytes with
  | .error e => .error e
  | .ok () => .ok ⟨value, h⟩

inductive ResourceODataTypeError where
  | exact (source : ExactTextError)
  | missingTypeMarker
  deriving DecidableEq, Repr

def validateODataType (value : String) : Except ResourceODataTypeError Unit :=
  match validateExactText value maxODataTypeBytes with
  | .error e => .error (.exact e)
  | .ok () =>
    if value.toList.head? = some '#' then .ok () else .error .missingTypeMarker

/-- A type annotation, which begins with a number sign. -/
structure ResourceODataType where
  text : String
  valid : validateODataType text = .ok ()
  deriving DecidableEq

def ResourceODataType.parse (value : String) :
    Except ResourceODataTypeError ResourceODataType :=
  match h : validateODataType value with
  | .error e => .error e
  | .ok () => .ok ⟨value, h⟩

@[simp]
theorem ResourceODataId.parse_text (odataId : ResourceODataId) :
    ResourceODataId.parse odataId.text = .ok odataId := by
  unfold ResourceODataId.parse
  split
  · next e h =>
      rw [odataId.valid] at h
      cases h
  · rfl

@[simp]
theorem ResourceEtag.parse_text (etag : ResourceEtag) :
    ResourceEtag.parse etag.text = .ok etag := by
  unfold ResourceEtag.parse
  split
  · next e h =>
      rw [etag.valid] at h
      cases h
  · rfl

@[simp]
theorem ResourceODataType.parse_text (odataType : ResourceODataType) :
    ResourceODataType.parse odataType.text = .ok odataType := by
  unfold ResourceODataType.parse
  split
  · next e h =>
      rw [odataType.valid] at h
      cases h
  · rfl

/-! ## Payloads -/

def maxTypedPayloadBytes : Nat := 4 * 1024 * 1024

inductive JsonFlaw where
  | invalidJson
  | notObject
  deriving DecidableEq, Repr

abbrev Canonicalize : Type := String → Except JsonFlaw String

inductive ResourceSnapshotPayloadError where
  | tooLarge (actual maximum : Nat)
  | json (flaw : JsonFlaw)
  deriving DecidableEq, Repr

/-- The bound is on the text that comes in, not on the canonical one. -/
def canonicalPayload (canonicalize : Canonicalize) (value : String) :
    Except ResourceSnapshotPayloadError String :=
  if maxTypedPayloadBytes < value.utf8ByteSize then
    .error (.tooLarge value.utf8ByteSize maxTypedPayloadBytes)
  else (canonicalize value).mapError .json

/-- The canonical text of some payload. -/
structure ResourceSnapshotPayload (canonicalize : Canonicalize) where
  text : String
  parsed : ∃ value, canonicalPayload canonicalize value = .ok text
  deriving DecidableEq

def ResourceSnapshotPayload.parse (canonicalize : Canonicalize)
    (value : String) : Except ResourceSnapshotPayloadError
      (ResourceSnapshotPayload canonicalize) :=
  match h : canonicalPayload canonicalize value with
  | .error e => .error e
  | .ok text => .ok ⟨text, value, h⟩

/-! ## Generations -/

inductive RefreshGenerationError where
  | zero
  | tooLarge (value : Nat)
  deriving DecidableEq, Repr

/-- What fits a signed integer column. -/
def maxRefreshGeneration : Nat := 9223372036854775807

structure RefreshGeneration where
  get : Nat
  positive : 0 < get
  small : get ≤ maxRefreshGeneration
  deriving DecidableEq, Repr

def RefreshGeneration.new (value : Nat) :
    Except RefreshGenerationError RefreshGeneration :=
  if hzero : value = 0 then .error .zero
  else if hlarge : maxRefreshGeneration < value then .error (.tooLarge value)
  else .ok ⟨value, Nat.pos_of_ne_zero hzero, Nat.not_lt.mp hlarge⟩

/-- One observation of a resource. -/
structure ResourceSnapshot (canonicalize : Canonicalize) where
  resourceId : ResourceId
  endpointId : EndpointId
  feature : ResourceFeature
  odataId : ResourceODataId
  odataType : Option ResourceODataType
  etag : Option ResourceEtag
  payload : ResourceSnapshotPayload canonicalize
  observedAt : Instant
  generation : RefreshGeneration
  deriving DecidableEq

/-! ## Members that could not be decoded -/

structure ResourceExtendedInfo where
  messageId : String
  message : Option String
  severity : Option String
  resolution : Option String
  relatedProperties : List String
  deriving DecidableEq, Repr

def maxOemNamespaceBytes : Nat := 512

def maxErrorSummaryBytes : Nat := 2048

inductive ResourceDecodeFailureError where
  | emptyOemNamespace
  | oemNamespaceTooLong (max : Nat)
  | emptyErrorSummary
  | errorSummaryTooLong (max : Nat)
  deriving DecidableEq, Repr

def checkOemNamespace :
    Option String → Except ResourceDecodeFailureError Unit
  | none => .ok ()
  | some oemNamespace =>
    if oemNamespace.isEmpty then .error .emptyOemNamespace
    else if maxOemNamespaceBytes < oemNamespace.utf8ByteSize then
      .error (.oemNamespaceTooLong maxOemNamespaceBytes)
    else .ok ()

def checkErrorSummary (errorSummary : String) :
    Except ResourceDecodeFailureError Unit :=
  if errorSummary.isEmpty then .error .emptyErrorSummary
  else if maxErrorSummaryBytes < errorSummary.utf8ByteSize then
    .error (.errorSummaryTooLong maxErrorSummaryBytes)
  else .ok ()

structure ResourceDecodeFailure where
  odataUri : ResourceODataId
  odataType : Option ResourceODataType
  feature : ResourceFeature
  oemNamespace : Option String
  errorSummary : String
  extendedInfo : List ResourceExtendedInfo
  validNamespace : checkOemNamespace oemNamespace = .ok ()
  validSummary : checkErrorSummary errorSummary = .ok ()
  deriving DecidableEq

def ResourceDecodeFailure.tryNew (odataUri : ResourceODataId)
    (odataType : Option ResourceODataType) (feature : ResourceFeature)
    (oemNamespace : Option String) (errorSummary : String)
    (extendedInfo : List ResourceExtendedInfo) :
    Except ResourceDecodeFailureError ResourceDecodeFailure :=
  match hnamespace : checkOemNamespace oemNamespace with
  | .error e => .error e
  | .ok () => match hsummary : checkErrorSummary errorSummary with
    | .error e => .error e
    | .ok () => .ok ⟨odataUri, odataType, feature, oemNamespace, errorSummary,
        extendedInfo, hnamespace, hsummary⟩

@[simp]
theorem ResourceDecodeFailure.tryNew_self (f : ResourceDecodeFailure) :
    ResourceDecodeFailure.tryNew f.odataUri f.odataType f.feature f.oemNamespace
      f.errorSummary f.extendedInfo = .ok f := by
  unfold ResourceDecodeFailure.tryNew
  split
  · next e h =>
      rw [f.validNamespace] at h
      cases h
  · split
    · next e h =>
        rw [f.validSummary] at h
        cases h
    · rfl

end Rutilus.Domain.Resource
