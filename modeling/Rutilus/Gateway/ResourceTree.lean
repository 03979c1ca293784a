import Rutilus.Domain.Resource
import Rutilus.Lib.Outcome

/-!
# The resource tree of an endpoint

What a core read meets. A link says what following it answers: a document that
could be decoded, or how its fetch failed. Where one document is followed on
several paths, each path has an answer of its own. A document says how it is
represented, and which links and embedded segments it has.
-/

namespace Rutilus.Gateway

open Rutilus.Domain hiding ResourceFeature
open Rutilus.Domain.Resource

/-! ## Failures -/

inductive RedfishServiceRootError where
  | tlsConfiguration
  | clientBuild
  | tlsIdentityState
  | tlsIdentityChanged
  | tlsRejected
  | authenticationFailed
  | permissionDenied
  | notRedfishService
  | schemaIncompatible
  | networkTimeout
  | network
  | remoteResponse
  | upstream
  | sessionCleanupTlsRejected
  | sessionCleanupFailed
  | operationAndSessionCleanupFailed
  deriving DecidableEq, Repr

inductive CoreResourceReadError where
  | redfish (source : RedfishServiceRootError)
  | invalidODataId (feature : ResourceFeature) (source : ExactTextError)
  | invalidEtag (feature : ResourceFeature) (source : ExactTextError)
  | serializePayload (feature : ResourceFeature)
  | invalidPayload (feature : ResourceFeature)
      (source : ResourceSnapshotPayloadError)
  | readAndSessionCleanupFailed (read : CoreResourceReadError)
      (cleanup : RedfishServiceRootError)
  deriving DecidableEq, Repr

/-- An entry that the body of a failed answer kept. -/
structure DecodeFailureExtendedInfo where
  messageId : String
  message : Option String
  severity : Option String
  resolution : Option String
  relatedProperties : List String
  deriving DecidableEq, Repr

/-- How a fetch failed, once it is classified. -/
structure FetchFailure where
  classified : RedfishServiceRootError
  extendedInfo : List DecodeFailureExtendedInfo
  deriving DecidableEq, Repr

/-! ## Links and documents -/

structure Link (α : Type) where
  id : String
  get : Except FetchFailure α

structure Collection (α : Type) where
  members : List (Link α)

/-- A typed resource that is ready to be stored. -/
structure CoreResourceProjection (canonicalize : Canonicalize) where
  feature : ResourceFeature
  odataId : ResourceODataId
  etag : Option ResourceEtag
  payload : ResourceSnapshotPayload canonicalize
  deriving DecidableEq

abbrev Projected (canonicalize : Canonicalize) : Type :=
  Except CoreResourceReadError (CoreResourceProjection canonicalize)

/-- A member, and how it is represented. -/
structure Document (canonicalize : Canonicalize) where
  odataId : String
  projection : Projected canonicalize

/-- A value under `Oem`. -/
inductive Segment (α : Type) where
  | absent
  | undecodable
  | decoded (value : α)

inductive NvidiaSegmentKind where
  | computerSystem
  | chassis
  | manager
  deriving DecidableEq, Repr

/-- The value under `Oem.Nvidia`: a reference alone, whose identifier may be no
text, or a segment with its kind and what it is decoded to. Either way it comes
down to one link. -/
inductive NvidiaValue (α : Type) where
  | reference (id : Option (Link (Option (Link α))))
  | embedded (kind : Option NvidiaSegmentKind) (decoded : Option (Option (Link α)))

variable (canonicalize : Canonicalize)

/-! ## Systems -/

structure SystemProfile extends Document canonicalize where
  profileFile : Option (Link (Document canonicalize))

structure SystemConfigProfile extends Document canonicalize where
  status : Option (Link (Document canonicalize))
  profiles : Option (Link (Collection (SystemProfile canonicalize)))

structure ComputerSystem extends Document canonicalize where
  nvidia : Option (NvidiaValue (SystemConfigProfile canonicalize))
  bios : Option (Link (Document canonicalize))
  bootOptions : Option (Link (Collection (Document canonicalize)))
  secureBoot : Option (Link (Document canonicalize))
  processors : Option (Link (Collection (Document canonicalize)))
  memory : Option (Link (Collection (Document canonicalize)))
  storage : Option (Link (Collection (Document canonicalize)))
  pcieDevices : Option (List (Link (Document canonicalize)))

/-! ## Chassis -/

structure NetworkAdapter extends Document canonicalize where
  networkDeviceFunctions : Option (Link (Collection (Document canonicalize)))

structure Assembly where
  assemblies : Option (List (Link (Document canonicalize)))

structure PowerSubsystem (α : Type) where
  powerSupplies : Option (Link (Collection α))

/-- A supply, with its projection when its `Oem` segment can be decoded. -/
structure DeltaPowerSupply where
  odataId : String
  projection : Option (Projected canonicalize)

/-- The link is followed for each of three families. -/
structure PowerSubsystemLink where
  id : String
  standard : Except FetchFailure (PowerSubsystem (Document canonicalize))
  liteon : Except FetchFailure (PowerSubsystem (Document canonicalize))
  delta : Except FetchFailure (PowerSubsystem (DeltaPowerSupply canonicalize))

structure Chassis extends Document canonicalize where
  networkAdapters : Option (Link (Collection (NetworkAdapter canonicalize)))
  power : Option (Link (Document canonicalize))
  thermal : Option (Link (Document canonicalize))
  sensors : Option (Link (Collection (Document canonicalize)))
  controls : Option (Link (Collection (Document canonicalize)))
  assembly : Option (Link (Assembly canonicalize))
  environmentMetrics : Option (Link (Document canonicalize))
  powerSubsystem : Option (PowerSubsystemLink canonicalize)
  manufacturer : Option String
  advertisesDelta : Bool

/-! ## Managers -/

structure SmcManagerExtensions where
  sysLockdown : Option (Link (Document canonicalize))
  kcsInterface : Option (Link (Document canonicalize))

structure ManagedEntityGroup extends Document canonicalize where
  managedEntities : Link (Collection (Document canonicalize))

structure PowerStateGroup extends Document canonicalize where
  powerShelfControllers : Link (Collection (Document canonicalize))
  powerSupplies : Link (Collection (Document canonicalize))

structure PowerComplianceManager extends Document canonicalize where
  powerDomains : Option (Link (Collection (Document canonicalize)))
  acLossPolicy : Option (Link (Document canonicalize))
  psuCompliancePolicy : Option (Link (Document canonicalize))
  managedEntityGroups : Option (Link (Collection (ManagedEntityGroup canonicalize)))
  powerStateGroup : Option (Link (PowerStateGroup canonicalize))
  psuRedundancy : Option (Link (Document canonicalize))

/-- `dell` is what the crafted link answers to a manager that advertises it,
`configBmc` the document at the path beside `Oem.Ami`. -/
structure Manager extends Document canonicalize where
  id : String
  ethernetInterfaces : Option (Link (Collection (Document canonicalize)))
  logServices : Option (Link (Collection (Document canonicalize)))
  networkProtocol : Option (Link (Document canonicalize))
  hostInterfaces : Option (Link (Collection (Document canonicalize)))
  dell : Option (Except FetchFailure (Document canonicalize))
  supermicro : Segment (SmcManagerExtensions canonicalize)
  nvidia : Option (NvidiaValue (PowerComplianceManager canonicalize))
  lenovo : Segment (Option (Link (Document canonicalize)))
  advertisesAmi : Bool
  configBmc : Option (Link (Document canonicalize))
  hpe : Segment (Projected canonicalize)

/-! ## Services and the root -/

structure AccountService where
  accounts : Option (Link (Collection (Document canonicalize)))

structure UpdateService where
  softwareInventory : Option (Link (Collection (Document canonicalize)))

structure EventService extends Document canonicalize where
  subscriptions : Option (Link (Collection (Document canonicalize)))

structure TelemetryService extends Document canonicalize where
  metricDefinitions : Option (Link (Collection (Document canonicalize)))
  metricReports : Option (Link (Collection (Document canonicalize)))

structure TaskService extends Document canonicalize where
  tasks : Option (Link (Collection (Document canonicalize)))

structure PowerEquipment extends Document canonicalize where
  powerShelves : Option (Link (Collection (Document canonicalize)))

structure ServiceRoot extends Document canonicalize where
  ami : Segment (Projected canonicalize)
  hpe : Segment (Projected canonicalize)
  systems : Option (Link (Collection (ComputerSystem canonicalize)))
  chassis : Option (Link (Collection (Chassis canonicalize)))
  managers : Option (Link (Collection (Manager canonicalize)))
  accountService : Option (Link (AccountService canonicalize))
  updateService : Option (Link (UpdateService canonicalize))
  eventService : Option (Link (EventService canonicalize))
  telemetryService : Option (Link (TelemetryService canonicalize))
  tasks : Option (Link (TaskService canonicalize))
  powerEquipment : Option (Link (PowerEquipment canonicalize))

end Rutilus.Gateway

/-!
## Captures of skipped members

A member that cannot be fetched or represented is skipped, and so is an embedded
segment that cannot be decoded; each of them is captured, once for every feature
that it affects. Here a read logs what it skips, and its captures are made of the
log, in its order. The adapter makes records for the store out of them.
-/

namespace Rutilus.Gateway

open Rutilus.Domain hiding ResourceFeature
open Rutilus.Domain.Resource Rutilus.Lib

/-- The namespace that a feature reads through. -/
def oemNamespaceFor : ResourceFeature → Option String
  | .oemDell => some "Dell"
  | .oemSmcSysLockdown => some "Supermicro"
  | .oemSmcKcsInterface => some "Supermicro"
  | .oemNvidiaSystemConfigProfile => some "Nvidia"
  | .oemNvidiaPowerCompliance => some "Nvidia"
  | .oemNvidiaManagedEntity => some "Nvidia"
  | .oemLenovoSecurityService => some "Lenovo"
  | .oemAmiServiceRoot => some "Ami"
  | .oemAmiConfigBmc => some "Ami"
  | .oemHpeILoServiceExt => some "Hpe"
  | .oemHpeManager => some "Hpe"
  | .oemDeltaPowerSupply => some "deltaenergysystems"
  | _ => none

/-- A member that was skipped. -/
structure DecodeFailureObservation where
  odataUri : ResourceODataId
  odataType : Option ResourceODataType
  feature : ResourceFeature
  oemNamespace : Option String
  errorSummary : String
  extendedInfo : List DecodeFailureExtendedInfo
  deriving DecidableEq

/-! ## Classification -/

inductive MemberFailureClassification where
  | authentication
  | permission
  | schema
  | unavailable
  deriving DecidableEq, Repr

def MemberFailureClassification.summary : MemberFailureClassification → String
  | .authentication => "the member could not be fetched: BMC authentication failed"
  | .permission => "the member could not be fetched: permission denied"
  | .schema => "the member document is incompatible with the compiled schema"
  | .unavailable =>
      "the member could not be fetched: the endpoint is temporarily unavailable"

/-- What concerns the safety of the connection is no failure of a member. -/
def classifyMemberFailure :
    RedfishServiceRootError →
      Except RedfishServiceRootError MemberFailureClassification
  | .authenticationFailed => .ok .authentication
  | .permissionDenied => .ok .permission
  | .schemaIncompatible => .ok .schema
  | .notRedfishService => .ok .unavailable
  | .networkTimeout => .ok .unavailable
  | .network => .ok .unavailable
  | .remoteResponse => .ok .unavailable
  | .upstream => .ok .unavailable
  | source => .error source

/-! ## Captures -/

/-- One record for each feature, if the identifier can be represented. -/
def capturesOf (odataUri : String) (features : List ResourceFeature)
    (summary : String) (extendedInfo : List DecodeFailureExtendedInfo) :
    List DecodeFailureObservation :=
  match ResourceODataId.parse odataUri with
  | .error _ => []
  | .ok odataUri => features.map fun feature =>
      ⟨odataUri, none, feature, oemNamespaceFor feature, summary, extendedInfo⟩

def captureFetchFailure (odataUri : String) (features : List ResourceFeature)
    (classification : MemberFailureClassification)
    (extendedInfo : List DecodeFailureExtendedInfo) :
    List DecodeFailureObservation :=
  capturesOf odataUri features classification.summary extendedInfo

/-- The feature comes with the failure. -/
def captureProjectionFailure (odataUri : String) :
    CoreResourceReadError → List DecodeFailureObservation
  | .invalidODataId feature _ =>
      capturesOf odataUri [feature] "the member carries an invalid @odata.id" []
  | .invalidEtag feature _ =>
      capturesOf odataUri [feature] "the member carries an invalid ETag" []
  | .serializePayload feature => capturesOf odataUri [feature]
      "the member's typed projection could not be serialized" []
  | .invalidPayload feature _ => capturesOf odataUri [feature]
      "the member's typed projection is not a valid snapshot payload" []
  | .redfish _ => []
  | .readAndSessionCleanupFailed _ _ => []

/-- The carrier is where an embedded segment fails. -/
def captureSegmentDecodeFailure (carrierUri : String)
    (features : List ResourceFeature) (summary : String) :
    List DecodeFailureObservation :=
  capturesOf carrierUri features summary []

/-! ## What is skipped -/

/-- A member or a segment that a read skips. -/
inductive Skipped where
  | member (odataUri : String) (features : List ResourceFeature)
      (classification : MemberFailureClassification)
      (extendedInfo : List DecodeFailureExtendedInfo)
  | projection (odataUri : String) (failure : CoreResourceReadError)
  | segment (carrierUri : String) (features : List ResourceFeature)
      (summary : String)
  deriving DecidableEq

def Skipped.captures : Skipped → List DecodeFailureObservation
  | .member odataUri features classification extendedInfo =>
      captureFetchFailure odataUri features classification extendedInfo
  | .projection odataUri failure => captureProjectionFailure odataUri failure
  | .segment carrierUri features summary =>
      captureSegmentDecodeFailure carrierUri features summary

/-! ## Records for the store -/

def projectExtendedInfo (entry : DecodeFailureExtendedInfo) :
    ResourceExtendedInfo :=
  ⟨entry.messageId, entry.message, entry.severity, entry.resolution,
    entry.relatedProperties⟩

def projectDecodeFailure (failure : DecodeFailureObservation) :
    Option ResourceDecodeFailure :=
  (ResourceDecodeFailure.tryNew failure.odataUri failure.odataType failure.feature
    failure.oemNamespace failure.errorSummary
    (failure.extendedInfo.map projectExtendedInfo)).toOption

end Rutilus.Gateway
