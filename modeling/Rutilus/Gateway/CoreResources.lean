import Rutilus.Gateway.ResourceTree
import Rutilus.Store.ResourceSnapshots

/-!
# The core read

The walk from the Service Root over every family. A link that is absent leaves its
family absent; a member that fails is captured and skipped; a collection that
fails ends the whole read. Each reader keeps its name, and its links are followed
in the order of the source.
-/

namespace Rutilus.Gateway

open Rutilus.Domain hiding ResourceFeature
open Rutilus.Domain.Resource Rutilus.Lib

variable {canonicalize : Canonicalize} {α : Type}

abbrev Read (α : Type) : Type :=
  Collect CoreResourceReadError Skipped α

/-- What a reader of resources comes to. -/
abbrev Reading (canonicalize : Canonicalize) : Type :=
  Read (List (CoreResourceProjection canonicalize))

/-! ## Members -/

def fetchMember (link : Link α) (features : List ResourceFeature) :
    Read (Option α) :=
  match link.get with
  | .ok member => pure (some member)
  | .error failure => match classifyMemberFailure failure.classified with
    | .error source => Collect.fail (.redfish source)
    | .ok classification => do
      Collect.append [.member link.id features classification
        failure.extendedInfo]
      pure none

def memberProjection (odataUri : String) :
    Projected canonicalize → Read (Option (CoreResourceProjection canonicalize))
  | .ok projection => pure (some projection)
  | .error (.redfish source) => Collect.fail (.redfish source)
  | .error (.readAndSessionCleanupFailed read cleanup) =>
      Collect.fail (.readAndSessionCleanupFailed read cleanup)
  | .error failure => do
      Collect.append [.projection odataUri failure]
      pure none

/-- The document of a collection, without which the read ends. -/
def fetchCollection (link : Link (Collection α)) : Read (Collection α) :=
  match link.get with
  | .ok collection => pure collection
  | .error failure => Collect.fail (.redfish failure.classified)

/-- Goes on with a member that can be fetched. -/
def withMember (link : Link α) (features : List ResourceFeature)
    (next : α → Reading canonicalize) : Reading canonicalize := do
  match ← fetchMember link features with
  | none => pure []
  | some member => next member

/-- The same, where the link may be absent. -/
def withLink (link : Option (Link α)) (features : List ResourceFeature)
    (next : α → Reading canonicalize) : Reading canonicalize :=
  match link with
  | none => pure []
  | some link => withMember link features next

/-- A document alone. -/
def projected (odataUri : String) (projection : Projected canonicalize) :
    Reading canonicalize := do
  match ← memberProjection odataUri projection with
  | none => pure []
  | some projection => pure [projection]

/-- A document that its links are followed from only if it is represented. -/
def projectedThen (document : Document canonicalize)
    (next : Reading canonicalize) : Reading canonicalize := do
  match ← memberProjection document.odataId document.projection with
  | none => pure []
  | some projection => do
    let rest ← next
    pure (projection :: rest)

/-- Every member of a collection that is not skipped as a whole. -/
def readEach (link : Option (Link (Collection α)))
    (body : Link α → Reading canonicalize) : Reading canonicalize :=
  match link with
  | none => pure []
  | some link => do
    let collection ← fetchCollection link
    Collect.forEach body collection.members

def readMember (feature : ResourceFeature) (link : Link (Document canonicalize)) :
    Reading canonicalize :=
  withMember link [feature] fun member => projected member.odataId member.projection

def readMembers (feature : ResourceFeature)
    (members : List (Link (Document canonicalize))) : Reading canonicalize :=
  Collect.forEach (readMember feature) members

def readSingletonResources (link : Option (Link (Document canonicalize)))
    (feature : ResourceFeature) : Reading canonicalize :=
  withLink link [feature] fun resource =>
    projected resource.odataId resource.projection

def readCollectionResources
    (link : Option (Link (Collection (Document canonicalize))))
    (feature : ResourceFeature) : Reading canonicalize :=
  readEach link (readMember feature)

def readNavLinkMembers (links : Option (List (Link (Document canonicalize))))
    (feature : ResourceFeature) : Reading canonicalize :=
  match links with
  | none => pure []
  | some links => readMembers feature links

/-! ## Systems -/

def readNvidiaProfileCollection
    (link : Option (Link (Collection (SystemProfile canonicalize)))) :
    Reading canonicalize :=
  withLink link [.oemNvidiaSystemConfigProfile] fun collection =>
    Collect.forEach (fun link =>
      withMember link [.oemNvidiaSystemConfigProfile] fun member =>
        Collect.inTurn [projected member.odataId member.projection,
          readSingletonResources member.profileFile .oemNvidiaSystemConfigProfile])
      collection.members

def embeddedNvidiaFailed : String :=
  "the embedded Oem.Nvidia segment could not be decoded into the compiled schema"

/-- The link in a value of the kind that is read, if there is one. -/
def decodeNvidiaNavigation (value : NvidiaValue α) (kind : NvidiaSegmentKind)
    (features : List ResourceFeature) (carrierUri : String) :
    Read (Option (Link α)) :=
  match value with
  | .reference none => pure none
  | .reference (some link) => do
    match ← fetchMember link features with
    | none => pure none
    | some navigation => pure navigation
  | .embedded found decoded =>
    if found = some kind then
      match decoded with
      | some navigation => pure navigation
      | none => do
        Collect.append [.segment carrierUri features embeddedNvidiaFailed]
        pure none
    else pure none

def decodeNvidiaSystemConfigProfileNavigation
    (value : NvidiaValue (SystemConfigProfile canonicalize))
    (carrierUri : String) :
    Read (Option (Link (SystemConfigProfile canonicalize))) :=
  decodeNvidiaNavigation value .computerSystem [.oemNvidiaSystemConfigProfile]
    carrierUri

def readSystemNvidiaOem (system : ComputerSystem canonicalize) :
    Reading canonicalize :=
  match system.nvidia with
  | none => pure []
  | some value => do
    let link ← decodeNvidiaSystemConfigProfileNavigation value system.odataId
    withLink link [.oemNvidiaSystemConfigProfile] fun profile =>
      Collect.inTurn [projected profile.odataId profile.projection,
        readSingletonResources profile.status .oemNvidiaSystemConfigProfile,
        readNvidiaProfileCollection profile.profiles]

def readSystem (system : ComputerSystem canonicalize) : Reading canonicalize :=
  projectedThen system.toDocument <| Collect.inTurn
    [readSystemNvidiaOem system,
      readSingletonResources system.bios .bios,
      readCollectionResources system.bootOptions .bootOptions,
      readSingletonResources system.secureBoot .secureBoot,
      readCollectionResources system.processors .processors,
      readCollectionResources system.memory .memory,
      readCollectionResources system.storage .storages,
      readNavLinkMembers system.pcieDevices .pcieDevices]

def readSystemsResources (root : ServiceRoot canonicalize) :
    Reading canonicalize :=
  readEach root.systems fun link => withMember link [.systems] readSystem

/-! ## Chassis -/

def readNetworkAdapterResources
    (link : Option (Link (Collection (NetworkAdapter canonicalize)))) :
    Reading canonicalize :=
  readEach link fun link => withMember link [.networkAdapters] fun adapter =>
    Collect.inTurn [projected adapter.odataId adapter.projection,
      readCollectionResources adapter.networkDeviceFunctions
        .networkDeviceFunctions]

def readAssemblyResources (link : Option (Link (Assembly canonicalize))) :
    Reading canonicalize :=
  withLink link [.assembly] fun assembly =>
    readNavLinkMembers assembly.assemblies .assembly

def readPowerSupplyResources (link : Option (PowerSubsystemLink canonicalize)) :
    Reading canonicalize :=
  withLink (link.map fun l => ⟨l.id, l.standard⟩) [.powerSupplies]
    fun subsystem => readCollectionResources subsystem.powerSupplies .powerSupplies

def readLiteonPowerSupplyResources (chassis : Chassis canonicalize) :
    Reading canonicalize :=
  withLink (chassis.powerSubsystem.map fun l => ⟨l.id, l.liteon⟩)
    [.oemLiteOnPowerSupply] fun subsystem =>
      readCollectionResources subsystem.powerSupplies .oemLiteOnPowerSupply

/-- A supply without a segment that can be decoded is passed over. -/
def readDeltaPowerSupply (supply : DeltaPowerSupply canonicalize) :
    Reading canonicalize :=
  match supply.projection with
  | none => pure []
  | some projection => projected supply.odataId projection

def readDeltaPowerSupplyResources (chassis : Chassis canonicalize) :
    Reading canonicalize :=
  withLink (chassis.powerSubsystem.map fun l => ⟨l.id, l.delta⟩)
    [.oemDeltaPowerSupply] fun subsystem =>
      readEach subsystem.powerSupplies fun link =>
        withMember link [.oemDeltaPowerSupply] readDeltaPowerSupply

def liteonChassisManufacturer : String := "LITE-ON TECHNOLOGY CORP."

def readChassisOemResources (chassis : Chassis canonicalize) :
    Reading canonicalize :=
  Collect.inTurn
    [if chassis.manufacturer = some liteonChassisManufacturer then
        readLiteonPowerSupplyResources chassis
      else pure [],
      if chassis.advertisesDelta then readDeltaPowerSupplyResources chassis
      else pure []]

def readChassis (chassis : Chassis canonicalize) : Reading canonicalize :=
  projectedThen chassis.toDocument <| Collect.inTurn
    [readNetworkAdapterResources chassis.networkAdapters,
      readSingletonResources chassis.power .power,
      readSingletonResources chassis.thermal .thermal,
      readCollectionResources chassis.sensors .sensors,
      readCollectionResources chassis.controls .controls,
      readAssemblyResources chassis.assembly,
      readSingletonResources chassis.environmentMetrics .environmentMetrics,
      readPowerSupplyResources chassis.powerSubsystem,
      readChassisOemResources chassis]

def readChassisResources (root : ServiceRoot canonicalize) :
    Reading canonicalize :=
  readEach root.chassis fun link => withMember link [.chassis] readChassis

/-! ## Managers -/

/-- The document that a manager with `Oem.Dell` is asked for. -/
def dellAttributesId (manager : Manager canonicalize) : String :=
  manager.odataId ++ "/Oem/Dell/DellAttributes/" ++ manager.id

def readManagerDellAttributes (manager : Manager canonicalize) :
    Reading canonicalize :=
  withLink (manager.dell.map fun answer => ⟨dellAttributesId manager, answer⟩)
    [.oemDell] fun attributes =>
      projected attributes.odataId attributes.projection

def readManagerSupermicroOem (manager : Manager canonicalize) :
    Reading canonicalize :=
  match manager.supermicro with
  | .absent => pure []
  | .undecodable => do
    Collect.append [.segment manager.odataId
      [.oemSmcSysLockdown, .oemSmcKcsInterface]
      "the embedded Oem.Supermicro segment could not be decoded into the compiled schema"]
    pure []
  | .decoded extensions => Collect.inTurn
      [readSingletonResources extensions.sysLockdown .oemSmcSysLockdown,
        readSingletonResources extensions.kcsInterface .oemSmcKcsInterface]

def decodeNvidiaManagerNavigation
    (value : NvidiaValue (PowerComplianceManager canonicalize))
    (carrierUri : String) :
    Read (Option (Link (PowerComplianceManager canonicalize))) :=
  decodeNvidiaNavigation value .manager
    [.oemNvidiaPowerCompliance, .oemNvidiaManagedEntity] carrierUri

def readNvidiaMemberDocuments (members : List (Link (Document canonicalize)))
    (feature : ResourceFeature) : Reading canonicalize :=
  readMembers feature members

/-- A collection that is skipped like a member when it fails. -/
def readNvidiaCollection
    (link : Option (Link (Collection (Document canonicalize))))
    (feature : ResourceFeature) : Reading canonicalize :=
  withLink link [feature] fun collection =>
    readNvidiaMemberDocuments collection.members feature

def readNvidiaPowerDomainCollection
    (link : Option (Link (Collection (Document canonicalize)))) :
    Reading canonicalize :=
  readNvidiaCollection link .oemNvidiaPowerCompliance

def readNvidiaManagedEntityCollection
    (link : Option (Link (Collection (Document canonicalize)))) :
    Reading canonicalize :=
  readNvidiaCollection link .oemNvidiaManagedEntity

def readNvidiaPscStateCollection
    (link : Option (Link (Collection (Document canonicalize)))) :
    Reading canonicalize :=
  readNvidiaCollection link .oemNvidiaPowerCompliance

def readNvidiaPsuStateCollection
    (link : Option (Link (Collection (Document canonicalize)))) :
    Reading canonicalize :=
  readNvidiaCollection link .oemNvidiaPowerCompliance

def readNvidiaManagedEntityGroups
    (link : Option (Link (Collection (ManagedEntityGroup canonicalize)))) :
    Reading canonicalize :=
  withLink link [.oemNvidiaPowerCompliance] fun collection =>
    Collect.forEach (fun link =>
      withMember link [.oemNvidiaPowerCompliance] fun group =>
        Collect.inTurn [projected group.odataId group.projection,
          readNvidiaManagedEntityCollection (some group.managedEntities)])
      collection.members

def readNvidiaPowerStateGroup
    (link : Option (Link (PowerStateGroup canonicalize))) :
    Reading canonicalize :=
  withLink link [.oemNvidiaPowerCompliance] fun group =>
    Collect.inTurn [projected group.odataId group.projection,
      readNvidiaPscStateCollection (some group.powerShelfControllers),
      readNvidiaPsuStateCollection (some group.powerSupplies)]

def readManagerNvidiaOem (manager : Manager canonicalize) :
    Reading canonicalize :=
  match manager.nvidia with
  | none => pure []
  | some value => do
    let link ← decodeNvidiaManagerNavigation value manager.odataId
    withLink link [.oemNvidiaPowerCompliance, .oemNvidiaManagedEntity]
      fun compliance => Collect.inTurn
        [projected compliance.odataId compliance.projection,
          readNvidiaPowerDomainCollection compliance.powerDomains,
          readSingletonResources compliance.acLossPolicy .oemNvidiaPowerCompliance,
          readSingletonResources compliance.psuCompliancePolicy
            .oemNvidiaPowerCompliance,
          readNvidiaManagedEntityGroups compliance.managedEntityGroups,
          readNvidiaPowerStateGroup compliance.powerStateGroup,
          readSingletonResources compliance.psuRedundancy
            .oemNvidiaPowerCompliance]

def readManagerLenovoOem (manager : Manager canonicalize) :
    Reading canonicalize :=
  match manager.lenovo with
  | .absent => pure []
  | .undecodable => do
    Collect.append [.segment manager.odataId [.oemLenovoSecurityService]
      "the embedded Oem.Lenovo segment could not be decoded into the compiled schema"]
    pure []
  | .decoded security =>
      readSingletonResources security .oemLenovoSecurityService

def readManagerAmiOem (manager : Manager canonicalize) : Reading canonicalize :=
  if manager.advertisesAmi then
    readSingletonResources manager.configBmc .oemAmiConfigBmc
  else pure []

def trimEndSlashes (value : String) : String :=
  String.ofList (value.toList.reverse.dropWhile (· = '/')).reverse

def readManagerHpeOem (manager : Manager canonicalize) : Reading canonicalize :=
  match manager.hpe with
  | .absent => pure []
  | .undecodable => do
    Collect.append [.segment manager.odataId [.oemHpeManager]
      "the embedded Oem.Hpe segment could not be decoded into the compiled schema"]
    pure []
  | .decoded projection =>
      projected (trimEndSlashes manager.odataId ++ "/Oem/Hpe") projection

def readManager (manager : Manager canonicalize) : Reading canonicalize :=
  projectedThen manager.toDocument <| Collect.inTurn
    [readCollectionResources manager.ethernetInterfaces .ethernetInterfaces,
      readCollectionResources manager.logServices .logServices,
      readSingletonResources manager.networkProtocol .managerNetworkProtocol,
      readCollectionResources manager.hostInterfaces .hostInterfaces,
      readManagerDellAttributes manager,
      readManagerSupermicroOem manager,
      readManagerNvidiaOem manager,
      readManagerLenovoOem manager,
      readManagerAmiOem manager,
      readManagerHpeOem manager]

def readManagerResources (root : ServiceRoot canonicalize) :
    Reading canonicalize :=
  readEach root.managers fun link => withMember link [.managers] readManager

/-! ## The root and its services -/

def readRootSegment (root : ServiceRoot canonicalize)
    (segment : Segment (Projected canonicalize)) (feature : ResourceFeature)
    (summary : String) : Reading canonicalize :=
  match segment with
  | .absent => pure []
  | .undecodable => do
    Collect.append [.segment root.odataId [feature] summary]
    pure []
  | .decoded projection => projected root.odataId projection

def readRootOemSurfaces (root : ServiceRoot canonicalize) :
    Reading canonicalize :=
  Collect.inTurn
    [readRootSegment root root.ami .oemAmiServiceRoot
        "the embedded Oem.Ami segment could not be decoded into the compiled schema",
      readRootSegment root root.hpe .oemHpeILoServiceExt
        "the embedded Oem.Hpe segment could not be decoded into the compiled schema"]

def readAccountResources (root : ServiceRoot canonicalize) :
    Reading canonicalize :=
  withLink root.accountService [.accounts] fun service =>
    readCollectionResources service.accounts .accounts

def readSoftwareInventoryResources (root : ServiceRoot canonicalize) :
    Reading canonicalize :=
  withLink root.updateService [.softwareInventory] fun service =>
    readCollectionResources service.softwareInventory .softwareInventory

def readEventSubscriptionResources
    (subscriptions : Option (Link (Collection (Document canonicalize)))) :
    Reading canonicalize :=
  readCollectionResources subscriptions .eventSubscription

def readEventServiceResources (root : ServiceRoot canonicalize) :
    Reading canonicalize :=
  withLink root.eventService [.eventService] fun service =>
    Collect.inTurn [projected service.odataId service.projection,
      readEventSubscriptionResources service.subscriptions]

def readTelemetryServiceResources (root : ServiceRoot canonicalize) :
    Reading canonicalize :=
  withLink root.telemetryService [.telemetryService] fun service =>
    Collect.inTurn [projected service.odataId service.projection,
      readCollectionResources service.metricDefinitions .metricDefinition,
      readCollectionResources service.metricReports .metricReport]

def readTaskServiceResources (root : ServiceRoot canonicalize) :
    Reading canonicalize :=
  withLink root.tasks [.taskService] fun service =>
    Collect.inTurn [projected service.odataId service.projection,
      readCollectionResources service.tasks .task]

def readPowerEquipmentResources (root : ServiceRoot canonicalize) :
    Reading canonicalize :=
  withLink root.powerEquipment [.powerEquipment] fun equipment =>
    Collect.inTurn [projected equipment.odataId equipment.projection,
      readCollectionResources equipment.powerShelves .powerEquipment]

/-! ## The whole read -/

/-- The root's own projection is not skipped. -/
def serviceRootProjection (root : ServiceRoot canonicalize) :
    Reading canonicalize :=
  match root.projection with
  | .ok projection => pure [projection]
  | .error source => Collect.fail source

def readResources (root : ServiceRoot canonicalize) : Reading canonicalize :=
  Collect.inTurn [serviceRootProjection root,
    readRootOemSurfaces root,
    readSystemsResources root,
    readChassisResources root,
    readManagerResources root,
    readAccountResources root,
    readSoftwareInventoryResources root,
    readEventServiceResources root,
    readTelemetryServiceResources root,
    readTaskServiceResources root,
    readPowerEquipmentResources root]

/-- What a read projected, and what it skipped. -/
structure CoreResourceReadOutcome (canonicalize : Canonicalize) where
  projections : List (CoreResourceProjection canonicalize)
  skipped : List Skipped

def readAuthenticatedCoreResources (root : ServiceRoot canonicalize) :
    Except CoreResourceReadError (CoreResourceReadOutcome canonicalize) :=
  match readResources root [] with
  | .error e => .error e
  | .ok (resources, skipped) => .ok ⟨resources, skipped⟩

def CoreResourceReadOutcome.decodeFailures
    (outcome : CoreResourceReadOutcome canonicalize) :
    List DecodeFailureObservation :=
  outcome.skipped.flatMap Skipped.captures

/-! ## For the store -/

/-- A projection has no type annotation. -/
def projectObservation (projection : CoreResourceProjection canonicalize) :
    Store.Resources.NewResourceSnapshot canonicalize :=
  ⟨projection.feature, projection.odataId, none, projection.etag,
    projection.payload⟩

def CoreResourceReadOutcome.observations
    (outcome : CoreResourceReadOutcome canonicalize) :
    List (Store.Resources.NewResourceSnapshot canonicalize) :=
  outcome.projections.map projectObservation

/-- The records of a read. -/
def CoreResourceReadOutcome.records
    (outcome : CoreResourceReadOutcome canonicalize) :
    List ResourceDecodeFailure :=
  outcome.decodeFailures.filterMap projectDecodeFailure

end Rutilus.Gateway
