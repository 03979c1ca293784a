import Rutilus.Lib.Serde
import Rutilus.Domain.Resource

/-!
# Reading the payloads of an endpoint

One strict shape per kind of payload. What a page shows of an endpoint, and what
the overview counts over all of them, is read out of the stored payloads by
these shapes; one payload that cannot be read fails the whole query.
-/

namespace Rutilus.App.EndpointResources

open Rutilus.Lib.Serde
open Rutilus.Domain hiding ResourceFeature
open Rutilus.Domain.Resource

/-! ## Fields -/

abbrev Member : Type := String × Presence × ReadType

def required (name : String) (type : ReadType) : Member :=
  (name, .required, type)

def optional (name : String) (type : ReadType) : Member :=
  (name, .optional, type)

/-- Read by a function of its own, without a default. -/
def custom (name : String) (type : ReadType) : Member :=
  (name, .custom, type)

def object (fields : List Member) : ReadType :=
  .record (.ofList fields)

/-- The fields that all core resources share. -/
def common : List Member :=
  [required "Id" .text, required "Name" .text, optional "Description" .text]

/-- The same, where a stored payload may lack them. -/
def nvidiaCommon (documents : List String) : List Member :=
  [optional "Id" .text, optional "Name" .text, optional "Description" .text,
   required "DocumentType" (.oneOf documents)]

/-! ## Shapes -/

def serviceRootPayload : List Member :=
  common ++ [
    optional "Vendor" .text, optional "Product" .text,
    optional "RedfishVersion" .text]

def resourceStatusPayload : ReadType :=
  object [
    optional "State" .text, optional "Health" .text,
    optional "HealthRollup" .text]

def systemPayload : List Member :=
  common ++ [
    optional "SystemType" .text, optional "Manufacturer" .text,
    optional "Model" .text, optional "PartNumber" .text,
    optional "SerialNumber" .text, optional "SKU" .text,
    optional "HostName" .text, optional "BiosVersion" .text,
    optional "PowerState" .text, optional "Status" resourceStatusPayload]

def chassisPayload : List Member :=
  common ++ [
    required "ChassisType" .text, optional "Manufacturer" .text,
    optional "Model" .text, optional "PartNumber" .text,
    optional "SerialNumber" .text, optional "SKU" .text,
    optional "AssetTag" .text, optional "PowerState" .text,
    optional "Status" resourceStatusPayload]

def managerPayload : List Member :=
  common ++ [
    optional "ManagerType" .text, optional "Manufacturer" .text,
    optional "Model" .text, optional "PartNumber" .text,
    optional "SerialNumber" .text, optional "FirmwareVersion" .text,
    optional "Version" .text, optional "PowerState" .text,
    optional "Status" resourceStatusPayload]

def oemDellPayload : List Member :=
  common ++ [
    optional "ServerModel" .text, optional "ServerServiceTag" .text,
    optional "ServerGeneration" .text, optional "ServerBmcMacAddress" .text,
    optional "ServerName" .text]

def oemSmcSysLockdownPayload : List Member :=
  [optional "SysLockdownEnabled" .boolean]

def oemSmcKcsInterfacePayload : List Member :=
  [optional "Privilege" .text]

def oemLenovoSecurityServicePayload : List Member :=
  common ++ [
    optional "FWRollback" .text]

def oemAmiServiceRootPayload : List Member :=
  common ++ [
    optional "RtpVersion" .text]

def oemAmiConfigBmcPayload : List Member :=
  [optional "LockoutHostControl" .text,
   optional "LockoutBiosVariableWriteMode" .text,
   optional "LockdownBiosSettingsChange" .text,
   optional "LockdownBiosUpgradeDowngrade" .text]

def oemHpeILoServiceExtPayload : List Member :=
  common ++ [
    optional "ManagerType" .text, optional "ManagerFirmwareVersion" .text]

def oemHpeManagerPayload : List Member :=
  common ++ [
    optional "VirtualNICEnabled" .boolean]

def oemLiteOnPowerSupplyPayload : List Member :=
  common ++ [
    optional "PowerSupplyType" .text, optional "PowerCapacityWatts" .float,
    optional "Manufacturer" .text, optional "Model" .text,
    optional "FirmwareVersion" .text, optional "SerialNumber" .text,
    optional "PartNumber" .text, optional "Status" resourceStatusPayload]

def oemDeltaPowerSupplyPayload : List Member :=
  common ++ [
    optional "Power" .boolean, optional "FanSpeedTarget" .int64]

def oemNvidiaSystemConfigProfileDocument : List String :=
  ["system_config_profile", "system_config_profile_status", "system_profile",
   "system_profile_file"]

def oemNvidiaSystemConfigProfileTruststorePayload : ReadType :=
  object [
    optional "NvidiaCertificates" .boolean, optional "OemCertificates" .boolean]

def oemNvidiaSystemConfigProfilePayload : List Member :=
  nvidiaCommon oemNvidiaSystemConfigProfileDocument ++ [
    optional "Truststore" oemNvidiaSystemConfigProfileTruststorePayload]

def oemNvidiaSystemConfigProfilePendingListPayload : ReadType :=
  object [optional "Activation" .text]

def oemNvidiaSystemConfigProfileStatusPayload : List Member :=
  nvidiaCommon oemNvidiaSystemConfigProfileDocument ++ [
    optional "PendingList" oemNvidiaSystemConfigProfilePendingListPayload,
    optional "ActiveProfileIndex" .int64, optional "BmcProfileVersion" .int64,
    optional "FactoryResetStatus" .text, optional "DefaultProfileIndex" .int64]

def oemNvidiaSystemProfilePayload : List Member :=
  nvidiaCommon oemNvidiaSystemConfigProfileDocument ++ [
    optional "Default" .boolean, optional "Owner" .text, optional "UUID" .text,
    optional "Version" .int64, optional "ProfileName" .text]

def oemNvidiaSystemProfileFileMetadataPayload : ReadType :=
  object [
    optional "Activate" .boolean, optional "Delete" .boolean,
    optional "OriginProfileUUID" .text, optional "More_Profiles" .boolean,
    optional "ProjectName" .text, optional "UUID" .text]

def oemNvidiaSystemProfileFileContentPayload : ReadType :=
  object [
    optional "Metadata" oemNvidiaSystemProfileFileMetadataPayload,
    optional "Profile" .text]

def oemNvidiaSystemProfileFilePayload : List Member :=
  nvidiaCommon oemNvidiaSystemConfigProfileDocument ++ [
    optional "ProfileFile" oemNvidiaSystemProfileFileContentPayload]

def oemNvidiaPowerComplianceDocument : List String :=
  ["power_compliance_manager", "power_domain", "power_policy",
   "managed_entity_group", "power_state_group", "psc_state", "psu_state",
   "psu_redundancy"]

def oemNvidiaManagedEntityDocument : List String :=
  ["managed_entity"]

def oemNvidiaPowerCompliancePayload : List Member :=
  nvidiaCommon oemNvidiaPowerComplianceDocument ++ [
    optional "ManagerType" .text]

def oemNvidiaPowerDomainPayload : List Member :=
  nvidiaCommon oemNvidiaPowerComplianceDocument ++ [
    optional "Value" .int64, optional "Type" .text, optional "Unit" .text,
    optional "SensorReadingType" .text, optional "SensorImpl" .text]

def oemNvidiaPowerPolicyPayload : List Member :=
  nvidiaCommon oemNvidiaPowerComplianceDocument ++ [
    optional "AutoDeassertPowerBrake" .boolean, optional "Min" .int64,
    optional "Max" .int64, optional "Type" .text, optional "Unit" .text,
    optional "PolicyActions" .text]

def oemNvidiaManagedEntityGroupPayload : List Member :=
  nvidiaCommon oemNvidiaPowerComplianceDocument ++ [
    optional "CurrentManagedEntityId" .text]

def oemNvidiaPowerStateGroupPayload : List Member :=
  nvidiaCommon oemNvidiaPowerComplianceDocument ++ [
    optional "PscId" .text, optional "GeneratedWatts" .int64,
    optional "NumberOfPscs" .int64, optional "NumberOfLocalPsus" .int64]

def oemNvidiaPscStatePayload : List Member :=
  nvidiaCommon oemNvidiaPowerComplianceDocument ++ [
    optional "PscId" .text, optional "NumOfOperationalPsus" .int64,
    optional "PowerBrakeAssert" .boolean,
    optional "MillisecondsSinceLastHeartbeat" .int64, optional "Status" .text]

def oemNvidiaPsuStatePayload : List Member :=
  nvidiaCommon oemNvidiaPowerComplianceDocument ++ [
    optional "PsuId" .text, optional "Presence" .boolean,
    optional "Input1Active" .boolean, optional "Input2Active" .boolean]

def oemNvidiaPsuRedundancyPayload : List Member :=
  nvidiaCommon oemNvidiaPowerComplianceDocument ++ [
    optional "MaxNumSupported" .text, optional "MinNumNeeded" .text,
    optional "RedundancySetting" .text]

def oemNvidiaManagedEntityPayload : List Member :=
  nvidiaCommon oemNvidiaManagedEntityDocument ++ [
    optional "TransportProtocol" .text, optional "IPv4Address" .text,
    optional "IPv6Address" .text, optional "Port" .int64]

def processorPayload : List Member :=
  common ++ [
    optional "ProcessorType" .text, optional "Socket" .text,
    optional "Manufacturer" .text, optional "Model" .text,
    optional "TotalCores" .uint64, optional "Status" resourceStatusPayload]

def memoryPayload : List Member :=
  common ++ [
    optional "MemoryDeviceType" .text, optional "CapacityMiB" .uint64,
    optional "Manufacturer" .text, optional "Model" .text,
    optional "Status" resourceStatusPayload]

def storagePayload : List Member :=
  common ++ [
    optional "ControllerCount" .uint64, optional "DriveCount" .uint64,
    optional "Status" resourceStatusPayload]

def networkAdapterPayload : List Member :=
  common ++ [
    optional "Manufacturer" .text, optional "Model" .text,
    optional "Status" resourceStatusPayload]

def ethernetInterfacePayload : List Member :=
  common ++ [
    optional "MACAddress" .text, optional "SpeedMbps" .uint64,
    optional "InterfaceEnabled" .boolean,
    optional "Status" resourceStatusPayload]

def accountPayload : List Member :=
  common ++ [
    optional "UserName" .text, optional "RoleId" .text,
    optional "Enabled" .boolean, optional "Locked" .boolean,
    optional "AccountTypes" (.list .text)]

def biosPayload : List Member :=
  common ++ [
    optional "AttributeRegistry" .text,
    optional "ResetBiosToDefaultsPending" .boolean]

def bootOptionPayload : List Member :=
  common ++ [
    optional "BootOptionReference" .text, optional "DisplayName" .text,
    optional "BootOptionEnabled" .boolean, optional "UefiDevicePath" .text,
    optional "Alias" .text]

def secureBootPayload : List Member :=
  common ++ [
    optional "SecureBootEnable" .boolean,
    optional "SecureBootCurrentBoot" .text, optional "SecureBootMode" .text]

def powerPayload : List Member :=
  common

def thermalPayload : List Member :=
  common ++ [
    optional "Status" resourceStatusPayload]

def sensorPayload : List Member :=
  common ++ [
    optional "Reading" .float, optional "ReadingUnits" .text,
    optional "ReadingType" .text, optional "Status" resourceStatusPayload]

def controlPayload : List Member :=
  common ++ [
    optional "ControlType" .text, optional "SetPoint" .float,
    optional "Status" resourceStatusPayload]

def logServicePayload : List Member :=
  common ++ [
    optional "ServiceEnabled" .boolean, optional "MaxNumberOfRecords" .uint64,
    optional "Status" resourceStatusPayload]

def managerNetworkProtocolPayload : List Member :=
  common ++ [
    optional "HostName" .text, optional "FQDN" .text,
    optional "Status" resourceStatusPayload]

def hostInterfacePayload : List Member :=
  common ++ [
    optional "InterfaceEnabled" .boolean, optional "HostInterfaceType" .text,
    optional "Status" resourceStatusPayload]

def pcieDevicePayload : List Member :=
  common ++ [
    optional "DeviceType" .text, optional "Manufacturer" .text,
    optional "Model" .text, optional "Status" resourceStatusPayload]

def assemblyPayload : List Member :=
  common ++ [
    optional "Producer" .text, optional "Status" resourceStatusPayload]

def softwareInventoryPayload : List Member :=
  common ++ [
    optional "SoftwareId" .text, optional "Version" .text,
    custom "ReleaseDate" .date, optional "Status" resourceStatusPayload]

def eventServicePayload : List Member :=
  common ++ [
    optional "ServiceEnabled" .boolean, optional "Status" resourceStatusPayload]

def eventSubscriptionPayload : List Member :=
  common ++ [
    optional "Destination" .text, optional "Protocol" .text,
    optional "Context" .text, optional "EventTypes" (.list .text),
    optional "Status" resourceStatusPayload]

def telemetryServicePayload : List Member :=
  common ++ [
    optional "Status" resourceStatusPayload]

def metricDefinitionPayload : List Member :=
  common ++ [
    optional "MetricType" .text, optional "Units" .text]

def metricValuePayload : ReadType :=
  object [custom "Timestamp" .date, optional "MetricValue" .text]

def metricReportPayload : List Member :=
  common ++ [
    optional "MetricValuesCount" .uint64,
    optional "MetricValues" (.list metricValuePayload)]

def taskServicePayload : List Member :=
  common ++ [
    optional "ServiceEnabled" .boolean,
    optional "CompletedTaskOverWritePolicy" .text,
    optional "Status" resourceStatusPayload]

def taskPayload : List Member :=
  common ++ [
    optional "TaskState" .text, optional "TaskStatus" .text,
    optional "PercentComplete" .uint64, custom "StartTime" .date,
    custom "EndTime" .date]

def networkDeviceFunctionPayload : List Member :=
  common ++ [
    optional "NetDevFuncType" .text, optional "DeviceEnabled" .boolean,
    optional "Status" resourceStatusPayload]

def powerEquipmentPayload : List Member :=
  common ++ [
    optional "EquipmentType" .text, optional "Manufacturer" .text,
    optional "Model" .text, optional "PartNumber" .text,
    optional "SerialNumber" .text, optional "Version" .text,
    optional "FirmwareVersion" .text, optional "Status" resourceStatusPayload]

def powerSupplyPayload : List Member :=
  common ++ [
    optional "PowerSupplyType" .text, optional "PowerCapacityWatts" .float,
    optional "Manufacturer" .text, optional "Model" .text,
    optional "FirmwareVersion" .text, optional "SerialNumber" .text,
    optional "PartNumber" .text, optional "Status" resourceStatusPayload]

def environmentMetricsReadingPayload : ReadType :=
  object [optional "DataSourceUri" .text, optional "Reading" .float]

def environmentMetricsControlPayload : ReadType :=
  object [optional "DataSourceUri" .text, optional "SetPoint" .float]

def environmentMetricsPayload : List Member :=
  common ++ [
    optional "TemperatureCelsius" environmentMetricsReadingPayload,
    optional "HumidityPercent" environmentMetricsReadingPayload,
    optional "FanSpeedsPercent" (.list environmentMetricsReadingPayload),
    optional "PowerWatts" environmentMetricsReadingPayload,
    optional "EnergykWh" environmentMetricsReadingPayload,
    optional "PowerLoadPercent" environmentMetricsReadingPayload,
    optional "PowerLimitWatts" environmentMetricsControlPayload,
    optional "DewPointCelsius" environmentMetricsReadingPayload,
    optional "AbsoluteHumidity" environmentMetricsReadingPayload,
    optional "EnergyJoules" environmentMetricsReadingPayload,
    optional "AmbientTemperatureCelsius" environmentMetricsReadingPayload,
    optional "Voltage" environmentMetricsReadingPayload,
    optional "CurrentAmps" environmentMetricsReadingPayload]

/-! ## Queries -/

/-- A stored resource, by its payload. -/
structure ResourceSnapshot (φ : Type) where
  resourceId : ResourceId
  feature : ResourceFeature
  payload : Json φ

structure EndpointInventoryItem (φ : Type) where
  endpoint : EndpointId
  resources : List (ResourceSnapshot φ)

inductive EndpointResourceInventoryQueryError where
  | projection (resource : ResourceId) (feature : ResourceFeature)
  deriving DecidableEq, Repr

inductive OverviewQueryError where
  | resources (endpoint : EndpointId)
      (source : EndpointResourceInventoryQueryError)
  deriving DecidableEq, Repr

section

variable {φ δ : Type} (o : Opaque φ δ)

def deserializePayload (fields : List Member) (snapshot : ResourceSnapshot φ) :
    Except EndpointResourceInventoryQueryError (Value φ δ) :=
  match decode o (object fields) snapshot.payload with
  | some parsed => .ok parsed
  | none => .error (.projection snapshot.resourceId snapshot.feature)

/-- The kind of a document is read before the document. -/
def projectDocument (documents : List (String × List Member))
    (snapshot : ResourceSnapshot φ) :
    Except EndpointResourceInventoryQueryError (Value φ δ) :=
  match decodeKey (δ := δ) o "DocumentType" (.oneOf (documents.map Prod.fst))
      snapshot.payload with
  | some (.text document) => match documents.lookup document with
    | some fields => deserializePayload o fields snapshot
    | none => .error (.projection snapshot.resourceId snapshot.feature)
  | _ => .error (.projection snapshot.resourceId snapshot.feature)

def projectOemNvidiaSystemConfigProfile : ResourceSnapshot φ →
    Except EndpointResourceInventoryQueryError (Value φ δ) :=
  projectDocument o [
    ("system_config_profile", oemNvidiaSystemConfigProfilePayload),
    ("system_config_profile_status", oemNvidiaSystemConfigProfileStatusPayload),
    ("system_profile", oemNvidiaSystemProfilePayload),
    ("system_profile_file", oemNvidiaSystemProfileFilePayload)]

def projectOemNvidiaPowerCompliance : ResourceSnapshot φ →
    Except EndpointResourceInventoryQueryError (Value φ δ) :=
  projectDocument o [
    ("power_compliance_manager", oemNvidiaPowerCompliancePayload),
    ("power_domain", oemNvidiaPowerDomainPayload),
    ("power_policy", oemNvidiaPowerPolicyPayload),
    ("managed_entity_group", oemNvidiaManagedEntityGroupPayload),
    ("power_state_group", oemNvidiaPowerStateGroupPayload),
    ("psc_state", oemNvidiaPscStatePayload),
    ("psu_state", oemNvidiaPsuStatePayload),
    ("psu_redundancy", oemNvidiaPsuRedundancyPayload)]

def projectOemNvidiaManagedEntity : ResourceSnapshot φ →
    Except EndpointResourceInventoryQueryError (Value φ δ) :=
  projectDocument o [("managed_entity", oemNvidiaManagedEntityPayload)]

def projectSnapshot (snapshot : ResourceSnapshot φ) :
    Except EndpointResourceInventoryQueryError (Value φ δ) :=
  match snapshot.feature with
  | .serviceRoot => deserializePayload o serviceRootPayload snapshot
  | .systems => deserializePayload o systemPayload snapshot
  | .chassis => deserializePayload o chassisPayload snapshot
  | .managers => deserializePayload o managerPayload snapshot
  | .oemDell => deserializePayload o oemDellPayload snapshot
  | .oemSmcSysLockdown => deserializePayload o oemSmcSysLockdownPayload snapshot
  | .oemSmcKcsInterface =>
    deserializePayload o oemSmcKcsInterfacePayload snapshot
  | .oemNvidiaSystemConfigProfile =>
    projectOemNvidiaSystemConfigProfile o snapshot
  | .oemNvidiaPowerCompliance => projectOemNvidiaPowerCompliance o snapshot
  | .oemNvidiaManagedEntity => projectOemNvidiaManagedEntity o snapshot
  | .oemLenovoSecurityService =>
    deserializePayload o oemLenovoSecurityServicePayload snapshot
  | .oemAmiServiceRoot => deserializePayload o oemAmiServiceRootPayload snapshot
  | .oemAmiConfigBmc => deserializePayload o oemAmiConfigBmcPayload snapshot
  | .oemHpeILoServiceExt =>
    deserializePayload o oemHpeILoServiceExtPayload snapshot
  | .oemHpeManager => deserializePayload o oemHpeManagerPayload snapshot
  | .oemLiteOnPowerSupply =>
    deserializePayload o oemLiteOnPowerSupplyPayload snapshot
  | .oemDeltaPowerSupply =>
    deserializePayload o oemDeltaPowerSupplyPayload snapshot
  | .processors => deserializePayload o processorPayload snapshot
  | .memory => deserializePayload o memoryPayload snapshot
  | .storages => deserializePayload o storagePayload snapshot
  | .networkAdapters => deserializePayload o networkAdapterPayload snapshot
  | .networkDeviceFunctions =>
    deserializePayload o networkDeviceFunctionPayload snapshot
  | .powerEquipment => deserializePayload o powerEquipmentPayload snapshot
  | .powerSupplies => deserializePayload o powerSupplyPayload snapshot
  | .environmentMetrics =>
    deserializePayload o environmentMetricsPayload snapshot
  | .ethernetInterfaces =>
    deserializePayload o ethernetInterfacePayload snapshot
  | .accounts => deserializePayload o accountPayload snapshot
  | .bios => deserializePayload o biosPayload snapshot
  | .bootOptions => deserializePayload o bootOptionPayload snapshot
  | .secureBoot => deserializePayload o secureBootPayload snapshot
  | .power => deserializePayload o powerPayload snapshot
  | .thermal => deserializePayload o thermalPayload snapshot
  | .sensors => deserializePayload o sensorPayload snapshot
  | .controls => deserializePayload o controlPayload snapshot
  | .logServices => deserializePayload o logServicePayload snapshot
  | .managerNetworkProtocol =>
    deserializePayload o managerNetworkProtocolPayload snapshot
  | .hostInterfaces => deserializePayload o hostInterfacePayload snapshot
  | .pcieDevices => deserializePayload o pcieDevicePayload snapshot
  | .assembly => deserializePayload o assemblyPayload snapshot
  | .softwareInventory => deserializePayload o softwareInventoryPayload snapshot
  | .eventService => deserializePayload o eventServicePayload snapshot
  | .eventSubscription => deserializePayload o eventSubscriptionPayload snapshot
  | .telemetryService => deserializePayload o telemetryServicePayload snapshot
  | .metricDefinition => deserializePayload o metricDefinitionPayload snapshot
  | .metricReport => deserializePayload o metricReportPayload snapshot
  | .taskService => deserializePayload o taskServicePayload snapshot
  | .task => deserializePayload o taskPayload snapshot

def projectLoadedResources (item : EndpointInventoryItem φ) :
    Except EndpointResourceInventoryQueryError (List (Value φ δ)) :=
  item.resources.mapM (projectSnapshot o)

/-- The page of an endpoint, if it is known. -/
def execute (items : List (EndpointInventoryItem φ))
    (endpointId : EndpointId) :
    Except EndpointResourceInventoryQueryError (Option (List (Value φ δ))) :=
  match items.find? (fun item => item.endpoint = endpointId) with
  | none => .ok none
  | some item => (projectLoadedResources o item).map some

/-- What the overview counts of the resources of each endpoint. -/
def overviewResources (items : List (EndpointInventoryItem φ)) :
    Except OverviewQueryError (List (List (Value φ δ))) :=
  items.mapM fun item =>
    (projectLoadedResources o item).mapError (.resources item.endpoint)

end

end Rutilus.App.EndpointResources
