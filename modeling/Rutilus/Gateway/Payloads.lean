import Rutilus.Lib.Serde
import Rutilus.Domain.Resource

/-!
# The payloads that the gateway writes

One shape per family, with the fields that its projection copies out of a
decoded document. An enumeration is written by its spelling, as a text. A field
that is absent, or null, in the document is left out of the payload.
-/

namespace Rutilus.Gateway.Payloads

open Rutilus.Lib.Serde
open Rutilus.Domain.Resource

/-! ## Fields -/

abbrev Member : Type := String × Bool × WriteType

def always (name : String) (type : WriteType) : Member :=
  (name, true, type)

def skipped (name : String) (type : WriteType) : Member :=
  (name, false, type)

def object (fields : List Member) : WriteType :=
  .record (.ofList fields)

/-! ## Shapes -/

def commonResourcePayload : List Member :=
  [always "Id" .text, always "Name" .text, skipped "Description" .text]

def resourceStatusPayload : WriteType :=
  object [
    skipped "State" .text, skipped "Health" .text, skipped "HealthRollup" .text]

def serviceRootPayload : List Member :=
  commonResourcePayload ++ [
    skipped "Vendor" .text, skipped "Product" .text,
    skipped "RedfishVersion" .text]

def computerSystemPayload : List Member :=
  commonResourcePayload ++ [
    skipped "SystemType" .text, skipped "Manufacturer" .text,
    skipped "Model" .text, skipped "PartNumber" .text,
    skipped "SerialNumber" .text, skipped "SKU" .text, skipped "HostName" .text,
    skipped "BiosVersion" .text, skipped "PowerState" .text,
    skipped "Status" resourceStatusPayload]

def chassisPayload : List Member :=
  commonResourcePayload ++ [
    always "ChassisType" .text, skipped "Manufacturer" .text,
    skipped "Model" .text, skipped "PartNumber" .text,
    skipped "SerialNumber" .text, skipped "SKU" .text, skipped "AssetTag" .text,
    skipped "PowerState" .text, skipped "Status" resourceStatusPayload]

def managerPayload : List Member :=
  commonResourcePayload ++ [
    skipped "ManagerType" .text, skipped "Manufacturer" .text,
    skipped "Model" .text, skipped "PartNumber" .text,
    skipped "SerialNumber" .text, skipped "FirmwareVersion" .text,
    skipped "Version" .text, skipped "PowerState" .text,
    skipped "Status" resourceStatusPayload]

def dellAttributesPayload : List Member :=
  commonResourcePayload ++ [
    skipped "ServerModel" .text, skipped "ServerServiceTag" .text,
    skipped "ServerGeneration" .text, skipped "ServerBmcMacAddress" .text,
    skipped "ServerName" .text]

def smcSysLockdownPayload : List Member :=
  [skipped "SysLockdownEnabled" .boolean]

def smcKcsInterfacePayload : List Member :=
  [skipped "Privilege" .text]

def lenovoSecurityServicePayload : List Member :=
  commonResourcePayload ++ [
    skipped "FWRollback" .text]

def nvidiaSystemConfigProfileTruststorePayload : WriteType :=
  object [
    skipped "NvidiaCertificates" .boolean, skipped "OemCertificates" .boolean]

def nvidiaSystemConfigProfilePayload : List Member :=
  commonResourcePayload ++ [
    always "DocumentType" (.constant "system_config_profile"),
    skipped "Truststore" nvidiaSystemConfigProfileTruststorePayload]

def nvidiaSystemConfigProfilePendingListPayload : WriteType :=
  object [skipped "Activation" .text]

def nvidiaSystemConfigProfileStatusPayload : List Member :=
  commonResourcePayload ++ [
    always "DocumentType" (.constant "system_config_profile_status"),
    skipped "PendingList" nvidiaSystemConfigProfilePendingListPayload,
    skipped "ActiveProfileIndex" .int64, skipped "BmcProfileVersion" .int64,
    skipped "FactoryResetStatus" .text, skipped "DefaultProfileIndex" .int64]

def nvidiaSystemProfilePayload : List Member :=
  commonResourcePayload ++ [
    always "DocumentType" (.constant "system_profile"),
    skipped "Default" .boolean, skipped "Owner" .text, skipped "UUID" .text,
    skipped "Version" .int64, skipped "ProfileName" .text]

def nvidiaSystemProfileFileMetadataPayload : WriteType :=
  object [
    skipped "Activate" .boolean, skipped "Delete" .boolean,
    skipped "OriginProfileUUID" .text, skipped "More_Profiles" .boolean,
    skipped "ProjectName" .text, skipped "UUID" .text]

def nvidiaSystemProfileFileContentPayload : WriteType :=
  object [
    skipped "Metadata" nvidiaSystemProfileFileMetadataPayload,
    skipped "Profile" .text]

def nvidiaSystemProfileFilePayload : List Member :=
  commonResourcePayload ++ [
    always "DocumentType" (.constant "system_profile_file"),
    skipped "ProfileFile" nvidiaSystemProfileFileContentPayload]

def nvidiaPowerComplianceManagerPayload : List Member :=
  commonResourcePayload ++ [
    always "DocumentType" (.constant "power_compliance_manager"),
    skipped "ManagerType" .text]

def nvidiaPowerDomainPayload : List Member :=
  commonResourcePayload ++ [
    always "DocumentType" (.constant "power_domain"), skipped "Value" .int64,
    skipped "Type" .text, skipped "Unit" .text,
    skipped "SensorReadingType" .text, skipped "SensorImpl" .text]

def nvidiaPowerPolicyPayload : List Member :=
  commonResourcePayload ++ [
    always "DocumentType" (.constant "power_policy"),
    skipped "AutoDeassertPowerBrake" .boolean, skipped "Min" .int64,
    skipped "Max" .int64, skipped "Type" .text, skipped "Unit" .text,
    skipped "PolicyActions" .text]

def nvidiaManagedEntityGroupPayload : List Member :=
  commonResourcePayload ++ [
    always "DocumentType" (.constant "managed_entity_group"),
    skipped "CurrentManagedEntityId" .text]

def nvidiaPowerStateGroupPayload : List Member :=
  commonResourcePayload ++ [
    always "DocumentType" (.constant "power_state_group"),
    skipped "PscId" .text, skipped "GeneratedWatts" .int64,
    skipped "NumberOfPscs" .int64, skipped "NumberOfLocalPsus" .int64]

def nvidiaPscStatePayload : List Member :=
  commonResourcePayload ++ [
    always "DocumentType" (.constant "psc_state"), skipped "PscId" .text,
    skipped "NumOfOperationalPsus" .int64, skipped "PowerBrakeAssert" .boolean,
    skipped "MillisecondsSinceLastHeartbeat" .int64, skipped "Status" .text]

def nvidiaPsuStatePayload : List Member :=
  commonResourcePayload ++ [
    always "DocumentType" (.constant "psu_state"), skipped "PsuId" .text,
    skipped "Presence" .boolean, skipped "Input1Active" .boolean,
    skipped "Input2Active" .boolean]

def nvidiaPsuRedundancyPayload : List Member :=
  commonResourcePayload ++ [
    always "DocumentType" (.constant "psu_redundancy"),
    skipped "MaxNumSupported" .text, skipped "MinNumNeeded" .text,
    skipped "RedundancySetting" .text]

def nvidiaManagedEntityPayload : List Member :=
  commonResourcePayload ++ [
    always "DocumentType" (.constant "managed_entity"),
    skipped "TransportProtocol" .text, skipped "IPv4Address" .text,
    skipped "IPv6Address" .text, skipped "Port" .int64]

def processorPayload : List Member :=
  commonResourcePayload ++ [
    skipped "ProcessorType" .text, skipped "Socket" .text,
    skipped "Manufacturer" .text, skipped "Model" .text,
    skipped "TotalCores" .int64, skipped "Status" resourceStatusPayload]

def memoryPayload : List Member :=
  commonResourcePayload ++ [
    skipped "MemoryDeviceType" .text, skipped "CapacityMiB" .int64,
    skipped "Manufacturer" .text, skipped "Model" .text,
    skipped "Status" resourceStatusPayload]

def storagePayload : List Member :=
  commonResourcePayload ++ [
    skipped "ControllerCount" .size, skipped "DriveCount" .size,
    skipped "Status" resourceStatusPayload]

def networkAdapterPayload : List Member :=
  commonResourcePayload ++ [
    skipped "Manufacturer" .text, skipped "Model" .text,
    skipped "Status" resourceStatusPayload]

def ethernetInterfacePayload : List Member :=
  commonResourcePayload ++ [
    skipped "MACAddress" .text, skipped "SpeedMbps" .int64,
    skipped "InterfaceEnabled" .boolean, skipped "Status" resourceStatusPayload]

def logServicePayload : List Member :=
  commonResourcePayload ++ [
    skipped "ServiceEnabled" .boolean, skipped "MaxNumberOfRecords" .int64,
    skipped "Status" resourceStatusPayload]

def managerNetworkProtocolPayload : List Member :=
  commonResourcePayload ++ [
    skipped "HostName" .text, skipped "FQDN" .text,
    skipped "Status" resourceStatusPayload]

def hostInterfacePayload : List Member :=
  commonResourcePayload ++ [
    skipped "InterfaceEnabled" .boolean, skipped "HostInterfaceType" .text,
    skipped "Status" resourceStatusPayload]

def accountsPayload : List Member :=
  commonResourcePayload ++ [
    skipped "UserName" .text, skipped "RoleId" .text,
    skipped "Enabled" .boolean, skipped "Locked" .boolean,
    skipped "AccountTypes" (.list .text)]

def pcieDevicePayload : List Member :=
  commonResourcePayload ++ [
    skipped "DeviceType" .text, skipped "Manufacturer" .text,
    skipped "Model" .text, skipped "Status" resourceStatusPayload]

def assemblyDataPayload : List Member :=
  commonResourcePayload ++ [
    skipped "Producer" .text, skipped "Status" resourceStatusPayload]

def softwareInventoryPayload : List Member :=
  commonResourcePayload ++ [
    skipped "SoftwareId" .text, skipped "Version" .text,
    skipped "ReleaseDate" .date, skipped "Status" resourceStatusPayload]

def eventServicePayload : List Member :=
  commonResourcePayload ++ [
    skipped "ServiceEnabled" .boolean, skipped "Status" resourceStatusPayload]

def eventSubscriptionPayload : List Member :=
  commonResourcePayload ++ [
    skipped "Destination" .text, skipped "Protocol" .text,
    skipped "Context" .text, skipped "EventTypes" (.list .text),
    skipped "Status" resourceStatusPayload]

def telemetryServicePayload : List Member :=
  commonResourcePayload ++ [
    skipped "Status" resourceStatusPayload]

def metricDefinitionPayload : List Member :=
  commonResourcePayload ++ [
    skipped "Units" .text, skipped "MetricType" .text]

def metricValuePayload : WriteType :=
  object [skipped "Timestamp" .date, skipped "MetricValue" .text]

def metricReportPayload : List Member :=
  commonResourcePayload ++ [
    skipped "MetricValuesCount" .size,
    skipped "MetricValues" (.list metricValuePayload)]

def taskServicePayload : List Member :=
  commonResourcePayload ++ [
    skipped "ServiceEnabled" .boolean,
    skipped "CompletedTaskOverWritePolicy" .text,
    skipped "Status" resourceStatusPayload]

def taskPayload : List Member :=
  commonResourcePayload ++ [
    skipped "TaskState" .text, skipped "TaskStatus" .text,
    skipped "PercentComplete" .int64, skipped "StartTime" .date,
    skipped "EndTime" .date]

def biosPayload : List Member :=
  commonResourcePayload ++ [
    skipped "AttributeRegistry" .text,
    skipped "ResetBiosToDefaultsPending" .boolean]

def bootOptionsPayload : List Member :=
  commonResourcePayload ++ [
    skipped "BootOptionReference" .text, skipped "DisplayName" .text,
    skipped "BootOptionEnabled" .boolean, skipped "UefiDevicePath" .text,
    skipped "Alias" .text]

def secureBootPayload : List Member :=
  commonResourcePayload ++ [
    skipped "SecureBootEnable" .boolean, skipped "SecureBootCurrentBoot" .text,
    skipped "SecureBootMode" .text]

def powerPayload : List Member :=
  commonResourcePayload

def thermalPayload : List Member :=
  commonResourcePayload ++ [
    skipped "Status" resourceStatusPayload]

def sensorPayload : List Member :=
  commonResourcePayload ++ [
    skipped "Reading" .float, skipped "ReadingUnits" .text,
    skipped "ReadingType" .text, skipped "Status" resourceStatusPayload]

def controlPayload : List Member :=
  commonResourcePayload ++ [
    skipped "ControlType" .text, skipped "SetPoint" .float,
    skipped "Status" resourceStatusPayload]

def powerEquipmentPayload : List Member :=
  commonResourcePayload ++ [
    skipped "Status" resourceStatusPayload]

def powerDistributionPayload : List Member :=
  commonResourcePayload ++ [
    always "EquipmentType" .text, skipped "Manufacturer" .text,
    skipped "Model" .text, skipped "PartNumber" .text,
    skipped "SerialNumber" .text, skipped "Version" .text,
    skipped "FirmwareVersion" .text, skipped "Status" resourceStatusPayload]

def powerSupplyPayload : List Member :=
  commonResourcePayload ++ [
    skipped "PowerSupplyType" .text, skipped "PowerCapacityWatts" .float,
    skipped "Manufacturer" .text, skipped "Model" .text,
    skipped "FirmwareVersion" .text, skipped "SerialNumber" .text,
    skipped "PartNumber" .text, skipped "Status" resourceStatusPayload]

def amiServiceRootPayload : List Member :=
  commonResourcePayload ++ [
    skipped "RtpVersion" .text]

def amiConfigBmcPayload : List Member :=
  [skipped "LockoutHostControl" .text,
   skipped "LockoutBiosVariableWriteMode" .text,
   skipped "LockdownBiosSettingsChange" .text,
   skipped "LockdownBiosUpgradeDowngrade" .text]

def hpeiLoServiceExtPayload : List Member :=
  commonResourcePayload ++ [
    skipped "ManagerType" .text, skipped "ManagerFirmwareVersion" .text]

def hpeManagerPayload : List Member :=
  commonResourcePayload ++ [
    skipped "VirtualNICEnabled" .boolean]

def liteOnStatusPayload : WriteType :=
  object [
    skipped "State" .text, skipped "Health" .text, skipped "HealthRollup" .text]

def liteOnPowerSupplyPayload : List Member :=
  commonResourcePayload ++ [
    skipped "PowerSupplyType" .text, skipped "PowerCapacityWatts" .float,
    skipped "Manufacturer" .text, skipped "Model" .text,
    skipped "FirmwareVersion" .text, skipped "SerialNumber" .text,
    skipped "PartNumber" .text, skipped "Status" liteOnStatusPayload]

def deltaPowerSupplyPayload : List Member :=
  commonResourcePayload ++ [
    skipped "Power" .boolean, skipped "FanSpeedTarget" .int64]

def networkDeviceFunctionPayload : List Member :=
  commonResourcePayload ++ [
    skipped "NetDevFuncType" .text, skipped "DeviceEnabled" .boolean,
    skipped "Status" resourceStatusPayload]

def environmentMetricsReadingPayload : WriteType :=
  object [skipped "DataSourceUri" .text, skipped "Reading" .float]

def environmentMetricsControlPayload : WriteType :=
  object [skipped "DataSourceUri" .text, skipped "SetPoint" .float]

def environmentMetricsPayload : List Member :=
  commonResourcePayload ++ [
    skipped "TemperatureCelsius" environmentMetricsReadingPayload,
    skipped "HumidityPercent" environmentMetricsReadingPayload,
    skipped "FanSpeedsPercent" (.list environmentMetricsReadingPayload),
    skipped "PowerWatts" environmentMetricsReadingPayload,
    skipped "EnergykWh" environmentMetricsReadingPayload,
    skipped "PowerLoadPercent" environmentMetricsReadingPayload,
    skipped "PowerLimitWatts" environmentMetricsControlPayload,
    skipped "DewPointCelsius" environmentMetricsReadingPayload,
    skipped "AbsoluteHumidity" environmentMetricsReadingPayload,
    skipped "EnergyJoules" environmentMetricsReadingPayload,
    skipped "AmbientTemperatureCelsius" environmentMetricsReadingPayload,
    skipped "Voltage" environmentMetricsReadingPayload,
    skipped "CurrentAmps" environmentMetricsReadingPayload]

/-! ## Families -/

/-- One per projection. -/
inductive Family where
  | serviceRoot
  | computerSystem
  | chassis
  | manager
  | dellAttributes
  | smcSysLockdown
  | smcKcsInterface
  | lenovoSecurityService
  | nvidiaSystemConfigProfile
  | nvidiaSystemConfigProfileStatus
  | nvidiaSystemProfile
  | nvidiaSystemProfileFile
  | nvidiaPowerComplianceManager
  | nvidiaPowerDomain
  | nvidiaPowerPolicy
  | nvidiaManagedEntityGroup
  | nvidiaPowerStateGroup
  | nvidiaPscState
  | nvidiaPsuState
  | nvidiaPsuRedundancy
  | nvidiaManagedEntity
  | processor
  | memory
  | storage
  | networkAdapter
  | ethernetInterface
  | logService
  | managerNetworkProtocol
  | hostInterface
  | managerAccount
  | pcieDevice
  | assemblyData
  | softwareInventory
  | eventService
  | eventSubscription
  | telemetryService
  | metricDefinition
  | metricReport
  | taskService
  | task
  | bios
  | bootOption
  | secureBoot
  | power
  | thermal
  | sensor
  | control
  | powerEquipment
  | powerDistribution
  | powerSupply
  | amiServiceRoot
  | amiConfigBmc
  | hpeIloServiceExt
  | hpeManager
  | liteonPowerSupply
  | deltaPowerSupply
  | networkDeviceFunction
  | environmentMetrics
  deriving DecidableEq, Repr

def Family.feature : Family → ResourceFeature
  | .serviceRoot => .serviceRoot
  | .computerSystem => .systems
  | .chassis => .chassis
  | .manager => .managers
  | .dellAttributes => .oemDell
  | .smcSysLockdown => .oemSmcSysLockdown
  | .smcKcsInterface => .oemSmcKcsInterface
  | .lenovoSecurityService => .oemLenovoSecurityService
  | .nvidiaSystemConfigProfile => .oemNvidiaSystemConfigProfile
  | .nvidiaSystemConfigProfileStatus => .oemNvidiaSystemConfigProfile
  | .nvidiaSystemProfile => .oemNvidiaSystemConfigProfile
  | .nvidiaSystemProfileFile => .oemNvidiaSystemConfigProfile
  | .nvidiaPowerComplianceManager => .oemNvidiaPowerCompliance
  | .nvidiaPowerDomain => .oemNvidiaPowerCompliance
  | .nvidiaPowerPolicy => .oemNvidiaPowerCompliance
  | .nvidiaManagedEntityGroup => .oemNvidiaPowerCompliance
  | .nvidiaPowerStateGroup => .oemNvidiaPowerCompliance
  | .nvidiaPscState => .oemNvidiaPowerCompliance
  | .nvidiaPsuState => .oemNvidiaPowerCompliance
  | .nvidiaPsuRedundancy => .oemNvidiaPowerCompliance
  | .nvidiaManagedEntity => .oemNvidiaManagedEntity
  | .processor => .processors
  | .memory => .memory
  | .storage => .storages
  | .networkAdapter => .networkAdapters
  | .ethernetInterface => .ethernetInterfaces
  | .logService => .logServices
  | .managerNetworkProtocol => .managerNetworkProtocol
  | .hostInterface => .hostInterfaces
  | .managerAccount => .accounts
  | .pcieDevice => .pcieDevices
  | .assemblyData => .assembly
  | .softwareInventory => .softwareInventory
  | .eventService => .eventService
  | .eventSubscription => .eventSubscription
  | .telemetryService => .telemetryService
  | .metricDefinition => .metricDefinition
  | .metricReport => .metricReport
  | .taskService => .taskService
  | .task => .task
  | .bios => .bios
  | .bootOption => .bootOptions
  | .secureBoot => .secureBoot
  | .power => .power
  | .thermal => .thermal
  | .sensor => .sensors
  | .control => .controls
  | .powerEquipment => .powerEquipment
  | .powerDistribution => .powerEquipment
  | .powerSupply => .powerSupplies
  | .amiServiceRoot => .oemAmiServiceRoot
  | .amiConfigBmc => .oemAmiConfigBmc
  | .hpeIloServiceExt => .oemHpeILoServiceExt
  | .hpeManager => .oemHpeManager
  | .liteonPowerSupply => .oemLiteOnPowerSupply
  | .deltaPowerSupply => .oemDeltaPowerSupply
  | .networkDeviceFunction => .networkDeviceFunctions
  | .environmentMetrics => .environmentMetrics

def Family.payload : Family → List Member
  | .serviceRoot => serviceRootPayload
  | .computerSystem => computerSystemPayload
  | .chassis => chassisPayload
  | .manager => managerPayload
  | .dellAttributes => dellAttributesPayload
  | .smcSysLockdown => smcSysLockdownPayload
  | .smcKcsInterface => smcKcsInterfacePayload
  | .lenovoSecurityService => lenovoSecurityServicePayload
  | .nvidiaSystemConfigProfile => nvidiaSystemConfigProfilePayload
  | .nvidiaSystemConfigProfileStatus => nvidiaSystemConfigProfileStatusPayload
  | .nvidiaSystemProfile => nvidiaSystemProfilePayload
  | .nvidiaSystemProfileFile => nvidiaSystemProfileFilePayload
  | .nvidiaPowerComplianceManager => nvidiaPowerComplianceManagerPayload
  | .nvidiaPowerDomain => nvidiaPowerDomainPayload
  | .nvidiaPowerPolicy => nvidiaPowerPolicyPayload
  | .nvidiaManagedEntityGroup => nvidiaManagedEntityGroupPayload
  | .nvidiaPowerStateGroup => nvidiaPowerStateGroupPayload
  | .nvidiaPscState => nvidiaPscStatePayload
  | .nvidiaPsuState => nvidiaPsuStatePayload
  | .nvidiaPsuRedundancy => nvidiaPsuRedundancyPayload
  | .nvidiaManagedEntity => nvidiaManagedEntityPayload
  | .processor => processorPayload
  | .memory => memoryPayload
  | .storage => storagePayload
  | .networkAdapter => networkAdapterPayload
  | .ethernetInterface => ethernetInterfacePayload
  | .logService => logServicePayload
  | .managerNetworkProtocol => managerNetworkProtocolPayload
  | .hostInterface => hostInterfacePayload
  | .managerAccount => accountsPayload
  | .pcieDevice => pcieDevicePayload
  | .assemblyData => assemblyDataPayload
  | .softwareInventory => softwareInventoryPayload
  | .eventService => eventServicePayload
  | .eventSubscription => eventSubscriptionPayload
  | .telemetryService => telemetryServicePayload
  | .metricDefinition => metricDefinitionPayload
  | .metricReport => metricReportPayload
  | .taskService => taskServicePayload
  | .task => taskPayload
  | .bios => biosPayload
  | .bootOption => bootOptionsPayload
  | .secureBoot => secureBootPayload
  | .power => powerPayload
  | .thermal => thermalPayload
  | .sensor => sensorPayload
  | .control => controlPayload
  | .powerEquipment => powerEquipmentPayload
  | .powerDistribution => powerDistributionPayload
  | .powerSupply => powerSupplyPayload
  | .amiServiceRoot => amiServiceRootPayload
  | .amiConfigBmc => amiConfigBmcPayload
  | .hpeIloServiceExt => hpeiLoServiceExtPayload
  | .hpeManager => hpeManagerPayload
  | .liteonPowerSupply => liteOnPowerSupplyPayload
  | .deltaPowerSupply => deltaPowerSupplyPayload
  | .networkDeviceFunction => networkDeviceFunctionPayload
  | .environmentMetrics => environmentMetricsPayload

def Family.writes (family : Family) : WriteFields :=
  .ofList family.payload

/-! ## Payloads -/

section

variable {φ δ : Type} (o : Opaque φ δ)

/-- What a projection copied: a value of its payload. -/
structure CoreResource (φ δ : Type) where
  family : Family
  fields : Fields φ δ
  typed : HasType (.record family.writes) (.record fields)

/-- The payload as it is stored, with its keys in the canonical order. -/
def CoreResource.payload (resource : CoreResource φ δ) : Json φ :=
  reorder o
    (encode o (.record resource.family.writes) (.record resource.fields))

end

end Rutilus.Gateway.Payloads
