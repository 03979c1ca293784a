/-!
# Commands and capabilities

The typed Redfish command language as the executor, the monitor and the center
read it: the family of a command decides the capability it needs, the audit
name it is recorded under and whether a re-read can prove its effect. Payload
fields that no decision reads are kept as their serialized text, so that two
commands are equal here exactly when they are equal in the product.
-/

namespace Rutilus.Domain

/-- Identities are UUIDs; only equality and the byte order matter. -/
structure OperationId where
  uuid : Nat
  deriving DecidableEq, Repr

structure EndpointId where
  uuid : Nat
  deriving DecidableEq, Repr

structure TargetId where
  uuid : Nat
  deriving DecidableEq, Repr

structure ArtifactId where
  uuid : Nat
  deriving DecidableEq, Repr

structure InstanceId where
  uuid : Nat
  deriving DecidableEq, Repr

/-- A point in time, in nanoseconds from the Unix epoch. -/
abbrev Instant : Type := Int

/-- The serialized text of a payload whose fields no decision reads. -/
abbrev Payload : Type := String

inductive AccountCommand where
  | createAccount (payload : Payload)
  | updateAccount (payload : Payload)
  | updateAccountPassword (payload : Payload)
  | updateAccountUserName (payload : Payload)
  | deleteAccount (payload : Payload)
  deriving DecidableEq, Repr

inductive SystemCommand where
  | reset (resetType : Payload)
  deriving DecidableEq, Repr

inductive ManagerCommand where
  | reset (resetType : Payload)
  | resetToDefaults (resetType : Payload)
  deriving DecidableEq, Repr

inductive ChassisCommand where
  | reset (resetType : Payload)
  | powerSupplyReset (payload : Payload)
  deriving DecidableEq, Repr

inductive BootCommand where
  | setBootSourceOverride (payload : Payload)
  deriving DecidableEq, Repr

inductive SecureBootCommand where
  | enable
  | disable
  | resetKeys (keys : Payload)
  deriving DecidableEq, Repr

inductive EventCommand where
  | createSubscription (payload : Payload)
  | deleteSubscription (payload : Payload)
  deriving DecidableEq, Repr

inductive LogCommand where
  | clearLog (payload : Payload)
  deriving DecidableEq, Repr

inductive ControlCommand where
  | update (payload : Payload)
  deriving DecidableEq, Repr

inductive TelemetryCommand where
  | setEnabled (enabled : Bool)
  | createMetricDefinition (payload : Payload)
  | updateMetricDefinition (payload : Payload)
  | deleteMetricDefinition (payload : Payload)
  | createMetricReportDefinition (payload : Payload)
  | updateMetricReportDefinition (payload : Payload)
  | deleteMetricReportDefinition (payload : Payload)
  deriving DecidableEq, Repr

/-- A firmware update: the artifact to upload and the public push URI of the
target, if the submission is not multipart. -/
structure StartUpdate where
  artifactId : ArtifactId
  pushUri : Option String
  deriving DecidableEq, Repr

inductive UpdateCommand where
  | startUpdate (payload : StartUpdate)
  | patch (payload : Payload)
  deriving DecidableEq, Repr

inductive OemCommand where
  | systemConfigProfile (command : Payload)
  | debugToken (command : Payload)
  | powerSmoothing (command : Payload)
  deriving DecidableEq, Repr

inductive RedfishCommand where
  | account (command : AccountCommand)
  | system (command : SystemCommand)
  | manager (command : ManagerCommand)
  | chassis (command : ChassisCommand)
  | boot (command : BootCommand)
  | secureBoot (command : SecureBootCommand)
  | event (command : EventCommand)
  | log (command : LogCommand)
  | control (command : ControlCommand)
  | telemetry (command : TelemetryCommand)
  | update (command : UpdateCommand)
  | oem (command : OemCommand)
  deriving DecidableEq, Repr

inductive EndpointCapability where
  | accounts | assembly | bios | bootOptions | chassis | systems | controls
  | environmentMetrics | ethernetInterfaces | eventService | hostInterfaces
  | logServices | managerNetworkProtocol | managers | memory
  | networkAdapters | networkDeviceFunctions | pcieDevices | power
  | powerEquipment | powerSupplies | processors | secureBoot | sensors
  | sessionService | storages | taskService | telemetryService | thermal
  | updateService | ports | bmcHttp | updateServiceDeprecated | oemAmi
  | oemDell | oemDellAttributes | oemDelta | oemHpe | oemLenovo | oemLiteOn
  | oemNvidia | oemNvidiaCper | oemNvidiaFabrics | oemNvidiaPowerManagement
  | oemNvidiaProfiles | oemNvidiaSecurity | oemSupermicro
  deriving DecidableEq, Repr

/-- The product codes. -/
def EndpointCapability.asStr : EndpointCapability → String
  | .accounts => "accounts"
  | .assembly => "assembly"
  | .bios => "bios"
  | .bootOptions => "boot-options"
  | .chassis => "chassis"
  | .systems => "systems"
  | .controls => "controls"
  | .environmentMetrics => "environment-metrics"
  | .ethernetInterfaces => "ethernet-interfaces"
  | .eventService => "event-service"
  | .hostInterfaces => "host-interfaces"
  | .logServices => "log-services"
  | .managerNetworkProtocol => "manager-network-protocol"
  | .managers => "managers"
  | .memory => "memory"
  | .networkAdapters => "network-adapters"
  | .networkDeviceFunctions => "network-device-functions"
  | .pcieDevices => "pcie-devices"
  | .power => "power"
  | .powerEquipment => "power-equipment"
  | .powerSupplies => "power-supplies"
  | .processors => "processors"
  | .secureBoot => "secure-boot"
  | .sensors => "sensors"
  | .sessionService => "session-service"
  | .storages => "storages"
  | .taskService => "task-service"
  | .telemetryService => "telemetry-service"
  | .thermal => "thermal"
  | .updateService => "update-service"
  | .ports => "ports"
  | .bmcHttp => "bmc-http"
  | .updateServiceDeprecated => "update-service-deprecated"
  | .oemAmi => "oem-ami"
  | .oemDell => "oem-dell"
  | .oemDellAttributes => "oem-dell-attributes"
  | .oemDelta => "oem-delta"
  | .oemHpe => "oem-hpe"
  | .oemLenovo => "oem-lenovo"
  | .oemLiteOn => "oem-liteon"
  | .oemNvidia => "oem-nvidia"
  | .oemNvidiaCper => "oem-nvidia-cper"
  | .oemNvidiaFabrics => "oem-nvidia-fabrics"
  | .oemNvidiaPowerManagement => "oem-nvidia-power-management"
  | .oemNvidiaProfiles => "oem-nvidia-profiles"
  | .oemNvidiaSecurity => "oem-nvidia-security"
  | .oemSupermicro => "oem-supermicro"

inductive CapabilityState where
  | supported
  | readOnly
  | unauthorized
  | temporarilyUnavailable
  | schemaIncompatible
  | notAdvertised
  | notCompiled
  deriving DecidableEq, Repr

/-- One line of an endpoint's capability ledger; `none` is a capability that
was never observed. -/
structure CapabilityLedgerEntry where
  capability : EndpointCapability
  state : Option CapabilityState
  observedAt : Option Instant
  deriving DecidableEq, Repr

/-- The capability a command needs on its endpoint. -/
def requiredCapability : RedfishCommand → EndpointCapability
  | .account _ => .accounts
  | .system _ | .boot _ => .systems
  | .manager _ => .managers
  | .chassis _ => .chassis
  | .secureBoot _ => .secureBoot
  | .event _ => .eventService
  | .log _ => .logServices
  | .control _ => .controls
  | .telemetry _ => .telemetryService
  | .update _ => .updateService
  | .oem (.systemConfigProfile _) => .oemNvidiaProfiles
  | .oem (.debugToken _) => .oemNvidiaSecurity
  | .oem (.powerSmoothing _) => .oemNvidiaPowerManagement

/-- The state of a capability in a ledger: the first line that names it. -/
def requiredCapabilityState (required : EndpointCapability)
    (entries : List CapabilityLedgerEntry) : Option CapabilityState :=
  (entries.find? fun entry => entry.capability = required).bind
    CapabilityLedgerEntry.state

/-- Whether `Confirmed` on a re-read proves that the write happened. The
commands answered `false` re-read without error before the write as well. -/
def recoveryJudgementProvesEffect : RedfishCommand → Bool
  | .account (.updateAccountPassword _) => false
  | .system _ | .manager _ | .chassis _ | .boot _ | .secureBoot _ | .log _
  | .control _ | .update _ | .oem _ => false
  | .account _ | .event _ | .telemetry _ => true

/-- The audit names of the command writes and of the Task poll. -/
inductive AuditRedfishOperation where
  | createAccount | updateAccount | updateAccountPassword
  | updateAccountUserName | deleteAccount | resetSystem | resetManager
  | managerResetToDefaults | resetChassis | powerSupplyReset
  | setBootSourceOverride | secureBootEnable | secureBootDisable
  | secureBootResetKeys | createEventSubscription | deleteEventSubscription
  | logClear | controlUpdate | setTelemetryEnabled | createMetricDefinition
  | updateMetricDefinition | deleteMetricDefinition
  | createMetricReportDefinition | updateMetricReportDefinition
  | deleteMetricReportDefinition | updateFirmware | updateServicePatch
  | oemSystemConfigProfile | oemDebugToken | oemPowerSmoothing
  | pollRemoteTask
  deriving DecidableEq, Repr

def commandAuditOperation : RedfishCommand → AuditRedfishOperation
  | .account (.createAccount _) => .createAccount
  | .account (.updateAccount _) => .updateAccount
  | .account (.updateAccountPassword _) => .updateAccountPassword
  | .account (.updateAccountUserName _) => .updateAccountUserName
  | .account (.deleteAccount _) => .deleteAccount
  | .system (.reset _) => .resetSystem
  | .manager (.reset _) => .resetManager
  | .manager (.resetToDefaults _) => .managerResetToDefaults
  | .chassis (.reset _) => .resetChassis
  | .chassis (.powerSupplyReset _) => .powerSupplyReset
  | .boot (.setBootSourceOverride _) => .setBootSourceOverride
  | .secureBoot .enable => .secureBootEnable
  | .secureBoot .disable => .secureBootDisable
  | .secureBoot (.resetKeys _) => .secureBootResetKeys
  | .event (.createSubscription _) => .createEventSubscription
  | .event (.deleteSubscription _) => .deleteEventSubscription
  | .log (.clearLog _) => .logClear
  | .control (.update _) => .controlUpdate
  | .telemetry (.setEnabled _) => .setTelemetryEnabled
  | .telemetry (.createMetricDefinition _) => .createMetricDefinition
  | .telemetry (.updateMetricDefinition _) => .updateMetricDefinition
  | .telemetry (.deleteMetricDefinition _) => .deleteMetricDefinition
  | .telemetry (.createMetricReportDefinition _) =>
      .createMetricReportDefinition
  | .telemetry (.updateMetricReportDefinition _) =>
      .updateMetricReportDefinition
  | .telemetry (.deleteMetricReportDefinition _) =>
      .deleteMetricReportDefinition
  | .update (.startUpdate _) => .updateFirmware
  | .update (.patch _) => .updateServicePatch
  | .oem (.systemConfigProfile _) => .oemSystemConfigProfile
  | .oem (.debugToken _) => .oemDebugToken
  | .oem (.powerSmoothing _) => .oemPowerSmoothing

end Rutilus.Domain
