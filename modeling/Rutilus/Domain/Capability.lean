import Rutilus.Domain.Command

/-!
# Capability codes

A capability and its state are stored under their product codes and read back from
them. A code that is unknown is no capability.
-/

namespace Rutilus.Domain

def EndpointCapability.fromStr (value : String) : Option EndpointCapability :=
  match value with
  | "accounts" => some .accounts
  | "assembly" => some .assembly
  | "bios" => some .bios
  | "boot-options" => some .bootOptions
  | "chassis" => some .chassis
  | "systems" => some .systems
  | "controls" => some .controls
  | "environment-metrics" => some .environmentMetrics
  | "ethernet-interfaces" => some .ethernetInterfaces
  | "event-service" => some .eventService
  | "host-interfaces" => some .hostInterfaces
  | "log-services" => some .logServices
  | "manager-network-protocol" => some .managerNetworkProtocol
  | "managers" => some .managers
  | "memory" => some .memory
  | "network-adapters" => some .networkAdapters
  | "network-device-functions" => some .networkDeviceFunctions
  | "pcie-devices" => some .pcieDevices
  | "power" => some .power
  | "power-equipment" => some .powerEquipment
  | "power-supplies" => some .powerSupplies
  | "processors" => some .processors
  | "secure-boot" => some .secureBoot
  | "sensors" => some .sensors
  | "session-service" => some .sessionService
  | "storages" => some .storages
  | "task-service" => some .taskService
  | "telemetry-service" => some .telemetryService
  | "thermal" => some .thermal
  | "update-service" => some .updateService
  | "ports" => some .ports
  | "bmc-http" => some .bmcHttp
  | "update-service-deprecated" => some .updateServiceDeprecated
  | "oem-ami" => some .oemAmi
  | "oem-dell" => some .oemDell
  | "oem-dell-attributes" => some .oemDellAttributes
  | "oem-delta" => some .oemDelta
  | "oem-hpe" => some .oemHpe
  | "oem-lenovo" => some .oemLenovo
  | "oem-liteon" => some .oemLiteOn
  | "oem-nvidia" => some .oemNvidia
  | "oem-nvidia-cper" => some .oemNvidiaCper
  | "oem-nvidia-fabrics" => some .oemNvidiaFabrics
  | "oem-nvidia-power-management" => some .oemNvidiaPowerManagement
  | "oem-nvidia-profiles" => some .oemNvidiaProfiles
  | "oem-nvidia-security" => some .oemNvidiaSecurity
  | "oem-supermicro" => some .oemSupermicro
  | _ => none

theorem EndpointCapability.fromStr_asStr (capability : EndpointCapability) :
    fromStr capability.asStr = some capability := by
  cases capability <;> rfl

theorem EndpointCapability.asStr_injective : Function.Injective asStr := by
  intro a b h
  have hread := congrArg fromStr h
  rw [fromStr_asStr, fromStr_asStr] at hread
  exact Option.some.inj hread

/-- The product codes. -/
def CapabilityState.asStr : CapabilityState → String
  | .supported => "supported"
  | .readOnly => "read-only"
  | .unauthorized => "unauthorized"
  | .temporarilyUnavailable => "temporarily-unavailable"
  | .schemaIncompatible => "schema-incompatible"
  | .notAdvertised => "not-advertised"
  | .notCompiled => "not-compiled"

def CapabilityState.fromStr (value : String) : Option CapabilityState :=
  match value with
  | "supported" => some .supported
  | "read-only" => some .readOnly
  | "unauthorized" => some .unauthorized
  | "temporarily-unavailable" => some .temporarilyUnavailable
  | "schema-incompatible" => some .schemaIncompatible
  | "not-advertised" => some .notAdvertised
  | "not-compiled" => some .notCompiled
  | _ => none

theorem CapabilityState.fromStr_asStr (state : CapabilityState) :
    fromStr state.asStr = some state := by
  cases state <;> rfl

structure EndpointCapabilityObservation where
  capability : EndpointCapability
  state : CapabilityState
  deriving DecidableEq, Repr

end Rutilus.Domain
