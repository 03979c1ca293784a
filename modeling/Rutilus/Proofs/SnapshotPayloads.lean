import Rutilus.Gateway.Payloads
import Rutilus.App.EndpointResources
import Rutilus.Lib.Listing
import Rutilus.Lib.Outcome

/-!
# Which projected resources can be read

The shapes of the writer and of the reader of each family are compared: the names
agree, and so do the kinds of the values, but for two slips. Five counts are
written signed and read unsigned. Four points in time are left out when they are
absent, and are read by a function that wants them to be there. A resource is
readable if it avoids both; the page of an endpoint and the overview load exactly
when all of their resources are.
-/

namespace Rutilus.Proofs.SnapshotPayloads

open Rutilus.Lib Rutilus.Lib.Serde
open Rutilus.Domain hiding ResourceFeature
open Rutilus.Domain.Resource
open Rutilus.Gateway.Payloads (Family CoreResource)
open Rutilus.App.EndpointResources

/-! ## The shapes -/

/-- The shape that the payload of a family is read by. -/
def reader : Family → List Member
  | .serviceRoot => serviceRootPayload
  | .computerSystem => systemPayload
  | .chassis => chassisPayload
  | .manager => managerPayload
  | .dellAttributes => oemDellPayload
  | .smcSysLockdown => oemSmcSysLockdownPayload
  | .smcKcsInterface => oemSmcKcsInterfacePayload
  | .lenovoSecurityService => oemLenovoSecurityServicePayload
  | .nvidiaSystemConfigProfile => oemNvidiaSystemConfigProfilePayload
  | .nvidiaSystemConfigProfileStatus => oemNvidiaSystemConfigProfileStatusPayload
  | .nvidiaSystemProfile => oemNvidiaSystemProfilePayload
  | .nvidiaSystemProfileFile => oemNvidiaSystemProfileFilePayload
  | .nvidiaPowerComplianceManager => oemNvidiaPowerCompliancePayload
  | .nvidiaPowerDomain => oemNvidiaPowerDomainPayload
  | .nvidiaPowerPolicy => oemNvidiaPowerPolicyPayload
  | .nvidiaManagedEntityGroup => oemNvidiaManagedEntityGroupPayload
  | .nvidiaPowerStateGroup => oemNvidiaPowerStateGroupPayload
  | .nvidiaPscState => oemNvidiaPscStatePayload
  | .nvidiaPsuState => oemNvidiaPsuStatePayload
  | .nvidiaPsuRedundancy => oemNvidiaPsuRedundancyPayload
  | .nvidiaManagedEntity => oemNvidiaManagedEntityPayload
  | .processor => processorPayload
  | .memory => memoryPayload
  | .storage => storagePayload
  | .networkAdapter => networkAdapterPayload
  | .ethernetInterface => ethernetInterfacePayload
  | .logService => logServicePayload
  | .managerNetworkProtocol => managerNetworkProtocolPayload
  | .hostInterface => hostInterfacePayload
  | .managerAccount => accountPayload
  | .pcieDevice => pcieDevicePayload
  | .assemblyData => assemblyPayload
  | .softwareInventory => softwareInventoryPayload
  | .eventService => eventServicePayload
  | .eventSubscription => eventSubscriptionPayload
  | .telemetryService => telemetryServicePayload
  | .metricDefinition => metricDefinitionPayload
  | .metricReport => metricReportPayload
  | .taskService => taskServicePayload
  | .task => taskPayload
  | .bios => biosPayload
  | .bootOption => bootOptionPayload
  | .secureBoot => secureBootPayload
  | .power => powerPayload
  | .thermal => thermalPayload
  | .sensor => sensorPayload
  | .control => controlPayload
  | .powerEquipment => powerEquipmentPayload
  | .powerDistribution => powerEquipmentPayload
  | .powerSupply => powerSupplyPayload
  | .amiServiceRoot => oemAmiServiceRootPayload
  | .amiConfigBmc => oemAmiConfigBmcPayload
  | .hpeIloServiceExt => oemHpeILoServiceExtPayload
  | .hpeManager => oemHpeManagerPayload
  | .liteonPowerSupply => oemLiteOnPowerSupplyPayload
  | .deltaPowerSupply => oemDeltaPowerSupplyPayload
  | .networkDeviceFunction => networkDeviceFunctionPayload
  | .environmentMetrics => environmentMetricsPayload

theorem reads (family : Family) :
    Reads (.record family.writes) (object (reader family)) = true := by
  cases family <;> decide +kernel

theorem names_nodup (family : Family) : family.writes.names.Nodup := by
  cases family <;> decide +kernel

/-! ## Where they differ -/

/-- Written as a signed number, and read as an unsigned one. -/
def countField : Family → Option String
  | .processor => some "TotalCores"
  | .memory => some "CapacityMiB"
  | .ethernetInterface => some "SpeedMbps"
  | .logService => some "MaxNumberOfRecords"
  | .task => some "PercentComplete"
  | _ => none

/-- Left out if absent, and wanted by the reader. -/
def dateFields : Family → List String
  | .softwareInventory => ["ReleaseDate"]
  | .task => ["StartTime", "EndTime"]
  | _ => []

/-- The same, once in each value of a list. -/
def valuesField : Family → Option String
  | .metricReport => some "MetricValues"
  | _ => none

theorem risky_eq (family : Family) :
    (ReadFields.ofList (reader family)).risky family.writes =
      (countField family).toList.map (optional · .uint64) ++
      (dateFields family).map (custom · .date) ++
      (valuesField family).toList.map
        (optional · (.list metricValuePayload)) := by
  cases family <;> rfl

/-- The counts are not negative, and the points in time are there. -/
structure Readable {φ δ : Type} (resource : CoreResource φ δ) : Prop where
  counts : ∀ name ∈ countField resource.family, ∀ n,
    resource.fields name = some (.integer n) → 0 ≤ n
  dates : ∀ name ∈ dateFields resource.family, resource.fields name ≠ none
  values : ∀ name ∈ valuesField resource.family, ∀ values,
    resource.fields name = some (.list values) →
      ∀ f, .record f ∈ values → f "Timestamp" ≠ none

section

variable {φ δ : Type}

theorem fieldFits_count {value : Option (Value φ δ)} :
    FieldFits .optional .uint64 value ↔
      ∀ n, value = some (.integer n) → 0 ≤ n := by
  cases value with
  | none => exact ⟨fun _ => nofun, fun _ => nofun⟩
  | some v =>
      cases v with
      | integer m =>
          constructor
          · rintro h n ⟨⟩
            exact h
          · exact fun h => h m rfl
      | text _ | boolean _ | float _ | date _ | list _ | record _ =>
          exact ⟨fun _ => nofun, fun _ => trivial⟩

theorem fieldFits_date {value : Option (Value φ δ)} :
    FieldFits .custom .date value ↔ value ≠ none := by
  cases value with
  | none => exact ⟨fun h => absurd rfl h, fun h => absurd rfl h⟩
  | some v => exact ⟨fun _ => nofun, fun _ => trivial⟩

theorem fits_metricValue {v : Value φ δ} :
    Fits metricValuePayload v ↔ ∀ f, v = .record f → f "Timestamp" ≠ none := by
  cases v with
  | record g =>
      have hgood : FieldFits .optional .text (g "MetricValue") := by
        cases g "MetricValue" with
        | none => exact nofun
        | some v => exact trivial
      have h : Fits metricValuePayload (.record g) ↔
          FieldFits .custom .date (g "Timestamp") ∧
            FieldFits .optional .text (g "MetricValue") ∧ True := Iff.rfl
      rw [h, fieldFits_date]
      constructor
      · rintro h f ⟨⟩
        exact h.1
      · exact fun h => ⟨h g rfl, hgood, trivial⟩
  | text _ | boolean _ | integer _ | float _ | date _ | list _ =>
      exact ⟨fun _ => nofun, fun _ => trivial⟩

theorem fieldFits_values {value : Option (Value φ δ)} :
    FieldFits .optional (.list metricValuePayload) value ↔
      ∀ values, value = some (.list values) →
        ∀ f, .record f ∈ values → f "Timestamp" ≠ none := by
  cases value with
  | none => exact ⟨fun _ => nofun, fun _ => nofun⟩
  | some v =>
      cases v with
      | list xs =>
          constructor
          · rintro h values ⟨⟩ f hf
            exact fits_metricValue.mp (h _ hf) f rfl
          · intro h x hx
            refine fits_metricValue.mpr fun f hf => ?_
            subst hf
            exact h xs rfl f hx
      | text _ | boolean _ | integer _ | float _ | date _ | record _ =>
          exact ⟨fun _ => nofun, fun _ => trivial⟩

theorem fits_iff (resource : CoreResource φ δ) :
    Fits (object (reader resource.family)) (.record resource.fields) ↔
      Readable resource := by
  have h := fitsAll_iff_risky (.ofList (reader resource.family))
    resource.typed.1 resource.typed.2
  rw [risky_eq, List.forall_mem_append, List.forall_mem_append,
    List.forall_mem_map, List.forall_mem_map, List.forall_mem_map] at h
  refine Iff.trans h ?_
  constructor
  · rintro ⟨⟨hcounts, hdates⟩, hvalues⟩
    exact {
      counts := fun name hname =>
        fieldFits_count.mp (hcounts name (Option.mem_toList.mpr hname))
      dates := fun name hname => fieldFits_date.mp (hdates name hname)
      values := fun name hname =>
        fieldFits_values.mp (hvalues name (Option.mem_toList.mpr hname)) }
  · rintro ⟨hcounts, hdates, hvalues⟩
    exact ⟨⟨fun name hname =>
          fieldFits_count.mpr (hcounts name (Option.mem_toList.mp hname)),
        fun name hname => fieldFits_date.mpr (hdates name hname)⟩,
      fun name hname =>
        fieldFits_values.mpr (hvalues name (Option.mem_toList.mp hname))⟩

/-! ## One resource -/

variable (o : Opaque φ δ)

/-- A resource as a refresh stores it. -/
def stored (id : ResourceId) (resource : CoreResource φ δ) : ResourceSnapshot φ where
  resourceId := id
  feature := resource.family.feature
  payload := resource.payload o

variable {o}

theorem projectDocument_stored {documents : List (String × List Member)}
    {id : ResourceId} {resource : CoreResource φ δ} {document : String}
    {fields : List Member}
    (hdocument : resource.family.writes.find "DocumentType" =
      some (true, .constant document))
    (hfields : documents.lookup document = some fields) :
    projectDocument o documents (stored o id resource) =
      deserializePayload o fields (stored o id resource) := by
  have hin : document ∈ documents.map Prod.fst := by
    obtain ⟨before, after, hsplit, -⟩ := List.lookup_eq_some_iff.mp hfields
    rw [hsplit]
    simp
  have hkey : decodeKey o "DocumentType" (.oneOf (documents.map Prod.fst))
      (stored o id resource).payload = some (.text document) := by
    show decodeKey o _ _ (reorder o _) = _
    rw [decodeKey_reorder]
    exact decodeKey_encode resource.typed.1 (names_nodup _) hdocument hin
  unfold projectDocument
  rw [hkey]
  dsimp only
  rw [hfields]

/-- The feature, and for some the kind of the document, choose the shape. -/
theorem projectSnapshot_stored (id : ResourceId) (resource : CoreResource φ δ) :
    projectSnapshot o (stored o id resource) =
      deserializePayload o (reader resource.family) (stored o id resource) := by
  obtain ⟨family, fields, typed⟩ := resource
  cases family <;> first | rfl | exact projectDocument_stored rfl rfl

/-- The reader wants what is stored, whatever the order of its keys. -/
theorem decode_payload (resource : CoreResource φ δ) :
    (Readable resource →
      decode o (object (reader resource.family)) (resource.payload o) =
        some (.record resource.fields)) ∧
    (¬ Readable resource →
      decode (δ := δ) o (object (reader resource.family)) (resource.payload o) =
        none) := by
  have h := decode_encode (o := o) (object (reader resource.family))
    (reads resource.family) resource.typed
  unfold ReadBack at h
  rw [fits_iff] at h
  unfold CoreResource.payload
  rw [decode_reorder]
  exact h

theorem projectSnapshot_readable {resource : CoreResource φ δ}
    (h : Readable resource) (id : ResourceId) :
    projectSnapshot o (stored o id resource) = .ok (.record resource.fields) := by
  rw [projectSnapshot_stored]
  unfold deserializePayload
  rw [show (stored o id resource).payload = resource.payload o from rfl,
    (decode_payload resource).1 h]

theorem projectSnapshot_unreadable {resource : CoreResource φ δ}
    (h : ¬ Readable resource) (id : ResourceId) :
    projectSnapshot (δ := δ) o (stored o id resource) =
      .error (.projection id resource.family.feature) := by
  rw [projectSnapshot_stored]
  unfold deserializePayload
  rw [show (stored o id resource).payload = resource.payload o from rfl,
    (decode_payload resource).2 h]
  rfl

theorem projectSnapshot_ok_iff {resource : CoreResource φ δ} {id : ResourceId} :
    projectSnapshot o (stored o id resource) = .ok (.record resource.fields) ↔
      Readable resource := by
  constructor
  · intro h
    by_contra hnot
    rw [projectSnapshot_unreadable hnot id] at h
    cases h
  · exact fun h => projectSnapshot_readable h id

/-! ## Pages and the overview -/

/-- What a refresh committed of an endpoint. -/
structure Refreshed (φ δ : Type) where
  endpoint : EndpointId
  resources : List (ResourceId × CoreResource φ δ)

variable (o)

def Refreshed.item (refreshed : Refreshed φ δ) : EndpointInventoryItem φ where
  endpoint := refreshed.endpoint
  resources := refreshed.resources.map fun r => stored o r.1 r.2

variable {o}

/-- What was projected of an endpoint. -/
def Refreshed.values (refreshed : Refreshed φ δ) : List (Value φ δ) :=
  refreshed.resources.map fun r => .record r.2.fields

theorem projectLoadedResources_ok_iff {refreshed : Refreshed φ δ} :
    projectLoadedResources o (refreshed.item o) = .ok refreshed.values ↔
      ∀ r ∈ refreshed.resources, Readable r.2 := by
  unfold projectLoadedResources Refreshed.item Refreshed.values
  rw [mapM_map_ok_iff]
  exact forall₂_congr fun r _ => projectSnapshot_ok_iff

theorem find_item (fleet : List (Refreshed φ δ)) (endpoint : EndpointId) :
    (fleet.map (Refreshed.item o)).find? (fun item => item.endpoint = endpoint) =
      (fleet.find? fun r => r.endpoint = endpoint).map (Refreshed.item o) := by
  rw [List.find?_map]
  rfl

theorem execute_ok_iff {fleet : List (Refreshed φ δ)} {endpoint : EndpointId} :
    execute o (fleet.map (Refreshed.item o)) endpoint =
        .ok ((fleet.find? fun r => r.endpoint = endpoint).map
          Refreshed.values) ↔
      ∀ refreshed ∈ fleet.find? fun r => r.endpoint = endpoint,
        ∀ r ∈ refreshed.resources, Readable r.2 := by
  unfold execute
  rw [find_item]
  cases fleet.find? fun r => r.endpoint = endpoint with
  | none => exact ⟨fun _ => nofun, fun _ => rfl⟩
  | some refreshed =>
      dsimp only [Option.map_some]
      have hall : (∀ found ∈ some refreshed, ∀ r ∈ found.resources,
          Readable r.2) ↔ ∀ r ∈ refreshed.resources, Readable r.2 := by
        simp
      rw [hall, ← projectLoadedResources_ok_iff (o := o)]
      constructor
      · intro h
        obtain ⟨values, hvalues, heq⟩ := map_ok h
        rw [hvalues, Option.some.inj heq]
      · intro h
        rw [h]
        rfl

theorem overviewResources_ok_iff {fleet : List (Refreshed φ δ)} :
    overviewResources o (fleet.map (Refreshed.item o)) =
        .ok (fleet.map Refreshed.values) ↔
      ∀ refreshed ∈ fleet, ∀ r ∈ refreshed.resources, Readable r.2 := by
  unfold overviewResources
  rw [mapM_map_ok_iff]
  refine forall₂_congr fun refreshed _ => ?_
  rw [← projectLoadedResources_ok_iff (o := o)]
  constructor
  · exact fun h => mapError_ok h
  · intro h
    rw [h]
    rfl

end

/-- A resource is read as it was projected exactly when it is readable, and
refused otherwise; and the page of an endpoint, and the overview, load exactly
when all of their resources are readable. -/
theorem readable_iff {φ δ : Type} (o : Opaque φ δ) :
    (∀ (id : ResourceId) (resource : CoreResource φ δ),
      (projectSnapshot o (stored o id resource) = .ok (.record resource.fields) ↔
        Readable resource) ∧
      (¬ Readable resource → projectSnapshot (δ := δ) o (stored o id resource) =
        .error (.projection id resource.family.feature))) ∧
    (∀ fleet : List (Refreshed φ δ),
      (∀ endpoint, execute o (fleet.map (Refreshed.item o)) endpoint =
          .ok ((fleet.find? fun r => r.endpoint = endpoint).map
            Refreshed.values) ↔
        ∀ refreshed ∈ fleet.find? fun r => r.endpoint = endpoint,
          ∀ r ∈ refreshed.resources, Readable r.2) ∧
      (overviewResources o (fleet.map (Refreshed.item o)) =
          .ok (fleet.map Refreshed.values) ↔
        ∀ refreshed ∈ fleet, ∀ r ∈ refreshed.resources, Readable r.2)) := by
  constructor
  · intro id resource
    exact ⟨projectSnapshot_ok_iff, fun h => projectSnapshot_unreadable h id⟩
  · intro fleet
    exact ⟨fun endpoint => execute_ok_iff, overviewResources_ok_iff⟩

/-! ## Two resources that cannot be read -/

/-- Dates and fractions do not matter here. -/
def plain : Opaque Unit Unit where
  ofInt _ := ()
  print _ := "2026-01-01T00:00:00Z"
  parse _ := some ()
  parse_print _ := rfl
  sort fields := fields
  sort_perm _ := .refl _

/-- A firmware without a release date. -/
def firmware : CoreResource Unit Unit where
  family := .softwareInventory
  fields name :=
    if name = "Id" then some (.text "BMC")
    else if name = "Name" then some (.text "BMC firmware")
    else none
  typed := by
    refine ⟨⟨trivial, trivial, rfl, rfl, rfl, rfl, rfl, trivial⟩, ?_⟩
    intro name h
    dsimp only
    rw [if_neg, if_neg]
    · rintro rfl
      cases h
    · rintro rfl
      cases h

/-- A processor that reports a negative number of cores. -/
def processor : CoreResource Unit Unit where
  family := .processor
  fields name :=
    if name = "Id" then some (.text "CPU0")
    else if name = "Name" then some (.text "CPU 0")
    else if name = "TotalCores" then some (.integer (-1))
    else none
  typed := by
    refine ⟨⟨trivial, trivial, rfl, rfl, rfl, rfl, rfl, ?_, rfl, trivial⟩, ?_⟩
    · show minInt64 ≤ -1 ∧ -1 ≤ maxInt64
      decide
    intro name h
    dsimp only
    rw [if_neg, if_neg, if_neg]
    · rintro rfl
      cases h
    · rintro rfl
      cases h
    · rintro rfl
      cases h

def refreshed : Refreshed Unit Unit where
  endpoint := ⟨1⟩
  resources := [(⟨1⟩, firmware)]

/-- Neither is read, and the firmware takes the page and the overview with it. -/
theorem firmware_without_date_refused :
    projectSnapshot (δ := Unit) plain (stored plain ⟨1⟩ firmware) =
      .error (.projection ⟨1⟩ .softwareInventory) ∧
    projectSnapshot (δ := Unit) plain (stored plain ⟨2⟩ processor) =
      .error (.projection ⟨2⟩ .processors) ∧
    execute (δ := Unit) plain [refreshed.item plain] ⟨1⟩ =
      .error (.projection ⟨1⟩ .softwareInventory) ∧
    overviewResources (δ := Unit) plain [refreshed.item plain] =
      .error (.resources ⟨1⟩ (.projection ⟨1⟩ .softwareInventory)) :=
  ⟨rfl, rfl, rfl, rfl⟩

end Rutilus.Proofs.SnapshotPayloads
