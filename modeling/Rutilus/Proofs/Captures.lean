import Rutilus.Gateway.CoreResources

/-!
# What a core read captures

Whatever tree is read, everything that it skips is captured for at least one
feature, under the closed namespaces and summaries of the gateway; so the adapter
makes a record of every capture and leaves nothing of it out.

The walk is taken apart reader by reader: a reader keeps this if its parts do.
-/

namespace Rutilus.Proofs.Captures

open Rutilus.Domain hiding ResourceFeature
open Rutilus.Domain.Resource Rutilus.Lib Rutilus.Gateway

variable {canonicalize : Canonicalize} {α : Type}

/-! ## Captures as records -/

/-- What the checks of a record ask for. -/
structure Recordable (c : DecodeFailureObservation) : Prop where
  oemNamespace : checkOemNamespace c.oemNamespace = .ok ()
  errorSummary : checkErrorSummary c.errorSummary = .ok ()

def entryOf (entry : ResourceExtendedInfo) : DecodeFailureExtendedInfo :=
  ⟨entry.messageId, entry.message, entry.severity, entry.resolution,
    entry.relatedProperties⟩

/-- The capture that a record was made of. -/
def captureOf (failure : ResourceDecodeFailure) : DecodeFailureObservation :=
  ⟨failure.odataUri, failure.odataType, failure.feature, failure.oemNamespace,
    failure.errorSummary, failure.extendedInfo.map entryOf⟩

theorem projectDecodeFailure_recordable {c : DecodeFailureObservation}
    (h : Recordable c) :
    ∃ failure, projectDecodeFailure c = some failure ∧ captureOf failure = c := by
  refine ⟨⟨c.odataUri, c.odataType, c.feature, c.oemNamespace, c.errorSummary,
    c.extendedInfo.map projectExtendedInfo, h.oemNamespace, h.errorSummary⟩, ?_, ?_⟩
  · have hself := ResourceDecodeFailure.tryNew_self ⟨c.odataUri, c.odataType,
      c.feature, c.oemNamespace, c.errorSummary,
      c.extendedInfo.map projectExtendedInfo, h.oemNamespace, h.errorSummary⟩
    dsimp only at hself
    rw [projectDecodeFailure, hself]
    rfl
  · unfold captureOf
    dsimp only
    rw [List.map_map]
    have hsame : entryOf ∘ projectExtendedInfo = id := rfl
    rw [hsame, List.map_id]

/-- Every capture becomes a record, with nothing changed. -/
theorem map_captureOf {captures : List DecodeFailureObservation}
    (h : ∀ c ∈ captures, Recordable c) :
    (captures.filterMap projectDecodeFailure).map captureOf = captures := by
  induction captures with
  | nil => rfl
  | cons c rest ih =>
      obtain ⟨failure, hproject, hcapture⟩ :=
        projectDecodeFailure_recordable (h c List.mem_cons_self)
      rw [List.filterMap_cons_some hproject, List.map_cons, hcapture,
        ih fun c' hc' => h c' (List.mem_cons_of_mem _ hc')]

theorem checkOemNamespace_for (feature : ResourceFeature) :
    checkOemNamespace (oemNamespaceFor feature) = .ok () := by
  cases feature <;> rfl

theorem checkErrorSummary_classification (c : MemberFailureClassification) :
    checkErrorSummary c.summary = .ok () := by
  cases c <;> rfl

theorem capturesOf_recordable {odataUri summary : String}
    {features : List ResourceFeature}
    {extendedInfo : List DecodeFailureExtendedInfo}
    (hsummary : checkErrorSummary summary = .ok ()) :
    ∀ c ∈ capturesOf odataUri features summary extendedInfo, Recordable c := by
  intro c hc
  unfold capturesOf at hc
  split at hc
  · cases hc
  · obtain ⟨feature, -, rfl⟩ := List.mem_map.mp hc
    exact ⟨checkOemNamespace_for feature, hsummary⟩

/-! ## What is skipped -/

def skippedUri : Skipped → String
  | .member odataUri _ _ _ => odataUri
  | .projection odataUri _ => odataUri
  | .segment carrierUri _ _ => carrierUri

/-- The features on whose behalf something was skipped. -/
def skippedFeatures : Skipped → List ResourceFeature
  | .member _ features _ _ => features
  | .projection _ (.invalidODataId feature _) => [feature]
  | .projection _ (.invalidEtag feature _) => [feature]
  | .projection _ (.serializePayload feature) => [feature]
  | .projection _ (.invalidPayload feature _) => [feature]
  | .projection _ _ => []
  | .segment _ features _ => features

/-- The identifier can be represented. -/
def Represented (v : Skipped) : Prop :=
  ∃ odataUri, ResourceODataId.parse (skippedUri v) = .ok odataUri

theorem capturesOf_map {odataUri summary : String}
    {features : List ResourceFeature}
    {extendedInfo : List DecodeFailureExtendedInfo} {parsed : ResourceODataId}
    (h : ResourceODataId.parse odataUri = .ok parsed) :
    (capturesOf odataUri features summary extendedInfo).map (·.odataUri) =
      List.replicate features.length parsed := by
  unfold capturesOf
  rw [h]
  dsimp only
  rw [List.map_map]
  exact List.map_const' ..

theorem captures_uris {v : Skipped} {parsed : ResourceODataId}
    (h : ResourceODataId.parse (skippedUri v) = .ok parsed) :
    v.captures.map (·.odataUri) =
      List.replicate (skippedFeatures v).length parsed := by
  cases v with
  | member odataUri features classification extendedInfo => exact capturesOf_map h
  | projection odataUri failure =>
      cases failure with
      | redfish source => rfl
      | invalidODataId feature source => exact capturesOf_map h
      | invalidEtag feature source => exact capturesOf_map h
      | serializePayload feature => exact capturesOf_map h
      | invalidPayload feature source => exact capturesOf_map h
      | readAndSessionCleanupFailed read cleanup => rfl
  | segment carrierUri features summary => exact capturesOf_map h

theorem capturesOf_error {odataUri summary : String}
    {features : List ResourceFeature}
    {extendedInfo : List DecodeFailureExtendedInfo} {e : ExactTextError}
    (h : ResourceODataId.parse odataUri = .error e) :
    capturesOf odataUri features summary extendedInfo = [] := by
  unfold capturesOf
  rw [h]

theorem captures_error {v : Skipped} {e : ExactTextError}
    (h : ResourceODataId.parse (skippedUri v) = .error e) : v.captures = [] := by
  cases v with
  | member odataUri features classification extendedInfo => exact capturesOf_error h
  | projection odataUri failure =>
      cases failure with
      | redfish source => rfl
      | invalidODataId feature source => exact capturesOf_error h
      | invalidEtag feature source => exact capturesOf_error h
      | serializePayload feature => exact capturesOf_error h
      | invalidPayload feature source => exact capturesOf_error h
      | readAndSessionCleanupFailed read cleanup => rfl
  | segment carrierUri features summary => exact capturesOf_error h

/-- What every reader keeps to. -/
structure Captured (v : Skipped) : Prop where
  features : skippedFeatures v ≠ []
  recordable : ∀ c ∈ v.captures, Recordable c

abbrev Keeps (r : Read α) : Prop := Collect.Logs Captured r

/-! ## The readers -/

theorem keeps_fetchMember (link : Link α) {features : List ResourceFeature}
    (h : features ≠ []) : Keeps (fetchMember link features) := by
  unfold fetchMember
  split
  · exact .pure _
  · split
    · exact .fail _
    · next classification _ =>
        refine (Collect.Logs.append fun v hv => ?_).bind fun _ => .pure _
        cases List.mem_singleton.mp hv
        exact ⟨h, capturesOf_recordable
          (checkErrorSummary_classification classification)⟩

theorem keeps_memberProjection (odataUri : String)
    (projection : Projected canonicalize) :
    Keeps (memberProjection odataUri projection) := by
  have hskip : ∀ failure, Captured (.projection odataUri failure) →
      Keeps (do
        Collect.append [Skipped.projection odataUri failure]
        pure none : Read (Option (CoreResourceProjection canonicalize))) := by
    intro failure hfailure
    refine (Collect.Logs.append fun v hv => ?_).bind fun _ => .pure _
    cases List.mem_singleton.mp hv
    exact hfailure
  cases projection with
  | ok projection => exact .pure _
  | error failure =>
      cases failure with
      | redfish source => exact .fail _
      | readAndSessionCleanupFailed read cleanup => exact .fail _
      | invalidODataId feature source =>
          exact hskip _ ⟨List.cons_ne_nil _ _, capturesOf_recordable rfl⟩
      | invalidEtag feature source =>
          exact hskip _ ⟨List.cons_ne_nil _ _, capturesOf_recordable rfl⟩
      | serializePayload feature =>
          exact hskip _ ⟨List.cons_ne_nil _ _, capturesOf_recordable rfl⟩
      | invalidPayload feature source =>
          exact hskip _ ⟨List.cons_ne_nil _ _, capturesOf_recordable rfl⟩

theorem keeps_segment (carrierUri : String) {features : List ResourceFeature}
    {summary : String} (h : features ≠ [])
    (hsummary : checkErrorSummary summary = .ok ()) :
    Keeps (Collect.append [Skipped.segment carrierUri features summary]) := by
  refine .append fun v hv => ?_
  cases List.mem_singleton.mp hv
  exact ⟨h, capturesOf_recordable hsummary⟩

theorem keeps_fetchCollection (link : Link (Collection α)) :
    Keeps (fetchCollection link) := by
  unfold fetchCollection
  split
  · exact .pure _
  · exact .fail _

theorem keeps_withMember (link : Link α) {features : List ResourceFeature}
    {next : α → Reading canonicalize} (h : features ≠ [])
    (hnext : ∀ member, Keeps (next member)) :
    Keeps (withMember link features next) := by
  refine (keeps_fetchMember link h).bind fun found => ?_
  cases found with
  | none => exact .pure _
  | some member => exact hnext member

theorem keeps_withLink (link : Option (Link α)) {features : List ResourceFeature}
    {next : α → Reading canonicalize} (h : features ≠ [])
    (hnext : ∀ member, Keeps (next member)) :
    Keeps (withLink link features next) := by
  cases link with
  | none => exact .pure _
  | some link => exact keeps_withMember link h hnext

@[simp]
theorem keeps_projected (odataUri : String) (projection : Projected canonicalize) :
    Keeps (projected odataUri projection) := by
  refine (keeps_memberProjection odataUri projection).bind fun found => ?_
  cases found with
  | none => exact .pure _
  | some projection => exact .pure _

theorem keeps_projectedThen (document : Document canonicalize)
    {next : Reading canonicalize} (h : Keeps next) :
    Keeps (projectedThen document next) := by
  refine (keeps_memberProjection _ _).bind fun found => ?_
  cases found with
  | none => exact .pure _
  | some projection => exact h.bind fun rest => .pure _

theorem keeps_readEach (link : Option (Link (Collection α)))
    {body : Link α → Reading canonicalize} (h : ∀ member, Keeps (body member)) :
    Keeps (readEach link body) := by
  cases link with
  | none => exact .pure _
  | some link =>
      exact (keeps_fetchCollection link).bind fun collection =>
        .forEach h collection.members

theorem keeps_readMember (feature : ResourceFeature)
    (link : Link (Document canonicalize)) : Keeps (readMember feature link) :=
  keeps_withMember link (List.cons_ne_nil _ _) fun _ => keeps_projected _ _

@[simp]
theorem keeps_readMembers (feature : ResourceFeature)
    (members : List (Link (Document canonicalize))) :
    Keeps (readMembers feature members) :=
  .forEach (keeps_readMember feature) members

@[simp]
theorem keeps_readSingletonResources (link : Option (Link (Document canonicalize)))
    (feature : ResourceFeature) : Keeps (readSingletonResources link feature) :=
  keeps_withLink link (List.cons_ne_nil _ _) fun _ => keeps_projected _ _

@[simp]
theorem keeps_readCollectionResources
    (link : Option (Link (Collection (Document canonicalize))))
    (feature : ResourceFeature) : Keeps (readCollectionResources link feature) :=
  keeps_readEach link (keeps_readMember feature)

@[simp]
theorem keeps_readNavLinkMembers (links : Option (List (Link (Document canonicalize))))
    (feature : ResourceFeature) : Keeps (readNavLinkMembers links feature) := by
  cases links with
  | none => exact .pure _
  | some links => exact keeps_readMembers feature links

theorem keeps_decodeNvidiaNavigation (value : NvidiaValue α)
    (kind : NvidiaSegmentKind) {features : List ResourceFeature}
    (carrierUri : String) (h : features ≠ []) :
    Keeps (decodeNvidiaNavigation value kind features carrierUri) := by
  cases value with
  | reference id =>
      cases id with
      | none => exact .pure _
      | some link =>
          refine (keeps_fetchMember link h).bind fun found => ?_
          cases found with
          | none => exact .pure _
          | some navigation => exact .pure _
  | embedded found decoded =>
      unfold decodeNvidiaNavigation
      dsimp only
      split
      · cases decoded with
        | some navigation => exact .pure _
        | none => exact (keeps_segment carrierUri h rfl).bind fun _ => .pure _
      · exact .pure _

/-! ### Systems -/

@[simp]
theorem keeps_readNvidiaProfileCollection
    (link : Option (Link (Collection (SystemProfile canonicalize)))) :
    Keeps (readNvidiaProfileCollection link) :=
  keeps_withLink link (List.cons_ne_nil _ _) fun collection =>
    .forEach (fun link => keeps_withMember link (List.cons_ne_nil _ _) fun member =>
      .inTurn (by simp)) collection.members

@[simp]
theorem keeps_readSystemNvidiaOem (system : ComputerSystem canonicalize) :
    Keeps (readSystemNvidiaOem system) := by
  unfold readSystemNvidiaOem
  split
  · exact .pure _
  · next value _ =>
      exact (keeps_decodeNvidiaNavigation value _ _ (List.cons_ne_nil _ _)).bind
        fun link => keeps_withLink link (List.cons_ne_nil _ _) fun profile =>
          .inTurn (by simp)

theorem keeps_readSystem (system : ComputerSystem canonicalize) :
    Keeps (readSystem system) :=
  keeps_projectedThen _ (.inTurn (by simp))

@[simp]
theorem keeps_readSystemsResources (root : ServiceRoot canonicalize) :
    Keeps (readSystemsResources root) :=
  keeps_readEach _ fun link =>
    keeps_withMember link (List.cons_ne_nil _ _) keeps_readSystem

/-! ### Chassis -/

@[simp]
theorem keeps_readNetworkAdapterResources
    (link : Option (Link (Collection (NetworkAdapter canonicalize)))) :
    Keeps (readNetworkAdapterResources link) :=
  keeps_readEach link fun link =>
    keeps_withMember link (List.cons_ne_nil _ _) fun adapter => .inTurn (by simp)

@[simp]
theorem keeps_readAssemblyResources (link : Option (Link (Assembly canonicalize))) :
    Keeps (readAssemblyResources link) :=
  keeps_withLink link (List.cons_ne_nil _ _) fun _ => keeps_readNavLinkMembers _ _

@[simp]
theorem keeps_readPowerSupplyResources
    (link : Option (PowerSubsystemLink canonicalize)) :
    Keeps (readPowerSupplyResources link) :=
  keeps_withLink _ (List.cons_ne_nil _ _) fun _ =>
    keeps_readCollectionResources _ _

theorem keeps_readLiteonPowerSupplyResources (chassis : Chassis canonicalize) :
    Keeps (readLiteonPowerSupplyResources chassis) :=
  keeps_withLink _ (List.cons_ne_nil _ _) fun _ =>
    keeps_readCollectionResources _ _

theorem keeps_readDeltaPowerSupply (supply : DeltaPowerSupply canonicalize) :
    Keeps (readDeltaPowerSupply supply) := by
  unfold readDeltaPowerSupply
  split
  · exact .pure _
  · exact keeps_projected _ _

theorem keeps_readDeltaPowerSupplyResources (chassis : Chassis canonicalize) :
    Keeps (readDeltaPowerSupplyResources chassis) :=
  keeps_withLink _ (List.cons_ne_nil _ _) fun subsystem =>
    keeps_readEach _ fun link =>
      keeps_withMember link (List.cons_ne_nil _ _) keeps_readDeltaPowerSupply

@[simp]
theorem keeps_readChassisOemResources (chassis : Chassis canonicalize) :
    Keeps (readChassisOemResources chassis) := by
  refine .inTurn fun r hr => ?_
  rcases List.mem_pair.mp hr with rfl | rfl
  · split
    · exact keeps_readLiteonPowerSupplyResources chassis
    · exact .pure _
  · split
    · exact keeps_readDeltaPowerSupplyResources chassis
    · exact .pure _

theorem keeps_readChassis (chassis : Chassis canonicalize) :
    Keeps (readChassis chassis) :=
  keeps_projectedThen _ (.inTurn (by simp))

@[simp]
theorem keeps_readChassisResources (root : ServiceRoot canonicalize) :
    Keeps (readChassisResources root) :=
  keeps_readEach _ fun link =>
    keeps_withMember link (List.cons_ne_nil _ _) keeps_readChassis

/-! ### Managers -/

@[simp]
theorem keeps_readManagerDellAttributes (manager : Manager canonicalize) :
    Keeps (readManagerDellAttributes manager) :=
  keeps_withLink _ (List.cons_ne_nil _ _) fun _ => keeps_projected _ _

@[simp]
theorem keeps_readManagerSupermicroOem (manager : Manager canonicalize) :
    Keeps (readManagerSupermicroOem manager) := by
  unfold readManagerSupermicroOem
  split
  · exact .pure _
  · exact (keeps_segment _ (List.cons_ne_nil _ _) rfl).bind fun _ => .pure _
  · exact .inTurn (by simp)

@[simp]
theorem keeps_readNvidiaCollection
    (link : Option (Link (Collection (Document canonicalize))))
    (feature : ResourceFeature) : Keeps (readNvidiaCollection link feature) :=
  keeps_withLink link (List.cons_ne_nil _ _) fun _ => keeps_readMembers _ _

@[simp]
theorem keeps_readNvidiaManagedEntityGroups
    (link : Option (Link (Collection (ManagedEntityGroup canonicalize)))) :
    Keeps (readNvidiaManagedEntityGroups link) :=
  keeps_withLink link (List.cons_ne_nil _ _) fun collection =>
    .forEach (fun link => keeps_withMember link (List.cons_ne_nil _ _) fun group =>
      .inTurn (by simp [readNvidiaManagedEntityCollection])) collection.members

@[simp]
theorem keeps_readNvidiaPowerStateGroup
    (link : Option (Link (PowerStateGroup canonicalize))) :
    Keeps (readNvidiaPowerStateGroup link) :=
  keeps_withLink link (List.cons_ne_nil _ _) fun group => .inTurn
    (by simp [readNvidiaPscStateCollection, readNvidiaPsuStateCollection])

@[simp]
theorem keeps_readManagerNvidiaOem (manager : Manager canonicalize) :
    Keeps (readManagerNvidiaOem manager) := by
  unfold readManagerNvidiaOem
  split
  · exact .pure _
  · next value _ =>
      exact (keeps_decodeNvidiaNavigation value _ _ (List.cons_ne_nil _ _)).bind
        fun link => keeps_withLink link (List.cons_ne_nil _ _) fun compliance =>
          .inTurn (by simp [readNvidiaPowerDomainCollection])

@[simp]
theorem keeps_readManagerLenovoOem (manager : Manager canonicalize) :
    Keeps (readManagerLenovoOem manager) := by
  unfold readManagerLenovoOem
  split
  · exact .pure _
  · exact (keeps_segment _ (List.cons_ne_nil _ _) rfl).bind fun _ => .pure _
  · exact keeps_readSingletonResources _ _

@[simp]
theorem keeps_readManagerAmiOem (manager : Manager canonicalize) :
    Keeps (readManagerAmiOem manager) := by
  unfold readManagerAmiOem
  split
  · exact keeps_readSingletonResources _ _
  · exact .pure _

@[simp]
theorem keeps_readManagerHpeOem (manager : Manager canonicalize) :
    Keeps (readManagerHpeOem manager) := by
  unfold readManagerHpeOem
  split
  · exact .pure _
  · exact (keeps_segment _ (List.cons_ne_nil _ _) rfl).bind fun _ => .pure _
  · exact keeps_projected _ _

theorem keeps_readManager (manager : Manager canonicalize) :
    Keeps (readManager manager) :=
  keeps_projectedThen _ (.inTurn (by simp))

@[simp]
theorem keeps_readManagerResources (root : ServiceRoot canonicalize) :
    Keeps (readManagerResources root) :=
  keeps_readEach _ fun link =>
    keeps_withMember link (List.cons_ne_nil _ _) keeps_readManager

/-! ### The root and its services -/

theorem keeps_readRootSegment (root : ServiceRoot canonicalize)
    (segment : Gateway.Segment (Projected canonicalize)) (feature : ResourceFeature)
    {summary : String} (h : checkErrorSummary summary = .ok ()) :
    Keeps (readRootSegment root segment feature summary) := by
  unfold readRootSegment
  split
  · exact .pure _
  · exact (keeps_segment _ (List.cons_ne_nil _ _) h).bind fun _ => .pure _
  · exact keeps_projected _ _

@[simp]
theorem keeps_readRootOemSurfaces (root : ServiceRoot canonicalize) :
    Keeps (readRootOemSurfaces root) := by
  refine .inTurn fun r hr => ?_
  rcases List.mem_pair.mp hr with rfl | rfl
  · exact keeps_readRootSegment root _ _ rfl
  · exact keeps_readRootSegment root _ _ rfl

@[simp]
theorem keeps_serviceRootProjection (root : ServiceRoot canonicalize) :
    Keeps (serviceRootProjection root) := by
  unfold serviceRootProjection
  split
  · exact .pure _
  · exact .fail _

@[simp]
theorem keeps_readAccountResources (root : ServiceRoot canonicalize) :
    Keeps (readAccountResources root) :=
  keeps_withLink _ (List.cons_ne_nil _ _) fun _ =>
    keeps_readCollectionResources _ _

@[simp]
theorem keeps_readSoftwareInventoryResources (root : ServiceRoot canonicalize) :
    Keeps (readSoftwareInventoryResources root) :=
  keeps_withLink _ (List.cons_ne_nil _ _) fun _ =>
    keeps_readCollectionResources _ _

@[simp]
theorem keeps_readEventServiceResources (root : ServiceRoot canonicalize) :
    Keeps (readEventServiceResources root) :=
  keeps_withLink _ (List.cons_ne_nil _ _) fun _ =>
    .inTurn (by simp [readEventSubscriptionResources])

@[simp]
theorem keeps_readTelemetryServiceResources (root : ServiceRoot canonicalize) :
    Keeps (readTelemetryServiceResources root) :=
  keeps_withLink _ (List.cons_ne_nil _ _) fun _ => .inTurn (by simp)

@[simp]
theorem keeps_readTaskServiceResources (root : ServiceRoot canonicalize) :
    Keeps (readTaskServiceResources root) :=
  keeps_withLink _ (List.cons_ne_nil _ _) fun _ => .inTurn (by simp)

@[simp]
theorem keeps_readPowerEquipmentResources (root : ServiceRoot canonicalize) :
    Keeps (readPowerEquipmentResources root) :=
  keeps_withLink _ (List.cons_ne_nil _ _) fun _ => .inTurn (by simp)

theorem keeps_readResources (root : ServiceRoot canonicalize) :
    Keeps (readResources root) :=
  .inTurn (by simp)

theorem read_captured {root : ServiceRoot canonicalize}
    {outcome : CoreResourceReadOutcome canonicalize}
    (h : readAuthenticatedCoreResources root = .ok outcome) :
    ∀ v ∈ outcome.skipped, Captured v := by
  unfold readAuthenticatedCoreResources at h
  split at h
  · cases h
  · next resources skipped hread =>
      cases h
      obtain ⟨more, rfl, hmore⟩ := keeps_readResources root [] resources skipped hread
      exact hmore

/-- Every capture is recorded, with nothing changed. -/
theorem map_captureOf_records {root : ServiceRoot canonicalize}
    {outcome : CoreResourceReadOutcome canonicalize}
    (h : readAuthenticatedCoreResources root = .ok outcome) :
    outcome.records.map captureOf = outcome.decodeFailures := by
  refine map_captureOf fun c hc => ?_
  obtain ⟨v, hv, hc⟩ := List.mem_flatMap.mp hc
  exact (read_captured h v hv).recordable c hc

/-! ## Captures with one identifier -/

/-- What was skipped, as far as it can be represented, was skipped for one feature
each and has identifiers of its own. -/
structure Apart (skipped : List Skipped) : Prop where
  single : ∀ v ∈ skipped, Represented v → (skippedFeatures v).length = 1
  distinct : skipped.Pairwise fun v w =>
    Represented v → Represented w → skippedUri v ≠ skippedUri w

theorem parse_text_eq {value : String} {parsed : ResourceODataId}
    (h : ResourceODataId.parse value = .ok parsed) : parsed.text = value := by
  unfold ResourceODataId.parse at h
  split at h
  · cases h
  · cases h
    rfl

theorem mem_captures_uris {v : Skipped} (hv : Captured v) {odataUri : ResourceODataId} :
    odataUri ∈ v.captures.map (·.odataUri) ↔
      ResourceODataId.parse (skippedUri v) = .ok odataUri := by
  cases hparse : ResourceODataId.parse (skippedUri v) with
  | error e =>
      rw [captures_error hparse]
      exact iff_of_false List.not_mem_nil nofun
  | ok parsed =>
      rw [captures_uris hparse, List.mem_replicate, Except.ok.injEq, eq_comm]
      exact and_iff_right fun hlength =>
        hv.features (List.length_eq_zero_iff.mp hlength)

theorem captures_nodup_iff {v : Skipped} (hv : Captured v) :
    (v.captures.map (·.odataUri)).Nodup ↔
      (Represented v → (skippedFeatures v).length = 1) := by
  unfold Represented
  cases hparse : ResourceODataId.parse (skippedUri v) with
  | error e =>
      rw [captures_error hparse]
      refine iff_of_true List.nodup_nil ?_
      rintro ⟨parsed, h⟩
      cases h
  | ok parsed =>
      have hpositive := List.length_pos_iff.mpr hv.features
      rw [captures_uris hparse, List.nodup_replicate]
      constructor
      · intro h _
        omega
      · intro h
        have hone := h ⟨parsed, rfl⟩
        omega

theorem captures_disjoint_iff {v w : Skipped} (hv : Captured v) (hw : Captured w) :
    (v.captures.map (·.odataUri)).Disjoint (w.captures.map (·.odataUri)) ↔
      (Represented v → Represented w → skippedUri v ≠ skippedUri w) := by
  unfold List.Disjoint
  constructor
  · rintro h ⟨parsed, hparsed⟩ - heq
    exact h ((mem_captures_uris hv).mpr hparsed)
      ((mem_captures_uris hw).mpr (heq ▸ hparsed))
  · intro h odataUri hin hin'
    have hparsed := (mem_captures_uris hv).mp hin
    have hparsed' := (mem_captures_uris hw).mp hin'
    exact h ⟨_, hparsed⟩ ⟨_, hparsed'⟩
      ((parse_text_eq hparsed).symm.trans (parse_text_eq hparsed'))

theorem nodup_iff_apart {skipped : List Skipped} (h : ∀ v ∈ skipped, Captured v) :
    ((skipped.flatMap Skipped.captures).map (·.odataUri)).Nodup ↔
      Apart skipped := by
  rw [List.map_flatMap, List.nodup_flatMap]
  have hsingle : (∀ v ∈ skipped, (v.captures.map (·.odataUri)).Nodup) ↔
      ∀ v ∈ skipped, Represented v → (skippedFeatures v).length = 1 :=
    forall₂_congr fun v hv => captures_nodup_iff (h v hv)
  have hdistinct : skipped.Pairwise (Function.onFun List.Disjoint
        fun v => v.captures.map (·.odataUri)) ↔
      skipped.Pairwise fun v w =>
        Represented v → Represented w → skippedUri v ≠ skippedUri w :=
    List.Pairwise.iff_of_mem fun hv hw => captures_disjoint_iff (h _ hv) (h _ hw)
  rw [hsingle, hdistinct]
  exact ⟨fun h => ⟨h.1, h.2⟩, fun h => ⟨h.single, h.distinct⟩⟩

end Rutilus.Proofs.Captures
