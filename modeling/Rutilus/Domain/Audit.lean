import Rutilus.Domain.Endpoint
import Rutilus.Domain.User

/-!
# The audit trail

An audited operation leaves a trail of events that share one context: who acted, on
what, under which permission and through which Redfish operation. A trail starts
with `Started`, may record progress, and ends with `Succeeded` or `Failed`. Contexts
and events are only built by constructors that check them, so what they checked is a
field here.

Every vocabulary has a stable code for each of its words, and a code is read back to
its word.
-/

namespace Rutilus.Domain.Audit

open Rutilus.Domain Rutilus.Domain.Endpoint

structure AuditOperationId where
  uuid : Nat
  deriving DecidableEq, Repr

structure AuditEventId where
  uuid : Nat
  deriving DecidableEq, Repr

/-! ## Vocabularies -/

/-- The word of a vocabulary that has a code. -/
def wordOf {α : Type} (words : List α) (asStr : α → String) (value : String) :
    Option α :=
  words.find? fun word => asStr word = value

inductive AuditActor where
  | system
  | localOperator
  | user
  deriving DecidableEq, Repr

def AuditActor.asStr : AuditActor → String
  | .system => "system"
  | .localOperator => "local-operator"
  | .user => "user"

def AuditActor.fromStr : String → Option AuditActor :=
  wordOf [.system, .localOperator, .user] asStr

theorem AuditActor.fromStr_asStr (actor : AuditActor) :
    fromStr actor.asStr = some actor := by
  cases actor <;> rfl

inductive DeploymentPosture where
  | standalone
  | site
  | center
  deriving DecidableEq, Repr

def DeploymentPosture.asStr : DeploymentPosture → String
  | .standalone => "standalone"
  | .site => "site"
  | .center => "center"

def DeploymentPosture.fromStr : String → Option DeploymentPosture :=
  wordOf [.standalone, .site, .center] asStr

theorem DeploymentPosture.fromStr_asStr (posture : DeploymentPosture) :
    fromStr posture.asStr = some posture := by
  cases posture <;> rfl

inductive ProductPermission where
  | manageEndpoints
  | refreshEndpoints
  | executeOperations
  | manageCredentials
  | manageUsers
  | manageBackups
  | manageSiteSettings
  | manageCenterBindings
  | dispatchCenterOperations
  | authenticate
  deriving DecidableEq, Repr

def ProductPermission.asStr : ProductPermission → String
  | .manageEndpoints => "manage-endpoints"
  | .refreshEndpoints => "refresh-endpoints"
  | .executeOperations => "execute-operations"
  | .manageCredentials => "manage-credentials"
  | .manageUsers => "manage-users"
  | .manageBackups => "manage-backups"
  | .manageSiteSettings => "manage-site-settings"
  | .manageCenterBindings => "manage-center-bindings"
  | .dispatchCenterOperations => "dispatch-center-operations"
  | .authenticate => "authenticate"

def ProductPermission.fromStr : String → Option ProductPermission :=
  wordOf [.manageEndpoints, .refreshEndpoints, .executeOperations,
    .manageCredentials, .manageUsers, .manageBackups, .manageSiteSettings,
    .manageCenterBindings, .dispatchCenterOperations, .authenticate] asStr

theorem ProductPermission.fromStr_asStr (permission : ProductPermission) :
    fromStr permission.asStr = some permission := by
  cases permission <;> rfl

inductive AuditAction where
  | enrollEndpoint
  | refreshEndpoint
  | importEndpoints
  | executeOperation
  | login
  | logout
  | changePassword
  | manageUsers
  | manageSessions
  | manageTotp
  | manageBackups
  | manageSettings
  | registerSiteBinding
  | revokeSiteBinding
  | dispatchCenterOperation
  deriving DecidableEq, Repr

def AuditAction.asStr : AuditAction → String
  | .enrollEndpoint => "enroll-endpoint"
  | .refreshEndpoint => "refresh-endpoint"
  | .importEndpoints => "import-endpoints"
  | .executeOperation => "execute-operation"
  | .login => "login"
  | .logout => "logout"
  | .changePassword => "change-password"
  | .manageUsers => "manage-users"
  | .manageSessions => "manage-sessions"
  | .manageTotp => "manage-totp"
  | .manageBackups => "manage-backups"
  | .manageSettings => "manage-settings"
  | .registerSiteBinding => "register-site-binding"
  | .revokeSiteBinding => "revoke-site-binding"
  | .dispatchCenterOperation => "dispatch-center-operation"

def AuditAction.fromStr : String → Option AuditAction :=
  wordOf [.enrollEndpoint, .refreshEndpoint, .importEndpoints, .executeOperation,
    .login, .logout, .changePassword, .manageUsers, .manageSessions, .manageTotp,
    .manageBackups, .manageSettings, .registerSiteBinding, .revokeSiteBinding,
    .dispatchCenterOperation] asStr

theorem AuditAction.fromStr_asStr (action : AuditAction) :
    fromStr action.asStr = some action := by
  cases action <;> rfl

/-- Whether the action names a subject distinct from its actor. -/
def AuditAction.namesDistinctTargetPrincipal (action : AuditAction) : Bool :=
  action = .changePassword

/-- The writes of an execution and its polling are in one family. -/
inductive AuditRedfishOperation where
  | none
  | probeCoreCapabilities
  | readCoreResources
  | execution (operation : Rutilus.Domain.AuditRedfishOperation)
  deriving DecidableEq, Repr

def executionCode : Rutilus.Domain.AuditRedfishOperation → String
  | .createAccount => "create-account"
  | .updateAccount => "update-account"
  | .updateAccountPassword => "update-account-password"
  | .updateAccountUserName => "update-account-user-name"
  | .deleteAccount => "delete-account"
  | .resetSystem => "reset-system"
  | .resetManager => "reset-manager"
  | .managerResetToDefaults => "manager-reset-to-defaults"
  | .resetChassis => "reset-chassis"
  | .powerSupplyReset => "power-supply-reset"
  | .setBootSourceOverride => "set-boot-source-override"
  | .secureBootEnable => "secure-boot-enable"
  | .secureBootDisable => "secure-boot-disable"
  | .secureBootResetKeys => "secure-boot-reset-keys"
  | .createEventSubscription => "create-event-subscription"
  | .deleteEventSubscription => "delete-event-subscription"
  | .logClear => "log-clear"
  | .controlUpdate => "control-update"
  | .setTelemetryEnabled => "set-telemetry-enabled"
  | .createMetricDefinition => "create-metric-definition"
  | .updateMetricDefinition => "update-metric-definition"
  | .deleteMetricDefinition => "delete-metric-definition"
  | .createMetricReportDefinition => "create-metric-report-definition"
  | .updateMetricReportDefinition => "update-metric-report-definition"
  | .deleteMetricReportDefinition => "delete-metric-report-definition"
  | .updateFirmware => "update-firmware"
  | .updateServicePatch => "update-service-patch"
  | .oemSystemConfigProfile => "oem-system-config-profile"
  | .oemDebugToken => "oem-debug-token"
  | .oemPowerSmoothing => "oem-power-smoothing"
  | .pollRemoteTask => "poll-remote-task"

def AuditRedfishOperation.asStr : AuditRedfishOperation → String
  | .none => "none"
  | .probeCoreCapabilities => "probe-core-capabilities"
  | .readCoreResources => "read-core-resources"
  | .execution operation => executionCode operation

def executions : List Rutilus.Domain.AuditRedfishOperation :=
  [.createAccount, .updateAccount, .updateAccountPassword, .updateAccountUserName,
    .deleteAccount, .resetSystem, .resetManager, .managerResetToDefaults,
    .resetChassis, .powerSupplyReset, .setBootSourceOverride, .secureBootEnable,
    .secureBootDisable, .secureBootResetKeys, .createEventSubscription,
    .deleteEventSubscription, .logClear, .controlUpdate, .setTelemetryEnabled,
    .createMetricDefinition, .updateMetricDefinition, .deleteMetricDefinition,
    .createMetricReportDefinition, .updateMetricReportDefinition,
    .deleteMetricReportDefinition, .updateFirmware, .updateServicePatch,
    .oemSystemConfigProfile, .oemDebugToken, .oemPowerSmoothing, .pollRemoteTask]

def AuditRedfishOperation.fromStr : String → Option AuditRedfishOperation :=
  wordOf (.none :: .probeCoreCapabilities :: .readCoreResources ::
    executions.map .execution) asStr

theorem AuditRedfishOperation.fromStr_asStr (operation : AuditRedfishOperation) :
    fromStr operation.asStr = some operation := by
  cases operation with
  | execution operation => cases operation <;> rfl
  | _ => rfl

inductive AuditProgress where
  | endpointCreated
  | rowValidated
  deriving DecidableEq, Repr

def AuditProgress.asStr : AuditProgress → String
  | .endpointCreated => "endpoint-created"
  | .rowValidated => "row-validated"

def AuditProgress.fromStr : String → Option AuditProgress :=
  wordOf [.endpointCreated, .rowValidated] asStr

theorem AuditProgress.fromStr_asStr (progress : AuditProgress) :
    fromStr progress.asStr = some progress := by
  cases progress <;> rfl

inductive AuditVerification where
  | confirmed
  | rejected
  | inconclusive
  deriving DecidableEq, Repr

def AuditVerification.asStr : AuditVerification → String
  | .confirmed => "confirmed"
  | .rejected => "rejected"
  | .inconclusive => "inconclusive"

def AuditVerification.fromStr : String → Option AuditVerification :=
  wordOf [.confirmed, .rejected, .inconclusive] asStr

theorem AuditVerification.fromStr_asStr (verification : AuditVerification) :
    fromStr verification.asStr = some verification := by
  cases verification <;> rfl

inductive AuditFailureVerification where
  | rejected
  | inconclusive
  deriving DecidableEq, Repr

def AuditFailureVerification.asStr : AuditFailureVerification → String
  | .rejected => "rejected"
  | .inconclusive => "inconclusive"

def AuditFailureVerification.fromStr : String → Option AuditFailureVerification :=
  wordOf [.rejected, .inconclusive] asStr

def AuditFailureVerification.verification :
    AuditFailureVerification → AuditVerification
  | .rejected => .rejected
  | .inconclusive => .inconclusive

/-- A failure's verification is stored under the wider vocabulary and read back
under the narrower one. -/
theorem AuditFailureVerification.fromStr_verification
    (verification : AuditFailureVerification) :
    fromStr verification.verification.asStr = some verification := by
  cases verification <;> rfl

inductive AuditOutcomeKind where
  | started
  | progress
  | succeeded
  | failed
  deriving DecidableEq, Repr

def AuditOutcomeKind.asStr : AuditOutcomeKind → String
  | .started => "started"
  | .progress => "progress"
  | .succeeded => "succeeded"
  | .failed => "failed"

def AuditOutcomeKind.fromStr : String → Option AuditOutcomeKind :=
  wordOf [.started, .progress, .succeeded, .failed] asStr

theorem AuditOutcomeKind.fromStr_asStr (kind : AuditOutcomeKind) :
    fromStr kind.asStr = some kind := by
  cases kind <;> rfl

inductive AuditFailure where
  | credentialUnavailable
  | tlsTrustFailed
  | redfishDiscoveryFailed
  | endpointPersistenceFailed
  | coreResourceReadFailed
  | snapshotPersistenceFailed
  | csvInvalid
  | endpointImportRowFailed
  | centerStoreFailed
  | centerRequestRefused
  | authenticationFailed
  | sessionRevocationFailed
  | capabilityUnsupported
  deriving DecidableEq, Repr

def AuditFailure.asStr : AuditFailure → String
  | .credentialUnavailable => "credential-unavailable"
  | .tlsTrustFailed => "tls-trust-failed"
  | .redfishDiscoveryFailed => "redfish-discovery-failed"
  | .endpointPersistenceFailed => "endpoint-persistence-failed"
  | .coreResourceReadFailed => "core-resource-read-failed"
  | .snapshotPersistenceFailed => "snapshot-persistence-failed"
  | .csvInvalid => "csv-invalid"
  | .endpointImportRowFailed => "endpoint-import-row-failed"
  | .centerStoreFailed => "center-store-failed"
  | .centerRequestRefused => "center-request-refused"
  | .authenticationFailed => "authentication-failed"
  | .sessionRevocationFailed => "session-revocation-failed"
  | .capabilityUnsupported => "capability-unsupported"

def auditFailures : List AuditFailure :=
  [.credentialUnavailable, .tlsTrustFailed, .redfishDiscoveryFailed,
    .endpointPersistenceFailed, .coreResourceReadFailed, .snapshotPersistenceFailed,
    .csvInvalid, .endpointImportRowFailed, .centerStoreFailed,
    .centerRequestRefused, .authenticationFailed, .sessionRevocationFailed,
    .capabilityUnsupported]

def AuditFailure.fromStr : String → Option AuditFailure :=
  wordOf auditFailures asStr

theorem AuditFailure.fromStr_asStr (failure : AuditFailure) :
    fromStr failure.asStr = some failure := by
  cases failure <;> rfl

inductive AuditTlsTrust where
  | systemCa
  | pinnedCertificate
  deriving DecidableEq, Repr

def AuditTlsTrust.asStr : AuditTlsTrust → String
  | .systemCa => "system-ca"
  | .pinnedCertificate => "pinned-certificate"

def AuditTlsTrust.fromStr : String → Option AuditTlsTrust :=
  wordOf [.systemCa, .pinnedCertificate] asStr

theorem AuditTlsTrust.fromStr_asStr (trust : AuditTlsTrust) :
    fromStr trust.asStr = some trust := by
  cases trust <;> rfl

/-! ## Contexts -/

variable {parseUrl : ParseUrl}

inductive AuditTarget (parseUrl : ParseUrl) where
  | product
  | endpointAddress (address : EndpointAddress parseUrl)
  | endpoint (endpointId : EndpointId)
  deriving DecidableEq

inductive AuditParameterSummary where
  | endpointEnrollment (credentialId : Credential.CredentialId)
      (trust : AuditTlsTrust)
  | endpointRefresh
  | csvEndpointImport (rowCount : UInt32)
  deriving DecidableEq, Repr

/-- The constructor that refuses an import of no rows. -/
def AuditParameterSummary.csvEndpointImportOf (rowCount : UInt32) :
    Option AuditParameterSummary :=
  if rowCount = 0 then .none else some (.csvEndpointImport rowCount)

/-- The combinations that describe one product action. -/
def consistent (redfishOperation : AuditRedfishOperation)
    (target : AuditTarget parseUrl) (parameters : AuditParameterSummary)
    (permission : ProductPermission) (action : AuditAction) : Bool :=
  match redfishOperation with
  | .probeCoreCapabilities => match target, parameters, permission, action with
    | .endpointAddress _, .endpointEnrollment _ _, .manageEndpoints,
        .enrollEndpoint => true
    | _, _, _, _ => false
  | .readCoreResources => match target, parameters, permission, action with
    | .endpoint _, .endpointRefresh, .refreshEndpoints, .refreshEndpoint => true
    | _, _, _, _ => false
  | .none => match target, parameters, permission, action with
    | .product, .csvEndpointImport _, .manageEndpoints, .importEndpoints => true
    | .product, .endpointRefresh, .authenticate, .login
    | .product, .endpointRefresh, .authenticate, .logout
    | .product, .endpointRefresh, .authenticate, .changePassword => true
    | .product, .endpointRefresh, .manageUsers, .manageUsers
    | .product, .endpointRefresh, .manageUsers, .manageSessions
    | .product, .endpointRefresh, .manageUsers, .manageTotp => true
    | .product, .endpointRefresh, .manageBackups, .manageBackups => true
    | .product, .endpointRefresh, .manageSiteSettings, .manageSettings => true
    | .product, .endpointRefresh, .manageCenterBindings, .registerSiteBinding
    | .product, .endpointRefresh, .manageCenterBindings, .revokeSiteBinding => true
    | .endpoint _, .endpointRefresh, .dispatchCenterOperations,
        .dispatchCenterOperation => true
    | _, _, _, _ => false
  | .execution _ => match target, parameters, permission, action with
    | .endpoint _, .endpointRefresh, .executeOperations, .executeOperation => true
    | _, _, _, _ => false

/-- A user names the acting principal, and no other actor does. -/
def principalMatches (actor : AuditActor)
    (actorPrincipalId : Option User.PrincipalId) : Bool :=
  decide (actor = .user) == actorPrincipalId.isSome

structure AuditOperationContext (parseUrl : ParseUrl) where
  operationId : AuditOperationId
  actor : AuditActor
  origin : DeploymentPosture
  target : AuditTarget parseUrl
  parameters : AuditParameterSummary
  permission : ProductPermission
  action : AuditAction
  redfishOperation : AuditRedfishOperation
  actorPrincipalId : Option User.PrincipalId
  targetPrincipalId : Option User.PrincipalId
  principal : principalMatches actor actorPrincipalId = true
  consistent : consistent redfishOperation target parameters permission action =
    true
  deriving DecidableEq

/-- The one error is that the fields do not describe one product action. -/
def AuditOperationContext.tryNewWithActorPrincipal
    (operationId : AuditOperationId) (actor : AuditActor)
    (origin : DeploymentPosture) (target : AuditTarget parseUrl)
    (parameters : AuditParameterSummary) (permission : ProductPermission)
    (action : AuditAction) (redfishOperation : AuditRedfishOperation)
    (actorPrincipalId : Option User.PrincipalId) :
    Option (AuditOperationContext parseUrl) :=
  if hprincipal : principalMatches actor actorPrincipalId = true then
    if hconsistent : Audit.consistent redfishOperation target parameters permission
        action = true then
      some ⟨operationId, actor, origin, target, parameters, permission, action,
        redfishOperation, actorPrincipalId, .none, hprincipal, hconsistent⟩
    else .none
  else .none

def AuditOperationContext.withTargetPrincipal
    (context : AuditOperationContext parseUrl)
    (targetPrincipalId : User.PrincipalId) : AuditOperationContext parseUrl :=
  { context with targetPrincipalId := some targetPrincipalId }

/-! ## Events -/

inductive AuditOutcome where
  | started
  | progress (progress : AuditProgress)
  | succeeded
  | failed (failure : AuditFailure) (verification : AuditFailureVerification)
  deriving DecidableEq, Repr

namespace AuditOutcome

def kind : AuditOutcome → AuditOutcomeKind
  | .started => .started
  | .progress _ => .progress
  | .succeeded => .succeeded
  | .failed _ _ => .failed

def progress? : AuditOutcome → Option AuditProgress
  | .progress milestone => some milestone
  | _ => .none

def failure : AuditOutcome → Option AuditFailure
  | .failed failure _ => some failure
  | _ => .none

def verification : AuditOutcome → Option AuditVerification
  | .succeeded => some .confirmed
  | .failed _ verification => some verification.verification
  | _ => .none

def isTerminal : AuditOutcome → Bool
  | .succeeded | .failed _ _ => true
  | _ => false

end AuditOutcome

/-- A positive 32-bit number. -/
structure AuditSequence where
  get : Nat
  pos : 0 < get
  bounded : get < 4294967296
  deriving Repr

theorem AuditSequence.get_inj {a b : AuditSequence} : a.get = b.get ↔ a = b := by
  cases a
  cases b
  rw [AuditSequence.mk.injEq]

instance : DecidableEq AuditSequence := fun _ _ =>
  decidable_of_iff _ AuditSequence.get_inj

inductive AuditSequenceError where
  | zero
  | exhausted
  deriving DecidableEq, Repr

namespace AuditSequence

def first : AuditSequence := ⟨1, by decide, by decide⟩

/-- `value` is a `u32`. -/
def tryNew (value : Nat) (bounded : value < 4294967296) :
    Except AuditSequenceError AuditSequence :=
  if h : 0 < value then .ok ⟨value, h, bounded⟩ else .error .zero

def next (sequence : AuditSequence) : Except AuditSequenceError AuditSequence :=
  if h : sequence.get + 1 < 4294967296 then
    .ok ⟨sequence.get + 1, Nat.succ_pos _, h⟩
  else .error .exhausted

theorem next_ok {s t : AuditSequence} (h : s.next = .ok t) :
    t.get = s.get + 1 := by
  unfold next at h
  split at h
  · cases h
    rfl
  · cases h

/-- A number that has a successor here has it. -/
theorem next_of_get {s t : AuditSequence} (h : t.get = s.get + 1) :
    s.next = .ok t := by
  obtain ⟨n, hpos, hbound⟩ := t
  obtain rfl : n = s.get + 1 := h
  exact dif_pos hbound

end AuditSequence

inductive AuditEventError where
  | invalidSequence
  | invalidProgress
  deriving DecidableEq, Repr

/-- Only the start has the first sequence. -/
def sequenceMatches (sequence : AuditSequence) (outcome : AuditOutcome) : Bool :=
  match outcome with
  | .started => sequence.get = 1
  | .progress _ | .succeeded | .failed _ _ => 1 < sequence.get

/-- Progress belongs to its action. -/
def progressMatches (action : AuditAction) (outcome : AuditOutcome) : Bool :=
  match outcome with
  | .progress progress => match action, progress with
    | .enrollEndpoint, .endpointCreated => true
    | .importEndpoints, .rowValidated => true
    | _, _ => false
  | _ => true

structure AuditEvent (parseUrl : ParseUrl) where
  id : AuditEventId
  context : AuditOperationContext parseUrl
  sequence : AuditSequence
  outcome : AuditOutcome
  occurredAt : Instant
  sequenced : sequenceMatches sequence outcome = true
  progressed : progressMatches context.action outcome = true
  deriving DecidableEq

namespace AuditEvent

def tryFromParts (id : AuditEventId) (context : AuditOperationContext parseUrl)
    (sequence : AuditSequence) (outcome : AuditOutcome) (occurredAt : Instant) :
    Except AuditEventError (AuditEvent parseUrl) :=
  if hsequence : sequenceMatches sequence outcome = true then
    if hprogress : progressMatches context.action outcome = true then
      .ok ⟨id, context, sequence, outcome, occurredAt, hsequence, hprogress⟩
    else .error .invalidProgress
  else .error .invalidSequence

def started (id : AuditEventId) (context : AuditOperationContext parseUrl)
    (occurredAt : Instant) : AuditEvent parseUrl :=
  ⟨id, context, .first, .started, occurredAt, rfl, rfl⟩

def progress (id : AuditEventId) (context : AuditOperationContext parseUrl)
    (sequence : AuditSequence) (progress : AuditProgress) (occurredAt : Instant) :
    Except AuditEventError (AuditEvent parseUrl) :=
  tryFromParts id context sequence (.progress progress) occurredAt

def succeeded (id : AuditEventId) (context : AuditOperationContext parseUrl)
    (sequence : AuditSequence) (occurredAt : Instant) :
    Except AuditEventError (AuditEvent parseUrl) :=
  tryFromParts id context sequence .succeeded occurredAt

def failed (id : AuditEventId) (context : AuditOperationContext parseUrl)
    (sequence : AuditSequence) (failure : AuditFailure)
    (verification : AuditFailureVerification) (occurredAt : Instant) :
    Except AuditEventError (AuditEvent parseUrl) :=
  tryFromParts id context sequence (.failed failure verification) occurredAt

/-- Taking an event apart and together again. -/
theorem tryFromParts_self (event : AuditEvent parseUrl) :
    tryFromParts event.id event.context event.sequence event.outcome
      event.occurredAt = .ok event := by
  unfold tryFromParts
  rw [dif_pos event.sequenced, dif_pos event.progressed]

theorem tryFromParts_ok {id : AuditEventId} {context : AuditOperationContext parseUrl}
    {sequence : AuditSequence} {outcome : AuditOutcome} {occurredAt : Instant}
    {event : AuditEvent parseUrl}
    (h : tryFromParts id context sequence outcome occurredAt = .ok event) :
    event.context = context ∧ event.sequence = sequence ∧ event.outcome = outcome ∧
      event.occurredAt = occurredAt := by
  unfold tryFromParts at h
  split at h
  · split at h
    · cases h
      exact ⟨rfl, rfl, rfl, rfl⟩
    · cases h
  · cases h

/-- The start of a trail is where its sequence begins. -/
theorem sequence_eq_first_iff {event : AuditEvent parseUrl} :
    event.sequence.get = 1 ↔ event.outcome = .started := by
  have h := event.sequenced
  constructor
  · intro hone
    cases houtcome : event.outcome with
    | started => rfl
    | _ =>
        rw [houtcome] at h
        have hlt : 1 < event.sequence.get := of_decide_eq_true h
        omega
  · intro hstarted
    rw [hstarted] at h
    exact of_decide_eq_true h

end AuditEvent

end Rutilus.Domain.Audit
