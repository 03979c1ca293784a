import Rutilus.Endpoints.Boundary

/-!
# The refresh of one endpoint

A refresh loads the endpoint and its credential, reads the core resources, commits
what was read as one Generation, and then probes the capabilities again and replaces
their snapshot. The audited refresh puts this between a start fact, without which
nothing is read, and a terminal one.
-/

namespace Rutilus.Endpoints

open Rutilus.Domain hiding AuditRedfishOperation ResourceFeature
open Rutilus.Domain.Audit Rutilus.Domain.Endpoint Rutilus.Domain.Resource Rutilus.Lib

variable {B : Outside}

inductive EndpointRefreshError (B : Outside) where
  | loadEndpoint (source : B.repository)
  | endpointNotFound (endpointId : EndpointId)
  | credential (source : B.credential)
  | credentialNotFound (credentialId : Credential.CredentialId)
  | read (source : B.reader)
  | commit (source : B.repository)
  | capabilityProbe (source : B.discovery)
  | capabilityCommit (source : B.capability)

def EndpointRefresh.execute (endpointId : EndpointId) :
    UseCase B (EndpointRefreshError B) (List (ResourceSnapshot B.canonicalize)) := do
  let some endpoint ← orThrow (call (.findEndpoint endpointId)) .loadEndpoint
    | throw (.endpointNotFound endpointId)
  let credentialId := endpoint.credentialId
  let some credential ← orThrow (call (.resolve credentialId)) .credential
    | throw (.credentialNotFound credentialId)
  let outcome ← orThrow (call (.readCoreResources endpoint.address endpoint.trust
    credential.username credential.password)) .read
  let now ← perform (call .now)
  let snapshots ← orThrow (call (.commitResourceGeneration endpointId
    outcome.observations outcome.decodeFailures now)) .commit
  let capabilities ← orThrow (call (.probeCoreCapabilities endpoint.address
    endpoint.trust credential.username credential.password)) .capabilityProbe
  let now ← perform (call .now)
  orThrow (call (.replaceEndpointCapabilities endpointId capabilities now))
    .capabilityCommit
  return snapshots

/-! ## Under audit -/

inductive RefreshAuditStage where
  | start
  | completion
  deriving DecidableEq, Repr

inductive AuditedEndpointRefreshError (B : Outside) where
  | audit (stage : RefreshAuditStage) (endpointId : EndpointId)
      (resourcesCommitted : Bool) (source : AuditRecordError B.audit)
  | refresh (endpointId : EndpointId) (source : EndpointRefreshError B)
  | refreshAndAudit (endpointId : EndpointId) (refresh : EndpointRefreshError B)
      (audit : AuditRecordError B.audit)

namespace AuditedEndpointRefreshError

def resourcesCommitted : AuditedEndpointRefreshError B → Bool
  | .audit _ _ resourcesCommitted _ => resourcesCommitted
  | .refresh .. | .refreshAndAudit .. => false

def endpointId : AuditedEndpointRefreshError B → EndpointId
  | .audit _ endpointId _ _ => endpointId
  | .refresh endpointId _ => endpointId
  | .refreshAndAudit endpointId _ _ => endpointId

end AuditedEndpointRefreshError

def classifyRefreshFailure :
    EndpointRefreshError B → AuditFailure × AuditFailureVerification
  | .loadEndpoint _ | .endpointNotFound _ => (.endpointPersistenceFailed, .rejected)
  | .credential _ | .credentialNotFound _ => (.credentialUnavailable, .rejected)
  | .read _ => (.coreResourceReadFailed, .inconclusive)
  | .commit _ | .capabilityCommit _ => (.snapshotPersistenceFailed, .inconclusive)
  | .capabilityProbe _ => (.redfishDiscoveryFailed, .inconclusive)

def refreshAuditContext (who : Accountable) (operationId : AuditOperationId)
    (endpointId : EndpointId) : Option (AuditOperationContext B.parseUrl) :=
  AuditOperationContext.tryNewWithActorPrincipal operationId who.actor who.origin
    (.endpoint endpointId) .endpointRefresh .refreshEndpoints .refreshEndpoint
    .readCoreResources who.actorPrincipalId

namespace AuditedEndpointRefresh

def recordRefreshFailure (context : AuditOperationContext B.parseUrl)
    (sequence : AuditSequence) (startedAt : Instant) (endpointId : EndpointId)
    (refresh : EndpointRefreshError B) :
    Prog (endpoints B) (AuditedEndpointRefreshError B) := do
  let (failure, verification) := classifyRefreshFailure refresh
  let now ← call .now
  let eventId ← call .generate
  match AuditEvent.failed ⟨eventId⟩ context sequence failure verification
      (atOrAfter startedAt now) with
  | .error audit => return .refreshAndAudit endpointId refresh (.event audit)
  | .ok failed => match ← call (.appendAuditEvent failed) with
    | .ok () => return .refresh endpointId refresh
    | .error audit => return .refreshAndAudit endpointId refresh (.write audit)

def recordRefreshSuccess (context : AuditOperationContext B.parseUrl)
    (sequence : AuditSequence) (startedAt : Instant) (endpointId : EndpointId) :
    UseCase B (AuditedEndpointRefreshError B) Unit := do
  let now ← perform (call .now)
  let eventId ← perform (call .generate)
  match AuditEvent.succeeded ⟨eventId⟩ context sequence (atOrAfter startedAt now) with
  | .error source => throw (.audit .completion endpointId true (.event source))
  | .ok succeeded =>
      orThrow (call (.appendAuditEvent succeeded))
        (.audit .completion endpointId true ∘ .write)

def execute (who : Accountable) (endpointId : EndpointId) :
    UseCase B (AuditedEndpointRefreshError B)
      (List (ResourceSnapshot B.canonicalize)) := do
  let operationId ← perform (call .generate)
  match refreshAuditContext who ⟨operationId⟩ endpointId with
  | none => throw (.audit .start endpointId false .context)
  | some context => match AuditSequence.first.next with
    | .error source => throw (.audit .start endpointId false (.sequence source))
    | .ok terminalSequence => do
      let startedAt ← perform (call .now)
      let eventId ← perform (call .generate)
      orThrow (call (.appendAuditEvent (.started ⟨eventId⟩ context startedAt)))
        (.audit .start endpointId false ∘ .write)
      match ← perform (EndpointRefresh.execute endpointId).run with
      | .error source =>
          throw (← perform (recordRefreshFailure context terminalSequence startedAt
            endpointId source))
      | .ok snapshots => do
          recordRefreshSuccess context terminalSequence startedAt endpointId
          return snapshots

end AuditedEndpointRefresh

end Rutilus.Endpoints

/-!
## The enrollment of an endpoint

Onboarding probes a trusted endpoint and persists it with its capabilities. An
enrollment is an onboarding and then the endpoint's first refresh, which passes the
endpoint's read gate like every other refresh. The two have their own audit trails,
and an endpoint stays managed when its first refresh fails.
-/

namespace Rutilus.Endpoints

open Rutilus.Domain hiding AuditRedfishOperation ResourceFeature
open Rutilus.Domain.Audit Rutilus.Domain.Endpoint Rutilus.Domain.Resource Rutilus.Lib

variable {B : Outside}

/-- An address with the trust established for it. -/
structure TrustedEndpoint (parseUrl : ParseUrl) where
  address : EndpointAddress parseUrl
  trust : TlsTrust
  deriving DecidableEq

structure OnboardEndpointRequest (parseUrl : ParseUrl) where
  displayName : EndpointDisplayName
  target : TrustedEndpoint parseUrl
  credentialId : Credential.CredentialId
  deriving DecidableEq

structure OnboardedEndpoint (parseUrl : ParseUrl) where
  endpoint : Endpoint parseUrl
  capabilities : List EndpointCapabilityObservation

/-! ## Onboarding -/

inductive OnboardEndpointError (B : Outside) where
  | credentialNotFound (credentialId : Credential.CredentialId)
  | credential (source : B.credential)
  | discovery (source : B.discovery)
  | invalidTimeline
  | repository (source : B.onboarding)

def EndpointOnboarding.execute (request : OnboardEndpointRequest B.parseUrl) :
    UseCase B (OnboardEndpointError B) (OnboardedEndpoint B.parseUrl) := do
  let ⟨displayName, ⟨address, trust⟩, credentialId⟩ := request
  let some credential ← orThrow (call (.resolve credentialId)) .credential
    | throw (.credentialNotFound credentialId)
  let capabilities ← orThrow (call (.probeCoreCapabilities address trust
    credential.username credential.password)) .discovery
  let endpointId ← perform (call .generate)
  let now ← perform (call .now)
  match Endpoint.tryNew ⟨endpointId⟩ displayName address trust credentialId
      trust.establishedAt now with
  | none => throw .invalidTimeline
  | some endpoint => do
      let endpoint ← orThrow (call (.createDiscoveredEndpoint endpoint capabilities))
        .repository
      return ⟨endpoint, capabilities⟩

inductive OnboardingAuditStage where
  | start
  | endpointCreated
  | completion
  deriving DecidableEq, Repr

inductive AuditedOnboardEndpointError (B : Outside) where
  | audit (stage : OnboardingAuditStage) (endpointId : Option EndpointId)
      (source : AuditRecordError B.audit)
  | onboarding (source : OnboardEndpointError B)
  | onboardingAndAudit (onboarding : OnboardEndpointError B)
      (audit : AuditRecordError B.audit)

def AuditedOnboardEndpointError.persistedEndpointId :
    AuditedOnboardEndpointError B → Option EndpointId
  | .audit _ endpointId _ => endpointId
  | .onboarding _ | .onboardingAndAudit .. => none

def classifyOnboardingFailure :
    OnboardEndpointError B → AuditFailure × AuditFailureVerification
  | .credentialNotFound _ | .credential _ => (.credentialUnavailable, .rejected)
  | .discovery _ => (.redfishDiscoveryFailed, .inconclusive)
  | .invalidTimeline | .repository _ => (.endpointPersistenceFailed, .rejected)

def onboardingAuditContext (who : Accountable) (operationId : AuditOperationId)
    (request : OnboardEndpointRequest B.parseUrl) :
    Option (AuditOperationContext B.parseUrl) :=
  let trust := match request.target.trust with
    | .systemCa .. => AuditTlsTrust.systemCa
    | .pinnedCertificate .. => .pinnedCertificate
  AuditOperationContext.tryNewWithActorPrincipal operationId who.actor who.origin
    (.endpointAddress request.target.address)
    (.endpointEnrollment request.credentialId trust) .manageEndpoints .enrollEndpoint
    .probeCoreCapabilities who.actorPrincipalId

namespace AuditedEndpointOnboarding

def recordOnboardingFailure (context : AuditOperationContext B.parseUrl)
    (sequence : AuditSequence) (startedAt : Instant)
    (onboarding : OnboardEndpointError B) :
    Prog (endpoints B) (AuditedOnboardEndpointError B) := do
  let (failure, verification) := classifyOnboardingFailure onboarding
  let now ← call .now
  let eventId ← call .generate
  match AuditEvent.failed ⟨eventId⟩ context sequence failure verification
      (atOrAfter startedAt now) with
  | .error audit => return .onboardingAndAudit onboarding (.event audit)
  | .ok failed => match ← call (.appendAuditEvent failed) with
    | .ok () => return .onboarding onboarding
    | .error audit => return .onboardingAndAudit onboarding (.write audit)

def recordOnboardingSuccess (context : AuditOperationContext B.parseUrl)
    (progressSequence completionSequence : AuditSequence) (startedAt : Instant)
    (endpointId : EndpointId) : UseCase B (AuditedOnboardEndpointError B) Unit := do
  let now ← perform (call .now)
  let progressAt := atOrAfter startedAt now
  let eventId ← perform (call .generate)
  match AuditEvent.progress ⟨eventId⟩ context progressSequence .endpointCreated
      progressAt with
  | .error source => throw (.audit .endpointCreated (some endpointId) (.event source))
  | .ok progress => do
    orThrow (call (.appendAuditEvent progress))
      (.audit .endpointCreated (some endpointId) ∘ .write)
    let now ← perform (call .now)
    let eventId ← perform (call .generate)
    match AuditEvent.succeeded ⟨eventId⟩ context completionSequence
        (atOrAfter progressAt now) with
    | .error source => throw (.audit .completion (some endpointId) (.event source))
    | .ok succeeded =>
        orThrow (call (.appendAuditEvent succeeded))
          (.audit .completion (some endpointId) ∘ .write)

def execute (who : Accountable) (request : OnboardEndpointRequest B.parseUrl) :
    UseCase B (AuditedOnboardEndpointError B) (OnboardedEndpoint B.parseUrl) := do
  let operationId ← perform (call .generate)
  match onboardingAuditContext who ⟨operationId⟩ request with
  | none => throw (.audit .start none .context)
  | some context => match AuditSequence.first.next with
    | .error source => throw (.audit .start none (.sequence source))
    | .ok second => match second.next with
      | .error source => throw (.audit .start none (.sequence source))
      | .ok third => do
        let startedAt ← perform (call .now)
        let eventId ← perform (call .generate)
        orThrow (call (.appendAuditEvent (.started ⟨eventId⟩ context startedAt)))
          (.audit .start none ∘ .write)
        match ← perform (EndpointOnboarding.execute request).run with
        | .error source =>
            throw (← perform (recordOnboardingFailure context second startedAt source))
        | .ok onboarded => do
            recordOnboardingSuccess context second third startedAt
              onboarded.endpoint.id
            return onboarded

end AuditedEndpointOnboarding

/-! ## Enrollment -/

inductive EndpointReadGateError where
  | registryUnavailable
  | gateClosed
  deriving DecidableEq, Repr

inductive EndpointEnrollmentError (B : Outside) where
  | onboarding (source : AuditedOnboardEndpointError B)
  | onboardingAuditAfterCreation (endpointId : EndpointId)
      (source : AuditedOnboardEndpointError B)
  | initialRefreshCoordination (endpointId : EndpointId)
      (source : EndpointReadGateError)
  | initialRefresh (endpointId : EndpointId) (source : AuditedEndpointRefreshError B)
  | initialRefreshAuditAfterCommit (endpointId : EndpointId)
      (source : AuditedEndpointRefreshError B)

structure EnrolledEndpoint (B : Outside) where
  onboarded : OnboardedEndpoint B.parseUrl
  snapshots : List (ResourceSnapshot B.canonicalize)

/-- The error of a failed onboarding says whether the endpoint is persisted. -/
def onboardingError (source : AuditedOnboardEndpointError B) :
    EndpointEnrollmentError B :=
  match source.persistedEndpointId with
  | some endpointId => .onboardingAuditAfterCreation endpointId source
  | none => .onboarding source

/-- The error of a failed first refresh says whether the Generation committed. -/
def initialRefreshError (endpointId : EndpointId)
    (source : AuditedEndpointRefreshError B) : EndpointEnrollmentError B :=
  if source.resourcesCommitted then
    .initialRefreshAuditAfterCommit endpointId source
  else .initialRefresh endpointId source

def EndpointEnrollment.execute (who : Accountable)
    (request : OnboardEndpointRequest B.parseUrl) :
    UseCase B (EndpointEnrollmentError B) (EnrolledEndpoint B) := do
  let onboarded ← orThrow (AuditedEndpointOnboarding.execute who request).run
    onboardingError
  let endpointId := onboarded.endpoint.id
  match ← perform (call (.endpointReadGate endpointId)) with
  | none => throw (.initialRefreshCoordination endpointId .registryUnavailable)
  | some gate => match ← perform (call (.acquire gate)) with
    | .error () => throw (.initialRefreshCoordination endpointId .gateClosed)
    | .ok () => do
      let snapshots ← orThrow (AuditedEndpointRefresh.execute who endpointId).run
        (initialRefreshError endpointId)
      return ⟨onboarded, snapshots⟩

end Rutilus.Endpoints
