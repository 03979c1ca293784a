import Rutilus.Endpoints.Refresh

/-!
# The import of endpoints

A validated import is executed row by row: the validation of a row is recorded, its
endpoint's TLS identity is observed without credentials, the trust that the row
declares is applied to it, and the endpoint is enrolled. A row that fails changes
nothing for the others. The import has one audit trail, and a trail that cannot be
written ends it with the results so far.
-/

namespace Rutilus.Endpoints

open Rutilus.Domain hiding AuditRedfishOperation ResourceFeature
open Rutilus.Domain.Audit Rutilus.Domain.Endpoint Rutilus.Lib

/-! ## The boundary -/

/-- The URL library, and the errors of the collaborators. -/
structure ImportOutside where
  parseUrl : ParseUrl
  probe : Type
  enrollment : Type
  audit : Type

variable {I : ImportOutside}

inductive SystemCaEvaluation where
  | verified
  | rejected
  deriving DecidableEq, Repr

structure TlsIdentityObservation where
  certificate : TlsCertificate
  systemCa : SystemCaEvaluation
  deriving DecidableEq, Repr

inductive ImportReq (I : ImportOutside) where
  | observe (address : EndpointAddress I.parseUrl)
  | enroll (request : OnboardEndpointRequest I.parseUrl)
  | appendAuditEvent (event : AuditEvent I.parseUrl)
  | now
  | generate

abbrev ImportReq.Resp : ImportReq I → Type
  | .observe _ => Except I.probe TlsIdentityObservation
  | .enroll _ => Except I.enrollment EndpointId
  | .appendAuditEvent _ => Except I.audit Unit
  | .now => Instant
  | .generate => Nat

def importing (I : ImportOutside) : Sig := ⟨ImportReq I, ImportReq.Resp⟩

def ask (q : ImportReq I) : Prog (importing I) q.Resp := .call q .ret

/-! ## Trust -/

/-- The policy that is declared before the observation. -/
inductive EndpointTrustExpectation where
  | systemCaOnly
  | explicitPin (expected : Endpoint.CertificateFingerprint)
  deriving DecidableEq, Repr

/-- A rejected identity that may still be pinned. -/
structure PendingEndpointTrust (parseUrl : ParseUrl) where
  address : EndpointAddress parseUrl
  certificate : TlsCertificate
  observedAt : Instant
  deriving DecidableEq

inductive EndpointTrustChallenge (parseUrl : ParseUrl) where
  | systemCaTrusted (trusted : TrustedEndpoint parseUrl)
  | explicitPinRequired (pending : PendingEndpointTrust parseUrl)
  deriving DecidableEq

inductive EndpointTrustExpectationError where
  | systemCaRejected (observed : Endpoint.CertificateFingerprint)
  | fingerprintMismatch (expected observed : Endpoint.CertificateFingerprint)
  deriving DecidableEq, Repr

namespace EndpointTrustEstablishment

/-- The first stage of onboarding is named `begin` in the source. -/
def beginTrust (address : EndpointAddress I.parseUrl) :
    Prog (importing I) (Except I.probe (EndpointTrustChallenge I.parseUrl)) := do
  match ← ask (.observe address) with
  | .error source => return .error source
  | .ok observation => do
    let observedAt ← ask .now
    match observation.systemCa with
    | .verified => return .ok (.systemCaTrusted
        ⟨address, .systemCa observation.certificate observedAt⟩)
    | .rejected => return .ok (.explicitPinRequired
        ⟨address, observation.certificate, observedAt⟩)

def verifyExpectedPin (expected observed : Endpoint.CertificateFingerprint) :
    Except EndpointTrustExpectationError Unit :=
  if expected ≠ observed then .error (.fingerprintMismatch expected observed)
  else .ok ()

variable {parseUrl : ParseUrl}

def pinSystemCaIdentity (trusted : TrustedEndpoint parseUrl)
    (expected : Endpoint.CertificateFingerprint) :
    Except EndpointTrustExpectationError (TrustedEndpoint parseUrl) := do
  verifyExpectedPin expected trusted.trust.certificate.fingerprint
  return ⟨trusted.address,
    .pinnedCertificate trusted.trust.certificate trusted.trust.establishedAt⟩

def pinPendingIdentity (pending : PendingEndpointTrust parseUrl)
    (expected : Endpoint.CertificateFingerprint) :
    Except EndpointTrustExpectationError (TrustedEndpoint parseUrl) := do
  verifyExpectedPin expected pending.certificate.fingerprint
  return ⟨pending.address,
    .pinnedCertificate pending.certificate pending.observedAt⟩

def completeWithExpectation (challenge : EndpointTrustChallenge parseUrl)
    (expectation : EndpointTrustExpectation) :
    Except EndpointTrustExpectationError (TrustedEndpoint parseUrl) :=
  match challenge, expectation with
  | .systemCaTrusted trusted, .systemCaOnly => .ok trusted
  | .explicitPinRequired pending, .systemCaOnly =>
      .error (.systemCaRejected pending.certificate.fingerprint)
  | .systemCaTrusted trusted, .explicitPin expected =>
      pinSystemCaIdentity trusted expected
  | .explicitPinRequired pending, .explicitPin expected =>
      pinPendingIdentity pending expected

end EndpointTrustEstablishment

/-! ## Imports and their reports -/

/-- The record number counts the header. -/
structure EndpointCsvRow (parseUrl : ParseUrl) where
  recordNumber : Nat
  displayName : EndpointDisplayName
  address : EndpointAddress parseUrl
  credentialId : Credential.CredentialId
  trust : EndpointTrustExpectation
  deriving DecidableEq

structure EndpointCsvImport (parseUrl : ParseUrl) where
  rowCount : UInt32
  rows : List (EndpointCsvRow parseUrl)

inductive EndpointCsvRowOutcome (I : ImportOutside) where
  | enrolled (endpointId : EndpointId)
  | tlsProbeFailed (source : I.probe)
  | trustRejected (source : EndpointTrustExpectationError)
  | enrollmentFailed (source : I.enrollment)

def EndpointCsvRowOutcome.isSuccess : EndpointCsvRowOutcome I → Bool
  | .enrolled _ => true
  | .tlsProbeFailed _ | .trustRejected _ | .enrollmentFailed _ => false

structure EndpointCsvRowResult (I : ImportOutside) where
  recordNumber : Nat
  address : EndpointAddress I.parseUrl
  outcome : EndpointCsvRowOutcome I

/-- The results of an import, complete or not. -/
structure EndpointCsvImportReport (I : ImportOutside) where
  totalRows : Nat
  rows : List (EndpointCsvRowResult I)

namespace EndpointCsvImportReport

def push (report : EndpointCsvImportReport I) (result : EndpointCsvRowResult I) :
    EndpointCsvImportReport I :=
  { report with rows := report.rows ++ [result] }

def attemptedCount (report : EndpointCsvImportReport I) : Nat := report.rows.length

def succeededCount (report : EndpointCsvImportReport I) : Nat :=
  (report.rows.filter fun result => result.outcome.isSuccess).length

def failedCount (report : EndpointCsvImportReport I) : Nat :=
  report.attemptedCount - report.succeededCount

theorem failedCount_eq_zero_iff {report : EndpointCsvImportReport I} :
    report.failedCount = 0 ↔
      ∀ result ∈ report.rows, result.outcome.isSuccess = true := by
  have hle := List.length_filter_le
    (fun result : EndpointCsvRowResult I => result.outcome.isSuccess) report.rows
  rw [← List.length_filter_eq_length_iff]
  unfold failedCount attemptedCount succeededCount
  omega

end EndpointCsvImportReport

inductive EndpointCsvImportAuditStage where
  | start
  | rowValidated (record : Nat)
  | completion
  deriving DecidableEq, Repr

/-- The report holds the results before the audit failed. -/
structure EndpointCsvImportExecutionError (I : ImportOutside) where
  stage : EndpointCsvImportAuditStage
  report : EndpointCsvImportReport I
  source : AuditRecordError I.audit

/-! ## Execution -/

namespace EndpointCsvImportExecutor

abbrev Execution (I : ImportOutside) (α : Type) : Type :=
  ExceptT (EndpointCsvImportExecutionError I) (Prog (importing I)) α

structure CsvImportAuditState (parseUrl : ParseUrl) where
  context : AuditOperationContext parseUrl
  sequence : AuditSequence
  previousAt : Instant

def importAuditContext (who : Accountable) (operationId : AuditOperationId)
    (parameters : AuditParameterSummary) :
    Option (AuditOperationContext I.parseUrl) :=
  AuditOperationContext.tryNewWithActorPrincipal operationId who.actor who.origin
    .product parameters .manageEndpoints .importEndpoints .none who.actorPrincipalId

def startAudit (who : Accountable) (rowCount : UInt32)
    (report : EndpointCsvImportReport I) :
    Execution I (CsvImportAuditState I.parseUrl) := do
  match AuditParameterSummary.csvEndpointImportOf rowCount with
  | none => throw ⟨.start, report, .parameters⟩
  | some parameters => do
    let operationId ← perform (ask .generate)
    match importAuditContext who ⟨operationId⟩ parameters with
    | none => throw ⟨.start, report, .context⟩
    | some context => do
      let startedAt ← perform (ask .now)
      let eventId ← perform (ask .generate)
      orThrow (ask (.appendAuditEvent (.started ⟨eventId⟩ context startedAt)))
        fun source => ⟨.start, report, .write source⟩
      return ⟨context, .first, startedAt⟩

def recordRowValidated (audit : CsvImportAuditState I.parseUrl)
    (recordNumber : Nat) (report : EndpointCsvImportReport I) :
    Execution I (CsvImportAuditState I.parseUrl) := do
  let stage := .rowValidated recordNumber
  match audit.sequence.next with
  | .error source => throw ⟨stage, report, .sequence source⟩
  | .ok sequence => do
    let now ← perform (ask .now)
    let progressAt := atOrAfter audit.previousAt now
    let eventId ← perform (ask .generate)
    match AuditEvent.progress ⟨eventId⟩ audit.context sequence .rowValidated
        progressAt with
    | .error source => throw ⟨stage, report, .event source⟩
    | .ok progress => do
      orThrow (ask (.appendAuditEvent progress))
        fun source => ⟨stage, report, .write source⟩
      return ⟨audit.context, sequence, progressAt⟩

/-- The outcome of a row whose identity is observed. -/
def enrollChallenged (row : EndpointCsvRow I.parseUrl)
    (challenge : EndpointTrustChallenge I.parseUrl) :
    Prog (importing I) (EndpointCsvRowOutcome I) :=
  match EndpointTrustEstablishment.completeWithExpectation challenge row.trust with
  | .error source => return .trustRejected source
  | .ok target => do
    match ← ask (.enroll ⟨row.displayName, target, row.credentialId⟩) with
    | .ok endpointId => return .enrolled endpointId
    | .error source => return .enrollmentFailed source

def executeRow (row : EndpointCsvRow I.parseUrl) :
    Prog (importing I) (EndpointCsvRowResult I) := do
  let outcome ← match ← EndpointTrustEstablishment.beginTrust row.address with
    | .error source => pure (.tlsProbeFailed source)
    | .ok challenge => enrollChallenged row challenge
  return ⟨row.recordNumber, row.address, outcome⟩

/-- The loop over the rows. -/
def executeRows : List (EndpointCsvRow I.parseUrl) →
    CsvImportAuditState I.parseUrl → EndpointCsvImportReport I →
    Execution I (CsvImportAuditState I.parseUrl × EndpointCsvImportReport I)
  | [], audit, report => return (audit, report)
  | row :: rows, audit, report => do
    let audit ← recordRowValidated audit row.recordNumber report
    let result ← perform (executeRow row)
    executeRows rows audit (report.push result)

def completeAudit (audit : CsvImportAuditState I.parseUrl)
    (report : EndpointCsvImportReport I) :
    Execution I (EndpointCsvImportReport I) := do
  match audit.sequence.next with
  | .error source => throw ⟨.completion, report, .sequence source⟩
  | .ok sequence => do
    let now ← perform (ask .now)
    let completedAt := atOrAfter audit.previousAt now
    let eventId ← perform (ask .generate)
    let terminal := if report.failedCount = 0 then
        AuditEvent.succeeded ⟨eventId⟩ audit.context sequence completedAt
      else AuditEvent.failed ⟨eventId⟩ audit.context sequence
        .endpointImportRowFailed .rejected completedAt
    match terminal with
    | .error source => throw ⟨.completion, report, .event source⟩
    | .ok terminal => do
      orThrow (ask (.appendAuditEvent terminal))
        fun source => ⟨.completion, report, .write source⟩
      return report

def execute (who : Accountable) (endpoints : EndpointCsvImport I.parseUrl) :
    Execution I (EndpointCsvImportReport I) := do
  let report : EndpointCsvImportReport I := ⟨endpoints.rows.length, []⟩
  let audit ← startAudit who endpoints.rowCount report
  let (audit, report) ← executeRows endpoints.rows audit report
  completeAudit audit report

end EndpointCsvImportExecutor

end Rutilus.Endpoints
