import Mathlib.Data.List.Sort
import Rutilus.Domain.Audit
import Rutilus.Lib.Outcome
import Rutilus.Lib.Runs
import Rutilus.Lib.Table
import Rutilus.Store.Operations

/-!
# The audit store

The `audit_events` table. An append reads the stored trail of the operation, checks
it and the new event against it, and inserts the event as one row of codes; the
table has constraints of its own. Reading maps the rows of an operation back, in
the order of their sequences, and checks the trail again.
-/

namespace Rutilus.Store.Audit

open Rutilus.Domain hiding AuditRedfishOperation
open Rutilus.Domain.Audit Rutilus.Domain.Endpoint Rutilus.Lib

variable {parseUrl : ParseUrl}

/-! ## Rows -/

structure AuditEventModel where
  id : Nat
  operationId : Nat
  eventSequence : Int
  actor : String
  actorPrincipalId : Option Nat
  targetPrincipalId : Option Nat
  origin : String
  targetKind : String
  targetEndpointId : Option Nat
  targetEndpointAddress : Option String
  parameterKind : String
  credentialId : Option Nat
  trustMode : Option String
  rowCount : Option Int
  permission : String
  action : String
  redfishOperation : String
  outcome : String
  progress : Option String
  failure : Option String
  verification : Option String
  occurredAt : Instant
  deriving DecidableEq, Repr

abbrev AuditTable : Type := Table Nat AuditEventModel AuditEventModel.id

/-! ### The constraints of the table -/

def ckSequence (row : AuditEventModel) : Bool :=
  1 ≤ row.eventSequence ∧ row.eventSequence ≤ 4294967295

def ckActor (row : AuditEventModel) : Bool :=
  row.actor ∈ ["system", "local-operator", "user"]

def ckActorPrincipal (row : AuditEventModel) : Bool :=
  decide (row.actor = "user") == row.actorPrincipalId.isSome

def ckTargetPrincipal (row : AuditEventModel) : Bool :=
  row.targetPrincipalId.isNone ∨
    row.action = "change-password" ∧ row.actor = "user"

def ckOrigin (row : AuditEventModel) : Bool :=
  row.origin ∈ ["standalone", "site", "center"]

def ckTarget (row : AuditEventModel) : Bool :=
  row.targetKind = "product" ∧ row.targetEndpointId.isNone ∧
    row.targetEndpointAddress.isNone ∨
  row.targetKind = "endpoint-address" ∧ row.targetEndpointId.isNone ∧
    row.targetEndpointAddress.isSome ∨
  row.targetKind = "endpoint" ∧ row.targetEndpointId.isSome ∧
    row.targetEndpointAddress.isNone

def ckParameters (row : AuditEventModel) : Bool :=
  row.parameterKind = "endpoint-enrollment" ∧ row.credentialId.isSome ∧
    row.trustMode.any (· ∈ ["system-ca", "pinned-certificate"]) ∧
    row.rowCount.isNone ∨
  row.parameterKind = "endpoint-refresh" ∧ row.credentialId.isNone ∧
    row.trustMode.isNone ∧ row.rowCount.isNone ∨
  row.parameterKind = "csv-endpoint-import" ∧ row.credentialId.isNone ∧
    row.trustMode.isNone ∧ row.rowCount.any fun n => 1 ≤ n ∧ n ≤ 4294967295

/-- One arm of the constraint on the action. -/
def actionArm (row : AuditEventModel) (actions : List String)
    (targetKind parameterKind permission : String) (operations : List String) :
    Bool :=
  row.action ∈ actions ∧ row.targetKind = targetKind ∧
    row.parameterKind = parameterKind ∧ row.permission = permission ∧
    row.redfishOperation ∈ operations

def ckAction (row : AuditEventModel) : Bool :=
  actionArm row ["enroll-endpoint"] "endpoint-address" "endpoint-enrollment"
    "manage-endpoints" ["probe-core-capabilities"] ||
  actionArm row ["refresh-endpoint"] "endpoint" "endpoint-refresh"
    "refresh-endpoints" ["read-core-resources"] ||
  actionArm row ["import-endpoints"] "product" "csv-endpoint-import"
    "manage-endpoints" ["none"] ||
  actionArm row ["login", "logout", "change-password"] "product"
    "endpoint-refresh" "authenticate" ["none"] ||
  actionArm row ["manage-users", "manage-sessions", "manage-totp"] "product"
    "endpoint-refresh" "manage-users" ["none"] ||
  actionArm row ["manage-backups"] "product" "endpoint-refresh" "manage-backups"
    ["none"] ||
  actionArm row ["manage-settings"] "product" "endpoint-refresh"
    "manage-site-settings" ["none"] ||
  actionArm row ["execute-operation"] "endpoint" "endpoint-refresh"
    "execute-operations" (executions.map executionCode) ||
  actionArm row ["register-site-binding", "revoke-site-binding"] "product"
    "endpoint-refresh" "manage-center-bindings" ["none"] ||
  actionArm row ["dispatch-center-operation"] "endpoint" "endpoint-refresh"
    "dispatch-center-operations" ["none"]

def ckOutcome (row : AuditEventModel) : Bool :=
  row.outcome = "started" ∧ row.eventSequence = 1 ∧ row.progress.isNone ∧
    row.failure.isNone ∧ row.verification.isNone ∨
  row.outcome = "progress" ∧ 1 < row.eventSequence ∧
    (row.progress = some "endpoint-created" ∧ row.action = "enroll-endpoint" ∨
      row.progress = some "row-validated" ∧ row.action = "import-endpoints") ∧
    row.failure.isNone ∧ row.verification.isNone ∨
  row.outcome = "succeeded" ∧ 1 < row.eventSequence ∧ row.progress.isNone ∧
    row.failure.isNone ∧ row.verification = some "confirmed" ∨
  row.outcome = "failed" ∧ 1 < row.eventSequence ∧ row.progress.isNone ∧
    row.failure.any (· ∈ auditFailures.map AuditFailure.asStr) ∧
    row.verification.any (· ∈ ["rejected", "inconclusive"])

def checks (row : AuditEventModel) : Bool :=
  ckSequence row && ckActor row && ckActorPrincipal row && ckTargetPrincipal row &&
    ckOrigin row && ckTarget row && ckParameters row && ckAction row &&
    ckOutcome row

/-! ## Errors -/

inductive StoredAuditEventError where
  | unknownActor
  | unknownOrigin
  | unknownTargetKind
  | invalidTargetShape
  | invalidEndpointAddress (source : EndpointAddressError)
  | unknownParameterKind
  | invalidParameterShape
  | unknownTrustMode
  | invalidRowCount
  | invalidParameterSummary
  | unknownPermission
  | unknownAction
  | unknownRedfishOperation
  | invalidContext
  | invalidTargetPrincipalShape
  | invalidSequenceValue
  | invalidSequence (source : AuditSequenceError)
  | unknownOutcome
  | unknownProgress
  | unknownFailure
  | unknownVerification
  | unknownFailureVerification
  | invalidOutcomeShape
  | invalidEvent (source : AuditEventError)
  | missingStart
  | nonContiguous (expected actual : AuditSequence)
  | contextChanged (sequence : AuditSequence)
  | eventPredatesPrevious (sequence : AuditSequence)
  | eventAfterTerminal (sequence : AuditSequence)
  deriving DecidableEq

inductive AuditRepositoryError where
  | fault (source : Fault)
  | missingStart (operationId : AuditOperationId) (actual : AuditSequence)
  | nonContiguous (operationId : AuditOperationId)
      (expected actual : AuditSequence)
  | sequence (operationId : AuditOperationId) (source : AuditSequenceError)
  | contextChanged (operationId : AuditOperationId) (sequence : AuditSequence)
  | eventPredatesPrevious (operationId : AuditOperationId)
      (sequence : AuditSequence)
  | operationTerminal (operationId : AuditOperationId) (terminal : AuditSequence)
  | corrupt (operationId : AuditOperationId) (source : StoredAuditEventError)
  deriving DecidableEq

/-! ## Trails -/

/-- The first event of a trail, or one after the last event of it. -/
def validateAppend (operationId : AuditOperationId)
    (previous : Option (AuditEvent parseUrl)) (event : AuditEvent parseUrl) :
    Except AuditRepositoryError Unit :=
  match previous with
  | none =>
    if event.sequence = .first ∧ event.outcome.kind = .started then .ok ()
    else .error (.missingStart operationId event.sequence)
  | some previous =>
    if previous.outcome.isTerminal then
      .error (.operationTerminal operationId previous.sequence)
    else match previous.sequence.next with
      | .error source => .error (.sequence operationId source)
      | .ok expected =>
        if event.sequence ≠ expected then
          .error (.nonContiguous operationId expected event.sequence)
        else if event.context ≠ previous.context then
          .error (.contextChanged operationId event.sequence)
        else if event.occurredAt < previous.occurredAt then
          .error (.eventPredatesPrevious operationId event.sequence)
        else .ok ()

/-- The loop of the stored trail's check. -/
def validateFrom (previous : AuditEvent parseUrl) :
    List (AuditEvent parseUrl) → Except StoredAuditEventError Unit
  | [] => .ok ()
  | event :: rest =>
    if previous.outcome.isTerminal then .error (.eventAfterTerminal event.sequence)
    else match previous.sequence.next with
      | .error source => .error (.invalidSequence source)
      | .ok expected =>
        if event.sequence ≠ expected then
          .error (.nonContiguous expected event.sequence)
        else if event.context ≠ previous.context then
          .error (.contextChanged event.sequence)
        else if event.occurredAt < previous.occurredAt then
          .error (.eventPredatesPrevious event.sequence)
        else validateFrom event rest

def validateStoredTrail :
    List (AuditEvent parseUrl) → Except StoredAuditEventError Unit
  | [] => .ok ()
  | first :: rest =>
    if first.sequence ≠ .first ∨ first.outcome.kind ≠ .started then
      .error .missingStart
    else validateFrom first rest

/-! ## Writing a row -/

def projectTarget (target : AuditTarget parseUrl) :
    String × Option Nat × Option String :=
  match target with
  | .product => ("product", none, none)
  | .endpointAddress address => ("endpoint-address", none, some address.toString)
  | .endpoint endpointId => ("endpoint", some endpointId.uuid, none)

def projectParameters (parameters : AuditParameterSummary) :
    String × Option Nat × Option String × Option Int :=
  match parameters with
  | .endpointEnrollment credentialId trust =>
      ("endpoint-enrollment", some credentialId.uuid, some trust.asStr, none)
  | .endpointRefresh => ("endpoint-refresh", none, none, none)
  | .csvEndpointImport rowCount =>
      ("csv-endpoint-import", none, none, some rowCount.toNat)

def projectEvent (event : AuditEvent parseUrl) : AuditEventModel :=
  let context := event.context
  let target := projectTarget context.target
  let parameters := projectParameters context.parameters
  { id := event.id.uuid, operationId := context.operationId.uuid
    eventSequence := event.sequence.get, actor := context.actor.asStr
    actorPrincipalId := context.actorPrincipalId.map (·.uuid)
    targetPrincipalId := context.targetPrincipalId.map (·.uuid)
    origin := context.origin.asStr
    targetKind := target.1, targetEndpointId := target.2.1
    targetEndpointAddress := target.2.2
    parameterKind := parameters.1, credentialId := parameters.2.1
    trustMode := parameters.2.2.1, rowCount := parameters.2.2.2
    permission := context.permission.asStr, action := context.action.asStr
    redfishOperation := context.redfishOperation.asStr
    outcome := event.outcome.kind.asStr
    progress := event.outcome.progress?.map AuditProgress.asStr
    failure := event.outcome.failure.map AuditFailure.asStr
    verification := event.outcome.verification.map AuditVerification.asStr
    occurredAt := event.occurredAt }

/-! ## Reading a row -/

abbrev Stored (α : Type) : Type := Except StoredAuditEventError α

def orUnknown {α : Type} (error : StoredAuditEventError) : Option α → Stored α
  | some word => .ok word
  | none => .error error

variable (parseUrl) in
def mapTarget (model : AuditEventModel) : Stored (AuditTarget parseUrl) :=
  match model.targetEndpointId, model.targetEndpointAddress with
  | none, none =>
    if model.targetKind = "product" then .ok .product else shape
  | none, some address =>
    if model.targetKind = "endpoint-address" then
      match EndpointAddress.parse parseUrl address with
      | .ok address => .ok (.endpointAddress address)
      | .error source => .error (.invalidEndpointAddress source)
    else shape
  | some endpointId, none =>
    if model.targetKind = "endpoint" then .ok (.endpoint ⟨endpointId⟩) else shape
  | some _, some _ => shape
where
  shape : Stored (AuditTarget parseUrl) :=
    if model.targetKind ∈ ["product", "endpoint-address", "endpoint"] then
      .error .invalidTargetShape
    else .error .unknownTargetKind

def mapParameters (model : AuditEventModel) : Stored AuditParameterSummary :=
  match model.credentialId, model.trustMode, model.rowCount with
  | some credentialId, some trust, none =>
    if model.parameterKind = "endpoint-enrollment" then do
      let trust ← orUnknown .unknownTrustMode (AuditTlsTrust.fromStr trust)
      return .endpointEnrollment ⟨credentialId⟩ trust
    else shape
  | none, none, none =>
    if model.parameterKind = "endpoint-refresh" then .ok .endpointRefresh
    else shape
  | none, none, some rowCount =>
    if model.parameterKind = "csv-endpoint-import" then
      if 0 ≤ rowCount ∧ rowCount < 4294967296 then
        orUnknown .invalidParameterSummary
          (AuditParameterSummary.csvEndpointImportOf (.ofNat rowCount.toNat))
      else .error .invalidRowCount
    else shape
  | _, _, _ => shape
where
  shape : Stored AuditParameterSummary :=
    if model.parameterKind ∈
        ["endpoint-enrollment", "endpoint-refresh", "csv-endpoint-import"] then
      .error .invalidParameterShape
    else .error .unknownParameterKind

variable (parseUrl) in
def mapContext (model : AuditEventModel) :
    Stored (AuditOperationContext parseUrl) := do
  let actor ← orUnknown .unknownActor (AuditActor.fromStr model.actor)
  let origin ← orUnknown .unknownOrigin (DeploymentPosture.fromStr model.origin)
  let target ← mapTarget parseUrl model
  let parameters ← mapParameters model
  let permission ← orUnknown .unknownPermission
    (ProductPermission.fromStr model.permission)
  let action ← orUnknown .unknownAction (AuditAction.fromStr model.action)
  let redfishOperation ← orUnknown .unknownRedfishOperation
    (AuditRedfishOperation.fromStr model.redfishOperation)
  let context ← orUnknown .invalidContext
    (AuditOperationContext.tryNewWithActorPrincipal ⟨model.operationId⟩ actor origin
      target parameters permission action redfishOperation
      (model.actorPrincipalId.map User.PrincipalId.mk))
  match model.targetPrincipalId with
  | none => .ok context
  | some targetPrincipalId =>
    if action.namesDistinctTargetPrincipal then
      .ok (context.withTargetPrincipal ⟨targetPrincipalId⟩)
    else .error .invalidTargetPrincipalShape

def mapOutcome (model : AuditEventModel) : Stored AuditOutcome := do
  let kind ← orUnknown .unknownOutcome (AuditOutcomeKind.fromStr model.outcome)
  match kind, model.progress, model.failure, model.verification with
  | .started, none, none, none => .ok .started
  | .progress, some progress, none, none => do
    let progress ← orUnknown .unknownProgress (AuditProgress.fromStr progress)
    return .progress progress
  | .succeeded, none, none, some verification => do
    let verification ← orUnknown .unknownVerification
      (AuditVerification.fromStr verification)
    if verification = .confirmed then return .succeeded
    else throw .invalidOutcomeShape
  | .failed, none, some failure, some verification => do
    let failure ← orUnknown .unknownFailure (AuditFailure.fromStr failure)
    let verification ← orUnknown .unknownFailureVerification
      (AuditFailureVerification.fromStr verification)
    return .failed failure verification
  | _, _, _, _ => .error .invalidOutcomeShape

def mapSequence (model : AuditEventModel) : Stored AuditSequence :=
  if h : 0 ≤ model.eventSequence ∧ model.eventSequence < 4294967296 then
    match AuditSequence.tryNew model.eventSequence.toNat
        ((Int.toNat_lt h.1).mpr h.2) with
    | .ok sequence => .ok sequence
    | .error source => .error (.invalidSequence source)
  else .error .invalidSequenceValue

variable (parseUrl) in
def mapStoredEvent (model : AuditEventModel) : Stored (AuditEvent parseUrl) := do
  let context ← mapContext parseUrl model
  let sequence ← mapSequence model
  let outcome ← mapOutcome model
  (AuditEvent.tryFromParts ⟨model.id⟩ context sequence outcome
    model.occurredAt).mapError .invalidEvent

/-! ## The calls -/

/-- The rows of an operation in the order of their sequences. -/
def modelsOf (t : AuditTable) (operationId : AuditOperationId) :
    List AuditEventModel :=
  (t.rows.filter fun row => row.operationId = operationId.uuid).insertionSort
    fun a b => a.eventSequence ≤ b.eventSequence

variable (parseUrl) in
def findAuditOperation (t : AuditTable) (operationId : AuditOperationId) :
    Except AuditRepositoryError (List (AuditEvent parseUrl)) := do
  let events ← ((modelsOf t operationId).mapM (mapStoredEvent parseUrl)).mapError
    (.corrupt operationId)
  (validateStoredTrail events).mapError (.corrupt operationId)
  return events

/-- The key, the unique index and the constraints. -/
def insert (t : AuditTable) (row : AuditEventModel) :
    Except AuditRepositoryError AuditTable :=
  if t.has row.id ∨
      (t.rows.any fun other => other.operationId = row.operationId ∧
        other.eventSequence = row.eventSequence) ∨
      checks row = false then
    .error (.fault .database)
  else .ok (t.insertNew row)

/-- The trail's last event is not stored twice. -/
def append (t : AuditTable) (event : AuditEvent parseUrl) :
    Except AuditRepositoryError (Unit × AuditTable) := do
  let operationId := event.context.operationId
  let existing ← findAuditOperation parseUrl t operationId
  if existing.getLast?.any (·.id = event.id) then return ((), t)
  else
    validateAppend operationId existing.getLast? event
    let t ← insert t (projectEvent event)
    return ((), t)

def appendAuditEvent (fault : Option Fault) (event : AuditEvent parseUrl)
    (t : AuditTable) : Except AuditRepositoryError Unit × AuditTable :=
  transaction .fault fault t fun t => append t event

/-! ## Sequences of appends -/

/-- The table, and the events whose append stored them. -/
structure State (parseUrl : ParseUrl) where
  table : AuditTable
  appended : List (AuditEvent parseUrl)

def Initial (s : State parseUrl) : Prop := s.table = .empty ∧ s.appended = []

def State.trail (s : State parseUrl) (operationId : AuditOperationId) :
    List (AuditEvent parseUrl) :=
  s.appended.filter fun event => event.context.operationId = operationId

/-- A success of the event that is the trail's last one already adds nothing. -/
def State.record (s : State parseUrl) (event : AuditEvent parseUrl) :
    List (AuditEvent parseUrl) :=
  if (s.trail event.context.operationId).getLast?.any (·.id = event.id) then
    s.appended
  else s.appended ++ [event]

def next (s : State parseUrl) (l : Option Fault × AuditEvent parseUrl) :
    Option (State parseUrl) :=
  match appendAuditEvent l.1 l.2 s.table with
  | (.error _, t) => some ⟨t, s.appended⟩
  | (.ok (), t) => some ⟨t, s.record l.2⟩

end Rutilus.Store.Audit
