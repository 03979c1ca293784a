import Rutilus.App.Boundary
import Rutilus.Lib.Prog
import Rutilus.Lib.Runs
import Rutilus.Store.Principals

/-!
# Sign-in and account administration

The handlers that create sessions and the ones whose effect has to end them,
as programs over the services they call. A handler reads the clock once. What
a service refuses is an error the handler does not look into, but for the one
question whether the derivation gate was full.

The rate limiter, the second factor and the token source answer whatever the
environment decides; the tables answer as they are modelled. `derive` is the
password derivation: a salt and a password give a hash.

An audit event that cannot be appended fails no request.
-/

namespace Rutilus.Web.Auth

open Rutilus.Domain Rutilus.Domain.User Rutilus.Lib Rutilus.Store
open Rutilus.App (AuditActor AuditFailureVerification)

/-! ## Services -/

inductive AuditAction where
  | login
  | logout
  | changePassword
  | manageUsers
  | manageTotp
  deriving DecidableEq, Repr

inductive ProductPermission where
  | authenticate
  | manageUsers
  deriving DecidableEq, Repr

inductive AuditFailure where
  | authenticationFailed
  | sessionRevocationFailed
  deriving DecidableEq, Repr

inductive AuditOutcome where
  | started
  | succeeded
  | failed (failure : AuditFailure) (verification : AuditFailureVerification)
  deriving DecidableEq, Repr

structure AuditContext where
  actor : AuditActor
  actorPrincipalId : Option PrincipalId
  permission : ProductPermission
  action : AuditAction
  targetPrincipalId : Option PrincipalId
  deriving DecidableEq, Repr

structure AuditEvent where
  context : AuditContext
  sequence : Nat
  outcome : AuditOutcome
  occurredAt : Instant
  deriving DecidableEq, Repr

inductive AuthServiceError where
  | derivationGateBusy
  | failed
  deriving DecidableEq, Repr

structure Tokens where
  sessionToken : String
  csrfToken : String
  sessionTokenHash : Bytes
  csrfTokenHash : Bytes
  deriving DecidableEq, Repr

inductive Limiter where
  | login
  | passwordChange
  | bootstrap
  deriving DecidableEq, Repr

/-- What a budget is keyed on, beside the address. -/
inductive Subject where
  | username (name : String)
  | principal (id : PrincipalId)
  deriving DecidableEq, Repr

inductive AuthReq where
  | now
  | reserve (limiter : Limiter) (subject : Subject) (ip : String)
  | refund (limiter : Limiter) (subject : Subject) (ip : String)
      (reservation : Nat)
  | generateSessionId
  | issueTokens
  | findPrincipal (principalId : PrincipalId)
  | findPrincipalByName (name : PrincipalName)
  | setPrincipalState (principalId : PrincipalId) (state : PrincipalState)
      (at' : Instant)
  | assignRole (assignment : RoleAssignment)
  | findPasswordCredential (principalId : PrincipalId)
  | savePasswordCredential (credential : PasswordCredential)
  | verifyPassword (hash : Argon2IdHash) (password : String)
  | hashPassword (password : String)
  | listTotpAuthenticators (principalId : PrincipalId)
  | verifyTotp (secret : Bytes) (code : String) (now : Instant)
      (lastUsedStep : Option Nat)
  | recordTotpStep (authenticatorId : TotpAuthenticatorId) (step : Nat)
  | createSession (session : Session)
  | revokeSession (sessionId : SessionId) (at' : Instant)
  | revokeSessionsForPrincipal (principalId : PrincipalId) (at' : Instant)
  | appendAuditEvent (event : AuditEvent)

def AuthReq.Resp : AuthReq → Type
  | .now => Instant
  | .reserve .. => Option Nat
  | .refund .. => Unit
  | .generateSessionId => SessionId
  | .issueTokens => Except AuthServiceError Tokens
  | .findPrincipal _ => Except AuthServiceError (Option Principal)
  | .findPrincipalByName _ => Except AuthServiceError (Option Principal)
  | .setPrincipalState .. => Except AuthServiceError Unit
  | .assignRole _ => Except AuthServiceError Unit
  | .findPasswordCredential _ =>
      Except AuthServiceError (Option PasswordCredential)
  | .savePasswordCredential _ => Except AuthServiceError Unit
  | .verifyPassword .. => Bool
  | .hashPassword _ => Except AuthServiceError Argon2IdHash
  | .listTotpAuthenticators _ =>
      Except AuthServiceError (List TotpAuthenticator)
  | .verifyTotp .. => Option Nat
  | .recordTotpStep .. => Except AuthServiceError Bool
  | .createSession _ => Except AuthServiceError Unit
  | .revokeSession .. => Except AuthServiceError Unit
  | .revokeSessionsForPrincipal .. => Except AuthServiceError Nat
  | .appendAuditEvent _ => Except AuthServiceError Unit

def auth : Sig := ⟨AuthReq, AuthReq.Resp⟩

abbrev call (q : AuthReq) : Prog auth q.Resp := .call (S := auth) q .ret

/-! ## Answers -/

inductive StatusCode where
  | badRequest
  | unauthorized
  | notFound
  | tooManyRequests
  | internalServerError
  | serviceUnavailable
  deriving DecidableEq, Repr

inductive Cookie where
  | session (token : String) (expiresAt : Instant) (secure : Bool)
  | cleared
  deriving DecidableEq, Repr

inductive Response where
  | success (csrfToken : String) (cookie : Option Cookie)
  | jsonError (status : StatusCode) (message : String)
  | uncachedStatus (status : StatusCode)
  deriving DecidableEq, Repr

def Response.isSuccess : Response → Bool
  | .success .. => true
  | _ => false

def minPasswordChars : Nat := 12

def passwordSatisfiesPolicy (password : String) : Bool :=
  minPasswordChars ≤ password.toList.length

def passwordPolicyError : Response :=
  .jsonError .badRequest "the password must contain at least 12 characters"

def sessionRequired : Response :=
  .jsonError .unauthorized "a valid session is required"

def signInFailed : Response := .jsonError .unauthorized "sign-in failed"

def passwordChangeFailed : Response :=
  .jsonError .unauthorized "password change failed"

def derivationFailureResponse : AuthServiceError → Response
  | .derivationGateBusy => .uncachedStatus .serviceUnavailable
  | .failed => .uncachedStatus .internalServerError

def tooMany (attempts : String) : Response :=
  .jsonError .tooManyRequests s!"too many {attempts} attempts; try again later"

/-- Eight hours. -/
def sessionLifetime : Instant := 8 * 3600 * 1000000000

/-! ## Audit -/

/-- The permission and the action of a product audit event belong together. -/
def consistent : ProductPermission → AuditAction → Bool
  | .authenticate, .login | .authenticate, .logout
  | .authenticate, .changePassword | .manageUsers, .manageUsers
  | .manageUsers, .manageTotp => true
  | _, _ => false

def auditContext (actor : AuditActor) (actorPrincipalId : Option PrincipalId)
    (permission : ProductPermission) (action : AuditAction)
    (targetPrincipalId : Option PrincipalId) : Option AuditContext :=
  if decide (actor = .user) ≠ actorPrincipalId.isSome then none
  else if consistent permission action then
    some { actor, actorPrincipalId, permission, action, targetPrincipalId }
  else none

def recordOutcome (actor : AuditActor) (actorPrincipalId : Option PrincipalId)
    (permission : ProductPermission) (action : AuditAction)
    (outcome : AuditOutcome) (targetPrincipalId : Option PrincipalId)
    (now : Instant) : Prog auth Unit :=
  match auditContext actor actorPrincipalId permission action
      targetPrincipalId with
  | none => return ()
  | some context => do
    let _ ← call (.appendAuditEvent ⟨context, 1, .started, now⟩)
    let _ ← call (.appendAuditEvent ⟨context, 2, outcome, now⟩)
    return ()

def recordLoginFailure (principalId : Option PrincipalId) (now : Instant) :
    Prog auth Unit :=
  recordOutcome (if principalId.isSome then .user else .system) principalId
    .authenticate .login (.failed .authenticationFailed .rejected) none now

def recordLoginSuccess (principalId : PrincipalId) (now : Instant) :
    Prog auth Unit :=
  recordOutcome .user (some principalId) .authenticate .login .succeeded none
    now

def recordManagementEvent (actor : AuditActor)
    (actorPrincipalId : Option PrincipalId) (permission : ProductPermission)
    (action : AuditAction) (now : Instant) : Prog auth Unit :=
  recordOutcome actor actorPrincipalId permission action .succeeded none now

/-! ## Sign-in -/

/-- The credential of the derivations that only cost time. -/
def dummyHash : Argon2IdHash :=
  ⟨List.replicate 16 0x1a, List.replicate 32 0x2b⟩

def dummyPasswordVerification (password : String) : Prog auth Unit := do
  let _ ← call (.verifyPassword dummyHash password)
  return ()

structure LoginRequest where
  username : String
  password : String
  totpCode : Option String
  deriving DecidableEq, Repr

/-- The second factor, if the principal has one; `none` lets the sign-in go
on. -/
def secondFactor (principalId : PrincipalId) (totpCode : Option String)
    (now : Instant) : Prog auth (Option Response) := do
  match ← call (.listTotpAuthenticators principalId) with
  | .error .derivationGateBusy =>
    return some (.uncachedStatus .serviceUnavailable)
  | .error .failed =>
    recordLoginFailure (some principalId) now
    return some signInFailed
  | .ok authenticators =>
    match authenticators.find? fun a => a.state = .active with
    | none => return none
    | some authenticator => match totpCode with
      | none =>
        recordLoginFailure (some principalId) now
        return some signInFailed
      | some code =>
        match ← call (.verifyTotp authenticator.secret code now
            authenticator.lastUsedStep) with
        | none =>
          recordLoginFailure (some principalId) now
          return some signInFailed
        | some step =>
          match ← call (.recordTotpStep authenticator.id step) with
          | .ok true => return none
          | _ =>
            recordLoginFailure (some principalId) now
            return some signInFailed

/-- The end of a sign-in that passed both factors. -/
def openSession (request : LoginRequest) (principalId : PrincipalId)
    (ip : String) (secure : Bool) (reservation : Nat) (now : Instant) :
    Prog auth Response := do
  let _ ← call (.refund .login (.username request.username) ip reservation)
  match ← call .issueTokens with
  | .error _ => return .uncachedStatus .internalServerError
  | .ok tokens =>
    let id ← call .generateSessionId
    let session := Session.new id principalId tokens.sessionTokenHash
      tokens.csrfTokenHash now (now + sessionLifetime)
    match ← call (.createSession session) with
    | .error _ => return .uncachedStatus .internalServerError
    | .ok () =>
      recordLoginSuccess principalId now
      return .success tokens.csrfToken
        (some (.session tokens.sessionToken session.expiresAt secure))

def login (request : LoginRequest) (ip : String) (secure : Bool) :
    Prog auth Response := do
  let now ← call .now
  if !passwordSatisfiesPolicy request.password then return passwordPolicyError
  else match ← call (.reserve .login (.username request.username) ip) with
  | none => return tooMany "sign-in"
  | some reservation => match PrincipalName.parse request.username with
    | none =>
      recordLoginFailure none now
      return signInFailed
    | some name => match ← call (.findPrincipalByName name) with
      | .error _ | .ok none =>
        dummyPasswordVerification request.password
        recordLoginFailure none now
        return signInFailed
      | .ok (some principal) =>
        if principal.state ≠ .enabled then
          dummyPasswordVerification request.password
          recordLoginFailure (some principal.id) now
          return signInFailed
        else match ← call (.findPasswordCredential principal.id) with
        | .error _ | .ok none =>
          dummyPasswordVerification request.password
          recordLoginFailure (some principal.id) now
          return signInFailed
        | .ok (some credential) =>
          match ← call (.verifyPassword credential.hash request.password) with
          | false =>
            recordLoginFailure (some principal.id) now
            return signInFailed
          | true =>
            match ← secondFactor principal.id request.totpCode now with
            | some response => return response
            | none =>
              openSession request principal.id ip secure reservation now

/-! ## The presenting session -/

structure AuthContext where
  actor : AuditActor
  actorPrincipalId : Option PrincipalId
  sessionId : Option SessionId
  deriving DecidableEq, Repr

def logout (context : AuthContext) : Prog auth Response := do
  let now ← call .now
  match context.sessionId with
  | none => return sessionRequired
  | some sessionId => match ← call (.revokeSession sessionId now) with
    | .error _ => return .uncachedStatus .internalServerError
    | .ok () =>
      recordManagementEvent context.actor context.actorPrincipalId
        .authenticate .logout now
      return .success "" (some .cleared)

/-- The revocation that ends a password change, and its answer. -/
def endSessions (actor : AuditActor) (actorPrincipalId : Option PrincipalId)
    (principalId : PrincipalId) (targetPrincipalId : Option PrincipalId)
    (cookie : Option Cookie) (now : Instant) : Prog auth Response := do
  match ← call (.revokeSessionsForPrincipal principalId now) with
  | .error _ =>
    recordOutcome actor actorPrincipalId .authenticate .changePassword
      (.failed .sessionRevocationFailed .inconclusive) targetPrincipalId now
    return .uncachedStatus .internalServerError
  | .ok _ =>
    recordOutcome actor actorPrincipalId .authenticate .changePassword
      .succeeded targetPrincipalId now
    return .success "" cookie

/-- Derive and store a new password, then go on. -/
def replacePassword (principalId : PrincipalId) (newPassword : String)
    (now : Instant) (next : Prog auth Response) : Prog auth Response := do
  match ← call (.hashPassword newPassword) with
  | .error e => return derivationFailureResponse e
  | .ok hash =>
    match ← call (.savePasswordCredential ⟨principalId, hash, now⟩) with
    | .error _ => return .uncachedStatus .internalServerError
    | .ok () => next

def changePassword (context : AuthContext) (ip currentPassword newPassword :
    String) : Prog auth Response := do
  let now ← call .now
  if !passwordSatisfiesPolicy newPassword then return passwordPolicyError
  else match context.actorPrincipalId with
  | none => return sessionRequired
  | some principalId =>
    match ← call (.reserve .passwordChange (.principal principalId) ip) with
    | none => return tooMany "password-change"
    | some _ => match ← call (.findPasswordCredential principalId) with
      | .error _ | .ok none =>
        recordOutcome context.actor context.actorPrincipalId .authenticate
          .changePassword (.failed .authenticationFailed .rejected) none now
        return passwordChangeFailed
      | .ok (some credential) =>
        match ← call (.verifyPassword credential.hash currentPassword) with
        | false =>
          recordOutcome context.actor context.actorPrincipalId .authenticate
            .changePassword (.failed .authenticationFailed .rejected) none now
          return passwordChangeFailed
        | true =>
          replacePassword principalId newPassword now
            (endSessions .user (some principalId) principalId none
              (some .cleared) now)

/-! ## Administration -/

def dummyAdminDerivationInput : String := "rutilus-dummy-admin-derivation"

def dummyAdminDerivation (password : String) : Prog auth Unit := do
  let _ ← call (.hashPassword password)
  return ()

/-- What the administration handlers have in common: the presenting session,
the id of the path (`none` is a text that is no id), the budget and the lookup;
a principal that is not there costs one derivation. -/
def administer (context : AuthContext) (path : Option PrincipalId)
    (ip attempts dummyInput : String)
    (act : PrincipalId → Prog auth Response) : Prog auth Response :=
  match context.actorPrincipalId with
  | none => return sessionRequired
  | some actorPrincipalId => match path with
    | none => return .jsonError .badRequest "the principal id is invalid"
    | some principalId => do
      match ← call (.reserve .passwordChange (.principal actorPrincipalId)
          ip) with
      | none => return tooMany attempts
      | some _ => match ← call (.findPrincipal principalId) with
        | .error _ | .ok none =>
          dummyAdminDerivation dummyInput
          return .jsonError .notFound "the principal does not exist"
        | .ok (some _) => act principalId

/-- The revocation of the two handlers that drop its outcome. -/
def dropSessions (context : AuthContext) (principalId : PrincipalId)
    (now : Instant) : Prog auth Response := do
  let _ ← call (.revokeSessionsForPrincipal principalId now)
  recordManagementEvent context.actor context.actorPrincipalId .manageUsers
    .manageUsers now
  return .success "" none

def applyUserState (context : AuthContext) (state : PrincipalState)
    (now : Instant) (principalId : PrincipalId) : Prog auth Response := do
  match ← call (.setPrincipalState principalId state now) with
  | .error _ => return .uncachedStatus .internalServerError
  | .ok () => match state with
    | .disabled => dropSessions context principalId now
    | .enabled =>
      recordManagementEvent context.actor context.actorPrincipalId
        .manageUsers .manageUsers now
      return .success "" none

def setUserState (context : AuthContext) (path : Option PrincipalId)
    (ip : String) (state : PrincipalState) : Prog auth Response := do
  let now ← call .now
  administer context path ip "administration" dummyAdminDerivationInput
    (applyUserState context state now)

def applyUserRole (context : AuthContext) (role : Role) (now : Instant)
    (principalId : PrincipalId) : Prog auth Response := do
  match ← call (.assignRole
      ⟨principalId, role, context.actorPrincipalId, now, none⟩) with
  | .error _ => return .uncachedStatus .internalServerError
  | .ok () => dropSessions context principalId now

def assignUserRole (context : AuthContext) (path : Option PrincipalId)
    (ip : String) (role : Role) : Prog auth Response := do
  let now ← call .now
  administer context path ip "administration" dummyAdminDerivationInput
    (applyUserRole context role now)

def setUserPassword (context : AuthContext) (path : Option PrincipalId)
    (ip newPassword : String) : Prog auth Response := do
  let now ← call .now
  if !passwordSatisfiesPolicy newPassword then return passwordPolicyError
  else
    administer context path ip "password-change" newPassword
      fun principalId => replacePassword principalId newPassword now
        (endSessions context.actor context.actorPrincipalId principalId
          (some principalId) none now)

/-! ## What the services do -/

structure AuthStore where
  principals : PrincipalTable
  credentials : CredentialTable
  roles : RoleTable
  sessions : SessionTable

/-- What the environment decides at a call. `gate` is a derivation that was
refused or broke. -/
structure AuthOracle where
  fault : Option Fault
  clock : Instant
  reservation : Option Nat
  sessionId : SessionId
  tokens : Except AuthServiceError Tokens
  gate : Option AuthServiceError
  salt : Bytes
  authenticators : Except AuthServiceError (List TotpAuthenticator)
  totpStep : Option Nat
  totpRecorded : Except AuthServiceError Bool
  instances : InstanceId → Bool

variable (derive : Bytes → String → Bytes)

/-- The answer of a store write and the store after it. -/
def stored {ε α : Type} (s : AuthStore) (r : Except ε α)
    (f : α → AuthStore) : Except AuthServiceError Unit × AuthStore :=
  match r with
  | .ok a => (.ok (), f a)
  | .error _ => (.error .failed, s)

def performAuth (o : AuthOracle) :
    (q : AuthReq) → AuthStore → q.Resp × AuthStore
  | .now, s => (o.clock, s)
  | .reserve .., s => (o.reservation, s)
  | .refund .., s => ((), s)
  | .generateSessionId, s => (o.sessionId, s)
  | .issueTokens, s => (o.tokens, s)
  | .findPrincipal principalId, s => match o.fault with
    | some _ => (.error .failed, s)
    | none => ((findPrincipal s.principals principalId).mapError
        fun _ => .failed, s)
  | .findPrincipalByName name, s => match o.fault with
    | some _ => (.error .failed, s)
    | none => ((findPrincipalByName s.principals name).mapError
        fun _ => .failed, s)
  | .setPrincipalState principalId state at', s => match o.fault with
    | some _ => (.error .failed, s)
    | none => stored s (setPrincipalState s.principals principalId state at')
        fun principals => { s with principals }
  | .assignRole assignment, s => match o.fault with
    | some _ => (.error .failed, s)
    | none => stored s
        (Store.assignRole ⟨s.principals.has, o.instances⟩ s.roles assignment)
        fun roles => { s with roles }
  | .findPasswordCredential principalId, s => match o.fault with
    | some _ => (.error .failed, s)
    | none => (.ok (s.credentials.find principalId), s)
  | .savePasswordCredential credential, s => match o.fault with
    | some _ => (.error .failed, s)
    | none => stored s
        (savePasswordCredential s.principals s.credentials credential)
        fun credentials => { s with credentials }
  | .verifyPassword hash password, s => match o.gate with
    | some _ => (false, s)
    | none => (decide (derive hash.salt password = hash.hash), s)
  | .hashPassword password, s => match o.gate with
    | some e => (.error e, s)
    | none => (.ok ⟨o.salt, derive o.salt password⟩, s)
  | .listTotpAuthenticators _, s => (o.authenticators, s)
  | .verifyTotp .., s => (o.totpStep, s)
  | .recordTotpStep .., s => (o.totpRecorded, s)
  | .createSession session, s => match o.fault with
    | some _ => (.error .failed, s)
    | none => stored s (createSession s.principals s.sessions session)
        fun sessions => { s with sessions }
  | .revokeSession sessionId at', s => match o.fault with
    | some _ => (.error .failed, s)
    | none => match revokeSession s.sessions sessionId at' with
      | .ok sessions => (.ok (), { s with sessions })
      -- both are outcomes the route answers as settled
      | .error (.notFound _) | .error (.alreadyRevoked _) => (.ok (), s)
      | .error _ => (.error .failed, s)
  | .revokeSessionsForPrincipal principalId at', s => match o.fault with
    | some _ => (.error .failed, s)
    | none =>
      let r := revokeSessionsForPrincipal s.sessions principalId at'
      (.ok r.1, { s with sessions := r.2 })
  | .appendAuditEvent _, s => match o.fault with
    | some _ => (.error .failed, s)
    | none => (.ok (), s)

end Rutilus.Web.Auth

/-!
## Session rows and the clock

Sign-ins, uses, sign-outs and revocations write session rows. Each took its
instant from the clock some time before its write lands, so the writes need not
land in the order of their instants. The clock never goes back.

A read maps the stored row back through the domain, which refuses a row whose
times are out of order: `Corrupt`.
-/

namespace Rutilus.Store

open Rutilus.Domain Rutilus.Domain.User Rutilus.Lib

def mapStoredSession (row : Session) : Except SessionRepositoryError Session :=
  if row.tokenHash.length ≠ 32 then .error (.corrupt row.id)
  else if row.csrfHash.length ≠ 32 then .error (.corrupt row.id)
  else if !row.timelineHolds then .error (.corrupt row.id)
  else .ok row

def findSessionByTokenHash (t : SessionTable) (tokenHash : Bytes) :
    Except SessionRepositoryError (Option Session) :=
  match t.rows.find? fun row => row.tokenHash = tokenHash with
  | none => .ok none
  | some row => (mapStoredSession row).map some

/-- Oldest first. -/
def listSessions (t : SessionTable) (principalId : PrincipalId) :
    Except SessionRepositoryError (List Session) :=
  ((t.rows.filter fun row => row.principalId = principalId).mergeSort
    fun a b => a.createdAt ≤ b.createdAt).mapM mapStoredSession

end Rutilus.Store

namespace Rutilus.Web.SessionRows

open Rutilus.Domain Rutilus.Domain.User Rutilus.Lib Rutilus.Store
open Rutilus.Web.Auth

/-- `shown` is what the clock has shown so far. -/
structure State where
  clock : Instant
  shown : List Instant
  principals : PrincipalTable
  sessions : SessionTable

/-- Every row of the table reads back. -/
def Readable (t : SessionTable) : Prop :=
  ∀ row ∈ t.rows, mapStoredSession row = .ok row

def Initial (s : State) : Prop := s.shown = [s.clock] ∧ Readable s.sessions

inductive Label where
  | tick (clock : Instant)
  | create (sessionId : SessionId) (principalId : PrincipalId)
      (tokenHash csrfHash : Bytes) (now : Instant)
  | touch (sessionId : SessionId) (at' : Instant)
  | revoke (sessionId : SessionId) (at' : Instant)
  | revokeForPrincipal (principalId : PrincipalId) (at' : Instant)

/-- The instant a write carries. -/
def Label.instant : Label → Option Instant
  | .tick _ => none
  | .create _ _ _ _ now => some now
  | .touch _ at' | .revoke _ at' | .revokeForPrincipal _ at' => some at'

/-- A write that fails leaves the table alone. -/
def State.write (s : State) : Except SessionRepositoryError SessionTable → State
  | .ok sessions => { s with sessions }
  | .error _ => s

/-- The domain's hashes are arrays of 32 bytes. -/
def perform (s : State) : Label → Option State
  | .tick clock =>
      if clock < s.clock then none
      else some { s with clock, shown := clock :: s.shown }
  | .create sessionId principalId tokenHash csrfHash now =>
      if tokenHash.length ≠ 32 ∨ csrfHash.length ≠ 32 then none
      else some (s.write (createSession s.principals s.sessions
        (.new sessionId principalId tokenHash csrfHash now
          (now + sessionLifetime))))
  | .touch sessionId at' =>
      some (s.write (touchSession s.sessions sessionId at'))
  | .revoke sessionId at' =>
      some (s.write (revokeSession s.sessions sessionId at'))
  | .revokeForPrincipal principalId at' => some { s with
      sessions := (revokeSessionsForPrincipal s.sessions principalId at').2 }

def next (s : State) (a : Label) : Option State :=
  if a.instant.all (· ∈ s.shown) then perform s a else none

abbrev Reachable (s : State) : Prop := Reach Initial (Next next) s

/-- No open session of the principal is younger than the instant that is to end
it. -/
def quiet (s : State) : Label → Bool
  | .revokeForPrincipal principalId at' => s.sessions.rows.all fun row =>
      row.principalId = principalId → row.revokedAt = none →
        row.createdAt ≤ at'
  | _ => true

def nextQuiet (s : State) (a : Label) : Option State :=
  if quiet s a then next s a else none

end Rutilus.Web.SessionRows
