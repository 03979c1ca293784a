import Rutilus.Lib.Runs
import Rutilus.Store.Bootstrap
import Rutilus.Web.Auth

/-!
# The first-run claim

A one-time code lets the first administrator set a password. A request looks
the code up, checks the second factor it may bring, derives the password hash,
and only then consumes the code, all in one transaction.

Any number of requests run at once, each interrupted between any two of its
calls; a request that is not continued has stopped. Any call may fail. Codes are
created at any time, and the rest of the product writes accounts, passwords,
authenticators and sessions (`elsewhere`): it takes no password away, and gives
nobody else the administrator's name.

`claims` is not part of the product: it lists the transactions that have
committed, the last one first, with the request each belongs to.
-/

namespace Rutilus.Web.Bootstrap

open Rutilus.Domain Rutilus.Domain.User Rutilus.Lib Rutilus.Store
open Rutilus.Web.Auth

inductive BootReq where
  | auth (q : AuthReq)
  | findBootstrapCodeByHash (codeHash : Bytes)
  | generateTotpAuthenticatorId
  | consumeBootstrapCode (consumption : Consumption)
  | armGate

def BootReq.Resp : BootReq → Type
  | .auth q => q.Resp
  | .findBootstrapCodeByHash _ =>
      Except AuthServiceError (Option BootstrapCode)
  | .generateTotpAuthenticatorId => TotpAuthenticatorId
  | .consumeBootstrapCode _ => Except AuthServiceError Unit
  | .armGate => Unit

def boot : Sig := ⟨BootReq, BootReq.Resp⟩

abbrev call (q : BootReq) : Prog boot q.Resp := .call (S := boot) q .ret

instance : Sub auth boot where
  inj := .auth
  back := fun _ r => r

/-- What the handler needs of the product's cryptography and encodings: the
keyed hash of the second factor, the hash of a code and the decoding of a
secret. -/
structure Crypto where
  hmacSha1 : Bytes → Bytes → Bytes
  hashBootstrapCode : String → Bytes
  base32Decode : String → Option Bytes

structure BootstrapCompleteRequest where
  code : String
  password : String
  totpSecret : Option String
  totpCode : Option String
  deriving DecidableEq, Repr

def BootstrapCompleteRequest.hasCompleteTotpPair
    (request : BootstrapCompleteRequest) : Bool :=
  request.totpSecret.isSome = request.totpCode.isSome

def bootstrapPrincipalName : String := "admin"

def bootstrapFailed : Response := .jsonError .unauthorized "bootstrap failed"

def TotpAuthenticator.new (id : TotpAuthenticatorId)
    (principalId : PrincipalId) (secret : Bytes) (createdAt : Instant) :
    TotpAuthenticator :=
  ⟨id, principalId, secret, .provisioning, createdAt, none, none⟩

/-- The authenticator the request asks for, activated. -/
def enrollment (crypto : Crypto) (request : BootstrapCompleteRequest)
    (principalId : PrincipalId) (now : Instant) :
    Prog boot (Except Response (Option TotpAuthenticator)) :=
  match request.totpSecret with
  | none => return .ok none
  | some encoded => match crypto.base32Decode encoded with
    | none => return .error (.jsonError .badRequest
        "the TOTP secret is not valid base32")
    | some secret =>
      if secret.length ≠ totpSecretLength then
        return .error (.jsonError .badRequest
          "the TOTP secret must decode to 20 bytes")
      else match request.totpCode with
      | none => return .error (.jsonError .badRequest
          "the TOTP activation code is required")
      | some code => do
        let id ← call .generateTotpAuthenticatorId
        let authenticator := TotpAuthenticator.new id principalId secret now
        match authenticator.activate crypto.hmacSha1 code now with
        | .error _ => return .error (.jsonError .badRequest
            "the TOTP activation code is invalid")
        | .ok (activated, _) => return .ok (some activated)

/-- The end of a claim whose checks have passed. -/
def claim (request : BootstrapCompleteRequest) (ip : String) (secure : Bool)
    (reservation : Nat) (principalId : PrincipalId) (codeId : BootstrapCodeId)
    (authenticator : Option TotpAuthenticator) (now : Instant) :
    Prog boot Response := do
  match ← call (.auth (.hashPassword request.password)) with
  | .error e => return derivationFailureResponse e
  | .ok hash => match ← call (.auth .issueTokens) with
    | .error _ => return .uncachedStatus .internalServerError
    | .ok tokens =>
      let id : SessionId ← call (.auth .generateSessionId)
      let session := Session.new id principalId tokens.sessionTokenHash
        tokens.csrfTokenHash now (now + sessionLifetime)
      match ← call (.consumeBootstrapCode
          ⟨codeId, principalId, ⟨principalId, hash, now⟩, authenticator,
            session, now⟩) with
      | .error _ => return bootstrapFailed
      | .ok () =>
        let _ ← call (.auth (.refund .bootstrap
          (.username bootstrapPrincipalName) ip reservation))
        (recordLoginSuccess principalId now).lift
        if authenticator.isSome then
          (recordManagementEvent .user (some principalId) .manageUsers
            .manageTotp now).lift
        let _ ← call .armGate
        return .success tokens.csrfToken
          (some (.session tokens.sessionToken session.expiresAt secure))

def bootstrapComplete (crypto : Crypto) (request : BootstrapCompleteRequest)
    (ip : String) (secure : Bool) : Prog boot Response := do
  let now : Instant ← call (.auth .now)
  if !passwordSatisfiesPolicy request.password then return passwordPolicyError
  else if !request.hasCompleteTotpPair then
    return .jsonError .badRequest
      "the TOTP secret and its activation code must travel together"
  else match ← call (.auth (.reserve .bootstrap
      (.username bootstrapPrincipalName) ip)) with
  | none => return tooMany "bootstrap"
  | some reservation => match PrincipalName.parse bootstrapPrincipalName with
    | none => return .uncachedStatus .internalServerError
    | some adminName =>
      match ← call (.auth (.findPrincipalByName adminName)) with
      | .error _ | .ok none =>
        (recordLoginFailure none now).lift
        return bootstrapFailed
      | .ok (some principal) =>
        let codeHash := crypto.hashBootstrapCode request.code
        match ← call (.findBootstrapCodeByHash codeHash) with
        | .error _ | .ok none =>
          (recordLoginFailure (some principal.id) now).lift
          return bootstrapFailed
        | .ok (some code) =>
          if code.usedAt.isSome then
            (recordLoginFailure (some principal.id) now).lift
            return bootstrapFailed
          else match ← enrollment crypto request principal.id now with
          | .error response => return response
          | .ok authenticator =>
            claim request ip secure reservation principal.id code.id
              authenticator now

/-! ## What the services do -/

structure Tables where
  store : AuthStore
  totp : TotpTable
  codes : CodeTable

def Tables.claimTables (t : Tables) : ClaimTables where
  principals := t.store.principals
  codes := t.codes
  credentials := t.store.credentials
  totp := t.totp
  sessions := t.store.sessions

/-- The tables after a claim. -/
def Tables.claimed (t : Tables) (c : ClaimTables) : Tables where
  store := { t.store with
    credentials := c.credentials
    sessions := c.sessions }
  totp := c.totp
  codes := c.codes

structure Oracle extends AuthOracle where
  totpAuthenticatorId : TotpAuthenticatorId
  protects : Bool

variable (derive : Bytes → String → Bytes)

def perform (o : Oracle) : (q : BootReq) → Tables → q.Resp × Tables
  | .auth q, t =>
      let r := performAuth derive o.toAuthOracle q t.store
      (r.1, { t with store := r.2 })
  | .findBootstrapCodeByHash codeHash, t => match o.fault with
    | some _ => (.error .failed, t)
    | none => ((findBootstrapCodeByHash t.codes codeHash).mapError
        fun _ => .failed, t)
  | .generateTotpAuthenticatorId, t => (o.totpAuthenticatorId, t)
  | .consumeBootstrapCode c, t => match o.fault with
    | some _ => (.error .failed, t)
    | none => match consumeBootstrapCode o.protects t.claimTables c with
      | .ok tables => (.ok (), t.claimed tables)
      | .error _ => (.error .failed, t)
  | .armGate, t => ((), t)

/-! ## Runs -/

/-- What a request has learned. -/
structure Notes where
  admin : Option PrincipalId
  code : Option BootstrapCodeId
  claimed : Bool
  deriving DecidableEq

def noteOf (n : Notes) : (q : BootReq) → q.Resp → Notes
  | .auth (.findPrincipalByName _), .ok (some principal) =>
      { n with admin := some principal.id }
  | .findBootstrapCodeByHash _, .ok (some code) =>
      { n with code := some code.id }
  | .consumeBootstrapCode _, .ok () => { n with claimed := true }
  | _, _ => n

structure Flight where
  request : BootstrapCompleteRequest
  notes : Notes
  rest : Prog boot Response

structure Claim where
  flight : Nat
  consumption : Consumption
  deriving DecidableEq

structure State where
  tables : Tables
  flights : List Flight
  claims : List Claim

def claimsOf (i : Nat) : (q : BootReq) → q.Resp → List Claim
  | .consumeBootstrapCode c, .ok () => [⟨i, c⟩]
  | _, _ => []

def isAdmin (principal : Principal) : Bool :=
  some principal.name = PrincipalName.parse bootstrapPrincipalName

/-- A console that nobody has claimed. Names are unique. -/
def Initial (s : State) : Prop :=
  (∀ code ∈ s.tables.codes.rows, code.usedAt = none) ∧
    (∀ p ∈ s.tables.store.principals.rows,
      ∀ q ∈ s.tables.store.principals.rows,
        isAdmin p = true → isAdmin q = true → p.id = q.id) ∧
    s.flights = [] ∧ s.claims = []

/-- What the rest of the product leaves alone. -/
def tolerates (t t' : Tables) : Bool :=
  t'.codes.rows = t.codes.rows ∧
    (t.store.credentials.rows.all fun credential =>
      t'.store.credentials.has credential.principalId) ∧
    t'.store.principals.rows.all fun principal => isAdmin principal →
      t.store.principals.rows.any fun old =>
        isAdmin old ∧ old.id = principal.id

inductive Label where
  | begin (request : BootstrapCompleteRequest) (ip : String) (secure : Bool)
  | step (i : Nat) (o : Oracle)
  | createCode (id : BootstrapCodeId) (codeHash : Bytes) (createdAt : Instant)
  | elsewhere (tables : Tables)

variable (crypto : Crypto)

def next (s : State) : Label → Option State
  | .begin request ip secure => some { s with
      flights := s.flights ++ [⟨request, ⟨none, none, false⟩,
        bootstrapComplete crypto request ip secure⟩] }
  | .step i o => match s.flights[i]? with
    | some ⟨request, n, .call q k⟩ =>
      let r := perform derive o q s.tables
      some ⟨r.2, s.flights.set i ⟨request, noteOf n q r.1, k r.1⟩,
        claimsOf i q r.1 ++ s.claims⟩
    | _ => none
  | .createCode id codeHash createdAt =>
    match createBootstrapCode s.tables.codes (.new id codeHash createdAt) with
    | .error _ => none
    | .ok codes => some { s with tables := { s.tables with codes } }
  | .elsewhere tables =>
    if tolerates s.tables tables then some { s with tables } else none

/-- A step of the claims themselves. -/
def Label.own : Label → Bool
  | .elsewhere _ => false
  | _ => true

def nextAlone (s : State) (a : Label) : Option State :=
  if a.own then next derive crypto s a else none

abbrev Reachable (s : State) : Prop :=
  Reach Initial (Next (next derive crypto)) s

/-- Reached with nothing but claims going on. -/
abbrev ReachableAlone (s : State) : Prop :=
  Reach Initial (Next (nextAlone derive crypto)) s

end Rutilus.Web.Bootstrap
