import Rutilus.Domain.User
import Rutilus.Store.Totp

/-!
# The bootstrap codes

The `bootstrap_codes` table and the transaction of the first-run claim. A code
is stored as its hash. The claim reads the code again under the write gate,
marks it used, and inserts the password, the authenticator and the session; the
inserts are plain ones, so any row that is already there ends the transaction,
and nothing of it stays.
-/

namespace Rutilus.Store

open Rutilus.Domain Rutilus.Domain.User Rutilus.Lib

structure BootstrapCodeId where
  uuid : Nat
  deriving DecidableEq, Repr

structure BootstrapCode where
  id : BootstrapCodeId
  codeHash : Bytes
  createdAt : Instant
  usedAt : Option Instant
  usedBy : Option PrincipalId
  deriving DecidableEq, Repr

def BootstrapCode.new (id : BootstrapCodeId) (codeHash : Bytes)
    (createdAt : Instant) : BootstrapCode :=
  ⟨id, codeHash, createdAt, none, none⟩

abbrev CodeTable : Type := Table BootstrapCodeId BootstrapCode BootstrapCode.id

inductive BootstrapRepositoryError where
  | fault (source : Fault)
  | notFound (codeId : BootstrapCodeId)
  | alreadyUsed (codeId : BootstrapCodeId)
  | corrupt (codeId : BootstrapCodeId)
  | protect
  deriving DecidableEq, Repr

/-- What `try_from_parts` accepts. -/
def mapStoredCode (row : BootstrapCode) :
    Except BootstrapRepositoryError BootstrapCode :=
  if row.codeHash.length ≠ 32 then .error (.corrupt row.id)
  else if row.usedAt.isSome ≠ row.usedBy.isSome then .error (.corrupt row.id)
  else .ok row

def createBootstrapCode (t : CodeTable) (code : BootstrapCode) :
    Except BootstrapRepositoryError CodeTable :=
  if t.has code.id then .error (.fault .database) else .ok (t.insertNew code)

def findBootstrapCodeByHash (t : CodeTable) (codeHash : Bytes) :
    Except BootstrapRepositoryError (Option BootstrapCode) :=
  match t.rows.find? fun row => row.codeHash = codeHash with
  | none => .ok none
  | some row => (mapStoredCode row).map some

def hasUnconsumedBootstrapCode (t : CodeTable) : Bool :=
  t.rows.any fun row => row.usedAt = none

/-! ## The claim -/

/-- The tables of the claim. -/
structure ClaimTables where
  principals : PrincipalTable
  codes : CodeTable
  credentials : CredentialTable
  totp : TotpTable
  sessions : SessionTable

def insertPasswordCredential (principals : PrincipalTable)
    (t : CredentialTable) (credential : PasswordCredential) :
    Except BootstrapRepositoryError CredentialTable :=
  if t.has credential.principalId then .error (.fault .database)
  else if principals.has credential.principalId then
    .ok (t.insertNew credential)
  else .error (.fault .database)

/-- The secret cannot always be encrypted: `protects`. -/
def insertAuthenticator (principals : PrincipalTable) (protects : Bool)
    (t : TotpTable) (authenticator : TotpAuthenticator) :
    Except BootstrapRepositoryError TotpTable :=
  if !protects then .error .protect
  else (createTotpAuthenticator principals t authenticator).mapError
    fun _ => .fault .database

def insertEnrolled (principals : PrincipalTable) (protects : Bool)
    (t : TotpTable) :
    Option TotpAuthenticator → Except BootstrapRepositoryError TotpTable
  | some authenticator => insertAuthenticator principals protects t authenticator
  | none => .ok t

def insertSession (principals : PrincipalTable) (t : SessionTable)
    (session : Session) : Except BootstrapRepositoryError SessionTable :=
  (createSession principals t session).mapError fun _ => .fault .database

/-- What one claim consumes and inserts. -/
structure Consumption where
  codeId : BootstrapCodeId
  usedBy : PrincipalId
  password : PasswordCredential
  authenticator : Option TotpAuthenticator
  session : Session
  consumedAt : Instant
  deriving DecidableEq, Repr

def consumeBootstrapCode (protects : Bool) (t : ClaimTables) (c : Consumption) :
    Except BootstrapRepositoryError ClaimTables := do
  match t.codes.find c.codeId with
  | none => .error (.notFound c.codeId)
  | some model =>
    if model.usedAt.isSome then .error (.alreadyUsed c.codeId)
    else if !t.principals.has c.usedBy then .error (.fault .database)
    else
      let codes := t.codes.replace { model with
        usedAt := some c.consumedAt
        usedBy := some c.usedBy }
      let credentials ←
        insertPasswordCredential t.principals t.credentials c.password
      let totp ←
        insertEnrolled t.principals protects t.totp c.authenticator
      let sessions ← insertSession t.principals t.sessions c.session
      .ok { t with codes, credentials, totp, sessions }

end Rutilus.Store
