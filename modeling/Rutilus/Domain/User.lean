import Mathlib.Algebra.Group.Nat.Defs
import Rutilus.Domain.Artifact

/-!
# Product users

A principal is an account: a normalized name and whether it is enabled. It has
at most one role, and a role may be limited to one site. Only
the operator and the viewer can be limited; an administrator is global.
-/

namespace Rutilus.Domain.User

open Rutilus.Domain

structure PrincipalId where
  uuid : Nat
  deriving DecidableEq, Repr

inductive Role where
  | administrator
  | operator
  | viewer
  deriving DecidableEq, Repr

inductive PrincipalState where
  | enabled
  | disabled
  deriving DecidableEq, Repr

/-! ## Accounts -/

/-- A normalized name. -/
structure PrincipalName where
  text : String
  deriving DecidableEq, Repr

def maxPrincipalNameChars : Nat := 64

/-- Lower case, as far as it decides whether a name is accepted: the Kelvin
sign is the one character outside ASCII whose lower case is inside. -/
def lowerChar (c : Char) : Char :=
  if c = '\u212a' then 'k' else c.toLower

def isNameStart (c : Char) : Bool :=
  'a' ≤ c ∧ c ≤ 'z' ∨ '0' ≤ c ∧ c ≤ '9'

def isNameCharacter (c : Char) : Bool :=
  isNameStart c ∨ c = '.' ∨ c = '-' ∨ c = '_'

def PrincipalName.parse (value : String) : Option PrincipalName :=
  match (trim value.toList).map lowerChar with
  | [] => none
  | first :: rest =>
    if !isNameStart first then none
    else if rest.any fun c => !isNameCharacter c then none
    else if maxPrincipalNameChars < (first :: rest).length then none
    else some ⟨String.ofList (first :: rest)⟩

structure Principal where
  id : PrincipalId
  name : PrincipalName
  state : PrincipalState
  createdAt : Instant
  updatedAt : Instant
  deriving DecidableEq, Repr

/-! ## Roles -/

/-- A principal's role, limited to one site or to none. -/
structure RoleAssignment where
  principalId : PrincipalId
  role : Role
  assignedBy : Option PrincipalId
  assignedAt : Instant
  siteId : Option InstanceId
  deriving DecidableEq, Repr

end Rutilus.Domain.User

/-!
## Sessions and passwords

A sign-in creates a session row that holds the hashes of its two tokens. A
session ends by time or by revocation; a revoked row stays. A principal has one
password, kept as a salt and what is derived from it.
-/

namespace Rutilus.Domain.User

open Rutilus.Domain

structure SessionId where
  uuid : Nat
  deriving DecidableEq, Repr

structure Session where
  id : SessionId
  principalId : PrincipalId
  tokenHash : Bytes
  csrfHash : Bytes
  createdAt : Instant
  lastUsedAt : Instant
  expiresAt : Instant
  revokedAt : Option Instant
  deriving DecidableEq, Repr

def Session.new (id : SessionId) (principalId : PrincipalId)
    (tokenHash csrfHash : Bytes) (createdAt expiresAt : Instant) : Session where
  id := id
  principalId := principalId
  tokenHash := tokenHash
  csrfHash := csrfHash
  createdAt := createdAt
  lastUsedAt := createdAt
  expiresAt := expiresAt
  revokedAt := none

/-- What `try_from_parts` accepts. -/
def Session.timelineHolds (session : Session) : Bool :=
  session.createdAt < session.expiresAt ∧
    session.createdAt ≤ session.lastUsedAt ∧
    session.revokedAt.all fun revokedAt => session.createdAt ≤ revokedAt

structure Argon2IdHash where
  salt : Bytes
  hash : Bytes
  deriving DecidableEq, Repr

structure PasswordCredential where
  principalId : PrincipalId
  hash : Argon2IdHash
  changedAt : Instant
  deriving DecidableEq, Repr

inductive TotpState where
  | provisioning
  | active
  deriving DecidableEq, Repr

structure TotpAuthenticatorId where
  uuid : Nat
  deriving DecidableEq, Repr

structure TotpAuthenticator where
  id : TotpAuthenticatorId
  principalId : PrincipalId
  secret : Bytes
  state : TotpState
  createdAt : Instant
  activatedAt : Option Instant
  lastUsedStep : Option Nat
  deriving DecidableEq, Repr

end Rutilus.Domain.User
