import Rutilus.Domain.User
import Rutilus.Lib.Table
import Rutilus.Store.Operations

/-!
# The role store

The `role_assignments` table, one row for each principal. An assignment is one
insert; where the principal has a row already, the conflict branch updates three
of its columns: the role, the assigner and the time. The site is not one of
them, so the first assignment of a principal decides the site of its row.

The row that would be inserted and the row the update leaves both have to pass
the check that no administrator is limited to a site. The foreign keys of the
columns that are written have to be there.
-/

namespace Rutilus.Store

open Rutilus.Domain Rutilus.Domain.User Rutilus.Lib

abbrev RoleTable : Type :=
  Table PrincipalId RoleAssignment RoleAssignment.principalId

/-- The rows the foreign keys of an assignment may name. -/
structure References where
  principals : PrincipalId → Bool
  instances : InstanceId → Bool

/-- The check constraint over role and site. -/
def siteScopeHolds (row : RoleAssignment) : Bool :=
  row.siteId = none ∨ row.role = .operator ∨ row.role = .viewer

def assignRole (refs : References) (t : RoleTable)
    (assignment : RoleAssignment) : Except Fault RoleTable :=
  if !siteScopeHolds assignment then .error .database
  else match t.find assignment.principalId with
    | none =>
      if refs.principals assignment.principalId ∧
          assignment.assignedBy.all refs.principals ∧
          assignment.siteId.all refs.instances then
        .ok (t.insertNew assignment)
      else .error .database
    | some row =>
      let updated : RoleAssignment :=
        { row with
          role := assignment.role
          assignedBy := assignment.assignedBy
          assignedAt := assignment.assignedAt }
      if siteScopeHolds updated ∧ updated.assignedBy.all refs.principals then
        .ok (t.replace updated)
      else .error .database

def findRoleAssignment (t : RoleTable) (principalId : PrincipalId) :
    Option RoleAssignment :=
  t.find principalId

variable {refs : References} {t t' : RoleTable} {assignment : RoleAssignment}

/-- What an assignment leaves of a principal's row: of an earlier row only the
site. -/
theorem assignRole_find (h : assignRole refs t assignment = .ok t')
    (principalId : PrincipalId) :
    t'.find principalId =
      if assignment.principalId = principalId then
        some { assignment with siteId := match t.find principalId with
          | none => assignment.siteId
          | some row => row.siteId }
      else t.find principalId := by
  unfold assignRole at h
  split at h
  · cases h
  · split at h
    · next hnone =>
        split at h
        · cases h
          rw [Table.find_insertNew]
          by_cases hp : assignment.principalId = principalId
          · subst hp
            rw [if_pos ⟨rfl, hnone⟩, if_pos rfl, hnone]
          · rw [if_neg (fun h => hp h.1), if_neg hp]
        · cases h
    · next row hrow =>
        dsimp only at h
        split at h
        · cases h
          have hid : row.principalId = assignment.principalId :=
            Table.key_of_find hrow
          rw [Table.find_replace]
          by_cases hp : assignment.principalId = principalId
          · subst hp
            rw [if_pos ⟨hid, by rw [hrow]; rfl⟩, if_pos rfl, hrow]
            simp only [hid]
          · rw [if_neg (fun h => hp (hid.symm.trans h.1)), if_neg hp]
        · cases h

end Rutilus.Store

/-!
## The stores behind a sign-in

The `sessions`, `principals` and `password_credentials` tables. A revocation
sets a time where none stands, so it never rewrites an earlier one, and no call
takes one back: a touch reads the row again under the write gate and writes it
whole.
-/

namespace Rutilus.Store

open Rutilus.Domain Rutilus.Domain.User Rutilus.Lib

abbrev SessionTable : Type := Table SessionId Session Session.id

abbrev PrincipalTable : Type := Table PrincipalId Principal Principal.id

abbrev CredentialTable : Type :=
  Table PrincipalId PasswordCredential PasswordCredential.principalId

/-! ## Sessions -/

inductive SessionRepositoryError where
  | fault (source : Fault)
  | notFound (sessionId : SessionId)
  | alreadyRevoked (sessionId : SessionId)
  | staleTouch (sessionId : SessionId)
  | tokenHashTaken
  | corrupt (sessionId : SessionId)
  deriving DecidableEq, Repr

/-- Both unique constraints report a taken token hash. -/
def createSession (principals : PrincipalTable) (t : SessionTable)
    (session : Session) : Except SessionRepositoryError SessionTable :=
  if t.has session.id ∨ t.rows.any fun row => row.tokenHash = session.tokenHash
  then .error .tokenHashTaken
  else if principals.has session.principalId then .ok (t.insertNew session)
  else .error (.fault .database)

def touchSession (t : SessionTable) (sessionId : SessionId) (at' : Instant) :
    Except SessionRepositoryError SessionTable :=
  match t.find sessionId with
  | none => .error (.notFound sessionId)
  | some row =>
    if !row.timelineHolds then .error (.corrupt sessionId)
    else if at' < row.lastUsedAt then .error (.staleTouch sessionId)
    else .ok (t.replace { row with lastUsedAt := at' })

def revokeSession (t : SessionTable) (sessionId : SessionId) (at' : Instant) :
    Except SessionRepositoryError SessionTable :=
  match t.find sessionId with
  | none => .error (.notFound sessionId)
  | some row =>
    if !row.timelineHolds then .error (.corrupt sessionId)
    else if row.revokedAt.isSome then .error (.alreadyRevoked sessionId)
    else if at' < row.createdAt then .error (.corrupt sessionId)
    else .ok (t.replace { row with revokedAt := some at' })

/-- A row of the update of `revokeSessionsForPrincipal`. -/
def revokedSession (principalId : PrincipalId) (at' : Instant) (row : Session) :
    Session :=
  if row.principalId = principalId ∧ row.revokedAt = none then
    { row with revokedAt := some at' }
  else row

theorem revokedSession_id (principalId : PrincipalId) (at' : Instant)
    (row : Session) : (revokedSession principalId at' row).id = row.id := by
  unfold revokedSession
  split <;> rfl

/-- The number of rows the update hits, and the table after it. -/
def revokeSessionsForPrincipal (t : SessionTable) (principalId : PrincipalId)
    (at' : Instant) : Nat × SessionTable :=
  (t.rows.countP fun row =>
      row.principalId = principalId ∧ row.revokedAt = none,
    t.map (revokedSession principalId at') (revokedSession_id principalId at'))

/-! ## Principals -/

inductive PrincipalRepositoryError where
  | fault (source : Fault)
  | notFound (principalId : PrincipalId)
  | corrupt (principalId : PrincipalId)
  deriving DecidableEq, Repr

def mapStoredPrincipal (row : Principal) :
    Except PrincipalRepositoryError Principal :=
  if row.updatedAt < row.createdAt then .error (.corrupt row.id) else .ok row

def findPrincipal (t : PrincipalTable) (principalId : PrincipalId) :
    Except PrincipalRepositoryError (Option Principal) :=
  match t.find principalId with
  | none => .ok none
  | some row => (mapStoredPrincipal row).map some

def findPrincipalByName (t : PrincipalTable) (name : PrincipalName) :
    Except PrincipalRepositoryError (Option Principal) :=
  match t.rows.find? fun row => row.name = name with
  | none => .ok none
  | some row => (mapStoredPrincipal row).map some

def setPrincipalState (t : PrincipalTable) (principalId : PrincipalId)
    (state : PrincipalState) (at' : Instant) :
    Except PrincipalRepositoryError PrincipalTable :=
  match t.find principalId with
  | none => .error (.notFound principalId)
  | some row => .ok (t.replace { row with state, updatedAt := at' })

/-! ## Passwords -/

/-- One password for a principal: a conflict replaces it. -/
def savePasswordCredential (principals : PrincipalTable) (t : CredentialTable)
    (credential : PasswordCredential) : Except Fault CredentialTable :=
  if principals.has credential.principalId then .ok (t.put credential)
  else .error .database

/-! ## What becomes of a session -/

/-- The row of a session later: the account stays, and a revocation stays. -/
def SessionLater (a b : Session) : Prop :=
  b.principalId = a.principalId ∧ (a.revokedAt.isSome → b.revokedAt.isSome)

theorem SessionLater.refl (a : Session) : SessionLater a a := ⟨rfl, id⟩

section Rows

variable {t t' : SessionTable} {sessionId : SessionId} {at' : Instant}

theorem createSession_find {principals : PrincipalTable} {session : Session}
    (h : createSession principals t session = .ok t') (id : SessionId) :
    t.find session.id = none ∧
      t'.find id = if session.id = id then some session else t.find id := by
  unfold createSession at h
  split at h
  · cases h
  · next htaken =>
      split at h
      · cases h
        have hnone : t.find session.id = none := by
          refine Option.not_isSome_iff_eq_none.mp fun hsome => htaken (.inl ?_)
          exact hsome
        refine ⟨hnone, ?_⟩
        rw [Table.find_insertNew]
        by_cases hid : session.id = id
        · subst hid
          rw [if_pos ⟨rfl, hnone⟩, if_pos rfl]
        · rw [if_neg fun h => hid h.1, if_neg hid]
      · cases h

/-- A row replaced by a later one of itself. -/
theorem replace_later {row : Session} (new : Session)
    (hrow : t.find sessionId = some row) (hid : new.id = row.id)
    (hlater : SessionLater row new) (id : SessionId) :
    (∀ a, t.find id = some a → ∃ b, (t.replace new).find id = some b ∧
      SessionLater a b) ∧
    ∀ b, (t.replace new).find id = some b → ∃ a, t.find id = some a ∧
      SessionLater a b := by
  obtain rfl : row.id = sessionId := Table.key_of_find hrow
  rw [Table.find_replace, hid]
  by_cases heq : row.id = id
  · subst heq
    rw [if_pos ⟨rfl, by rw [hrow]; rfl⟩, hrow]
    constructor
    · rintro a ⟨⟩
      exact ⟨new, rfl, hlater⟩
    · rintro b ⟨⟩
      exact ⟨row, rfl, hlater⟩
  · rw [if_neg fun h => heq h.1]
    exact ⟨fun a ha => ⟨a, ha, .refl a⟩, fun b hb => ⟨b, hb, .refl b⟩⟩

theorem touchSession_ok (h : touchSession t sessionId at' = .ok t') :
    ∃ row, t.find sessionId = some row ∧
      t' = t.replace { row with lastUsedAt := at' } := by
  unfold touchSession at h
  split at h
  · cases h
  · next row hrow =>
      split at h
      · cases h
      · split at h
        · cases h
        · cases h
          exact ⟨row, hrow, rfl⟩

theorem revokeSession_ok (h : revokeSession t sessionId at' = .ok t') :
    ∃ row, t.find sessionId = some row ∧
      t' = t.replace { row with revokedAt := some at' } := by
  unfold revokeSession at h
  split at h
  · cases h
  · next row hrow =>
      split at h
      · cases h
      · split at h
        · cases h
        · split at h
          · cases h
          · cases h
            exact ⟨row, hrow, rfl⟩

theorem find_revokeSessionsForPrincipal {principalId : PrincipalId}
    (id : SessionId) :
    (revokeSessionsForPrincipal t principalId at').2.find id =
      (t.find id).map (revokedSession principalId at') :=
  Table.find_map (revokedSession_id principalId at')

theorem revokedSession_later (principalId : PrincipalId) (at' : Instant)
    (row : Session) : SessionLater row (revokedSession principalId at' row) := by
  unfold revokedSession
  split
  · exact ⟨rfl, fun _ => rfl⟩
  · exact .refl row

/-- No session of the principal is left without a revocation. -/
theorem revokedSession_revoked {principalId : PrincipalId} {row : Session}
    (h : row.principalId = principalId) :
    (revokedSession principalId at' row).revokedAt.isSome := by
  unfold revokedSession
  split
  · rfl
  · next hneg =>
      refine Option.isSome_iff_ne_none.mpr fun hnone => ?_
      exact hneg ⟨h, hnone⟩

end Rows

end Rutilus.Store
