import Rutilus.Domain.Credential
import Rutilus.Lib.Prog
import Rutilus.Lib.Runs
import Rutilus.Lib.Table
import Rutilus.Store.Operations

/-!
# The credential store

The `credentials` and `credential_versions` tables. A credential is inserted
together with its first version; a rotation appends a version and selects it. Both
are transactions under the write gate. A read is two queries, for the metadata and
then for the version they name, and no transaction: between them others commit.
-/

namespace Rutilus.Store.Credentials

open Rutilus.Domain Rutilus.Domain.Credential Rutilus.Lib

/-! ## Rows -/

/-- A row of `credentials`. -/
structure CredentialModel where
  id : Credential.CredentialId
  name : String
  username : String
  activeVersionId : Option CredentialVersionId
  createdAt : Instant
  updatedAt : Instant
  deriving DecidableEq, Repr

/-- A row of `credential_versions`. -/
structure VersionModel where
  id : CredentialVersionId
  credentialId : Credential.CredentialId
  encryptedSecret : Bytes
  nonce : Bytes
  createdAt : Instant
  deriving DecidableEq, Repr

structure Tables where
  credentials : Table Credential.CredentialId CredentialModel CredentialModel.id
  versions : Table CredentialVersionId VersionModel VersionModel.id

inductive StoredCredentialError where
  | invalidName (source : LabelError)
  | invalidUsername (source : LabelError)
  | activeVersionNotSelected
  | activeVersionMissing (versionId : CredentialVersionId)
  | invalidTimeline (source : CredentialTimelineError)
  | invalidNonceLength (actual expected : Nat)
  | invalidCiphertext (source : CredentialProtectionError)
  deriving DecidableEq, Repr

inductive CredentialRepositoryError where
  | coordinate
  | alreadyExists
  | versionAlreadyExists
  | notFound (credentialId : Credential.CredentialId)
  | invalidTimeline (source : CredentialTimelineError)
  | corrupt (credentialId : Credential.CredentialId) (source : StoredCredentialError)
  | database
  deriving DecidableEq, Repr

def mapCredentialModel (model : CredentialModel) :
    Except StoredCredentialError Credential := do
  let name ← (CredentialName.parse model.name).mapError .invalidName
  let username ←
    (CredentialUsername.parse model.username).mapError .invalidUsername
  match model.activeVersionId with
  | none => .error .activeVersionNotSelected
  | some activeVersionId =>
    (Credential.tryNew model.id name username activeVersionId model.createdAt
      model.updatedAt).mapError .invalidTimeline

/-- Metadata and the version they name. -/
structure StoredCredential where
  metadata : Credential
  protectedSecret : ProtectedCredentialVersion
  deriving DecidableEq

/-- The version as it was found, if it was. -/
def mapVersionModel (credentialId : Credential.CredentialId)
    (versionId : CredentialVersionId) :
    Option VersionModel → Except StoredCredentialError ProtectedCredentialVersion
  | none => .error (.activeVersionMissing versionId)
  | some version =>
    if h : version.nonce.length = credentialNonceLength then
      (ProtectedCredentialVersion.fromParts credentialId versionId
        ⟨version.nonce, h⟩ version.encryptedSecret).mapError .invalidCiphertext
    else
      .error (.invalidNonceLength version.nonce.length credentialNonceLength)

/-! ## Reading -/

inductive DbErr where
  | failed
  deriving DecidableEq, Repr

inductive ReadReq where
  | findById (credentialId : Credential.CredentialId)
  | findVersion (versionId : CredentialVersionId)
      (credentialId : Credential.CredentialId)

def ReadReq.Resp : ReadReq → Type
  | .findById _ => Except DbErr (Option CredentialModel)
  | .findVersion .. => Except DbErr (Option VersionModel)

def readSig : Sig := ⟨ReadReq, ReadReq.Resp⟩

abbrev call (q : ReadReq) : Prog readSig q.Resp :=
  .call (S := readSig) q .ret

abbrev Read (α : Type) : Type := ExceptT CredentialRepositoryError (Prog readSig) α

def loadActiveCredential (credentialId : Credential.CredentialId) :
    Read (Option StoredCredential) := do
  match ← orThrow (call (.findById credentialId)) fun _ => .database with
  | none => return none
  | some model =>
    match mapCredentialModel model with
    | .error source => throw (.corrupt credentialId source)
    | .ok metadata =>
      let version ← orThrow
        (call (.findVersion metadata.activeVersionId credentialId))
        fun _ => .database
      match mapVersionModel credentialId metadata.activeVersionId version with
      | .error source => throw (.corrupt credentialId source)
      | .ok protectedSecret => return some ⟨metadata, protectedSecret⟩

/-- What a query answers, unless it fails. -/
def answer (fault : Bool) (t : Tables) : (q : ReadReq) → q.Resp
  | .findById credentialId =>
      if fault then .error .failed else .ok (t.credentials.find credentialId)
  | .findVersion versionId credentialId =>
      if fault then .error .failed
      else .ok ((t.versions.find versionId).filter
        fun row => row.credentialId = credentialId)

def query (q : readSig.Req) (t : Tables) : readSig.Resp q × Tables :=
  (answer false t q, t)

/-- A read inside a transaction. -/
def loadIn (t : Tables) (credentialId : Credential.CredentialId) :
    Except CredentialRepositoryError (Option StoredCredential) :=
  (Prog.run query (loadActiveCredential credentialId) t).1

/-! ## Writing -/

structure NewCredential where
  name : CredentialName
  username : CredentialUsername
  protectedSecret : ProtectedCredentialVersion

/-- The row of a new version. -/
def versionModel (secret : ProtectedCredentialVersion) (now : Instant) :
    VersionModel :=
  ⟨secret.versionId, secret.credentialId, secret.ciphertext, secret.nonce, now⟩

def createCredential (t : Tables) (new : NewCredential) (now : Instant) :
    Except CredentialRepositoryError (Credential × Tables) :=
  let secret := new.protectedSecret
  match Credential.tryNew secret.credentialId new.name new.username
      secret.versionId now now with
  | .error source => .error (.invalidTimeline source)
  | .ok domain =>
    let persisted : CredentialModel :=
      ⟨secret.credentialId, new.name.text, new.username.text, none, now, now⟩
    if t.credentials.has persisted.id ∨
        t.credentials.rows.any fun row => row.name = persisted.name then
      .error .alreadyExists
    else if t.versions.has secret.versionId then .error .versionAlreadyExists
    else
      let credentials := t.credentials.insertNew persisted
      .ok (domain,
        ⟨credentials.replace { persisted with
          activeVersionId := some secret.versionId },
          t.versions.insertNew (versionModel secret now)⟩)

def rotateCredential (t : Tables) (secret : ProtectedCredentialVersion)
    (clock : Instant) :
    Except CredentialRepositoryError (StoredCredential × Tables) :=
  let credentialId := secret.credentialId
  match loadIn t credentialId with
  | .error e => .error e
  | .ok none => .error (.notFound credentialId)
  | .ok (some existing) =>
    let now := max clock existing.metadata.updatedAt
    match Credential.tryNew credentialId existing.metadata.name
        existing.metadata.username secret.versionId existing.metadata.createdAt
        now with
    | .error source => .error (.invalidTimeline source)
    | .ok updated =>
      if t.versions.has secret.versionId then .error .versionAlreadyExists
      else
        let versions := t.versions.insertNew (versionModel secret now)
        match t.credentials.find credentialId with
        | none => .error (.notFound credentialId)
        | some model => .ok (⟨updated, secret⟩,
            ⟨t.credentials.replace { model with
              activeVersionId := some secret.versionId
              updatedAt := now }, versions⟩)

/-- A transaction under the write gate: the gate, any statement and the commit may
fail. What fails leaves nothing. -/
def transact {α : Type} (fault : Option Fault) (t : Tables)
    (body : Tables → Except CredentialRepositoryError (α × Tables)) :
    Except CredentialRepositoryError α × Tables :=
  match fault with
  | some .coordinate => (.error .coordinate, t)
  | some .database => (.error .database, t)
  | none => match body t with
    | .error e => (.error e, t)
    | .ok (a, t') => (.ok a, t')

/-! ## Calls -/

/-- One read. `seen` are the tables there were while it was under way, the
latest first. -/
structure Flight where
  credentialId : Credential.CredentialId
  seen : List Tables
  rest : Read (Option StoredCredential)

def Flight.finished (f : Flight) : Bool :=
  match f.rest with
  | .ret _ => true
  | .call .. => false

/-- `committed` lists the committed creations and rotations, the latest first. -/
structure State where
  tables : Tables
  flights : List Flight
  committed : List (Credential.CredentialId × CredentialVersionId)

def Flight.see (t : Tables) (f : Flight) : Flight :=
  if f.finished then f else { f with seen := t :: f.seen }

/-- After a commit. -/
def State.commit (s : State) (secret : ProtectedCredentialVersion)
    (t : Tables) : State :=
  ⟨t, s.flights.map (Flight.see t),
    (secret.credentialId, secret.versionId) :: s.committed⟩

/-- After a transaction, with its answer. -/
def State.after {α : Type} (s : State) (secret : ProtectedCredentialVersion) :
    Except CredentialRepositoryError α × Tables → State
  | (.ok _, t) => s.commit secret t
  | (.error _, t) => { s with tables := t }

def Initial (s : State) : Prop :=
  s.tables.credentials.rows = [] ∧ s.tables.versions.rows = [] ∧
    s.flights = [] ∧ s.committed = []

inductive Label where
  | create (new : NewCredential) (fault : Option Fault) (clock : Instant)
  | rotate (secret : ProtectedCredentialVersion) (fault : Option Fault)
      (clock : Instant)
  | read (credentialId : Credential.CredentialId)
  | step (i : Nat) (fault : Bool)

def next (s : State) : Label → Option State
  | .create new fault clock => some (s.after new.protectedSecret
      (transact fault s.tables fun t => createCredential t new clock))
  | .rotate secret fault clock => some (s.after secret
      (transact fault s.tables fun t => rotateCredential t secret clock))
  | .read credentialId => some { s with
      flights := s.flights ++
        [⟨credentialId, [s.tables], loadActiveCredential credentialId⟩] }
  | .step i fault => match s.flights[i]? with
    | some ⟨credentialId, seen, .call q k⟩ => some { s with
        flights := s.flights.set i
          ⟨credentialId, seen, k (answer fault s.tables q)⟩ }
    | _ => none

abbrev Reachable (s : State) : Prop := Reach Initial (Next next) s

end Rutilus.Store.Credentials
