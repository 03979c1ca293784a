import Rutilus.Lib.FileTree
import Rutilus.Lib.Runs
import Rutilus.Security.BackupPackage
import Rutilus.Store.Artifacts
import Rutilus.Store.Restore

/-!
# Restoring an instance from a backup

A restore opens a package with the key of the instance, checks that it is of this
product and of no newer schema, copies the data directory aside, and then writes what
the package has over it; at last it compares the database with the package and the
artifact files with the rows of the database. A restore that succeeds removes the copy,
one that fails after the first write keeps it.

It needs a stopped instance, which the runtime lock makes sure of: nobody else works on
the directory. Every call may fail, and a run may stop in the middle of one. What a
database has in it is read by SQLite, which is a parameter, as are the text of a UUID
and the key that an envelope gives.
-/

namespace Rutilus.App.Backup

open Rutilus.Domain Rutilus.Lib Rutilus.Security
open Rutilus.Security.BackupPackage (Cipher DecryptedBackup DecryptedEntry Failure Json
  openBackupPackage)
open Rutilus.Store.Restore (DatabaseSnapshot IoError)

/-! ## The data directory -/

abbrev Path : Type := List String

abbrev Tree : Type := FileTree String Bytes

def databasePath : Path := ["rutilus.db"]
def walPath : Path := ["rutilus.db-wal"]
def shmPath : Path := ["rutilus.db-shm"]
def restorePendingPath : Path := ["rutilus.db-restore-pending"]
def masterKeyPath : Path := ["master-key.rut"]
def systemMasterKeyPath : Path := ["system-master-key.rut"]
def instanceMarkerPath : Path := ["instance.rut"]
def runtimeLockPath : Path := [".rutilus.lock"]
def certPath : Path := ["tls", "cert.pem"]
def keyPath : Path := ["tls", "key.pem"]
def backupDirectoryPath : Path := ["backups"]

/-- The text `RUTINS01`. -/
def instanceMarker : Bytes := [0x52, 0x55, 0x54, 0x49, 0x4E, 0x53, 0x30, 0x31]

def entryDatabase : String := "database"
def entryDatabaseWal : String := "database-wal"
def entryMasterKey : String := "master-key"
def entrySystemMasterKey : String := "system-master-key"
def entryInstanceMarker : String := "instance"
def entryTlsCertificate : String := "tls-certificate"
def entryTlsPrivateKey : String := "tls-private-key"
def artifactEntryPrefix : String := "artifact-"

/-- What SQLite finds in a database and its WAL: the migrations that were applied, and
the artifacts. -/
structure Database where
  applied : List String
  artifacts : Store.ArtifactTable

/-- What the program is built and run with. A UUID is read from its own text. -/
structure Setup (κ : Type) where
  productVersion : String
  supported : List String
  uuidText : ArtifactId → String
  parseUuid : String → Option ArtifactId
  recoverMasterKey : (envelope : Bytes) → (passphrase : String) → Option Bytes
  unprotect : (envelope : Bytes) → Option Bytes
  cipher : (masterKey : Bytes) → Cipher
  json : Json κ
  hexSha256 : Bytes → String
  restore : Store.Restore.Setup
  sqlite : Bytes → Option Bytes → Option Database
  dataDirectoryHasParent : Bool
  maxDepth : Nat

variable {κ : Type} (setup : Setup κ)

def artifactFilePath (id : ArtifactId) : Path :=
  ["artifacts", setup.uuidText id ++ ".bin"]

/-! ## Calls -/

inductive FileType where
  | regular
  | directory
  deriving DecidableEq, Repr

inductive LockError where
  | alreadyHeld
  | other
  deriving DecidableEq, Repr

inductive BackupReq where
  | acquireLock
  | loadKey (path : Path)
  | unprotectKey (envelope : Bytes)
  | store (q : Store.Restore.FileReq)
  | symlinkMetadata (path : Path)
  | read (path : Path)
  | isFile (path : Path)
  | createDirAll (path : Path)
  | createTemporary
  | writeTemporary (bytes : Bytes)
  | synchronizeTemporary
  | persist (path : Path) (bytes : Bytes)
  | synchronizePersisted
  | readPackage
  | createRoot
  | readDirectory (path : Path)
  | nextEntry
  | fileType (path : Path)
  | createDirectory (path : Path)
  | metadata (path : Path)
  | copy (path : Path)
  | synchronizeCopy (path : Path)
  | removeCopy
  | stage
  | openStaged (database : Bytes) (wal : Option Bytes)
  | stagedMigrations (database : Bytes) (wal : Option Bytes)
  | stagedArtifacts (database : Bytes) (wal : Option Bytes)
      (state : Domain.ArtifactState)
  | closeStaged

def BackupReq.Resp : BackupReq → Type
  | .acquireLock => Except LockError Unit
  | .store q => q.Resp
  | .symlinkMetadata _ => Except IoError (FileType × Nat)
  | .read _ | .readPackage | .loadKey _ | .unprotectKey _ => Except IoError Bytes
  | .isFile _ => Bool
  | .readDirectory _ => Except IoError (List String)
  | .fileType _ => Except IoError FileType
  | .metadata _ | .copy _ => Except IoError Nat
  | .removeCopy => Unit
  | .stagedMigrations _ _ => Except IoError (List String)
  | .stagedArtifacts _ _ _ =>
    Except Store.ArtifactRepositoryError (List Domain.Artifact)
  | _ => Except IoError Unit

def backupSig : Sig := ⟨BackupReq, BackupReq.Resp⟩

abbrev call (q : BackupReq) : Prog backupSig (q.Resp) :=
  .call (S := backupSig) q .ret

instance : Sub Store.Restore.fileSig backupSig where
  inj := .store
  back := fun _ r => r

/-! ## Errors -/

inductive RestoreCheckError where
  | stage
  | connect
  | inspect
  | close
  deriving DecidableEq, Repr

inductive PreRestoreSnapshotError where
  | invalidPath
  | createRoot
  | readDirectory
  | readSourceMetadata
  | createDirectory
  | copy
  | copyLengthMismatch (expected copied : Nat)
  | synchronizeCopy
  deriving DecidableEq, Repr

inductive BackupError (κ : Type) where
  | runtimeLock (source : LockError)
  | notInitialized
  | marker
  | masterKeyFile
  | masterKeyProtection
  | systemMasterKeyFile
  | systemMasterKeyProtection
  | restoreUnlockAuthentication (source : BackupError κ)
  | package (source : Failure κ Unit)
  | writeRestored (path : Path)
  | readPackage
  | restorePackageAuthentication
  | missingDatabaseEntry
  | productVersionMismatch (backup current : String)
  | newerSchema (backupApplied supported : Nat)
  | restoreCheck (source : RestoreCheckError)
  | restoreFiles (source : Store.Restore.RestoreError)
  | preRestoreSnapshot (source : PreRestoreSnapshotError)
  | restoreFailedPreservingSnapshot (source : BackupError κ)
  | readRestored (path : Path)
  | restoredDatabaseDiffers
  | invalidArtifactEntryName (name : String)
  | artifactConsistencyStage
  | artifactConsistencyOpen
  | artifactConsistencyInspect (source : Store.ArtifactRepositoryError)
  | artifactConsistencyClose
  | restoreArtifactConsistency (missing orphan : List ArtifactId)

abbrev Copying (α : Type) : Type := ExceptT PreRestoreSnapshotError (Prog backupSig) α

abbrev Backup (κ α : Type) : Type := ExceptT (BackupError κ) (Prog backupSig) α

/-! ## The stopped instance and its key -/

def markerState : Backup κ Bool := do
  match ← call (.symlinkMetadata instanceMarkerPath) with
  | .error .notFound => return false
  | .error .other => throw .marker
  | .ok (.directory, _) => throw .marker
  | .ok (.regular, length) =>
    if length ≠ instanceMarker.length then throw .marker
    else do
      let content ← orThrow (call (.read instanceMarkerPath))
        fun (_ : IoError) => .marker
      if content ≠ instanceMarker then throw .marker
      else return true

def acquireStoppedInstance : Backup κ Unit := do
  orThrow (call .acquireLock) .runtimeLock
  let complete ← markerState
  if complete then return () else throw .notInitialized

inductive BackupKeyUnlock where
  | passphrase (passphrase : String)
  | system

def recoverInstanceMasterKey : BackupKeyUnlock → Backup κ Bytes
  | .passphrase passphrase => do
    let envelope ← orThrow (call (.loadKey masterKeyPath))
      fun (_ : IoError) => .masterKeyFile
    match setup.recoverMasterKey envelope passphrase with
    | some masterKey => return masterKey
    | none => throw .masterKeyProtection
  | .system => do
    let envelope ← orThrow (call (.loadKey systemMasterKeyPath))
      fun (_ : IoError) => .systemMasterKeyFile
    orThrow (call (.unprotectKey envelope))
      fun (_ : IoError) => .systemMasterKeyProtection

/-! ## Writing files -/

/-- `write_file_atomic`, below the data directory. -/
def writeFileAtomic (path : Path) (bytes : Bytes) :
    Prog backupSig (Except IoError Unit) :=
  ExceptT.run do
    orThrow (call (.createDirAll path.dropLast)) fun (e : IoError) => e
    orThrow (call .createTemporary) fun (e : IoError) => e
    orThrow (call (.writeTemporary bytes)) fun (e : IoError) => e
    orThrow (call .synchronizeTemporary) fun (e : IoError) => e
    orThrow (call (.persist path bytes)) fun (e : IoError) => e
    orThrow (call .synchronizePersisted) fun (e : IoError) => e

def writeRestoredFile (path : Path) (bytes : Bytes) : Backup κ Unit :=
  orThrow (writeFileAtomic path bytes) fun (_ : IoError) => .writeRestored path

/-! ## A restore -/

def DecryptedBackup.entry (backup : DecryptedBackup) (name : String) :
    Option DecryptedEntry :=
  backup.entries.find? fun entry => entry.name = name

def checkProductVersion (backup : DecryptedBackup) : Backup κ Unit :=
  if backup.productVersion = setup.productVersion then return ()
  else throw (.productVersionMismatch backup.productVersion setup.productVersion)

inductive RestoreCompatibility where
  | compatible (pendingMigrations : Nat)
  | newerSchema (backupApplied supported : Nat)
  deriving DecidableEq, Repr

/-- What the applied migrations of a backup come to. -/
def compatibilityOf (applied : List String) : RestoreCompatibility :=
  if applied.any fun name => !setup.supported.contains name then
    .newerSchema applied.length setup.supported.length
  else .compatible (setup.supported.length - applied.length)

def restoreCompatibility (database : Bytes) (wal : Option Bytes) :
    ExceptT RestoreCheckError (Prog backupSig) RestoreCompatibility := do
  orThrow (call .stage) fun (_ : IoError) => .stage
  orThrow (call (.openStaged database wal)) fun (_ : IoError) => .connect
  let applied ← orThrow (call (.stagedMigrations database wal))
    fun (_ : IoError) => .inspect
  orThrow (call .closeStaged) fun (_ : IoError) => .close
  return compatibilityOf setup applied

/-! The copy of the data directory. -/

def copySnapshotFile (path : Path) : Copying Unit := do
  let expected ← orThrow (call (.metadata path))
    fun (_ : IoError) => .readSourceMetadata
  let copied ← orThrow (call (.copy path)) fun (_ : IoError) => .copy
  if copied ≠ expected then throw (.copyLengthMismatch expected copied)
  else orThrow (call (.synchronizeCopy path)) fun (_ : IoError) => .synchronizeCopy

/-- The loop over the names of one directory. -/
def copyEntries (copyDirectory : Path → Copying Unit) (source : Path) :
    List String → Copying Unit
  | [] => return ()
  | name :: names => do
    orThrow (call .nextEntry) fun (_ : IoError) => .readDirectory
    let path := source ++ [name]
    if path = runtimeLockPath ∨ path = backupDirectoryPath then
      copyEntries copyDirectory source names
    else do
      match ← orThrow (call (.fileType path))
          fun (_ : IoError) => .readSourceMetadata with
      | .directory => do
        orThrow (call (.createDirectory path)) fun (_ : IoError) => .createDirectory
        copyDirectory path
      | .regular => copySnapshotFile path
      copyEntries copyDirectory source names

/-- The recursion into directories; one that is too deep cannot be listed. -/
def copyDataDirectory : Nat → Path → Copying Unit
  | 0, _ => throw .readDirectory
  | depth + 1, source => do
    let names ← orThrow (call (.readDirectory source))
      fun (_ : IoError) => .readDirectory
    copyEntries (copyDataDirectory depth) source names

/-- The temporary directory goes where the copy fails. -/
def createPreRestoreSnapshot : Copying Unit :=
  if setup.dataDirectoryHasParent then do
    orThrow (call .createRoot) fun (_ : IoError) => .createRoot
    let copied : Except PreRestoreSnapshotError Unit ←
      (copyDataDirectory setup.maxDepth []).run
    match copied with
    | .ok () => return ()
    | .error error => do
      let _ ← call .removeCopy
      throw error
  else throw .invalidPath

/-! The data phase. -/

/-- The id in the name of an artifact entry. -/
def artifactOfName (name : String) : Option ArtifactId :=
  if artifactEntryPrefix.toList.isPrefixOf name.toList then
    setup.parseUuid (String.ofList (name.toList.drop artifactEntryPrefix.length))
  else none

/-- The files that are restored from an entry of their own, in the order of their
writes. -/
def namedFiles : List (String × Path) :=
  [(entryMasterKey, masterKeyPath), (entrySystemMasterKey, systemMasterKeyPath),
    (entryInstanceMarker, instanceMarkerPath), (entryTlsCertificate, certPath),
    (entryTlsPrivateKey, keyPath)]

/-- The writes of the named files, with how many there were. -/
def restoreNamedFiles (backup : DecryptedBackup) : List (String × Path) → Backup κ Nat
  | [] => return 0
  | (name, path) :: files =>
    match DecryptedBackup.entry backup name with
    | some entry => do
      writeRestoredFile path entry.content
      let restored ← restoreNamedFiles backup files
      return restored + 1
    | none => restoreNamedFiles backup files

/-- The loop over the entries, which writes the artifact files. -/
def restoreArtifactFiles : List DecryptedEntry → Backup κ Nat
  | [] => return 0
  | entry :: entries =>
    if entry.kind ≠ .artifactFile then restoreArtifactFiles entries
    else match artifactOfName setup entry.name with
      | none => throw (.invalidArtifactEntryName entry.name)
      | some id => do
        writeRestoredFile (artifactFilePath setup id) entry.content
        let restored ← restoreArtifactFiles entries
        return restored + 1

def restoreDataDirectoryFiles (backup : DecryptedBackup) : Backup κ Nat := do
  let named ← restoreNamedFiles backup namedFiles
  let artifacts ← restoreArtifactFiles setup backup.entries
  return named + artifacts

def artifactStates : List Domain.ArtifactState := [.uploading, .ready, .failed]

/-- The loop over the states. -/
def stagedRows (database : Bytes) (wal : Option Bytes) :
    List Domain.ArtifactState → Backup κ (List Domain.Artifact)
  | [] => return []
  | state :: states => do
    let rows ← orThrow (call (.stagedArtifacts database wal state))
      .artifactConsistencyInspect
    let rest ← stagedRows database wal states
    return rows ++ rest

/-- The loop over the ready rows: those without a file. -/
def missingFiles : List Domain.Artifact → Backup κ (List ArtifactId)
  | [] => return []
  | artifact :: artifacts =>
    if artifact.state = .ready then do
      let there : Bool ← call (.isFile (artifactFilePath setup artifact.id))
      let missing ← missingFiles artifacts
      return if there then missing else artifact.id :: missing
    else missingFiles artifacts

/-- The loop over the entries: artifact files without a row. -/
def orphanEntries (rows : List Domain.Artifact) :
    List DecryptedEntry → Backup κ (List ArtifactId)
  | [] => return []
  | entry :: entries =>
    if entry.kind ≠ .artifactFile then orphanEntries rows entries
    else match artifactOfName setup entry.name with
      | none => throw (.invalidArtifactEntryName entry.name)
      | some id => do
        let orphans ← orphanEntries rows entries
        return if id ∈ rows.map Domain.Artifact.id then orphans else id :: orphans

def verifyRestoredArtifactConsistency (backup : DecryptedBackup) (database : Bytes)
    (wal : Option Bytes) : Backup κ Unit := do
  orThrow (call .stage) fun (_ : IoError) => .artifactConsistencyStage
  orThrow (call (.openStaged database wal))
    fun (_ : IoError) => .artifactConsistencyOpen
  let rows ← stagedRows database wal artifactStates
  let missing ← missingFiles setup rows
  let orphan ← orphanEntries setup rows backup.entries
  orThrow (call .closeStaged) fun (_ : IoError) => .artifactConsistencyClose
  if missing.isEmpty ∧ orphan.isEmpty then return ()
  else throw (.restoreArtifactConsistency missing orphan)

structure RestoreOutcome where
  restoredEntries : Nat
  pendingMigrations : Nat

def readRestored (path : Path) : Backup κ Bytes :=
  orThrow (call (.read path)) fun (_ : IoError) => .readRestored path

/-- The WAL is read back where the snapshot has one. -/
def readRestoredWal (snapshot : DatabaseSnapshot) : Backup κ (Option Bytes) :=
  match snapshot.wal with
  | some _ => do
    let wal ← readRestored walPath
    return some wal
  | none => return none

def restoreDataPhase (backup : DecryptedBackup) (snapshot : DatabaseSnapshot)
    (pendingMigrations : Nat) : Backup κ RestoreOutcome := do
  orThrow (Prog.lift (T := backupSig)
    (Store.Restore.restoreDatabaseFiles setup.restore snapshot).run) .restoreFiles
  let restored ← restoreDataDirectoryFiles setup backup
  let restoredDatabase ← readRestored databasePath
  if restoredDatabase ≠ snapshot.database then throw .restoredDatabaseDiffers
  else do
    let restoredWal ← readRestoredWal snapshot
    let _ ← orThrow (restoreCompatibility setup restoredDatabase restoredWal).run
      .restoreCheck
    verifyRestoredArtifactConsistency setup backup restoredDatabase restoredWal
    return ⟨restored, pendingMigrations⟩

/-- A key that cannot be unlocked may be that of another instance. -/
def unlockForRestore (unlock : BackupKeyUnlock) : Backup κ Bytes := do
  let recovered : Except (BackupError κ) Bytes ←
    (recoverInstanceMasterKey setup unlock).run
  match recovered with
  | .ok masterKey => return masterKey
  | .error .masterKeyProtection =>
    throw (.restoreUnlockAuthentication .masterKeyProtection)
  | .error .systemMasterKeyProtection =>
    throw (.restoreUnlockAuthentication .systemMasterKeyProtection)
  | .error error => throw error

def openForRestore (masterKey package : Bytes) : Backup κ DecryptedBackup :=
  match openBackupPackage (setup.cipher masterKey) setup.json setup.hexSha256
      package with
  | .ok backup => pure backup
  | .error (.returned .authenticationFailed) => throw .restorePackageAuthentication
  | .error failure => throw (.package failure)

/-- Every check of a restore, none of which writes. -/
def validateRestore (unlock : BackupKeyUnlock) :
    Backup κ (DecryptedBackup × DatabaseSnapshot × Nat) := do
  acquireStoppedInstance
  let masterKey ← unlockForRestore setup unlock
  let package ← orThrow (call .readPackage) fun (_ : IoError) => .readPackage
  let backup ← openForRestore setup masterKey package
  checkProductVersion setup backup
  match DecryptedBackup.entry backup entryDatabase with
  | none => throw .missingDatabaseEntry
  | some database => do
    let wal := (DecryptedBackup.entry backup entryDatabaseWal).map (·.content)
    let snapshot := DatabaseSnapshot.fromParts database.content wal
    match ← orThrow (restoreCompatibility setup snapshot.database snapshot.wal).run
        .restoreCheck with
    | .compatible pendingMigrations => return (backup, snapshot, pendingMigrations)
    | .newerSchema backupApplied supported =>
      throw (.newerSchema backupApplied supported)

def restoreBackup (unlock : BackupKeyUnlock) : Backup κ RestoreOutcome := do
  let (backup, snapshot, pendingMigrations) ← validateRestore setup unlock
  orThrow (createPreRestoreSnapshot setup).run .preRestoreSnapshot
  let outcome : Except (BackupError κ) RestoreOutcome ←
    (restoreDataPhase setup backup snapshot pendingMigrations).run
  match outcome with
  | .ok outcome => do
    let _ ← call .removeCopy
    return outcome
  | .error error => throw (.restoreFailedPreservingSnapshot error)

/-! ## The disk -/

/-- The data directory, the copy that was made of it, and the package. -/
structure Disk where
  data : Tree
  copy : Option Tree
  package : Option Bytes

/-- Whether a call fails, and how far one that fails or is stopped has come. -/
structure Oracle where
  fault : Bool
  held : Bool
  landed : Nat

/-- The text of a marker is ASCII. -/
def textBytes (text : List Char) : Bytes := text.map fun c => UInt8.ofNat c.toNat

def dataFilePath : Store.Restore.DataFile → Path
  | .database => databasePath
  | .wal => walPath
  | .shm => shmPath

def storeFilePath : Store.Restore.StoreFile → Path
  | .data file => dataFilePath file
  | .marker => restorePendingPath

def isDirectory (data : Tree) (path : Path) : Bool :=
  path.isEmpty || match data.get path with
    | some .directory => true
    | _ => false

/-- The directories of a path, from the one above on; `none` in front of a file. -/
def makeDirectories (data : Tree) (above : Path) : Path → Option Tree
  | [] => some data
  | name :: names =>
    match data.get (above ++ [name]) with
    | none =>
      makeDirectories (data.set (above ++ [name]) .directory) (above ++ [name]) names
    | some .directory => makeDirectories data (above ++ [name]) names
    | some (.file _) => none

/-- A rename onto a path. -/
def rename (data : Tree) (path : Path) (bytes : Bytes) : Except IoError Tree :=
  if isDirectory data path.dropLast then
    match data.get path with
    | some .directory => .error .other
    | _ => .ok (data.set path (.file bytes))
  else .error .notFound

def readFile (data : Tree) (path : Path) : Except IoError Bytes :=
  match data.get path with
  | some (.file bytes) => .ok bytes
  | some .directory => .error .other
  | none => .error .notFound

/-- The calls of a restore of the database files. -/
def performStore (o : Oracle) : (q : Store.Restore.FileReq) → Tree → q.Resp × Tree
  | .inspectMarker, data =>
      (if o.fault then .error .other
        else if (data.get restorePendingPath).isSome then .ok ()
        else .error .notFound, data)
  | .readMarker, data =>
      (if o.fault then .error .other
        else (readFile data restorePendingPath).map fun bytes =>
          bytes.map fun byte => Char.ofNat byte.toNat, data)
  | .createMarker, data =>
      if o.fault then (.error .other, data)
      else (.ok (), data.set restorePendingPath (.file []))
  | .writeMarker content, data =>
      if o.fault then
        (.error .other,
          data.set restorePendingPath (.file (textBytes (content.take o.landed))))
      else (.ok (), data.set restorePendingPath (.file (textBytes content)))
  | .read file, data =>
      (if o.fault then .error .other else readFile data (dataFilePath file), data)
  | .persist file bytes, data =>
      if o.fault then (.error .other, data)
      else match rename data (dataFilePath file) bytes with
        | .ok data => (.ok (), data)
        | .error error => (.error error, data)
  | .remove file, data =>
      if o.fault then (.error .other, data)
      else match data.get (storeFilePath file) with
        | some (.file _) => (.ok (), data.remove (storeFilePath file))
        | some .directory => (.error .other, data)
        | none => (.error .notFound, data)
  | .syncMarker, data | .createParent, data | .createTemporary, data
  | .writeTemporary _, data | .synchronizePersisted, data =>
      (if o.fault then .error .other else .ok (), data)

def listArtifacts (found : Option Database) (state : Domain.ArtifactState) :
    Except Store.ArtifactRepositoryError (List Domain.Artifact) :=
  match found with
  | some found => Store.listArtifactsByState found.artifacts state
  | none => .error (.fault .database)

def migrations (found : Option Database) : Except IoError (List String) :=
  match found with
  | some found => .ok found.applied
  | none => .error .other

/-- What is left of a copy that is removed half way. -/
def removed (o : Oracle) (copy : Tree) : Tree :=
  copy.filter fun item => decide (item.path.length ≤ o.landed)

/-- A call without an effect that fails or not. -/
def plain (o : Oracle) : Except IoError Unit :=
  if o.fault then .error .other else .ok ()

def perform (o : Oracle) : (q : BackupReq) → Disk → q.Resp × Disk
  | .acquireLock, d =>
      if o.fault then (.error .other, d)
      else
        let data := if (d.data.get runtimeLockPath).isSome then d.data
          else d.data.set runtimeLockPath (.file [])
        (if o.held then .error .alreadyHeld else .ok (), { d with data })
  | .loadKey path, d => (if o.fault then .error .other else readFile d.data path, d)
  | .unprotectKey envelope, d =>
      (if o.fault then .error .other
        else match setup.unprotect envelope with
          | some masterKey => .ok masterKey
          | none => .error .other, d)
  | .store q, d =>
      let r := performStore o q d.data
      (r.1, { d with data := r.2 })
  | .symlinkMetadata path, d =>
      (if o.fault then .error .other
        else match d.data.get path with
          | some (.file bytes) => .ok (.regular, bytes.length)
          | some .directory => .ok (.directory, 0)
          | none => .error .notFound, d)
  | .read path, d => (if o.fault then .error .other else readFile d.data path, d)
  | .isFile path, d => (!o.fault && (d.data.file path).isSome, d)
  | .createDirAll path, d =>
      if o.fault then (.error .other, d)
      else match makeDirectories d.data [] path with
        | some data => (.ok (), { d with data })
        | none => (.error .other, d)
  | .persist path bytes, d =>
      if o.fault then (.error .other, d)
      else match rename d.data path bytes with
        | .ok data => (.ok (), { d with data })
        | .error error => (.error error, d)
  | .readPackage, d =>
      (if o.fault then .error .other
        else match d.package with
          | some bytes => .ok bytes
          | none => .error .notFound, d)
  | .createRoot, d =>
      if o.fault then (.error .other, d) else (.ok (), { d with copy := some .empty })
  | .readDirectory path, d =>
      (if o.fault then .error .other
        else if isDirectory d.data path then .ok (d.data.names path)
        else .error .notFound, d)
  | .fileType path, d =>
      (if o.fault then .error .other
        else match d.data.get path with
          | some (.file _) => .ok .regular
          | some .directory => .ok .directory
          | none => .error .notFound, d)
  | .createDirectory path, d =>
      match d.copy with
      | none => (.error .notFound, d)
      | some copy =>
        if o.fault ∨ (copy.get path).isSome then (.error .other, d)
        else (.ok (), { d with copy := some (copy.set path .directory) })
  | .metadata path, d =>
      (if o.fault then .error .other
        else match d.data.get path with
          | some (.file bytes) => .ok bytes.length
          | some .directory => .ok 0
          | none => .error .notFound, d)
  | .copy path, d =>
      match d.copy, d.data.file path with
      | some copy, some bytes =>
        let landed := bytes.take o.landed
        (if o.fault then .error .other else .ok landed.length,
          { d with copy := some (copy.set path (.file landed)) })
      | _, _ => (.error .notFound, d)
  | .removeCopy, d =>
      ((), { d with copy := if o.fault then d.copy.map (removed o) else none })
  | .openStaged database wal, d =>
      (if o.fault ∨ (setup.sqlite database wal).isNone then .error .other
        else .ok (), d)
  | .stagedMigrations database wal, d =>
      (if o.fault then .error .other else migrations (setup.sqlite database wal), d)
  | .stagedArtifacts database wal state, d =>
      (if o.fault then .error (.fault .database)
        else listArtifacts (setup.sqlite database wal) state, d)
  | .createTemporary, d | .writeTemporary _, d | .synchronizeTemporary, d
  | .synchronizePersisted, d | .nextEntry, d | .synchronizeCopy _, d
  | .stage, d | .closeStaged, d => (plain o, d)

/-- What a stop in the middle of a call leaves. -/
def torn (o : Oracle) : BackupReq → Disk → Disk
  | .store (.writeMarker content), d => { d with
      data := d.data.set restorePendingPath
        (.file (textBytes (content.take o.landed))) }
  | .createDirAll path, d => { d with
      data := (makeDirectories d.data [] (path.take o.landed)).getD d.data }
  | .copy path, d =>
      match d.copy, d.data.file path with
      | some copy, some bytes => { d with
          copy := some (copy.set path (.file (bytes.take o.landed))) }
      | _, _ => d
  | .removeCopy, d => { d with copy := d.copy.map (removed o) }
  | _, d => d

/-! ## One run -/

structure Run (α : Type) where
  disk : Disk
  task : Option (Backup κ α)

inductive Label where
  | step (o : Oracle)
  | stop (o : Oracle)

def next {α : Type} (s : Run (κ := κ) α) : Label → Option (Run (κ := κ) α)
  | .step o => match s.task with
    | some (.call q k) =>
      let r := perform setup o q s.disk
      some ⟨r.2, some (k r.1)⟩
    | _ => none
  | .stop o => match s.task with
    | some (.call q _) => some ⟨torn o q s.disk, none⟩
    | _ => none

/-- A restore in front of a closed directory; its copy is not made yet. -/
def RestoreStarts (unlock : BackupKeyUnlock) (data : Tree) (package : Option Bytes)
    (s : Run (κ := κ) RestoreOutcome) : Prop :=
  s.disk.data = data ∧ s.disk.package = package ∧ s.disk.copy = none ∧
    s.task = some (restoreBackup setup unlock)

end Rutilus.App.Backup
