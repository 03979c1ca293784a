import Rutilus.Domain.Artifact
import Rutilus.Lib.Prog
import Rutilus.Lib.Runs
import Rutilus.Lib.Words

/-!
# Restoring the database files

The database and its WAL are each replaced atomically, but not together. A restore
therefore writes a marker before the first overwrite, with the fingerprints of the
snapshot pair and of the live pair, and removes it when every file is in place. The
next open compares the live pair with what a surviving marker records. A second
restore is refused as long as there is one.

The calls are those on the file system, and the runtime lock lets one restore or
one open run at a time. A rename, a removal and a completed write are atomic; a
write that fails or is stopped leaves a beginning of its text. Every call may fail,
but a file that is there can be read.
-/

namespace Rutilus.Store.Restore

open Rutilus.Domain Rutilus.Lib

/-! ## Pairs -/

/-- A byte-exact copy of a database and its WAL. -/
structure DatabaseSnapshot where
  database : Bytes
  wal : Option Bytes
  wal_ne : ∀ bytes ∈ wal, bytes ≠ []

def DatabaseSnapshot.fromParts (database : Bytes) (wal : Option Bytes) :
    DatabaseSnapshot where
  database := database
  wal := wal.filter fun bytes => !bytes.isEmpty
  wal_ne := fun bytes h hnil => by
    rw [Option.mem_def, Option.filter_eq_some_iff] at h
    rw [hnil] at h
    cases h.2

/-- A database and the WAL beside it. -/
structure Pair where
  database : Option Bytes
  wal : Option Bytes
  deriving DecidableEq, Repr

def DatabaseSnapshot.pair (snapshot : DatabaseSnapshot) : Pair :=
  ⟨some snapshot.database, snapshot.wal⟩

/-- The pair between the two replacements. -/
def DatabaseSnapshot.mixed (snapshot : DatabaseSnapshot) (pre : Pair) : Pair :=
  ⟨some snapshot.database, pre.wal⟩

/-! ## The data directory -/

inductive DataFile where
  | database
  | wal
  | shm
  deriving DecidableEq, Repr

inductive StoreFile where
  | data (file : DataFile)
  | marker
  deriving DecidableEq, Repr

structure Files where
  database : Option Bytes
  wal : Option Bytes
  shm : Option Bytes
  marker : Option (List Char)
  deriving DecidableEq, Repr

def Files.pair (f : Files) : Pair := ⟨f.database, f.wal⟩

def Files.get (f : Files) : DataFile → Option Bytes
  | .database => f.database
  | .wal => f.wal
  | .shm => f.shm

def Files.put (f : Files) : DataFile → Option Bytes → Files
  | .database, bytes => { f with database := bytes }
  | .wal, bytes => { f with wal := bytes }
  | .shm, bytes => { f with shm := bytes }

def Files.has (f : Files) : StoreFile → Bool
  | .data file => (f.get file).isSome
  | .marker => f.marker.isSome

def Files.without (f : Files) : StoreFile → Files
  | .data file => f.put file none
  | .marker => { f with marker := none }

/-! ## Calls -/

inductive IoError where
  | notFound
  | other
  deriving DecidableEq, Repr

inductive FileReq where
  | inspectMarker
  | readMarker
  | createMarker
  | writeMarker (content : List Char)
  | syncMarker
  | read (file : DataFile)
  | createParent
  | createTemporary
  | writeTemporary (bytes : Bytes)
  | persist (file : DataFile) (bytes : Bytes)
  | synchronizePersisted
  | remove (file : StoreFile)

def FileReq.Resp : FileReq → Type
  | .readMarker => Except IoError (List Char)
  | .read _ => Except IoError Bytes
  | _ => Except IoError Unit

def fileSig : Sig := ⟨FileReq, FileReq.Resp⟩

abbrev call (q : FileReq) : Prog fileSig q.Resp :=
  .call (S := fileSig) q .ret

inductive RestoreError where
  | restoreInterrupted
  | createParent
  | writeMarker
  | invalidPath
  | createTemporary
  | writeTemporary
  | persist
  | synchronizePersisted
  | removeSidecar
  | removeMarker
  deriving DecidableEq, Repr

/-- Why an open refuses the marker. -/
inductive InterruptedReason where
  | unreadable
  | malformed
  | mismatch
  | uncleared
  deriving DecidableEq, Repr

inductive OpenStoreError where
  | restoreInterrupted (reason : InterruptedReason)
  deriving DecidableEq, Repr

abbrev Restoring (α : Type) : Type := ExceptT RestoreError (Prog fileSig) α

abbrev Opening (α : Type) : Type := ExceptT OpenStoreError (Prog fileSig) α

/-! ## Fingerprints -/

/-- SHA-256, which is injective on the contents that occur; and whether the path
of the database has a parent directory. -/
structure Setup where
  sha256 : Bytes → Bytes
  length_sha256 : ∀ bytes, (sha256 bytes).length = 32
  contents : Bytes → Bool
  sha256_inj : ∀ a b, contents a = true → contents b = true →
    sha256 a = sha256 b → a = b
  hasParent : Bool

variable (setup : Setup)

def hexDigits : List Char :=
  ['0', '1', '2', '3', '4', '5', '6', '7', '8', '9', 'a', 'b', 'c', 'd', 'e',
    'f']

def hexByte (byte : UInt8) : List Char :=
  [hexDigits.getD (byte.toNat / 16) '0', hexDigits.getD (byte.toNat % 16) '0']

def fingerprintBytes (bytes : Bytes) : List Char :=
  (setup.sha256 bytes).flatMap hexByte

def markerAbsent : List Char := ['a', 'b', 's', 'e', 'n', 't']

def markerNone : List Char := ['n', 'o', 'n', 'e']

/-- The token of a file. -/
def fingerprintOr (fallback : List Char) : Option Bytes → List Char
  | some bytes => fingerprintBytes setup bytes
  | none => fallback

def fingerprintOfFileOr (file : DataFile) (fallback : List Char) :
    Prog fileSig (List Char) := do
  match ← call (.read file) with
  | .ok bytes => return fingerprintBytes setup bytes
  | .error _ => return fallback

/-! ## A restore -/

def createParent : Restoring Unit :=
  if setup.hasParent then
    orThrow (call .createParent) fun (_ : IoError) => .createParent
  else pure ()

def writeAndSyncMarker (content : List Char) : Restoring Unit := do
  orThrow (call .createMarker) fun (_ : IoError) => .writeMarker
  orThrow (call (.writeMarker content)) fun (_ : IoError) => .writeMarker
  orThrow (call .syncMarker) fun (_ : IoError) => .writeMarker

/-- The first three tokens of a marker, each with its space. -/
def markerHead (snapshot : DatabaseSnapshot) (preDatabase : List Char) :
    List Char :=
  fingerprintBytes setup snapshot.database ++ ' ' ::
    (fingerprintOr setup markerNone snapshot.wal ++ ' ' ::
      (preDatabase ++ [' ']))

def writeRestoreMarker (snapshot : DatabaseSnapshot) : Restoring Unit := do
  createParent setup
  let preDatabase : List Char ←
    fingerprintOfFileOr setup .database markerAbsent
  let preWal : List Char ← fingerprintOfFileOr setup .wal markerNone
  writeAndSyncMarker (markerHead setup snapshot preDatabase ++
    (preWal ++ ['\n']))

def replaceFile (file : DataFile) (bytes : Bytes) : Restoring Unit := do
  if setup.hasParent then
    orThrow (call .createParent) fun (_ : IoError) => .createParent
    orThrow (call .createTemporary) fun (_ : IoError) => .createTemporary
    orThrow (call (.writeTemporary bytes))
      fun (_ : IoError) => .writeTemporary
    orThrow (call (.persist file bytes)) fun (_ : IoError) => .persist
    orThrow (call .synchronizePersisted)
      fun (_ : IoError) => .synchronizePersisted
  else throw .invalidPath

def removeStaleSidecar (file : StoreFile) : Restoring Unit := do
  match ← call (.remove file) with
  | .ok () | .error .notFound => return ()
  | .error .other => throw .removeSidecar

def removeRestoreMarker : Restoring Unit :=
  orThrow (removeStaleSidecar .marker) fun (_ : RestoreError) => .removeMarker

def replaceWal (snapshot : DatabaseSnapshot) : Restoring Unit :=
  match snapshot.wal with
  | some wal => replaceFile setup .wal wal
  | none => removeStaleSidecar (.data .wal)

def restoreDatabaseFiles (snapshot : DatabaseSnapshot) : Restoring Unit := do
  match ← call .inspectMarker with
  | .ok () | .error .other => throw .restoreInterrupted
  | .error .notFound =>
    writeRestoreMarker setup snapshot
    replaceFile setup .database snapshot.database
    replaceWal setup snapshot
    removeStaleSidecar (.data .shm)
    removeRestoreMarker

/-! ## An open -/

def verifyRestoreMarker : Opening Unit := do
  match ← call .readMarker with
  | .error .notFound => return ()
  | .error .other => throw (.restoreInterrupted .unreadable)
  | .ok content =>
    match words isTrimmed content with
    | [snapshotDatabase, snapshotWal, preDatabase, preWal] =>
      let liveDatabase : List Char ←
        fingerprintOfFileOr setup .database markerAbsent
      let liveWal : List Char ← fingerprintOfFileOr setup .wal markerNone
      if (liveDatabase = snapshotDatabase ∧ liveWal = snapshotWal) ∨
          (liveDatabase = preDatabase ∧ liveWal = preWal) then
        orThrow removeRestoreMarker
          fun (_ : RestoreError) => .restoreInterrupted .uncleared
      else throw (.restoreInterrupted .mismatch)
    | _ => throw (.restoreInterrupted .malformed)

/-! ## The file system -/

/-- Whether a call fails, and how much of a failing write lands. -/
structure Oracle where
  fault : Bool
  landed : Nat

def perform (o : Oracle) : (q : FileReq) → Files → q.Resp × Files
  | .inspectMarker, f =>
      (if o.fault then .error .other
        else if f.marker.isSome then .ok () else .error .notFound, f)
  | .readMarker, f =>
      (if o.fault then .error .other
        else match f.marker with
          | some content => .ok content
          | none => .error .notFound, f)
  | .createMarker, f =>
      if o.fault then (.error .other, f)
      else (.ok (), { f with marker := some [] })
  | .writeMarker content, f =>
      if o.fault then
        (.error .other, { f with marker := some (content.take o.landed) })
      else (.ok (), { f with marker := some content })
  | .read file, f =>
      (match f.get file with
        | some bytes => .ok bytes
        | none => .error .notFound, f)
  | .persist file bytes, f =>
      if o.fault then (.error .other, f) else (.ok (), f.put file bytes)
  | .remove file, f =>
      if o.fault then (.error .other, f)
      else if f.has file then (.ok (), f.without file)
      else (.error .notFound, f)
  | .syncMarker, f | .createParent, f | .createTemporary, f
  | .writeTemporary _, f | .synchronizePersisted, f =>
      (if o.fault then .error .other else .ok (), f)

/-- What a stop in the middle of a call leaves. -/
def torn (landed : Nat) : FileReq → Files → Files
  | .writeMarker content, f =>
      { f with marker := some (content.take landed) }
  | _, f => f

/-! ## Sequences of restores and opens -/

inductive Task where
  | restore (start : Files) (run : Restoring Unit)
  | opening (run : Opening Unit)

/-- The pair before the last restore that found no marker, and the snapshot of
that restore; after work on the store, the pair it has left. -/
structure Era where
  pre : Pair
  snap : Option DatabaseSnapshot

structure State where
  files : Files
  task : Option Task
  era : Era

/-- What occurs in a pair. -/
def Pair.within (p : Pair) : Bool :=
  p.database.all setup.contents && p.wal.all setup.contents

def Initial (s : State) : Prop :=
  s.files.pair.within setup = true ∧ s.files.marker = none ∧ s.task = none ∧
    s.era = ⟨s.files.pair, none⟩

inductive Label where
  | restore (snapshot : DatabaseSnapshot)
  | opening
  | step (o : Oracle)
  | work (pair : Pair) (shm : Option Bytes)
  | stop (landed : Nat)

/-- The era of a restore that begins. -/
def Era.begin (e : Era) (f : Files) (snapshot : DatabaseSnapshot) : Era :=
  match f.marker with
  | none => ⟨f.pair, some snapshot⟩
  | some _ => e

/-- An open that has passed lets the store work. A task that is done, or stopped,
gives the directory free. -/
def next (s : State) : Label → Option State
  | .restore snapshot => match s.task with
    | none =>
      if snapshot.pair.within setup then
        some ⟨s.files,
          some (.restore s.files (restoreDatabaseFiles setup snapshot)),
          s.era.begin s.files snapshot⟩
      else none
    | some _ => none
  | .opening => match s.task with
    | none =>
      some { s with task := some (.opening (verifyRestoreMarker setup)) }
    | some _ => none
  | .step o => match s.task with
    | some (.restore start (.call q k)) =>
      let r := perform o q s.files
      some { s with files := r.2, task := some (.restore start (k r.1)) }
    | some (.opening (.call q k)) =>
      let r := perform o q s.files
      some { s with files := r.2, task := some (.opening (k r.1)) }
    | _ => none
  | .work pair shm => match s.task with
    | some (.opening (.ret (.ok ()))) =>
      if pair.within setup then
        some ⟨⟨pair.database, pair.wal, shm, s.files.marker⟩, s.task,
          ⟨pair, none⟩⟩
      else none
    | _ => none
  | .stop landed => match s.task with
    | some (.restore _ (.call q _)) | some (.opening (.call q _)) =>
      some { s with files := torn landed q s.files, task := none }
    | some _ => some { s with task := none }
    | none => none

abbrev Reachable (s : State) : Prop := Reach (Initial setup) (Next (next setup)) s

end Rutilus.Store.Restore
