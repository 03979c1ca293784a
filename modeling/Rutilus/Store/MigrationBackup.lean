import Mathlib.Data.List.Sort
import Rutilus.Domain.Report
import Rutilus.Lib.Prog
import Rutilus.Lib.Runs

/-!
# Backups before migrations

Before a pending migration runs, the database and its WAL are copied into a directory of
their own. A marker, written last, says that the copy is complete; then the older
directories are removed, all but the most recent complete ones. The name of a directory
carries a version 7 UUID, and the names in their order stand for the order in which the
directories were created.

The calls are those on the file system. A process may be stopped in the middle of each
of them; a copy or a write that is stopped leaves a beginning, and a removal leaves any
of the directory's files. Looking for the marker of a directory that was listed does not
fail.
-/

namespace Rutilus.Store.MigrationBackup

open Rutilus.Domain Rutilus.Lib

def preMigrationBackupRetention : Nat := 3

/-- The text `RUTILUS-SQLITE-BACKUP-1`. -/
def completeMarker : Bytes :=
  [0x52, 0x55, 0x54, 0x49, 0x4C, 0x55, 0x53, 0x2D, 0x53, 0x51, 0x4C, 0x49, 0x54, 0x45,
    0x2D, 0x42, 0x41, 0x43, 0x4B, 0x55, 0x50, 0x2D, 0x31]

/-! ## Directories -/

inductive SourceFile where
  | database
  | wal
  deriving DecidableEq, Repr

/-- What stands at the path of a source. -/
inductive Source where
  | missing
  | irregular
  | regular (bytes : Bytes)
  deriving DecidableEq, Repr

/-- A directory by the UUID in its name, with the files in it. -/
structure Backup where
  uuid : Nat
  database : Option Bytes
  wal : Option Bytes
  marker : Option Bytes
  deriving DecidableEq, Repr

def Backup.empty (uuid : Nat) : Backup where
  uuid := uuid
  database := none
  wal := none
  marker := none

def Backup.complete (backup : Backup) : Bool := backup.marker.isSome

def Backup.put (backup : Backup) : SourceFile → Bytes → Backup
  | .database, bytes => { backup with database := some bytes }
  | .wal, bytes => { backup with wal := some bytes }

/-- The sources, and the directories in the order in which they were created. -/
structure Files where
  source : SourceFile → Source
  backups : List Backup

def Files.update (f : Files) (uuid : Nat) (g : Backup → Backup) : Files :=
  { f with backups := f.backups.map fun b => if b.uuid = uuid then g b else b }

def Files.without (f : Files) (uuid : Nat) : Files :=
  { f with backups := f.backups.filter fun b => b.uuid ≠ uuid }

/-! ## Calls -/

inductive IoError where
  | notFound
  | alreadyExists
  | other
  deriving DecidableEq, Repr

inductive FileReq where
  | createRoot
  | createDirectory (uuid : Nat)
  | inspect (file : SourceFile)
  | length (file : SourceFile)
  | copy (file : SourceFile) (uuid : Nat)
  | syncCopy (file : SourceFile) (uuid : Nat)
  | createMarker (uuid : Nat)
  | writeMarker (uuid : Nat)
  | syncMarker (uuid : Nat)
  | readDirectory
  | isComplete (uuid : Nat)
  | remove (uuid : Nat)

def FileReq.Resp : FileReq → Type
  | .inspect _ => Except IoError Bool
  | .length _ | .copy _ _ => Except IoError Nat
  | .readDirectory => Except IoError (List Nat)
  | .isComplete _ => Bool
  | _ => Except IoError Unit

def fileSig : Sig := ⟨FileReq, FileReq.Resp⟩

abbrev call (q : FileReq) : Prog fileSig q.Resp :=
  .call (S := fileSig) q .ret

inductive MigrationBackupError where
  | createRoot
  | createDirectory (uuid : Nat)
  | readSourceMetadata (file : SourceFile)
  | sourceMissing (file : SourceFile)
  | sourceNotRegular (file : SourceFile)
  | copy (file : SourceFile) (uuid : Nat)
  | copyLengthMismatch (file : SourceFile) (uuid expected copied : Nat)
  | synchronizeCopy (file : SourceFile) (uuid : Nat)
  | createMarker (uuid : Nat)
  | writeMarker (uuid : Nat)
  | synchronizeMarker (uuid : Nat)
  deriving DecidableEq, Repr

abbrev Creating (α : Type) : Type := ExceptT MigrationBackupError (Prog fileSig) α

/-! ## Creating a backup -/

/-- Whether there is a source; it is a regular file then. -/
def sourceExists (file : SourceFile) : Creating Bool := do
  match ← call (.inspect file) with
  | .ok false => throw (.sourceNotRegular file)
  | .ok true => return true
  | .error .notFound => return false
  | .error _ => throw (.readSourceMetadata file)

def copyRequiredFile (file : SourceFile) (uuid : Nat) : Creating Unit := do
  if ← sourceExists file then
    let expected : Nat ←
      orThrow (call (.length file)) fun (_ : IoError) => .readSourceMetadata file
    let copied : Nat ←
      orThrow (call (.copy file uuid)) fun (_ : IoError) => .copy file uuid
    if copied ≠ expected then throw (.copyLengthMismatch file uuid expected copied)
    else
      orThrow (call (.syncCopy file uuid)) fun (_ : IoError) =>
        .synchronizeCopy file uuid
  else throw (.sourceMissing file)

def commitBackup (uuid : Nat) : Creating Unit := do
  orThrow (call (.createMarker uuid)) fun (_ : IoError) => .createMarker uuid
  orThrow (call (.writeMarker uuid)) fun (_ : IoError) => .writeMarker uuid
  orThrow (call (.syncMarker uuid)) fun (_ : IoError) => .synchronizeMarker uuid

/-- The loop over the directories, with the count of complete ones seen so far. A
removal that fails is ignored. -/
def pruneLoop (retained : Nat) : Nat → List Nat → Prog fileSig Unit
  | _, [] => .ret ()
  | completeSeen, uuid :: candidates => do
    let complete : Bool ← call (.isComplete uuid)
    if !complete || retained ≤ completeSeen then do
      let _ ← call (.remove uuid)
      pruneLoop retained completeSeen candidates
    else pruneLoop retained (completeSeen + 1) candidates

/-- The names sorted, the greatest first. -/
def newestFirst (names : List Nat) : List Nat := names.insertionSort (· ≥ ·)

def pruneRetention (retained : Nat) : Prog fileSig Unit := do
  match ← call .readDirectory with
  | .error _ => return ()
  | .ok names => pruneLoop retained 0 (newestFirst names)

/-- The whole call, with the UUID that the clock gives. -/
def create (uuid : Nat) : Creating Nat := do
  orThrow (call .createRoot) fun (_ : IoError) => .createRoot
  orThrow (call (.createDirectory uuid)) fun (_ : IoError) => .createDirectory uuid
  copyRequiredFile .database uuid
  if ← sourceExists .wal then copyRequiredFile .wal uuid
  commitBackup uuid
  pruneRetention preMigrationBackupRetention
  return uuid

/-! ## The file system -/

/-- Whether a call fails, how much of a write lands, whether a copy comes out short, and
which files of a directory a removal that does not end leaves. -/
structure Oracle where
  fault : Bool
  landed : Nat
  short : Option Nat
  left : SourceFile → Bool
  leftMarker : Bool

def Oracle.copied (o : Oracle) (bytes : Bytes) : Bytes :=
  match o.short with
  | none => bytes
  | some n => bytes.take n

/-- A directory of which some files are removed. -/
def Oracle.leaves (o : Oracle) (backup : Backup) : Backup where
  uuid := backup.uuid
  database := if o.left .database then backup.database else none
  wal := if o.left .wal then backup.wal else none
  marker := if o.leftMarker then backup.marker else none

def perform (o : Oracle) : (q : FileReq) → Files → q.Resp × Files
  | .createDirectory uuid, f =>
      if o.fault then (.error .other, f)
      else if uuid ∈ f.backups.map (·.uuid) then (.error .alreadyExists, f)
      else (.ok (), { f with backups := f.backups ++ [.empty uuid] })
  | .inspect file, f =>
      (if o.fault then .error .other
        else match f.source file with
          | .missing => .error .notFound
          | .irregular => .ok false
          | .regular _ => .ok true, f)
  | .length file, f =>
      (if o.fault then .error .other
        else match f.source file with
          | .regular bytes => .ok bytes.length
          | _ => .error .other, f)
  | .copy file uuid, f =>
      match f.source file with
      | .regular bytes =>
        if o.fault then
          (.error .other, f.update uuid (·.put file (bytes.take o.landed)))
        else (.ok (o.copied bytes).length, f.update uuid (·.put file (o.copied bytes)))
      | _ => (.error .other, f)
  | .createMarker uuid, f =>
      if o.fault then (.error .other, f)
      else (.ok (), f.update uuid fun b => { b with marker := some [] })
  | .writeMarker uuid, f =>
      if o.fault then
        (.error .other, f.update uuid fun b =>
          { b with marker := some (completeMarker.take o.landed) })
      else (.ok (), f.update uuid fun b => { b with marker := some completeMarker })
  | .readDirectory, f =>
      (if o.fault then .error .other else .ok (f.backups.map (·.uuid)), f)
  | .isComplete uuid, f => (f.backups.any fun b => b.uuid = uuid && b.complete, f)
  | .remove uuid, f =>
      if o.fault then (.error .other, f.update uuid o.leaves)
      else (.ok (), f.without uuid)
  | .createRoot, f | .syncCopy _ _, f | .syncMarker _, f =>
      (if o.fault then .error .other else .ok (), f)

/-- What a stop in the middle of a call leaves. -/
def torn (o : Oracle) : FileReq → Files → Files
  | .copy file uuid, f =>
      match f.source file with
      | .regular bytes => f.update uuid (·.put file (bytes.take o.landed))
      | _ => f
  | .writeMarker uuid, f =>
      f.update uuid fun b => { b with marker := some (completeMarker.take o.landed) }
  | .remove uuid, f => f.update uuid o.leaves
  | _, f => f

/-! ## Sequences of calls -/

/-- A call under way, with the files it started from. -/
structure Task where
  start : Files
  uuid : Nat
  run : Creating Nat

/-- Whether a call has succeeded so far is kept beside the files. -/
structure State where
  files : Files
  task : Option Task
  succeeded : Bool

inductive Label where
  | create (uuid : Nat)
  | step (o : Oracle)
  | finish
  | stop (o : Oracle)
  | work (source : SourceFile → Source)

/-- Between two calls the product works on the sources. -/
def next (s : State) : Label → Option State
  | .create uuid => match s.task with
    | none => some { s with task := some ⟨s.files, uuid, create uuid⟩ }
    | some _ => none
  | .step o => match s.task with
    | some ⟨start, uuid, .call q k⟩ =>
      let r := perform o q s.files
      some { s with files := r.2, task := some ⟨start, uuid, k r.1⟩ }
    | _ => none
  | .finish => match s.task with
    | some ⟨_, _, .ret (.ok _)⟩ => some { s with task := none, succeeded := true }
    | some ⟨_, _, .ret (.error _)⟩ => some { s with task := none }
    | _ => none
  | .stop o => match s.task with
    | some ⟨_, _, .call q _⟩ => some { s with files := torn o q s.files, task := none }
    | _ => none
  | .work source => match s.task with
    | none => some { s with files := { s.files with source } }
    | some _ => none

/-- No backup yet. -/
def Initial (s : State) : Prop :=
  s.files.backups = [] ∧ s.task = none ∧ s.succeeded = false

end Rutilus.Store.MigrationBackup
