import Rutilus.Lib.Runs
import Rutilus.Report.Stores

/-!
# The artifact upload store

A manifest is declared, its bytes arrive in chunks at the resume point, and a
finalize call compares the file with the declared digest. The file is written
outside the row's transaction: a chunk reads the row, writes the file at its
offset and then moves the row; a finalize reads the row, hashes the file and
then moves the row.

Any number of such calls, on any artifacts, run at once. Each may fail at any
of its steps, and may stop for good between two of them. A failed write to a
file may have landed in part. `Caller.read` is not part of the product: it
remembers the file as the call's own hash found it.

`decode` is the base64 decoder and `sha` the hash function.
-/

namespace Rutilus.App.ArtifactStore

open Rutilus.Domain Rutilus.Lib Rutilus.Store
open Rutilus.Report (writeFile)
open Rutilus.Report.SiteReports (IoErrorKind)

/-! ## The use case -/

inductive StoreReq where
  | createArtifact (artifact : Domain.Artifact)
  | findArtifact (artifactId : ArtifactId)
  | updateArtifact (artifactId : ArtifactId) (uploadedBytes : Nat)
      (state : Domain.ArtifactState) (occurredAt : Instant)
  | writeChunk (artifactId : ArtifactId) (offset : Nat) (data : Bytes)
  | hashFile (artifactId : ArtifactId)

def StoreReq.Resp : StoreReq → Type
  | .createArtifact _ => Except ArtifactRepositoryError Unit
  | .findArtifact _ => Except ArtifactRepositoryError (Option Domain.Artifact)
  | .updateArtifact .. => Except ArtifactRepositoryError Unit
  | .writeChunk .. => Except IoErrorKind Unit
  | .hashFile _ => Except IoErrorKind Digest

def artifactStore : Sig := ⟨StoreReq, StoreReq.Resp⟩

abbrev call (q : StoreReq) : Prog artifactStore q.Resp :=
  .call (S := artifactStore) q .ret

inductive ArtifactStoreError where
  | notFound (artifactId : ArtifactId)
  | invalidName (source : LabelError)
  | invalidSha256 (source : Sha256HexParseError)
  | zeroSize
  | sizeExceedsLimit (sizeBytes maximum : Nat)
  | invalidBase64
  | chunkTooLarge (requested maximum : Nat)
  | chunkExceedsSize (offset chunk size : Nat)
  | outOfOrder (offset uploadedBytes : Nat)
  | notUploading (artifactId : ArtifactId) (state : Domain.ArtifactState)
  | alreadyFailed (artifactId : ArtifactId)
  | finalizeFailed (artifactId : ArtifactId) (artifact : Domain.Artifact)
      (reason : String)
  | domain (source : ArtifactError)
  | restore (source : ArtifactRestoreError)
  | file (source : IoErrorKind)
  | repository (source : ArtifactRepositoryError)
  deriving DecidableEq, Repr

abbrev M : Type → Type := ExceptT ArtifactStoreError (Prog artifactStore)

def artifactChunkBase64MaxBytes : Nat := 4 * 1024 * 1024

structure ArtifactProgress where
  artifactId : ArtifactId
  uploadedBytes : Nat
  sizeBytes : Nat
  deriving DecidableEq, Repr

def progressOf (artifact : Domain.Artifact) : ArtifactProgress :=
  ⟨artifact.id, artifact.uploadedBytes, artifact.sizeBytes⟩

/-- `artifactId` is the identity the call generates. -/
def create (artifactId : ArtifactId) (name : String) (sizeBytes : Nat)
    (sha256 : String) (now : Instant) : M Domain.Artifact :=
  if sizeBytes = 0 then throw .zeroSize
  else if artifactMaxSizeBytes < sizeBytes then
    throw (.sizeExceedsLimit sizeBytes artifactMaxSizeBytes)
  else match parseLabel name with
  | .error e => throw (.invalidName e)
  | .ok name => match parseSha256 sha256 with
    | .error e => throw (.invalidSha256 e)
    | .ok sha256 => do
      let artifact := Domain.Artifact.new artifactId name sizeBytes sha256 now
      orThrow (call (.createArtifact artifact)) .repository
      return artifact

variable (decode : String → Option Bytes)

def appendChunk (artifactId : ArtifactId) (offset : Nat) (dataBase64 : String)
    (now : Instant) : M ArtifactProgress := do
  match ← orThrow (call (.findArtifact artifactId)) .repository with
  | none => throw (.notFound artifactId)
  | some artifact =>
    if artifact.state.isTerminal then
      throw (.notUploading artifactId artifact.state)
    else if artifactChunkBase64MaxBytes < dataBase64.utf8ByteSize then
      throw (.chunkTooLarge dataBase64.utf8ByteSize artifactChunkBase64MaxBytes)
    else match decode dataBase64 with
    | none => throw .invalidBase64
    | some decoded =>
      if decoded.isEmpty then return progressOf artifact
      else if offset < artifact.uploadedBytes then return progressOf artifact
      else if artifact.uploadedBytes < offset then
        throw (.outOfOrder offset artifact.uploadedBytes)
      else if artifact.sizeBytes < offset + decoded.length then
        throw (.chunkExceedsSize offset decoded.length artifact.sizeBytes)
      else
        orThrow (call (.writeChunk artifactId offset decoded)) .file
        match artifact.recordBytesReceived decoded.length with
        | .error e => throw (.domain e)
        | .ok received =>
          orThrow (call (.updateArtifact artifactId received.uploadedBytes
            .uploading now)) .repository
          return progressOf received

/-- The verdict that ends an upload. -/
def fail (artifact : Domain.Artifact) (now : Instant) (reason : String) :
    M Domain.Artifact :=
  match artifact.markFailed with
  | .error e => throw (.domain e)
  | .ok failed => do
    orThrow (call (.updateArtifact failed.id failed.uploadedBytes .failed now))
      .repository
    match Domain.Artifact.tryFromParts failed.id failed.name failed.sizeBytes
        failed.sha256 .failed failed.uploadedBytes failed.createdAt now with
    | .error e => throw (.restore e)
    | .ok failed => throw (.finalizeFailed artifact.id failed reason)

def incompleteReason (artifact : Domain.Artifact) : String :=
  s!"upload is incomplete: {artifact.uploadedBytes} of {artifact.sizeBytes} bytes received"

def mismatchReason (expected computed : Digest) : String :=
  s!"SHA-256 verification failed: expected {sha256Text expected}, computed {sha256Text computed}"

def finalize (artifactId : ArtifactId) (now : Instant) : M Domain.Artifact := do
  match ← orThrow (call (.findArtifact artifactId)) .repository with
  | none => throw (.notFound artifactId)
  | some artifact => match artifact.state with
    | .ready => return artifact
    | .failed => throw (.alreadyFailed artifactId)
    | .uploading =>
      if artifact.uploadedBytes < artifact.sizeBytes then
        fail artifact now (incompleteReason artifact)
      else
        let computed ← orThrow (call (.hashFile artifactId)) .file
        if computed ≠ artifact.sha256 then
          fail artifact now (mismatchReason artifact.sha256 computed)
        else match artifact.markReady with
        | .error e => throw (.domain e)
        | .ok ready =>
          orThrow (call (.updateArtifact artifactId ready.uploadedBytes .ready
            now)) .repository
          match Domain.Artifact.tryFromParts ready.id ready.name ready.sizeBytes
              ready.sha256 .ready ready.uploadedBytes ready.createdAt now with
          | .error e => throw (.restore e)
          | .ok ready => return ready

/-! ## What the calls do -/

/-- What all calls share. -/
structure Shared where
  artifacts : ArtifactTable
  files : ArtifactId → Option Bytes

/-- `landed` is how much of a failing write was written, if the file could be
opened. -/
structure Oracle where
  fault : Option Fault
  io : Option IoErrorKind
  landed : Option Nat
  deriving DecidableEq, Repr

/-- The files after a failed write. -/
def tornFile (files : ArtifactId → Option Bytes) (artifactId : ArtifactId)
    (offset : Nat) (data : Bytes) : Option Nat → ArtifactId → Option Bytes
  | none => files
  | some 0 => writeFile files artifactId 0 []
  | some n => writeFile files artifactId offset (data.take n)

variable (sha : Bytes → Digest)

def perform (o : Oracle) :
    (q : StoreReq) → Shared → q.Resp × Shared
  | .createArtifact artifact, s => match o.fault with
    | some f => (.error (.fault f), s)
    | none => match declareArtifact s.artifacts artifact none with
      | .ok (_, t) => (.ok (), { s with artifacts := t })
      | .error e => (.error e, s)
  | .findArtifact artifactId, s => match o.fault with
    | some f => (.error (.fault f), s)
    | none => (findArtifact s.artifacts artifactId, s)
  | .updateArtifact artifactId uploadedBytes state now, s => match o.fault with
    | some f => (.error (.fault f), s)
    | none => match updateArtifact s.artifacts artifactId uploadedBytes state
        now with
      | .ok (_, t) => (.ok (), { s with artifacts := t })
      | .error e => (.error e, s)
  | .writeChunk artifactId offset data, s => match o.io with
    | some e => (.error e, { s with
        files := tornFile s.files artifactId offset data o.landed })
    | none =>
      (.ok (), { s with files := writeFile s.files artifactId offset data })
  | .hashFile artifactId, s => match o.io with
    | some e => (.error e, s)
    | none => match s.files artifactId with
      | some file => (.ok (sha file), s)
      | none => (.error .notFound, s)

/-! ## Calls at once -/

inductive Call where
  | create (artifactId : ArtifactId) (name : String) (sizeBytes : Nat)
      (sha256 : String) (now : Instant)
  | appendChunk (artifactId : ArtifactId) (offset : Nat) (dataBase64 : String)
      (now : Instant)
  | finalize (artifactId : ArtifactId) (now : Instant)

/-- The call with its answer dropped. -/
def Call.program : Call → Prog artifactStore Unit
  | .create artifactId name sizeBytes sha256 now => do
    let _ ← (ArtifactStore.create artifactId name sizeBytes sha256 now).run
    return ()
  | .appendChunk artifactId offset dataBase64 now => do
    let _ ← (ArtifactStore.appendChunk decode artifactId offset dataBase64
      now).run
    return ()
  | .finalize artifactId now => do
    let _ ← (ArtifactStore.finalize artifactId now).run
    return ()

structure Caller where
  read : Option Bytes
  rest : Prog artifactStore Unit

structure State where
  shared : Shared
  callers : List Caller

/-- No artifact is declared; what files there are is left open. -/
def Initial (s : State) : Prop :=
  s.shared.artifacts = .empty ∧ s.callers = []

/-- The file a caller has hashed, after one more call. -/
def readBy (s : Shared) : (q : StoreReq) → q.Resp → Option Bytes → Option Bytes
  | .hashFile artifactId, .ok _, _ => s.files artifactId
  | _, _, read => read

inductive Label where
  | begin (call : Call)
  | step (i : Nat) (o : Oracle)
  | stop (i : Nat)

def next (s : State) : Label → Option State
  | .begin call => some { s with
      callers := s.callers ++ [⟨none, call.program decode⟩] }
  | .step i o => match s.callers[i]? with
    | some ⟨read, .call q k⟩ =>
        let r := perform sha o q s.shared
        some ⟨r.2, s.callers.set i ⟨readBy s.shared q r.1 read, k r.1⟩⟩
    | _ => none
  | .stop i => some { s with callers := s.callers.eraseIdx i }

abbrev Reachable (s : State) : Prop :=
  Reach Initial (Next (next decode sha)) s

end Rutilus.App.ArtifactStore
