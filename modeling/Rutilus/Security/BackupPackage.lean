import Rutilus.Domain.Report
import Rutilus.Lib.Endian

/-!
# Backup packages

One file carries the state of an instance. A header and a manifest that lists the
entries stand in clear; behind a nonce follow the contents of the entries, encrypted
under the instance's master key and authenticated together with what stands in clear.

The cipher under the master key, the JSON form of a manifest and the digest of a content
are parameters.
-/

namespace Rutilus.Security.BackupPackage

open Rutilus.Domain (Bytes)
open Rutilus.Lib

/-- The text `RUTBK001`. -/
def backupPackageMagic : Bytes := [0x52, 0x55, 0x54, 0x42, 0x4B, 0x30, 0x30, 0x31]

def backupPackageFormatVersion : UInt8 := 1
def maxEntryNameLength : Nat := 255
def maxEntries : Nat := 1024
def maxManifestLength : Nat := 1024 * 1024
def formatVersionBytes : Nat := 1
def manifestLengthBytes : Nat := 4
def nonceLength : Nat := 24
def authenticationTagLength : Nat := 16
def headerLength : Nat :=
  backupPackageMagic.length + formatVersionBytes + manifestLengthBytes
def minimumPackageLength : Nat := headerLength + nonceLength + authenticationTagLength

inductive BackupEntryKind where
  | database
  | databaseWal
  | masterKey
  | systemMasterKey
  | instanceMarker
  | tlsCertificate
  | tlsPrivateKey
  | artifactFile
  deriving DecidableEq, Repr

inductive BackupPackageError (κ ρ : Type) where
  | emptyProductVersion
  | emptyEntryName
  | entryNameTooLong (length : Nat)
  | invalidEntryName (name : String)
  | duplicateEntryName (name : String)
  | tooManyEntries (count : Nat)
  | manifestTooLong (length : Nat)
  | invalidManifestLength (length : Nat)
  | invalidManifest (source : κ)
  | payloadTooLarge
  | payloadLengthMismatch (declared payload : Nat)
  | sha256Mismatch (name : String)
  | packageTooShort (length : Nat)
  | unsupportedFormat
  | authenticationFailed
  | encryptionFailed
  | randomnessUnavailable (source : ρ)
  deriving DecidableEq, Repr

/-- How opening a package stops short: with an error, or with a slice out of bounds. -/
inductive Failure (κ ρ : Type) where
  | returned (error : BackupPackageError κ ρ)
  | outOfBounds
  deriving DecidableEq, Repr

/-- A line of the manifest. -/
structure BackupManifestEntry where
  name : String
  kind : BackupEntryKind
  length : Nat
  sha256 : String
  deriving DecidableEq, Repr

structure BackupManifest where
  productVersion : String
  schemaVersion : UInt32
  entries : List BackupManifestEntry
  deriving DecidableEq, Repr

structure DecryptedEntry where
  name : String
  kind : BackupEntryKind
  content : Bytes
  deriving DecidableEq, Repr

structure DecryptedBackup where
  productVersion : String
  schemaVersion : UInt32
  entries : List DecryptedEntry
  deriving DecidableEq, Repr

structure Nonce where
  bytes : Bytes
  length_eq : bytes.length = nonceLength

/-- The cipher under the master key: the encryptions that are made with it, by nonce,
associated data and message, and what it decrypts. -/
structure Cipher where
  encrypt : Bytes → Bytes → Bytes → Option Bytes
  decrypt : Bytes → Bytes → Bytes → Option Bytes

/-- The JSON form of manifests. -/
structure Json (κ : Type) where
  toVec : BackupManifest → Except κ Bytes
  fromSlice : Bytes → Except κ BackupManifest

variable {κ ρ : Type}

/-! ## Names -/

def validateEntryName (name : String) : Except (BackupPackageError κ ρ) Unit :=
  if name.isEmpty then .error .emptyEntryName
  else if maxEntryNameLength < name.utf8ByteSize then
    .error (.entryNameTooLong name.utf8ByteSize)
  else if name.toList.contains (Char.ofNat 0) then .error (.invalidEntryName name)
  else .ok ()

/-- An entry offered to a package; its name is valid. -/
structure BackupEntry where
  name : String
  kind : BackupEntryKind
  content : Bytes
  valid : @validateEntryName Empty Empty name = .ok ()

/-- The loop over the names, with those seen so far. -/
def ensureUnique (seen : List String) : List String →
    Except (BackupPackageError κ ρ) Unit
  | [] => .ok ()
  | name :: names =>
    if name ∈ seen then .error (.duplicateEntryName name)
    else ensureUnique (name :: seen) names

def ensureUniqueNames (entries : List BackupEntry) :
    Except (BackupPackageError κ ρ) Unit :=
  ensureUnique [] (entries.map (·.name))

def ensureUniqueManifestNames (entries : List BackupManifestEntry) :
    Except (BackupPackageError κ ρ) Unit :=
  ensureUnique [] (entries.map (·.name))

/-- The loop over the names of a manifest. -/
def validateEntryNames : List BackupManifestEntry → Except (BackupPackageError κ ρ) Unit
  | [] => .ok ()
  | entry :: entries =>
    match validateEntryName entry.name with
    | .error error => .error error
    | .ok () => validateEntryNames entries

/-! ## Framing -/

/-- What is authenticated in clear. -/
def framedHeaderAndManifest (manifestBytes : Bytes) :
    Except (BackupPackageError κ ρ) Bytes :=
  if manifestBytes.length < 2 ^ 32 then
    .ok (backupPackageMagic ++ [backupPackageFormatVersion] ++
      (toBigEndian manifestLengthBytes manifestBytes.length).reverse ++ manifestBytes)
  else .error (.manifestTooLong manifestBytes.length)

/-- A slice that the source takes without a check. -/
def within {α : Type} : Option α → Except (Failure κ ρ) α
  | none => .error .outOfBounds
  | some a => .ok a

def fail {α : Type} (error : BackupPackageError κ ρ) : Except (Failure κ ρ) α :=
  .error (.returned error)

def readManifestLength (package : Bytes) : Except (Failure κ ρ) Nat := do
  let bytes ← within
    (slice package (backupPackageMagic.length + formatVersionBytes) headerLength)
  let length := bigEndian bytes.reverse
  if maxManifestLength < length then fail (.invalidManifestLength length)
  else .ok length

/-- A sum of 64 bits; the sum so far where the next length overflows it. -/
def foldLengths (total : Nat) : List Nat → Except Nat Nat
  | [] => .ok total
  | length :: lengths =>
    if total + length < 2 ^ 64 then foldLengths (total + length) lengths
    else .error total

/-! ## Creating and opening -/

variable (cipher : Cipher) (json : Json κ) (hexSha256 : Bytes → String)

def BackupEntry.line (entry : BackupEntry) : BackupManifestEntry where
  name := entry.name
  kind := entry.kind
  length := entry.content.length
  sha256 := hexSha256 entry.content

def createBackupPackage (productVersion : String) (schemaVersion : UInt32)
    (entries : List BackupEntry) (randomness : Except ρ Nonce) :
    Except (BackupPackageError κ ρ) Bytes :=
  if productVersion.isEmpty then .error .emptyProductVersion
  else if maxEntries < entries.length then .error (.tooManyEntries entries.length)
  else do
    ensureUniqueNames entries
    let manifestBytes ← (json.toVec
      { productVersion, schemaVersion,
        entries := entries.map (·.line hexSha256) }).mapError .invalidManifest
    if maxManifestLength < manifestBytes.length then
      .error (.manifestTooLong manifestBytes.length)
    else do
      let _ ← (foldLengths 0 (entries.map (·.content.length))).mapError
        fun _ => .payloadTooLarge
      let payload := (entries.map (·.content)).flatten
      let nonce ← randomness.mapError .randomnessUnavailable
      let associatedData ← framedHeaderAndManifest manifestBytes
      match cipher.encrypt nonce.bytes associatedData payload with
      | none => .error .encryptionFailed
      | some ciphertext => .ok (associatedData ++ nonce.bytes ++ ciphertext)

/-- The loop over the lines of the manifest, which cuts the contents out. -/
def readEntries (plaintext : Bytes) (offset : Nat) : List BackupManifestEntry →
    Except (Failure κ ρ) (List DecryptedEntry)
  | [] => .ok []
  | entry :: entries => do
    let content ← within (slice plaintext offset (offset + entry.length))
    if hexSha256 content ≠ entry.sha256 then fail (.sha256Mismatch entry.name)
    else do
      let rest ← readEntries plaintext (offset + entry.length) entries
      .ok ({ name := entry.name, kind := entry.kind, content } :: rest)

/-- What the decrypted contents come to under the manifest. -/
def readPayload (manifest : BackupManifest) (plaintext : Bytes) :
    Except (Failure κ ρ) DecryptedBackup :=
  match foldLengths 0 (manifest.entries.map (·.length)) with
  | .error total => fail (.payloadLengthMismatch total plaintext.length)
  | .ok declaredTotal =>
    if declaredTotal ≠ plaintext.length then
      fail (.payloadLengthMismatch declaredTotal plaintext.length)
    else do
      let entries ← readEntries hexSha256 plaintext 0 manifest.entries
      .ok { productVersion := manifest.productVersion,
            schemaVersion := manifest.schemaVersion, entries }

def openBackupPackage (package : Bytes) : Except (Failure κ ρ) DecryptedBackup :=
  if package.length < minimumPackageLength then fail (.packageTooShort package.length)
  else if backupPackageMagic.isPrefixOf package = false then fail .unsupportedFormat
  else do
    let version ← within package[backupPackageMagic.length]?
    if version ≠ backupPackageFormatVersion then fail .unsupportedFormat
    else do
      let manifestLength ← readManifestLength package
      let manifestEnd := headerLength + manifestLength
      if package.length < manifestEnd + nonceLength + authenticationTagLength then
        fail (.packageTooShort package.length)
      else do
        let manifestBytes ← within (slice package headerLength manifestEnd)
        let manifest ← (json.fromSlice manifestBytes).mapError
          fun source => .returned (.invalidManifest source)
        if maxEntries < manifest.entries.length then
          fail (.tooManyEntries manifest.entries.length)
        else do
          (validateEntryNames manifest.entries).mapError .returned
          (ensureUniqueManifestNames manifest.entries).mapError .returned
          let nonce ← within (slice package manifestEnd (manifestEnd + nonceLength))
          let ciphertext ←
            within (slice package (manifestEnd + nonceLength) package.length)
          let associatedData ← within (slice package 0 manifestEnd)
          match cipher.decrypt nonce associatedData ciphertext with
          | none => fail .authenticationFailed
          | some plaintext => readPayload hexSha256 manifest plaintext

end Rutilus.Security.BackupPackage
