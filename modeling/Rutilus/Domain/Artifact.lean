import Rutilus.Domain.Report

/-!
# Artifacts

The manifest of one firmware file and how much of the file has arrived. A
manifest is declared before any byte; what it declares never changes. The record
carries its own consistency, so a stored row that violates it cannot be read
back.

A label is kept trimmed, without control characters and short; artifacts and
the message ids of events share that rule.
-/

namespace Rutilus.Domain

/-! ## Labels -/

/-- What `char::is_control` accepts: the C0 and C1 ranges and DEL. -/
def isControl (c : Char) : Bool :=
  c.toNat < 0x20 ∨ 0x7f ≤ c.toNat ∧ c.toNat < 0xa0

/-- The Unicode `White_Space` characters, which `str::trim` cuts off. -/
def isTrimmed (c : Char) : Bool :=
  9 ≤ c.toNat ∧ c.toNat ≤ 13 ∨ c.toNat = 0x20 ∨ c.toNat = 0x85 ∨
    c.toNat = 0xa0 ∨ c.toNat = 0x1680 ∨
    0x2000 ≤ c.toNat ∧ c.toNat ≤ 0x200a ∨ c.toNat = 0x2028 ∨
    c.toNat = 0x2029 ∨ c.toNat = 0x202f ∨ c.toNat = 0x205f ∨
    c.toNat = 0x3000

def trim (cs : List Char) : List Char :=
  ((cs.dropWhile isTrimmed).reverse.dropWhile isTrimmed).reverse

def maxLabelChars : Nat := 128

inductive LabelError where
  | empty
  | controlCharacter
  | tooLong (actual maximum : Nat)
  deriving DecidableEq, Repr

/-- The rule of `ArtifactName::parse` and `MessageId::parse`. -/
def parseLabel (value : String) : Except LabelError String :=
  let normalized := trim value.toList
  if normalized.isEmpty then .error .empty
  else if normalized.any isControl then .error .controlCharacter
  else if maxLabelChars < normalized.length then
    .error (.tooLong normalized.length maxLabelChars)
  else .ok (String.ofList normalized)

theorem dropWhile_fixed {p : Char → Bool} (cs : List Char) :
    (cs.dropWhile p).dropWhile p = cs.dropWhile p := by
  induction cs with
  | nil => rfl
  | cons c cs ih =>
      rw [List.dropWhile_cons]
      split
      · exact ih
      · next hc => rw [List.dropWhile_cons, if_neg hc]

/-- Dropping at the end does not uncover a character to drop at the front. -/
theorem dropWhile_reverse_fixed {p : Char → Bool} {cs : List Char}
    (h : cs.dropWhile p = cs) :
    (cs.reverse.dropWhile p).reverse.dropWhile p =
      (cs.reverse.dropWhile p).reverse := by
  cases hd : (cs.reverse.dropWhile p).reverse with
  | nil => rfl
  | cons c rest =>
      have hpre : (cs.reverse.dropWhile p).reverse <+: cs := by
        have := List.reverse_prefix.mpr (List.dropWhile_suffix (l := cs.reverse) p)
        rwa [List.reverse_reverse] at this
      rw [hd] at hpre
      obtain ⟨tail, rfl⟩ := hpre
      rw [List.cons_append, List.dropWhile_cons] at h
      split at h
      · have := congrArg List.length h
        have := (List.dropWhile_suffix (l := rest ++ tail) p).length_le
        simp only [List.length_cons] at *
        omega
      · next hc => rw [List.dropWhile_cons, if_neg hc]

theorem trim_trim (cs : List Char) : trim (trim cs) = trim cs := by
  unfold trim
  rw [dropWhile_reverse_fixed (dropWhile_fixed cs), List.reverse_reverse,
    dropWhile_fixed]

/-- A parsed label parses to itself. -/
theorem parseLabel_fixed {value text : String}
    (h : parseLabel value = .ok text) : parseLabel text = .ok text := by
  unfold parseLabel at h
  dsimp only at h
  split at h
  · cases h
  · next hempty =>
      split at h
      · cases h
      · next hcontrol =>
          split at h
          · cases h
          · next hlong =>
              cases h
              unfold parseLabel
              rw [String.toList_ofList, trim_trim]
              simp only [hempty, hcontrol, hlong, if_false, Bool.false_eq_true]

/-! ## Manifests -/

inductive ArtifactState where
  | uploading
  | ready
  | failed
  deriving DecidableEq, Repr

def ArtifactState.isTerminal : ArtifactState → Bool
  | .uploading => false
  | .ready | .failed => true

/-- A SHA-256 digest, in the raw form both sides compare. -/
abbrev Digest : Type := Bytes

inductive Sha256HexParseError where
  | invalidLength (actual expected : Nat)
  | invalidEncoding
  deriving DecidableEq, Repr

def sha256HexLength : Nat := 64

/-- One hex digit, in either case. -/
def decodeHexDigit (c : Char) : Option Nat :=
  if '0' ≤ c ∧ c ≤ '9' then some (c.toNat - '0'.toNat)
  else if 'a' ≤ c ∧ c ≤ 'f' then some (c.toNat - 'a'.toNat + 10)
  else if 'A' ≤ c ∧ c ≤ 'F' then some (c.toNat - 'A'.toNat + 10)
  else none

/-- A byte for every two digits. -/
def pairDigits : List Nat → Bytes
  | high :: low :: rest => UInt8.ofNat (high * 16 + low) :: pairDigits rest
  | _ => []

def parseSha256 (value : String) : Except Sha256HexParseError Digest :=
  if value.utf8ByteSize ≠ sha256HexLength then
    .error (.invalidLength value.utf8ByteSize sha256HexLength)
  else match value.toList.mapM decodeHexDigit with
    | none => .error .invalidEncoding
    | some digits => .ok (pairDigits digits)

/-- The canonical lowercase spelling. -/
def sha256Text (digest : Digest) : String :=
  String.ofList (digest.flatMap fun byte =>
    [Nat.digitChar (byte.toNat / 16), Nat.digitChar (byte.toNat % 16)])

structure Artifact where
  id : ArtifactId
  name : String
  sizeBytes : Nat
  sha256 : Digest
  state : ArtifactState
  uploadedBytes : Nat
  createdAt : Instant
  updatedAt : Instant
  timeline : createdAt ≤ updatedAt
  progress : uploadedBytes ≤ sizeBytes
  complete : state = .ready → uploadedBytes = sizeBytes
  deriving DecidableEq, Repr

def Artifact.new (id : ArtifactId) (name : String) (sizeBytes : Nat)
    (sha256 : Digest) (createdAt : Instant) : Artifact where
  id := id
  name := name
  sizeBytes := sizeBytes
  sha256 := sha256
  state := .uploading
  uploadedBytes := 0
  createdAt := createdAt
  updatedAt := createdAt
  timeline := Int.le_refl _
  progress := Nat.zero_le _
  complete := by intro h; cases h

inductive ArtifactRestoreError where
  | invalidTimeline
  | progressExceedsSize (uploaded size : Nat)
  | readyBeforeCompleteUpload (uploaded size : Nat)
  deriving DecidableEq, Repr

def Artifact.tryFromParts (id : ArtifactId) (name : String) (sizeBytes : Nat)
    (sha256 : Digest) (state : ArtifactState) (uploadedBytes : Nat)
    (createdAt updatedAt : Instant) : Except ArtifactRestoreError Artifact :=
  if htimeline : updatedAt < createdAt then .error .invalidTimeline
  else if hprogress : sizeBytes < uploadedBytes then
    .error (.progressExceedsSize uploadedBytes sizeBytes)
  else if hcomplete : state = .ready ∧ uploadedBytes ≠ sizeBytes then
    .error (.readyBeforeCompleteUpload uploadedBytes sizeBytes)
  else .ok {
    id, name, sizeBytes, sha256, state, uploadedBytes, createdAt, updatedAt
    timeline := Int.not_lt.mp htimeline
    progress := Nat.not_lt.mp hprogress
    complete := fun h => Decidable.of_not_not fun hne => hcomplete ⟨h, hne⟩ }

/-! ## The lifecycle -/

inductive ArtifactError where
  | terminal (state : ArtifactState)
  | progressExceedsSize (uploaded received size : Nat)
  | incompleteUpload (uploaded size : Nat)
  deriving DecidableEq, Repr

/-- An addition that overflows is past every declared size as well. -/
def Artifact.recordBytesReceived (a : Artifact) (received : Nat) :
    Except ArtifactError Artifact :=
  if hterminal : a.state.isTerminal then .error (.terminal a.state)
  else if hsize : a.sizeBytes < a.uploadedBytes + received then
    .error (.progressExceedsSize a.uploadedBytes received a.sizeBytes)
  else .ok { a with
    uploadedBytes := a.uploadedBytes + received
    progress := Nat.not_lt.mp hsize
    complete := fun h => absurd (by rw [h]; rfl) hterminal }

def Artifact.markReady (a : Artifact) : Except ArtifactError Artifact :=
  if a.state.isTerminal then .error (.terminal a.state)
  else if hsize : a.uploadedBytes ≠ a.sizeBytes then
    .error (.incompleteUpload a.uploadedBytes a.sizeBytes)
  else .ok { a with
    state := .ready
    complete := fun _ => Decidable.of_not_not hsize }

def Artifact.markFailed (a : Artifact) : Except ArtifactError Artifact :=
  if a.state.isTerminal then .error (.terminal a.state)
  else .ok { a with state := .failed, complete := nofun }

/-- The declared total both sides accept at most. -/
def artifactMaxSizeBytes : Nat := 2 * 1024 * 1024 * 1024

end Rutilus.Domain
