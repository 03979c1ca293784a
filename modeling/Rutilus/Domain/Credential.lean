import Rutilus.Domain.Artifact

/-!
# Credentials

A credential is a name, a username and a series of encrypted versions of its
secret, one of them active. The metadata are free of the secret; a protected
version is bound to its credential and its own identity.
-/

namespace Rutilus.Domain.Credential

open Rutilus.Domain

structure CredentialId where
  uuid : Nat
  deriving DecidableEq, Repr

structure CredentialVersionId where
  uuid : Nat
  deriving DecidableEq, Repr

/-! ## Metadata -/

/-- The label rule, with its own limit of the same size. -/
def parseCredentialName (value : String) : Except LabelError String :=
  parseLabel value

/-- A normalized label. -/
structure CredentialName where
  text : String
  parses : parseCredentialName text = .ok text
  deriving DecidableEq

def CredentialName.parse (value : String) : Except LabelError CredentialName :=
  match h : parseCredentialName value with
  | .error e => .error e
  | .ok text => .ok ⟨text, parseLabel_fixed h⟩

def maxUsernameChars : Nat := 256

def checkUsername (value : String) : Except LabelError Unit :=
  if (trim value.toList).isEmpty then .error .empty
  else if value.toList.any isControl then .error .controlCharacter
  else if maxUsernameChars < value.toList.length then
    .error (.tooLong value.toList.length maxUsernameChars)
  else .ok ()

/-- An account name, kept as it is. -/
structure CredentialUsername where
  text : String
  checks : checkUsername text = .ok ()
  deriving DecidableEq

def CredentialUsername.parse (value : String) :
    Except LabelError CredentialUsername :=
  match h : checkUsername value with
  | .error e => .error e
  | .ok () => .ok ⟨value, h⟩

@[simp]
theorem CredentialName.parse_text (name : CredentialName) :
    CredentialName.parse name.text = .ok name := by
  unfold CredentialName.parse
  split
  · next e h =>
      rw [name.parses] at h
      cases h
  · next text h =>
      rw [name.parses] at h
      cases h
      rfl

@[simp]
theorem CredentialUsername.parse_text (username : CredentialUsername) :
    CredentialUsername.parse username.text = .ok username := by
  unfold CredentialUsername.parse
  split
  · next e h =>
      rw [username.checks] at h
      cases h
  · rfl

@[ext]
structure Credential where
  id : CredentialId
  name : CredentialName
  username : CredentialUsername
  activeVersionId : CredentialVersionId
  createdAt : Instant
  updatedAt : Instant
  timeline : createdAt ≤ updatedAt

instance : DecidableEq Credential := fun _ _ =>
  decidable_of_iff _ Credential.ext_iff.symm

inductive CredentialTimelineError where
  | inverted
  deriving DecidableEq, Repr

def Credential.tryNew (id : CredentialId) (name : CredentialName)
    (username : CredentialUsername) (activeVersionId : CredentialVersionId)
    (createdAt updatedAt : Instant) :
    Except CredentialTimelineError Credential :=
  if h : createdAt ≤ updatedAt then
    .ok ⟨id, name, username, activeVersionId, createdAt, updatedAt, h⟩
  else .error .inverted

/-! ## Protected versions -/

def credentialNonceLength : Nat := 24

def authenticationTagLength : Nat := 16

inductive CredentialProtectionError where
  | ciphertextTooShort
  deriving DecidableEq, Repr

/-- A nonce is an array of fixed length. -/
abbrev CredentialNonce : Type :=
  { nonce : Bytes // nonce.length = credentialNonceLength }

/-- Authenticated ciphertext, long enough for its tag. -/
structure ProtectedCredentialVersion where
  credentialId : CredentialId
  versionId : CredentialVersionId
  nonce : CredentialNonce
  ciphertext : Bytes
  tagged : authenticationTagLength ≤ ciphertext.length
  deriving DecidableEq

def ProtectedCredentialVersion.fromParts (credentialId : CredentialId)
    (versionId : CredentialVersionId) (nonce : CredentialNonce)
    (ciphertext : Bytes) :
    Except CredentialProtectionError ProtectedCredentialVersion :=
  if h : authenticationTagLength ≤ ciphertext.length then
    .ok ⟨credentialId, versionId, nonce, ciphertext, h⟩
  else .error .ciphertextTooShort

end Rutilus.Domain.Credential
