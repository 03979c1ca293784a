import Rutilus.Domain.Credential
import Rutilus.Lib.Listing

/-!
# Managed endpoints

The address of an endpoint is an HTTPS URL without credentials, query or fragment.
URLs are parsed by a library; what it answers is a parameter, and a URL is known by
its parts and by the text it is printed as.
-/

namespace Rutilus.Domain.Endpoint

open Rutilus.Domain Rutilus.Lib

/-! ## Addresses -/

/-- The parts of a URL that are read, and its text. -/
structure Url where
  text : String
  scheme : String
  host : Option String
  username : String
  password : Option String
  query : Option String
  fragment : Option String
  deriving DecidableEq, Repr

abbrev ParseUrl : Type := String → Option Url

/-- What a URL is printed as is parsed to the same URL. -/
def ParseUrl.RoundTrips (parseUrl : ParseUrl) : Prop :=
  ∀ value url, parseUrl value = some url → parseUrl url.text = some url

inductive EndpointAddressError where
  | invalidUrl
  | httpsRequired
  | hostRequired
  | embeddedCredentials
  | queryNotAllowed
  | fragmentNotAllowed
  deriving DecidableEq, Repr

/-- What the address rule refuses a URL for. -/
def addressFlaw (url : Url) : Option EndpointAddressError :=
  if url.scheme ≠ "https" then some .httpsRequired
  else if url.host.isNone then some .hostRequired
  else if url.username ≠ "" ∨ url.password.isSome then some .embeddedCredentials
  else if url.query.isSome then some .queryNotAllowed
  else if url.fragment.isSome then some .fragmentNotAllowed
  else none

structure EndpointAddress (parseUrl : ParseUrl) where
  url : Url
  parsed : ∃ value, parseUrl value = some url
  sound : addressFlaw url = none
  deriving DecidableEq

variable {parseUrl : ParseUrl}

variable (parseUrl) in
def EndpointAddress.parse (value : String) :
    Except EndpointAddressError (EndpointAddress parseUrl) :=
  match hurl : parseUrl value with
  | none => .error .invalidUrl
  | some url => match hflaw : addressFlaw url with
    | some flaw => .error flaw
    | none => .ok ⟨url, ⟨value, hurl⟩, hflaw⟩

def EndpointAddress.toString (address : EndpointAddress parseUrl) : String :=
  address.url.text

/-- A printed address is read back. -/
theorem EndpointAddress.parse_toString (h : parseUrl.RoundTrips)
    (address : EndpointAddress parseUrl) :
    EndpointAddress.parse parseUrl address.toString = .ok address := by
  obtain ⟨url, ⟨value, hurl⟩, hsound⟩ := address
  have hagain : parseUrl url.text = some url := h value url hurl
  unfold EndpointAddress.parse EndpointAddress.toString
  dsimp only
  split
  · next hnone =>
      rw [hagain] at hnone
      cases hnone
  · next found hfound =>
      cases hagain.symm.trans hfound
      split
      · next flaw hflaw =>
          rw [hsound] at hflaw
          cases hflaw
      · rfl

/-! ## Trust -/

def fingerprintLength : Nat := 32

/-- Two digits for each byte and a colon between two. -/
def fingerprintTextLength : Nat := fingerprintLength * 3 - 1

structure CertificateFingerprint where
  bytes : List UInt8
  length_eq : bytes.length = fingerprintLength
  deriving DecidableEq, Repr

/-- The digits `{:02X}` prints. -/
def upperHex (byte : UInt8) : List Char :=
  let digits := "0123456789ABCDEF".toList
  [digits.getD (byte.toNat / 16) '0', digits.getD (byte.toNat % 16) '0']

def CertificateFingerprint.toString (fingerprint : CertificateFingerprint) :
    String :=
  String.ofList ([':'].intercalate (fingerprint.bytes.map upperHex))

inductive CertificateFingerprintParseError where
  | invalidLength (actual expected : Nat)
  | invalidEncoding
  deriving DecidableEq, Repr

/-- Why reading ends early: the text is refused, or a byte is read that is not
there. -/
inductive FingerprintStop where
  | refused (error : CertificateFingerprintParseError)
  | outOfRange
  deriving DecidableEq, Repr

def decodeHex (value : UInt8) : Option UInt8 :=
  if 0x30 ≤ value ∧ value ≤ 0x39 then some (value - 0x30)
  else if 0x61 ≤ value ∧ value ≤ 0x66 then some (value - 0x61 + 10)
  else if 0x41 ≤ value ∧ value ≤ 0x46 then some (value - 0x41 + 10)
  else none

def byteAt (encoded : List UInt8) (index : Nat) : Except FingerprintStop UInt8 :=
  match encoded[index]? with
  | some byte => .ok byte
  | none => .error .outOfRange

/-- The byte of one group, and the colon before it. -/
def decodeGroup (encoded : List UInt8) (index : Nat) :
    Except FingerprintStop UInt8 := do
  let offset := index * 3
  if 0 < index then
    if (← byteAt encoded (offset - 1)) ≠ 0x3A then
      throw (.refused .invalidEncoding)
  let some high := decodeHex (← byteAt encoded offset)
    | throw (.refused .invalidEncoding)
  let some low := decodeHex (← byteAt encoded (offset + 1))
    | throw (.refused .invalidEncoding)
  return high <<< 4 ||| low

def CertificateFingerprint.fromStr (value : String) :
    Except FingerprintStop CertificateFingerprint :=
  let encoded := value.toList.flatMap String.utf8EncodeChar
  if encoded.length ≠ fingerprintTextLength then
    .error (.refused (.invalidLength encoded.length fingerprintTextLength))
  else match h : (List.range fingerprintLength).mapM (decodeGroup encoded) with
    | .error stop => .error stop
    | .ok decoded => .ok ⟨decoded, by
        rw [← (forall₂_of_mapM_ok h).length_eq, List.length_range]⟩

structure TlsCertificate where
  fingerprint : CertificateFingerprint
  certificateDer : List UInt8
  deriving DecidableEq, Repr

inductive TlsTrust where
  | systemCa (certificate : TlsCertificate) (verifiedAt : Instant)
  | pinnedCertificate (certificate : TlsCertificate) (trustedAt : Instant)
  deriving DecidableEq, Repr

def TlsTrust.establishedAt : TlsTrust → Instant
  | .systemCa _ verifiedAt => verifiedAt
  | .pinnedCertificate _ trustedAt => trustedAt

def TlsTrust.certificate : TlsTrust → TlsCertificate
  | .systemCa certificate _ => certificate
  | .pinnedCertificate certificate _ => certificate

/-! ## Endpoints -/

structure EndpointDisplayName where
  text : String
  parses : parseLabel text = .ok text

theorem EndpointDisplayName.text_inj {a b : EndpointDisplayName} :
    a.text = b.text ↔ a = b := by
  cases a
  cases b
  rw [EndpointDisplayName.mk.injEq]

instance : DecidableEq EndpointDisplayName := fun _ _ =>
  decidable_of_iff _ EndpointDisplayName.text_inj

/-- The update does not precede the creation, and the trust lies between. -/
def Ordered (trust : TlsTrust) (createdAt updatedAt : Instant) : Prop :=
  createdAt ≤ updatedAt ∧ createdAt ≤ trust.establishedAt ∧
    trust.establishedAt ≤ updatedAt

instance (trust : TlsTrust) (createdAt updatedAt : Instant) :
    Decidable (Ordered trust createdAt updatedAt) :=
  inferInstanceAs (Decidable (_ ∧ _))

structure Endpoint (parseUrl : ParseUrl) where
  id : EndpointId
  displayName : EndpointDisplayName
  address : EndpointAddress parseUrl
  trust : TlsTrust
  credentialId : Credential.CredentialId
  createdAt : Instant
  updatedAt : Instant
  ordered : Ordered trust createdAt updatedAt
  deriving DecidableEq

/-- The one flaw of an endpoint is its timeline. -/
def Endpoint.tryNew (id : EndpointId) (displayName : EndpointDisplayName)
    (address : EndpointAddress parseUrl) (trust : TlsTrust)
    (credentialId : Credential.CredentialId) (createdAt updatedAt : Instant) :
    Option (Endpoint parseUrl) :=
  if h : Ordered trust createdAt updatedAt then
    some ⟨id, displayName, address, trust, credentialId, createdAt, updatedAt, h⟩
  else none

end Rutilus.Domain.Endpoint
