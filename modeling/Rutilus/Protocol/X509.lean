import Rutilus.Domain.Report
import Rutilus.Lib.Endian

/-!
# Reading certificates

The center reads two things out of a certificate: the subject's common name and the
fingerprint of the site in an extension of the product's own. The walker knows only the
structure down to these fields and never reads past an element.
-/

namespace Rutilus.Protocol.X509

open Rutilus.Domain (Bytes)
open Rutilus.Lib (slice)

/-- The identifier of the extension that carries a site's fingerprint. -/
def siteIdentityExtensionOid : List UInt64 := [1, 3, 6, 1, 4, 1, 59745, 2, 1]

def tagBoolean : UInt8 := 0x01
def tagOctetString : UInt8 := 0x04
def tagOid : UInt8 := 0x06
def tagSequence : UInt8 := 0x30
def tagSet : UInt8 := 0x31
/-- The context-tagged extensions field. -/
def tagContext3 : UInt8 := 0xA3

inductive DerReadError where
  | truncated
  | indefiniteLength
  | lengthTooLarge
  | unexpectedTag (expected : String) (actual : UInt8)
  | trailingBytes
  | oidComponentTooLarge
  | fingerprintLength
  deriving DecidableEq, Repr

/-- How a walk stops short: with an error, with a slice out of bounds, or not at all
within its fuel. -/
inductive Halt where
  | returned (error : DerReadError)
  | outOfBounds
  | exhausted
  deriving DecidableEq, Repr

/-- A tag and the content that its length announces. -/
structure Element where
  tag : UInt8
  content : Bytes
  deriving DecidableEq, Repr

/-- A 64-bit number, unless it overflows. -/
def checked (n : Nat) : Option Nat :=
  if n < 2 ^ 64 then some n else none

/-! ## Elements -/

/-- The loop over the bytes of a length. -/
def foldLength (length : Nat) : Bytes → Option Nat
  | [] => some length
  | byte :: bytes =>
    match (checked (length * 256)).bind fun shifted =>
        checked (shifted + byte.toNat) with
    | none => none
    | some length => foldLength length bytes

/-- A definite length and the count of bytes it takes. -/
def readLength : Bytes → Except DerReadError (Nat × Nat)
  | [] => .error .truncated
  | first :: rest =>
    if first &&& 0x80 = 0 then .ok (first.toNat, 1)
    else
      let count := (first &&& 0x7F).toNat
      if count = 0 then .error .indefiniteLength
      else if 4 < count then .error .lengthTooLarge
      else match slice rest 0 count with
        | none => .error .truncated
        | some bytes => match foldLength 0 bytes with
          | none => .error .lengthTooLarge
          | some length => .ok (length, 1 + count)

/-- The first element of a byte string and the count of bytes it takes. -/
def readElement : Bytes → Except DerReadError (Element × Nat)
  | [] => .error .truncated
  | tag :: rest =>
    match readLength rest with
    | .error error => .error error
    | .ok (contentLength, lengthBytes) =>
      let contentStart := 1 + lengthBytes
      match checked (contentStart + contentLength) with
      | none => .error .truncated
      | some contentEnd =>
        match slice (tag :: rest) contentStart contentEnd with
        | none => .error .truncated
        | some content => .ok ({ tag, content }, contentEnd)

/-- The loop over the elements that follow one another. -/
def siblings : Nat → Bytes → Except Halt (List Element)
  | 0, rest => if rest = [] then .ok [] else .error .exhausted
  | fuel + 1, rest =>
    if rest = [] then .ok []
    else match readElement rest with
      | .error error => .error (.returned error)
      | .ok (child, consumed) =>
        match slice rest consumed rest.length with
        | none => .error .outOfBounds
        | some rest => (siblings fuel rest).map (child :: ·)

def readChildren (element : Element) : Except Halt (List Element) :=
  if element.tag = tagSequence ∨ element.tag = tagSet then
    siblings element.content.length element.content
  else .error (.returned (.unexpectedTag "SEQUENCE or SET" element.tag))

/-! ## Certificates -/

/-- The first part of a certificate, which takes the whole input. -/
def tbsCertificate (der : Bytes) : Except Halt Element :=
  match readElement der with
  | .error error => .error (.returned error)
  | .ok (top, consumed) =>
    if top.tag ≠ tagSequence then
      .error (.returned (.unexpectedTag "Certificate SEQUENCE" top.tag))
    else if consumed ≠ der.length then .error (.returned .trailingBytes)
    else match readChildren top with
      | .error halt => .error halt
      | .ok [] => .error (.returned .truncated)
      | .ok (tbs :: _) =>
        if tbs.tag ≠ tagSequence then
          .error (.returned (.unexpectedTag "TBSCertificate SEQUENCE" tbs.tag))
        else .ok tbs

/-- The loop over the bytes after the first one. -/
def decodeArcs (components : List UInt64) (pending : Nat) (continuation : Bool) :
    Bytes → Except DerReadError (List UInt64)
  | [] => if continuation then .error .truncated else .ok components
  | byte :: rest =>
    match (checked (pending * 128)).bind fun shifted =>
        checked (shifted + (byte &&& 0x7F).toNat) with
    | none => .error .oidComponentTooLarge
    | some pending =>
      if byte &&& 0x80 = 0 then
        decodeArcs (components ++ [UInt64.ofNat pending]) 0 false rest
      else decodeArcs components pending true rest

/-- The arcs of an object identifier; the first byte holds two of them. -/
def decodeOid : Bytes → Except DerReadError (List UInt64)
  | [] => .error .truncated
  | first :: rest =>
    decodeArcs [(first / 40).toUInt64, (first % 40).toUInt64] 0 false rest

/-- The last octet string among the parts of an extension after its identifier. -/
def valuePart (value : Option Element) : List Element →
    Except DerReadError (Option Element)
  | [] => .ok value
  | part :: parts =>
    if part.tag = tagBoolean then valuePart value parts
    else if part.tag = tagOctetString then valuePart (some part) parts
    else .error
      (.unexpectedTag "extension critical BOOLEAN or value OCTET STRING" part.tag)

/-- The value of the first extension with an identifier. -/
def findExtension (oid : List UInt64) : List Element → Except Halt (Option Bytes)
  | [] => .ok none
  | extension :: extensions =>
    match readChildren extension with
    | .error halt => .error halt
    | .ok [] => .error (.returned .truncated)
    | .ok (extensionOid :: parts) =>
      if extensionOid.tag ≠ tagOid then
        .error (.returned (.unexpectedTag "extension type OID" extensionOid.tag))
      else match valuePart none parts with
        | .error error => .error (.returned error)
        | .ok value => match decodeOid extensionOid.content with
          | .error error => .error (.returned error)
          | .ok components =>
            if components = oid then .ok (value.map (·.content))
            else findExtension oid extensions

def extensionValue (der : Bytes) (oid : List UInt64) : Except Halt (Option Bytes) := do
  let tbs ← tbsCertificate der
  let fields ← readChildren tbs
  match fields.find? fun field => field.tag = tagContext3 with
  | none => .ok none
  | some extensions =>
    match readElement extensions.content with
    | .error error => .error (.returned error)
    | .ok (extensionSequence, consumed) =>
      if extensionSequence.tag ≠ tagSequence then
        .error
          (.returned (.unexpectedTag "extensions SEQUENCE" extensionSequence.tag))
      else if consumed ≠ extensions.content.length then
        .error (.returned .trailingBytes)
      else do
        let members ← readChildren extensionSequence
        findExtension oid members

/-! ## The fingerprint of a site -/

structure CertificateFingerprint where
  bytes : Bytes
  length_eq : bytes.length = 32
  deriving DecidableEq

/-- The fingerprint in the extension's value, which is an octet string of its own. -/
def siteIdentityFingerprint (der : Bytes) :
    Except Halt (Option CertificateFingerprint) := do
  match ← extensionValue der siteIdentityExtensionOid with
  | none => .ok none
  | some content =>
    match readElement content with
    | .error error => .error (.returned error)
    | .ok (value, consumed) =>
      if value.tag ≠ tagOctetString then
        .error (.returned (.unexpectedTag "site-identity OCTET STRING" value.tag))
      else if consumed ≠ content.length then .error (.returned .trailingBytes)
      else if h : value.content.length = 32 then
        .ok (some { bytes := value.content, length_eq := h })
      else .error (.returned .fingerprintLength)

/-- The extension that the center writes into a site's certificate: the content of the
octet string that holds its value. The length fits its byte. -/
def siteIdentityExtension (siteFingerprint : CertificateFingerprint) : Bytes :=
  0x04 :: UInt8.ofNat siteFingerprint.bytes.length :: siteFingerprint.bytes

end Rutilus.Protocol.X509
