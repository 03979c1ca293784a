import Rutilus.Domain.Report
import Rutilus.Lib.Endian

/-!
# Frames between site and center

An envelope travels as one frame: four bytes with the length of the payload, the most
significant first, then the payload. Both sides bound the payload. How an envelope is
written as bytes is a parameter.
-/

namespace Rutilus.Protocol.Framing

open Rutilus.Domain Rutilus.Lib

/-- How the messages of a type are written and read. -/
structure Codec (E δ ε : Type) where
  encodedLen : E → Nat
  encode : E → Except ε Bytes
  decode : Bytes → Except δ E

/-- What is encoded has the length that was announced, and is read back. -/
structure Codec.Lawful {E δ ε : Type} (codec : Codec E δ ε) : Prop where
  length : ∀ e bytes, codec.encode e = .ok bytes → bytes.length = codec.encodedLen e
  readsBack : ∀ e bytes, codec.encode e = .ok bytes → codec.decode bytes = .ok e

def maxFrameBytes : Nat := 8 * 1024 * 1024

def frameHeaderBytes : Nat := 4

inductive FrameError (δ ε : Type) where
  | tooShort (frameBytes headerBytes : Nat)
  | headerTooLarge (declaredBytes maxBytes : Nat)
  | truncated (declaredBytes presentBytes : Nat)
  | trailingBytes (declaredBytes extraBytes : Nat)
  | encodeLimit (payloadBytes maxBytes : Nat)
  | decode (source : δ)
  | encode (source : ε)
  deriving DecidableEq, Repr

variable {E δ ε : Type} (codec : Codec E δ ε)

def encodeFrame (envelope : E) : Except (FrameError δ ε) Bytes :=
  let payloadBytes := codec.encodedLen envelope
  if maxFrameBytes < payloadBytes then
    .error (.encodeLimit payloadBytes maxFrameBytes)
  -- the length does not fit its field
  else if 2 ^ 32 ≤ payloadBytes then
    .error (.encodeLimit payloadBytes maxFrameBytes)
  else match codec.encode envelope with
    | .error source => .error (.encode source)
    | .ok payload => .ok (toBigEndian frameHeaderBytes payloadBytes ++ payload)

/-- The first four bytes and the rest. -/
def splitHeader : Bytes → Option (Bytes × Bytes)
  | a :: b :: c :: d :: payload => some ([a, b, c, d], payload)
  | _ => none

def decodeFrame (frame : Bytes) : Except (FrameError δ ε) E :=
  match splitHeader frame with
  | none => .error (.tooShort frame.length frameHeaderBytes)
  | some (header, payload) =>
    let declaredBytes := bigEndian header
    if maxFrameBytes < declaredBytes then
      .error (.headerTooLarge declaredBytes maxFrameBytes)
    else if payload.length < declaredBytes then
      .error (.truncated declaredBytes payload.length)
    else if declaredBytes < payload.length then
      .error (.trailingBytes declaredBytes (payload.length - declaredBytes))
    else (codec.decode payload).mapError .decode

end Rutilus.Protocol.Framing
