import Rutilus.Protocol.Framing

/-!
# The frame codec

A frame is a payload behind its length, for the writer and for the reader; the bound
on the payload is the same on both sides and below what the length field holds.
-/

namespace Rutilus.Proofs.FrameCodec

open Rutilus.Domain Rutilus.Lib Rutilus.Protocol.Framing

variable {E δ ε : Type} {codec : Codec E δ ε} {frame payload : Bytes} {e : E}

theorem maxFrameBytes_lt : maxFrameBytes < 256 ^ frameHeaderBytes := by decide

/-- What an encoded frame is. -/
theorem encodeFrame_ok (hcodec : codec.Lawful) (h : encodeFrame codec e = .ok frame) :
    ∃ payload, codec.encode e = .ok payload ∧ payload.length ≤ maxFrameBytes ∧
      frame = framed frameHeaderBytes payload := by
  unfold encodeFrame at h
  dsimp only at h
  split at h
  · cases h
  · next hmax =>
      split at h
      · cases h
      · split at h
        · cases h
        · next payload hpayload =>
            cases h
            have hlength := hcodec.length e payload hpayload
            refine ⟨payload, hpayload, ?_, ?_⟩
            · rw [hlength]
              exact Nat.not_lt.mp hmax
            · unfold framed
              rw [hlength]

theorem splitHeader_eq_some_iff {header : Bytes} :
    splitHeader frame = some (header, payload) ↔
      header.length = frameHeaderBytes ∧ frame = header ++ payload := by
  constructor
  · intro h
    unfold splitHeader at h
    split at h
    · cases h
      exact ⟨rfl, rfl⟩
    · cases h
  · rintro ⟨hlength, rfl⟩
    obtain _ | ⟨a, _ | ⟨b, _ | ⟨c, _ | ⟨d, _ | ⟨x, header⟩⟩⟩⟩⟩ := header
    all_goals
      first
      | rfl
      | cases hlength

/-- What the reader accepts. -/
theorem decodeFrame_ok_iff : decodeFrame codec frame = .ok e ↔
    ∃ payload, payload.length ≤ maxFrameBytes ∧
      frame = framed frameHeaderBytes payload ∧ codec.decode payload = .ok e := by
  constructor
  · intro h
    unfold decodeFrame at h
    split at h
    · cases h
    · next header payload hsplit =>
        obtain ⟨hheader, rfl⟩ := splitHeader_eq_some_iff.mp hsplit
        dsimp only at h
        split at h
        · cases h
        · next hmax =>
            split at h
            · cases h
            · next hshort =>
                split at h
                · cases h
                · next hlong =>
                    have hlength : payload.length = bigEndian header :=
                      Nat.le_antisymm (Nat.not_lt.mp hlong) (Nat.not_lt.mp hshort)
                    refine ⟨payload, ?_, ?_, ?_⟩
                    · rw [hlength]
                      exact Nat.not_lt.mp hmax
                    · unfold framed
                      rw [hlength, ← hheader, toBigEndian_bigEndian]
                    · cases hdecode : codec.decode payload with
                      | error source =>
                          rw [hdecode] at h
                          cases h
                      | ok e' =>
                          rw [hdecode] at h
                          cases h
                          rfl
  · rintro ⟨payload, hmax, rfl, hdecode⟩
    have hsplit : splitHeader (framed frameHeaderBytes payload) =
        some (toBigEndian frameHeaderBytes payload.length, payload) :=
      splitHeader_eq_some_iff.mpr ⟨length_toBigEndian, rfl⟩
    unfold decodeFrame
    rw [hsplit]
    dsimp only
    rw [bigEndian_toBigEndian (Nat.lt_of_le_of_lt hmax maxFrameBytes_lt),
      if_neg (Nat.not_lt.mpr hmax), if_neg (Nat.lt_irrefl _),
      if_neg (Nat.lt_irrefl _), hdecode]
    rfl

/-- An envelope whose fields have their default values is written as no bytes. -/
def emptyEnvelope : Codec Unit Unit Empty where
  encodedLen := fun _ => 0
  encode := fun _ => .ok []
  decode := fun bytes => if bytes = [] then .ok () else .error ()

end Rutilus.Proofs.FrameCodec
