import Rutilus.Domain.Event
import Rutilus.Domain.User

/-!
# One-time codes

A code stands for a time step of 30 seconds: it is derived from the secret and
the number of the step. A code is accepted for the current step and for one on
each side of it, whichever of the three it matches first, and only if that step
is after the last one used. The matched step is the answer, for the caller to
store.

The keyed hash under the derivation is a parameter.
-/

namespace Rutilus.Domain.User

open Rutilus.Domain

def totpPeriodSeconds : Int := 30

def totpWindow : Nat := 1

def totpSecretLength : Nat := 20

def totpDigits : Nat := 6

def maxStep : Nat := 18446744073709551615

inductive TotpAuthenticatorError where
  | invalidCode
  | replayed
  | notActive
  | alreadyActive
  deriving DecidableEq, Repr

/-- The eight bytes of a step, the highest first. -/
def stepBytes (step : Nat) : Bytes :=
  (List.range 8).map fun i => UInt8.ofNat (step / 256 ^ (7 - i))

section Codes

variable (hmacSha1 : Bytes → Bytes → Bytes)

def hotp (secret : Bytes) (step : Nat) : Nat :=
  let digest := hmacSha1 secret (stepBytes step)
  let byte (i : Nat) : Nat := (digest.getD i 0).toNat
  let offset := byte 19 % 16
  let binary := byte offset % 128 * 2 ^ 24 + byte (offset + 1) * 2 ^ 16 +
    byte (offset + 2) * 2 ^ 8 + byte (offset + 3)
  binary % 1000000

/-- The current step; time before the epoch counts as step zero. -/
def currentStep (now : Instant) : Nat :=
  ((OffsetDateTime.unixTimestamp ⟨now, 0⟩).tdiv totpPeriodSeconds).toNat

def windowSteps (current : Nat) : List Nat :=
  [current - totpWindow, current, min (current + totpWindow) maxStep]

def isSixDigitCode (code : String) : Bool :=
  code.toList.length = totpDigits ∧ code.toList.all Char.isDigit

/-- The six digits of a code, with leading zeros. -/
def codeDigits (expected : Nat) : List Char :=
  (List.range totpDigits).map fun i =>
    Char.ofNat ('0'.toNat + expected / 10 ^ (5 - i) % 10)

def codeMatches (code : String) (expected : Nat) : Bool :=
  (code.toList.zip (codeDigits expected)).all fun (presented, derived) =>
    presented = derived

/-- The first step of the window that has the code. -/
def matchStep (secret : Bytes) (code : String) (lastUsedStep : Option Nat) :
    List Nat → Except TotpAuthenticatorError Nat
  | [] => .error .invalidCode
  | candidate :: candidates =>
    if !codeMatches code (hotp hmacSha1 secret candidate) then
      matchStep secret code lastUsedStep candidates
    else if lastUsedStep.any fun last => candidate ≤ last then
      .error .replayed
    else .ok candidate

def verifyTotpCode (secret : Bytes) (code : String) (now : Instant)
    (lastUsedStep : Option Nat) : Except TotpAuthenticatorError Nat :=
  if !isSixDigitCode code then .error .invalidCode
  else matchStep hmacSha1 secret code lastUsedStep
    (windowSteps (currentStep now))

/-- The authenticator after its first code, and the step of the code. -/
def TotpAuthenticator.activate (authenticator : TotpAuthenticator)
    (code : String) (now : Instant) :
    Except TotpAuthenticatorError (TotpAuthenticator × Nat) := do
  if authenticator.state = .active then .error .alreadyActive
  let step ← verifyTotpCode hmacSha1 authenticator.secret code now
    authenticator.lastUsedStep
  return ({ authenticator with
    state := .active
    activatedAt := some now
    lastUsedStep := some step }, step)

end Codes

end Rutilus.Domain.User
