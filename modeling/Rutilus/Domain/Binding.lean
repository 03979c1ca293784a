import Rutilus.Domain.Artifact

/-!
# Bindings of sites

One registration of a site at the center. The center issues a one-time code and
keeps its hash until the site presents the code or the code expires; binding the
site consumes the code and records the fingerprint of the site's certificate, and
a revoked binding stays as history. A stored row is read back only if its columns
fit its state and its times are in order.

The hash function is a parameter, as for artifacts.
-/

namespace Rutilus.Domain

structure CenterBindingId where
  uuid : Nat
  deriving DecidableEq, Repr

structure CertificateFingerprint where
  bytes : Bytes
  deriving DecidableEq, Repr

/-- The bytes of a code in its canonical form. -/
structure BindingCode where
  bytes : Bytes
  deriving DecidableEq, Repr

def BindingCode.hash (sha : Bytes → Digest) (code : BindingCode) : Digest :=
  sha code.bytes

inductive CenterBindingState where
  | pending
  | bound
  | revoked
  deriving DecidableEq, Repr

inductive CenterBindingEvent where
  | codeAccepted
  | revoked
  deriving DecidableEq, Repr

structure InvalidCenterBindingTransition where
  fromState : CenterBindingState
  event : CenterBindingEvent
  deriving DecidableEq, Repr

def centerBindingTransition (current : CenterBindingState)
    (event : CenterBindingEvent) :
    Except InvalidCenterBindingTransition CenterBindingState :=
  match current, event with
  | .pending, .codeAccepted => .ok .bound
  | .pending, .revoked => .ok .revoked
  | .bound, .codeAccepted => .error ⟨.bound, .codeAccepted⟩
  | .bound, .revoked => .ok .revoked
  | .revoked, event => .error ⟨.revoked, event⟩

structure CenterBinding where
  id : CenterBindingId
  centerUrl : String
  siteInstanceId : InstanceId
  state : CenterBindingState
  bindingCodeHash : Option Digest
  siteCertFingerprint : Option CertificateFingerprint
  boundAt : Option Instant
  expiresAt : Option Instant
  createdAt : Instant
  deriving DecidableEq, Repr

namespace CenterBinding

def newPending (sha : Bytes → Digest) (id : CenterBindingId)
    (centerUrl : String) (siteInstanceId : InstanceId) (code : BindingCode)
    (expiresAt createdAt : Instant) : CenterBinding :=
  { id, centerUrl, siteInstanceId, state := .pending
    bindingCodeHash := some (code.hash sha), siteCertFingerprint := none
    boundAt := none, expiresAt := some expiresAt, createdAt }

/-- Which columns a row of a state has. -/
def shapeMatches (binding : CenterBinding) : Bool :=
  match binding.state with
  | .pending => binding.bindingCodeHash.isSome ∧ binding.expiresAt.isSome ∧
      binding.boundAt.isNone
  | .bound => binding.bindingCodeHash.isNone ∧ binding.expiresAt.isNone ∧
      binding.boundAt.isSome
  | .revoked => binding.bindingCodeHash.isNone ∧ binding.expiresAt.isNone

inductive Error where
  | invalidStateShape
  | boundBeforeCreation
  | expiryBeforeCreation
  deriving DecidableEq, Repr

/-- Rehydration of a stored row. -/
def tryFromParts (row : CenterBinding) : Except Error CenterBinding :=
  if !row.shapeMatches then .error .invalidStateShape
  else if row.boundAt.any fun boundAt => boundAt < row.createdAt then
    .error .boundBeforeCreation
  else if row.expiresAt.any fun expiresAt => expiresAt < row.createdAt then
    .error .expiryBeforeCreation
  else .ok row

/-- The site is bound and the code consumed. -/
def bind (binding : CenterBinding)
    (siteCertFingerprint : Option CertificateFingerprint) (now : Instant) :
    Except InvalidCenterBindingTransition CenterBinding := do
  let next ← centerBindingTransition binding.state .codeAccepted
  return { binding with
    state := next, bindingCodeHash := none, expiresAt := none
    siteCertFingerprint, boundAt := some now }

def revoke (binding : CenterBinding) :
    Except InvalidCenterBindingTransition CenterBinding := do
  let next ← centerBindingTransition binding.state .revoked
  return { binding with
    state := next, bindingCodeHash := none, expiresAt := none }

def isExpired (binding : CenterBinding) (now : Instant) : Bool :=
  binding.expiresAt.any fun expiresAt => expiresAt < now

inductive CodeVerificationError where
  | notPending
  | expired
  | codeMismatch
  deriving DecidableEq, Repr

def verifyCode (sha : Bytes → Digest) (binding : CenterBinding)
    (presented : BindingCode) (now : Instant) :
    Except CodeVerificationError Unit :=
  if binding.state ≠ .pending then .error .notPending
  else if binding.isExpired now then .error .expired
  else match binding.bindingCodeHash with
    | none => .error .codeMismatch
    | some stored =>
      if presented.hash sha = stored then .ok () else .error .codeMismatch

theorem verifyCode_ok {sha : Bytes → Digest} {binding : CenterBinding}
    {presented : BindingCode} {now : Instant}
    (h : binding.verifyCode sha presented now = .ok ()) :
    binding.state = .pending ∧
      binding.bindingCodeHash = some (presented.hash sha) := by
  unfold verifyCode at h
  split at h
  · cases h
  · next hstate =>
      refine ⟨Decidable.of_not_not hstate, ?_⟩
      split at h
      · cases h
      · split at h
        · cases h
        · next stored hstored =>
            split at h
            · next heq => rw [hstored, heq]
            · cases h

/-- What is read back is the row. -/
theorem tryFromParts_ok {row binding : CenterBinding}
    (h : row.tryFromParts = .ok binding) : binding = row := by
  unfold tryFromParts at h
  split at h
  · cases h
  · split at h
    · cases h
    · split at h
      · cases h
      · cases h
        rfl

/-- A bound row is read back if its times are in order. -/
theorem tryFromParts_bound {row : CenterBinding} (hbound : row.state = .bound)
    (hshape : row.shapeMatches = true) :
    row.tryFromParts = .ok row ↔
      ∀ boundAt, row.boundAt = some boundAt → row.createdAt ≤ boundAt := by
  have hexpires : row.expiresAt = none := by
    simp only [shapeMatches, hbound, decide_eq_true_eq, Option.isNone_iff_eq_none]
      at hshape
    exact hshape.2.1
  unfold tryFromParts
  rw [hshape, hexpires]
  simp only [Bool.not_true, Bool.false_eq_true, if_false, Option.any_none]
  cases hat : row.boundAt with
  | none => simp
  | some boundAt =>
      simp only [Option.any_some, decide_eq_true_eq, Option.some.injEq]
      constructor
      · intro h boundAt' heq
        subst heq
        split at h
        · cases h
        · next hlt => exact Int.not_lt.mp hlt
      · intro h
        rw [if_neg (Int.not_lt.mpr (h boundAt rfl))]

end CenterBinding

end Rutilus.Domain
