import Rutilus.Domain.Binding
import Rutilus.Lib.Table
import Rutilus.Store.Operations

/-!
# The binding store

The `center_bindings` table. Each call is one transaction under the write gate.
A registration is refused while the site has a pending or bound row. A bind
reads the row back, verifies the code, refuses a fingerprint that another bound
row carries and updates the row if it is still pending. A revocation is a
conditional update and may be repeated. No call deletes a row.

The lookup by fingerprint takes the latest registration among all rows that
carry it, bound or not; it leaves open which of several with one time.
-/

namespace Rutilus.Store

open Rutilus.Domain Rutilus.Lib

abbrev BindingTable : Type :=
  Table CenterBindingId CenterBinding CenterBinding.id

inductive CenterBindingRepositoryError where
  | fault (source : Fault)
  | notFound (bindingId : CenterBindingId)
  | alreadyActiveBinding (siteInstanceId : InstanceId)
  | notPending (bindingId : CenterBindingId)
  | codeExpired
  | codeMismatch
  | fingerprintAlreadyBound (fingerprint : CertificateFingerprint)
  | corrupt (bindingId : CenterBindingId) (source : CenterBinding.Error)
  deriving DecidableEq, Repr

/-- Pending or bound: the rows the partial unique index counts. -/
def isActive (row : CenterBinding) : Bool :=
  row.state = .pending ∨ row.state = .bound

/-- `instances` are the rows the foreign key may name. -/
def createBinding (instances : InstanceId → Bool) (t : BindingTable)
    (binding : CenterBinding) :
    Except CenterBindingRepositoryError BindingTable :=
  if t.rows.any fun row =>
      row.siteInstanceId = binding.siteInstanceId ∧ isActive row then
    .error (.alreadyActiveBinding binding.siteInstanceId)
  else if t.has binding.id then .error (.fault .database)
  else if !binding.shapeMatches then .error (.fault .database)
  else if !instances binding.siteInstanceId then .error (.fault .database)
  else .ok (t.insertNew binding)

def mapStoredBinding (row : CenterBinding) :
    Except CenterBindingRepositoryError CenterBinding :=
  row.tryFromParts.mapError (.corrupt row.id)

def mapCodeVerificationError (bindingId : CenterBindingId) :
    CenterBinding.CodeVerificationError → CenterBindingRepositoryError
  | .notPending => .notPending bindingId
  | .expired => .codeExpired
  | .codeMismatch => .codeMismatch

/-- Another bound row with the fingerprint. -/
def competes (bindingId : CenterBindingId)
    (fingerprint : CertificateFingerprint) (row : CenterBinding) : Bool :=
  row.siteCertFingerprint = some fingerprint ∧ row.state = .bound ∧
    row.id ≠ bindingId

/-- The row a bind leaves. -/
def boundRow (row : CenterBinding)
    (siteCertFingerprint : Option CertificateFingerprint) (now : Instant) :
    CenterBinding :=
  { row with
    state := .bound, bindingCodeHash := none, expiresAt := none
    siteCertFingerprint, boundAt := some now }

/-- The row a revocation leaves. -/
def revokedRow (row : CenterBinding) : CenterBinding :=
  { row with state := .revoked, bindingCodeHash := none, expiresAt := none }

def bindWithCode (sha : Bytes → Digest) (t : BindingTable)
    (bindingId : CenterBindingId) (code : BindingCode)
    (siteCertFingerprint : Option CertificateFingerprint) (now : Instant) :
    Except CenterBindingRepositoryError BindingTable :=
  match t.find bindingId with
  | none => .error (.notFound bindingId)
  | some row => match mapStoredBinding row with
    | .error e => .error e
    | .ok binding => match binding.verifyCode sha code now with
      | .error e => .error (mapCodeVerificationError bindingId e)
      | .ok () => match siteCertFingerprint.filter fun fingerprint =>
          t.rows.any (competes bindingId fingerprint) with
        | some fingerprint => .error (.fingerprintAlreadyBound fingerprint)
        | none =>
          if row.state = .pending then
            .ok (t.replace (boundRow row siteCertFingerprint now))
          else .error (.notPending bindingId)

inductive RevokeOutcome where
  | revoked
  | alreadyRevoked
  deriving DecidableEq, Repr

def revokeBinding (t : BindingTable) (bindingId : CenterBindingId) :
    Except CenterBindingRepositoryError (RevokeOutcome × BindingTable) :=
  match t.find bindingId with
  | none => .error (.notFound bindingId)
  | some row =>
    if row.state ≠ .revoked then .ok (.revoked, t.replace (revokedRow row))
    else .ok (.alreadyRevoked, t)

/-- The rows with a fingerprint that were registered last. -/
def latestWith (t : BindingTable) (fingerprint : CertificateFingerprint) :
    List CenterBinding :=
  let rows := t.rows.filter fun row =>
    row.siteCertFingerprint = some fingerprint
  rows.filter fun row => rows.all fun other => other.createdAt ≤ row.createdAt

/-- `choice` is which of the latest rows the query answers with. -/
def findBindingBySiteFingerprint (t : BindingTable) (choice : Nat)
    (fingerprint : CertificateFingerprint) :
    Except CenterBindingRepositoryError (Option CenterBinding) :=
  let rows := latestWith t fingerprint
  match rows[choice % rows.length]? with
  | none => .ok none
  | some row => (mapStoredBinding row).map some

/-! ## What each call does -/

variable {sha : Bytes → Digest} {instances : InstanceId → Bool}
  {t t' : BindingTable} {bindingId : CenterBindingId} {now : Instant}
  {fingerprint : Option CertificateFingerprint}

theorem createBinding_ok {binding : CenterBinding}
    (h : createBinding instances t binding = .ok t') :
    (∀ row ∈ t.rows, row.siteInstanceId = binding.siteInstanceId →
        isActive row = false) ∧
      t.find binding.id = none ∧ binding.shapeMatches = true ∧
      t'.rows = t.rows ++ [binding] := by
  unfold createBinding at h
  split at h
  · cases h
  · next hactive =>
      split at h
      · cases h
      · next hhas =>
          split at h
          · cases h
          · next hshape =>
              split at h
              · cases h
              · cases h
                have hnone : t.find binding.id = none := by
                  rw [Table.has, Bool.not_eq_true] at hhas
                  exact Option.isSome_eq_false_iff.mp hhas |> Option.isNone_iff_eq_none.mp
                refine ⟨fun row hrow hsite => ?_, hnone, by simpa using hshape,
                  Table.rows_insertNew hnone⟩
                rw [List.any_eq_true] at hactive
                cases ha : isActive row with
                | false => rfl
                | true => exact absurd ⟨row, hrow, by simp [hsite, ha]⟩ hactive

theorem mapStoredBinding_ok {row binding : CenterBinding}
    (h : mapStoredBinding row = .ok binding) : binding = row := by
  unfold mapStoredBinding at h
  cases hparts : row.tryFromParts with
  | error e =>
      rw [hparts] at h
      cases h
  | ok b =>
      rw [hparts] at h
      cases h
      exact CenterBinding.tryFromParts_ok hparts

/-- A landed bind: the row was pending under the presented code, no other bound
row has the fingerprint, and the row is replaced by what the domain makes of
it. -/
theorem bindWithCode_ok {code : BindingCode}
    (h : bindWithCode sha t bindingId code fingerprint now = .ok t') :
    ∃ row, t.find bindingId = some row ∧ row.state = .pending ∧
      row.bindingCodeHash = some (code.hash sha) ∧
      (∀ F, fingerprint = some F → ∀ other ∈ t.rows, other.id ≠ bindingId →
        other.siteCertFingerprint = some F → other.state ≠ .bound) ∧
      row.bind fingerprint now = .ok (boundRow row fingerprint now) ∧
      t' = t.replace (boundRow row fingerprint now) := by
  unfold bindWithCode at h
  split at h
  · cases h
  · next row hrow =>
      split at h
      · cases h
      · next binding hmap =>
          obtain rfl := mapStoredBinding_ok hmap
          split at h
          · cases h
          · next hverify =>
              obtain ⟨hstate, hhash⟩ := CenterBinding.verifyCode_ok hverify
              split at h
              · cases h
              · next hfree =>
                  rw [if_pos hstate] at h
                  cases h
                  refine ⟨binding, hrow, hstate, hhash, ?_, ?_, rfl⟩
                  · rintro F rfl other hother hid hF hbound
                    have hcompetes : t.rows.any (competes bindingId F) := by
                      rw [List.any_eq_true]
                      exact ⟨other, hother, by simp [competes, hF, hbound, hid]⟩
                    simp [Option.filter, hcompetes] at hfree
                  · simp [CenterBinding.bind, hstate, centerBindingTransition,
                      boundRow, bind, Except.bind, pure, Except.pure]

/-- A landed revocation makes the row what the domain makes of it, or it was
revoked before. -/
theorem revokeBinding_ok {outcome : RevokeOutcome}
    (h : revokeBinding t bindingId = .ok (outcome, t')) :
    ∃ row, t.find bindingId = some row ∧
      (row.state ≠ .revoked ∧ row.revoke = .ok (revokedRow row) ∧
          t' = t.replace (revokedRow row) ∨
        row.state = .revoked ∧ t' = t) := by
  unfold revokeBinding at h
  split at h
  · cases h
  · next row hrow =>
      split at h
      · next hstate =>
          cases h
          refine ⟨row, hrow, .inl ⟨hstate, ?_, rfl⟩⟩
          cases hs : row.state with
          | revoked => exact absurd hs hstate
          | pending => simp [CenterBinding.revoke, hs, centerBindingTransition,
              revokedRow, bind, Except.bind, pure, Except.pure]
          | bound => simp [CenterBinding.revoke, hs, centerBindingTransition,
              revokedRow, bind, Except.bind, pure, Except.pure]
      · next hstate =>
          cases h
          exact ⟨row, hrow, .inr ⟨Decidable.of_not_not hstate, rfl⟩⟩

end Rutilus.Store
