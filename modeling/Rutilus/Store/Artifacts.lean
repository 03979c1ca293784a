import Mathlib.Data.List.Sort
import Rutilus.Domain.Artifact
import Rutilus.Lib.Table
import Rutilus.Store.Operations

/-!
# The artifact store

The `artifacts` table. A declaration keeps a stored row as it is, an update
moves the received count and the phase together and refuses to go back, past
the declared size or out of a final phase, and no call deletes. At the center
the row also names the site that declared it.

An update takes its time from the caller's clock, so a row whose update time
precedes its creation time can be stored; reading it back fails.
-/

namespace Rutilus.Store

open Rutilus.Domain Rutilus.Lib

structure ArtifactRow where
  id : ArtifactId
  name : String
  sizeBytes : Nat
  sha256 : Digest
  state : ArtifactState
  uploadedBytes : Nat
  createdAt : Instant
  updatedAt : Instant
  siteId : Option InstanceId
  deriving DecidableEq, Repr

abbrev ArtifactTable : Type := Table ArtifactId ArtifactRow ArtifactRow.id

inductive ArtifactRepositoryError where
  | fault (source : Fault)
  | notFound (artifactId : ArtifactId)
  | terminalConflict (artifactId : ArtifactId) (state : ArtifactState)
  | progressRegression (artifactId : ArtifactId) (persisted requested : Nat)
  | progressExceedsSize (artifactId : ArtifactId) (uploaded size : Nat)
  | incompleteUpload (artifactId : ArtifactId) (uploaded size : Nat)
  | integerOutOfRange (value : Nat)
  | corrupt (artifactId : ArtifactId) (source : ArtifactRestoreError)
  deriving DecidableEq, Repr

/-- The largest value an `INTEGER` column holds. -/
def maxInteger : Nat := 9223372036854775807

def mapStoredArtifact (row : ArtifactRow) :
    Except ArtifactRepositoryError Artifact :=
  (Artifact.tryFromParts row.id row.name row.sizeBytes row.sha256 row.state
    row.uploadedBytes row.createdAt row.updatedAt).mapError (.corrupt row.id)

def artifactRowOf (artifact : Artifact) (site : Option InstanceId) :
    ArtifactRow :=
  { id := artifact.id, name := artifact.name, sizeBytes := artifact.sizeBytes
    sha256 := artifact.sha256, state := artifact.state
    uploadedBytes := artifact.uploadedBytes, createdAt := artifact.createdAt
    updatedAt := artifact.updatedAt, siteId := site }

/-- `create_artifact` with no site, `declare_center_artifact` with one. -/
def declareArtifact (t : ArtifactTable) (artifact : Artifact)
    (site : Option InstanceId) :
    Except ArtifactRepositoryError (Unit × ArtifactTable) :=
  if t.has artifact.id then .ok ((), t)
  else if maxInteger < artifact.sizeBytes then
    .error (.integerOutOfRange artifact.sizeBytes)
  else if maxInteger < artifact.uploadedBytes then
    .error (.integerOutOfRange artifact.uploadedBytes)
  else .ok ((), t.insertNew (artifactRowOf artifact site))

def findArtifact (t : ArtifactTable) (artifactId : ArtifactId) :
    Except ArtifactRepositoryError (Option Artifact) :=
  match t.find artifactId with
  | none => .ok none
  | some row => (mapStoredArtifact row).map some

def findArtifactSite (t : ArtifactTable) (artifactId : ArtifactId) :
    Option InstanceId :=
  (t.find artifactId).bind ArtifactRow.siteId

/-- The listing order: by creation time, then by identity. -/
def declaredBefore (a b : ArtifactRow) : Prop :=
  a.createdAt < b.createdAt ∨ a.createdAt = b.createdAt ∧ a.id.uuid ≤ b.id.uuid

instance : DecidableRel declaredBefore := fun _ _ =>
  inferInstanceAs (Decidable (_ ∨ _))

def listArtifactsByState (t : ArtifactTable) (state : ArtifactState) :
    Except ArtifactRepositoryError (List Artifact) :=
  ((t.rows.filter fun row => row.state = state).insertionSort
    declaredBefore).mapM mapStoredArtifact

def updateArtifact (t : ArtifactTable) (artifactId : ArtifactId)
    (uploadedBytes : Nat) (state : ArtifactState) (occurredAt : Instant) :
    Except ArtifactRepositoryError (Unit × ArtifactTable) :=
  match t.find artifactId with
  | none => .error (.notFound artifactId)
  | some row =>
    if row.state.isTerminal then
      .error (.terminalConflict artifactId row.state)
    else if uploadedBytes < row.uploadedBytes then
      .error (.progressRegression artifactId row.uploadedBytes uploadedBytes)
    else if row.sizeBytes < uploadedBytes then
      .error (.progressExceedsSize artifactId uploadedBytes row.sizeBytes)
    else if state = .ready ∧ uploadedBytes ≠ row.sizeBytes then
      .error (.incompleteUpload artifactId uploadedBytes row.sizeBytes)
    else if maxInteger < uploadedBytes then
      .error (.integerOutOfRange uploadedBytes)
    else .ok ((), t.replace { row with
      uploadedBytes, state, updatedAt := occurredAt })

/-! ## What each call does -/

section Rows

variable {t t' : ArtifactTable} {artifactId : ArtifactId}

/-- What is read back is the stored row. -/
theorem mapStoredArtifact_ok {row : ArtifactRow} {artifact : Artifact}
    (h : mapStoredArtifact row = .ok artifact) :
    row = artifactRowOf artifact row.siteId := by
  unfold mapStoredArtifact Artifact.tryFromParts at h
  split at h
  · cases h
  · split at h
    · cases h
    · split at h
      · cases h
      · cases h
        rfl

theorem findArtifact_ok {artifact : Artifact}
    (h : findArtifact t artifactId = .ok (some artifact)) :
    ∃ row, t.find artifactId = some row ∧
      row = artifactRowOf artifact row.siteId := by
  unfold findArtifact at h
  split at h
  · cases h
  · next row hrow =>
      cases hmap : mapStoredArtifact row with
      | error e =>
          rw [hmap] at h
          cases h
      | ok a =>
          rw [hmap] at h
          cases h
          exact ⟨row, hrow, mapStoredArtifact_ok hmap⟩

/-- A declaration adds the declared row or changes nothing. -/
theorem declareArtifact_ok {artifact : Artifact} {site : Option InstanceId}
    (h : declareArtifact t artifact site = .ok ((), t')) :
    t' = t.insertNew (artifactRowOf artifact site) := by
  unfold declareArtifact at h
  split at h
  · next hhas =>
      cases h
      obtain ⟨row, hrow⟩ := Option.isSome_iff_exists.mp hhas
      exact (Table.insertNew_of_some hrow).symm
  · split at h
    · cases h
    · split at h
      · cases h
      · cases h
        rfl

/-- A landed update: the row was still open, and its count does not go back
and stays within the declared size. -/
theorem updateArtifact_ok {uploadedBytes : Nat} {state : ArtifactState}
    {now : Instant}
    (h : updateArtifact t artifactId uploadedBytes state now = .ok ((), t')) :
    ∃ row, t.find artifactId = some row ∧ row.state = .uploading ∧
      row.uploadedBytes ≤ uploadedBytes ∧ uploadedBytes ≤ row.sizeBytes ∧
      (state = .ready → uploadedBytes = row.sizeBytes) ∧
      t' = t.replace { row with uploadedBytes, state, updatedAt := now } := by
  unfold updateArtifact at h
  split at h
  · cases h
  · next row hrow =>
      split at h
      · cases h
      · next hopen =>
          split at h
          · cases h
          · next hback =>
              split at h
              · cases h
              · next hsize =>
                  split at h
                  · cases h
                  · next hready =>
                      split at h
                      · cases h
                      · cases h
                        refine ⟨row, hrow, ?_, by omega, by omega, ?_, rfl⟩
                        · cases hs : row.state with
                          | uploading => rfl
                          | ready => simp [hs, ArtifactState.isTerminal] at hopen
                          | failed => simp [hs, ArtifactState.isTerminal] at hopen
                        · intro hstate
                          exact Decidable.of_not_not fun hne =>
                            hready ⟨hstate, hne⟩

end Rows

end Rutilus.Store
