import Rutilus.Lib.Rely
import Rutilus.Report.Stores

/-!
# What a distribution queues

Every frame a distribution queues is the manifest of its artifact or a chunk of
its file, the bytes from `index * chunkBytes` on. The reader refuses a file
whose length is not the declared one before it hands anything over, so there is
a frame only if the two agree. Nothing here depends on when a distribution is
cut, and the frames of one that fails later count like any others.
-/

namespace Rutilus.Proofs.ArtifactFrames

open Rutilus.Domain Rutilus.Lib Rutilus.Store Rutilus.Report
open Rutilus.Report.SiteReports Rutilus.Report.Transfer

variable {sha : Bytes → Digest} {T : Setup}

/-- The bytes a chunk of the file has. -/
def chunkAt (T : Setup) (index : Nat) : Bytes :=
  (T.file.drop (index * T.config.artifactChunkBytes)).take
    T.config.artifactChunkBytes

/-- The frames of an artifact. -/
inductive FrameOf (T : Setup) : EnvelopeMessage → Prop where
  | manifest (hsize : T.file.length = T.artifact.sizeBytes) :
      FrameOf T (manifestOf T.artifact)
  | chunk (hsize : T.file.length = T.artifact.sizeBytes) (index : Nat)
      (hin : index * T.config.artifactChunkBytes < T.file.length) :
      FrameOf T (.artifactChunk ⟨some T.artifact.id, index, chunkAt T index⟩)

theorem FrameOf.size {message : EnvelopeMessage} (h : FrameOf T message) :
    T.file.length = T.artifact.sizeBytes := by
  cases h with
  | manifest hsize => exact hsize
  | chunk hsize => exact hsize

/-! ## The reader -/

/-- The chunk with an index starts at that many chunk lengths. -/
theorem readChunks_get {c fuel i : Nat} {rest chunk : Bytes}
    (h : (readChunks c fuel rest)[i]? = some chunk) :
    chunk = (rest.drop (i * c)).take c ∧ i * c < rest.length := by
  induction fuel generalizing rest i with
  | zero => cases h
  | succ fuel ih =>
      simp only [readChunks] at h
      split at h
      · cases h
      · next hempty =>
          have hlen : 0 < (rest.take c).length := by
            rw [List.isEmpty_iff] at hempty
            exact List.length_pos_iff.mpr hempty
          rw [List.length_take] at hlen
          cases i with
          | zero =>
              split at h
              · cases h
                exact ⟨by rw [Nat.zero_mul, List.drop_zero], by omega⟩
              · cases h
                exact ⟨by rw [Nat.zero_mul, List.drop_zero], by omega⟩
          | succ i =>
              split at h
              · cases h
              · obtain ⟨hchunk, hin⟩ := ih h
                rw [List.drop_drop] at hchunk
                rw [List.length_drop] at hin
                have hmul : (i + 1) * c = c + i * c := by
                  rw [Nat.succ_mul, Nat.add_comm]
                rw [hmul]
                exact ⟨hchunk, by omega⟩

/-- What the reading task hands over is cut from the file, and only from one
of the declared length. -/
theorem readArtifact_get {file : Bytes} {declared c i : Nat} {digest : Digest}
    {failure : Option (Nat × IoErrorKind)} {chunk : Bytes}
    (h : (readArtifact sha (some file) declared digest c failure).1[i]? =
      some chunk) :
    file.length = declared ∧ chunk = (file.drop (i * c)).take c ∧
      i * c < file.length := by
  unfold readArtifact at h
  split at h
  · cases h
  · cases h
  · next bytes failure hfile _ =>
      cases hfile
      split at h
      · cases h
      · next hlen =>
          refine ⟨Decidable.of_not_not hlen, ?_⟩
          dsimp only at h
          split at h
          · next read kind =>
              rw [List.getElem?_take] at h
              split at h
              · exact readChunks_get h
              · cases h
          · split at h
            · exact readChunks_get h
            · split at h
              · exact readChunks_get h
              · exact readChunks_get h

/-! ## The round -/

/-- The site's calls, as the round sees them. -/
def siteSem (sha : Bytes → Digest) (T : Setup) : Sem reportSig SiteStore :=
  fun q w r w' => ∃ o, performSite sha T.config.instanceId o q w = (r, w')

/-- Whatever the others do, the file stays. -/
def Kept (T : Setup) (_ w : SiteStore) : Prop :=
  w.files T.artifact.id = some T.file

/-- Only frames of the artifact are queued. -/
def Queues (T : Setup) (q : ReportReq) (_ _ : SiteStore) : Prop :=
  ∀ instanceId message now, q = .outbox (.enqueue instanceId message now) →
    FrameOf T message

abbrev Round (sha : Bytes → Digest) (T : Setup) {α : Type}
    (p : Prog reportSig α) (Q : α → SiteStore → Prop) (w : SiteStore) : Prop :=
  Safe (siteSem sha T) (Kept T) (Queues T) p Q w

variable {w : SiteStore}

theorem acknowledgeAll_round {now : Instant} (entryIds : List OutboxEntryId) :
    Round sha T (acknowledgeAll now entryIds) (fun _ _ => True) w := by
  induction entryIds generalizing w with
  | nil => exact trivial
  | cons entryId entryIds ih =>
      intro w₁ _ r w₂ _
      refine ⟨fun _ _ _ h => (by cases h), ?_⟩
      cases r with
      | error e => exact trivial
      | ok u => exact ih

theorem retirePasses_round {artifactId : ArtifactId} {now : Instant}
    (passes : Nat) :
    Round sha T (retirePasses T.config artifactId now passes)
      (fun _ _ => True) w := by
  induction passes generalizing w with
  | zero => exact trivial
  | succ passes ih =>
      intro w₁ _ r w₂ _
      refine ⟨fun _ _ _ h => (by cases h), ?_⟩
      cases r with
      | error e => exact trivial
      | ok pending =>
          refine Safe.bindE.mpr ((acknowledgeAll_round _).imp ?_)
          intro r w₃ _
          cases r with
          | error e => exact trivial
          | ok u =>
              show Round sha T (if _ then _ else _) _ w₃
              split
              · exact trivial
              · exact ih

theorem enqueue_round {message : EnvelopeMessage} (hframe : FrameOf T message) :
    Round sha T (SiteReports.enqueueOutboxEntry T.config message).run
      (fun _ _ => True) w := by
  intro w₁ _ createdAt w₂ _
  refine ⟨fun _ _ _ h => (by cases h), ?_⟩
  intro w₃ _ r w₄ _
  refine ⟨fun _ _ _ h => ?_, ?_⟩
  · cases h
    exact hframe
  · cases r <;> exact trivial

/-- Chunks that stand where their index says are all frames. -/
theorem enqueueChunks_round {ledger : List OutboxEntryId} {start : Nat}
    {chunks : List Bytes}
    (hsize : T.file.length = T.artifact.sizeBytes)
    (hchunks : ∀ i chunk, chunks[i]? = some chunk →
      chunk = chunkAt T (start + i) ∧
        (start + i) * T.config.artifactChunkBytes < T.file.length) :
    Round sha T
      (enqueueChunks T.config T.artifact.id ledger start chunks)
      (fun _ _ => True) w := by
  induction chunks generalizing ledger start w with
  | nil => exact trivial
  | cons data chunks ih =>
      show Round sha T (if _ then _ else _) _ w
      split
      · exact trivial
      · obtain ⟨hdata, hin⟩ := hchunks 0 data rfl
        rw [Nat.add_zero] at hdata hin
        refine Safe.bind.mpr ((enqueue_round ?_).imp ?_)
        · rw [hdata]
          exact .chunk hsize start hin
        · intro r w₁ _
          cases r with
          | error e => exact trivial
          | ok entry =>
              refine ih fun i chunk hi => ?_
              have h := hchunks (i + 1) chunk hi
              rwa [show start + (i + 1) = start + 1 + i by omega] at h

theorem enqueueSet_round {chunks : List Bytes}
    {result : Except ArtifactReadFailure Unit}
    (hchunks : ∀ i chunk, chunks[i]? = some chunk →
      T.file.length = T.artifact.sizeBytes ∧ chunk = chunkAt T i ∧
        i * T.config.artifactChunkBytes < T.file.length) :
    Round sha T (enqueueSet T.config T.artifact chunks result)
      (fun _ _ => True) w := by
  cases chunks with
  | nil => exact trivial
  | cons data rest =>
      obtain ⟨hsize, -, -⟩ := hchunks 0 data rfl
      refine Safe.bind.mpr ((enqueue_round (.manifest hsize)).imp ?_)
      intro r w₁ _
      cases r with
      | error e => exact trivial
      | ok manifest =>
          refine Safe.bind.mpr ((enqueueChunks_round hsize ?_).imp ?_)
          · intro i chunk hi
            obtain ⟨-, hchunk, hin⟩ := hchunks i chunk hi
            rw [Nat.zero_add]
            exact ⟨hchunk, hin⟩
          · intro _ _ _
            exact trivial

/-- The contract of a distribution. -/
theorem distributeArtifact_round (passes : Nat) :
    Round sha T (distributeArtifact T.config passes T.artifact)
      (fun _ _ => True) w := by
  intro w₁ _ now w₂ _
  refine ⟨fun _ _ _ h => (by cases h), ?_⟩
  refine Safe.bindE.mpr ((retirePasses_round passes).imp ?_)
  intro r w₃ _
  cases r with
  | error e => exact trivial
  | ok u =>
      intro w₄ hfile read w₅ hread
      refine ⟨fun _ _ _ h => (by cases h), ?_⟩
      obtain ⟨o, hread⟩ := hread
      obtain ⟨chunks, result⟩ := read
      have hchunks : ∀ i chunk, chunks[i]? = some chunk →
          T.file.length = T.artifact.sizeBytes ∧ chunk = chunkAt T i ∧
            i * T.config.artifactChunkBytes < T.file.length := by
        intro i chunk hi
        have hfst : (readArtifact sha (w₄.files T.artifact.id)
            T.artifact.sizeBytes T.artifact.sha256 T.config.artifactChunkBytes
            o.readFailure).1 = chunks :=
          congrArg (fun p => p.1.1) hread
        have hfile : w₄.files T.artifact.id = some T.file := hfile
        rw [← hfst, hfile] at hi
        exact readArtifact_get hi
      refine Safe.bindE.mpr (Safe.liftE.mpr ((enqueueSet_round hchunks).imp ?_))
      intro r w₆ _
      obtain ⟨ledger, outcome⟩ := r
      cases outcome with
      | ok u => exact trivial
      | error e =>
          cases ledger with
          | nil => exact trivial
          | cons entryId ledger =>
              intro w₇ _ now w₈ _
              refine ⟨fun _ _ _ h => (by cases h), ?_⟩
              refine Safe.bindE.mpr ((acknowledgeAll_round _).imp ?_)
              intro r w₉ _
              cases r <;> exact trivial

end Rutilus.Proofs.ArtifactFrames
