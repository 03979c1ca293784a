import Rutilus.Proofs.ArtifactFrames

/-!
# Where the center puts the bytes of an artifact

The center takes every chunk to have its own chunk size `C`, the site cuts at a
size `c` of its own. Chunk `i` is written at `i * C`, and only where the stored
progress stands at exactly that point. If `c = C` this is the right place. If
`c` is another size, the progress after the first chunk stands at `c`, and a
later chunk is written only if `c` is a multiple `k * C` with `2 ≤ k` and the
file has a chunk with the index `k`: then those bytes land at `c` instead of
`k * c`. That is `Misfit`; everything else is placed right or passed over.

Without a misfit the file agrees with the site's up to the stored progress, at
every point of every run. The argument is a rely and guarantee one: every
consumer only ever writes bytes of the site's file where they stand there, which
keeps every agreement, whichever consumer relied on it.
-/

namespace Rutilus.Proofs.ArtifactPlace

open Rutilus.Domain Rutilus.Lib Rutilus.Store Rutilus.Report
open Rutilus.Report.CenterProjection Rutilus.Report.Transfer
open Rutilus.Proofs.ArtifactFrames

variable {sha : Bytes → Digest} {T : Setup}

/-- The site's chunk size is a proper multiple of the center's, and the file is
long enough to have the chunk that then lands in the wrong place. -/
def Misfit (chunkBytes sizeBytes : Nat) : Prop :=
  ∃ k, 2 ≤ k ∧ chunkBytes = k * centerArtifactChunkSize ∧
    k * chunkBytes < sizeBytes ∧ sizeBytes ≤ artifactMaxSizeBytes

/-- The center's copy; no file counts as an empty one. -/
def fileOf (T : Setup) (w : CenterStore) : Bytes :=
  (w.files T.artifact.id).getD []

/-- The points the progress can stand at: the start, the end of the first
chunk, and at the center's own chunk size the end of any. -/
def Progress (T : Setup) (uploaded : Nat) : Prop :=
  uploaded = 0 ∨ ∃ i, uploaded = min ((i + 1) * T.config.artifactChunkBytes)
      T.artifact.sizeBytes ∧
    (T.config.artifactChunkBytes = centerArtifactChunkSize ∨ i = 0)

/-- What the row of the artifact says is true of the file. -/
structure RowInv (sha : Bytes → Digest) (T : Setup) (file : Bytes)
    (row : ArtifactRow) : Prop where
  size : row.sizeBytes = T.artifact.sizeBytes
  cap : T.artifact.sizeBytes ≤ artifactMaxSizeBytes
  digest : row.sha256 = T.artifact.sha256
  progress : Progress T row.uploadedBytes
  bounded : row.uploadedBytes ≤ T.artifact.sizeBytes
  agrees : Agree row.uploadedBytes file T.file
  ready : row.state = .ready →
    file = T.file ∧ sha T.file = T.artifact.sha256

structure CenterInv (sha : Bytes → Digest) (T : Setup) (w : CenterStore) :
    Prop where
  row : ∀ row, w.artifacts.find T.artifact.id = some row →
    RowInv sha T (fileOf T w) row
  short : (fileOf T w).length ≤ T.artifact.sizeBytes

/-- How the center moves: the row stays, its progress does not go back, and no
agreement of the file with the site's is lost. -/
structure Later (T : Setup) (w w' : CenterStore) : Prop where
  rows : ∀ row, w.artifacts.find T.artifact.id = some row →
    ∃ row', w'.artifacts.find T.artifact.id = some row' ∧
      row.uploadedBytes ≤ row'.uploadedBytes
  agrees : ∀ n, Agree n (fileOf T w) T.file → Agree n (fileOf T w') T.file

theorem Later.refl (w : CenterStore) : Later T w w :=
  ⟨fun row h => ⟨row, h, Nat.le_refl _⟩, fun _ h => h⟩

theorem Later.trans {w₁ w₂ w₃ : CenterStore} (h₁ : Later T w₁ w₂)
    (h₂ : Later T w₂ w₃) : Later T w₁ w₃ where
  rows := by
    intro row hrow
    obtain ⟨row₂, hrow₂, hle₂⟩ := h₁.rows row hrow
    obtain ⟨row₃, hrow₃, hle₃⟩ := h₂.rows row₂ hrow₂
    exact ⟨row₃, hrow₃, Nat.le_trans hle₂ hle₃⟩
  agrees := fun n h => h₂.agrees n (h₁.agrees n h)

/-! ## The place of a chunk -/

/-- A chunk that continues the progress is placed where it belongs, and the
progress then stands at a chunk's end again. -/
theorem place_right (hfit : ¬ Misfit T.config.artifactChunkBytes
      T.artifact.sizeBytes)
    (hcap : T.artifact.sizeBytes ≤ artifactMaxSizeBytes)
    (hsize : T.file.length = T.artifact.sizeBytes) {i : Nat}
    (hin : i * T.config.artifactChunkBytes < T.file.length)
    (hprogress : Progress T (i * centerArtifactChunkSize))
    (hend : i * centerArtifactChunkSize + (chunkAt T i).length ≤
      T.artifact.sizeBytes) (hpos : 0 < (chunkAt T i).length) :
    i * centerArtifactChunkSize = i * T.config.artifactChunkBytes ∧
      Progress T (i * centerArtifactChunkSize + (chunkAt T i).length) := by
  have hlen : (chunkAt T i).length = min T.config.artifactChunkBytes
      (T.artifact.sizeBytes - i * T.config.artifactChunkBytes) := by
    rw [chunkAt, List.length_take, List.length_drop, hsize]
  have hC : 0 < centerArtifactChunkSize := by decide
  rw [hsize] at hin
  -- the first chunk, and any chunk at the center's size, fit by themselves
  have hfirst : i = 0 → i * centerArtifactChunkSize =
      i * T.config.artifactChunkBytes ∧
        Progress T (i * centerArtifactChunkSize + (chunkAt T i).length) := by
    intro hi
    subst hi
    refine ⟨by omega, .inr ⟨0, ?_, .inr rfl⟩⟩
    rw [hlen]
    omega
  have hsame : T.config.artifactChunkBytes = centerArtifactChunkSize →
      i * centerArtifactChunkSize = i * T.config.artifactChunkBytes ∧
        Progress T (i * centerArtifactChunkSize + (chunkAt T i).length) := by
    intro hc
    refine ⟨by rw [hc], .inr ⟨i, ?_, .inl hc⟩⟩
    rw [hlen, ← hc, Nat.succ_mul]
    omega
  rcases hprogress with hzero | ⟨j, hj, hc | hj0⟩
  · refine hfirst ?_
    rcases Nat.mul_eq_zero.mp hzero with hi | hC0
    · exact hi
    · omega
  · exact hsame hc
  · subst hj0
    rcases Nat.lt_or_ge i 2 with hi | hi
    · rcases Nat.eq_zero_or_pos i with hi0 | hi0
      · exact hfirst hi0
      · have hi1 : i = 1 := by omega
        subst hi1
        exact hsame (by omega)
    · exact absurd ⟨i, hi, by omega, hin, hcap⟩ hfit

/-! ## The contract of a consumer -/

/-- A center and, for one consumer, the offset it has written at. -/
abbrev View : Type := CenterStore × Option Nat

def centerSem (sha : Bytes → Digest) : Sem projectionSig View :=
  fun q v r v' => (∃ o, performCenter sha o q v.1 = (r, v'.1)) ∧
    v'.2 = (writeOffset q).or v.2

/-- What the others do. -/
def Others (sha : Bytes → Digest) (T : Setup) (v v' : View) : Prop :=
  CenterInv sha T v'.1 ∧ Later T v.1 v'.1 ∧ v'.2 = v.2

/-- What a consumer does: it keeps the invariant and moves the center on, it
writes a chunk only where the chunk belongs, and a chunk it has not written
leaves files and rows as they are. -/
structure Own (sha : Bytes → Digest) (T : Setup) (message : EnvelopeMessage)
    (q : ProjectionReq) (v v' : View) : Prop where
  inv : CenterInv sha T v'.1
  later : Later T v.1 v'.1
  place : ∀ offset index, writeOffset q = some offset →
    chunkIndex message = some index →
      offset = index * T.config.artifactChunkBytes
  absorbed : chunkIndex message ≠ none → v'.2 = none →
    v'.1.files = v.1.files ∧ v'.1.artifacts = v.1.artifacts

abbrev Consumer (sha : Bytes → Digest) (T : Setup) (message : EnvelopeMessage)
    {α : Type} (p : Prog projectionSig α) (Q : α → View → Prop) (v : View) :
    Prop :=
  Safe (centerSem sha) (Others sha T) (Own sha T message) p Q v

/-- The calls that may change a file or a row of the artifacts. -/
def touches : ProjectionReq → Bool
  | .declareArtifact .. | .updateArtifact .. | .writeChunkAt .. => true
  | _ => false

variable (sha) in
theorem performCenter_untouched {q : ProjectionReq} (hq : touches q = false)
    (o : CenterOracle) (w : CenterStore) :
    (performCenter sha o q w).2.files = w.files ∧
      (performCenter sha o q w).2.artifacts = w.artifacts := by
  have hprojected : ∀ r, (projected w r).2.files = w.files ∧
      (projected w r).2.artifacts = w.artifacts := by
    intro r
    cases r <;> exact ⟨rfl, rfl⟩
  obtain ⟨fault, landed, eventId⟩ := o
  cases q with
  | declareArtifact artifact site => cases hq
  | updateArtifact artifactId uploadedBytes state now => cases hq
  | writeChunkAt artifactId offset data => cases hq
  | upsertEndpoint projection site now =>
      cases fault <;> first | exact ⟨rfl, rfl⟩ | exact hprojected _
  | deleteEndpoint endpointId site =>
      cases fault <;> first | exact ⟨rfl, rfl⟩ | exact hprojected _
  | upsertResource projection site now =>
      cases fault <;> first | exact ⟨rfl, rfl⟩ | exact hprojected _
  | deleteResource endpointId odataId site =>
      cases fault <;> first | exact ⟨rfl, rfl⟩ | exact hprojected _
  | upsertEvents events site =>
      cases fault with
      | some f => exact ⟨rfl, rfl⟩
      | none =>
          simp only [performCenter]
          split <;> exact ⟨rfl, rfl⟩
  | hashArtifactFile artifactId =>
      cases fault with
      | some f => exact ⟨rfl, rfl⟩
      | none =>
          simp only [performCenter]
          split <;> exact ⟨rfl, rfl⟩
  | _ => cases fault <;> exact ⟨rfl, rfl⟩

section Same

variable {w w' : CenterStore}

theorem fileOf_congr (hfiles : w'.files = w.files) :
    fileOf T w' = fileOf T w := by
  rw [fileOf, hfiles, fileOf]

theorem CenterInv.same (h : CenterInv sha T w) (hfiles : w'.files = w.files)
    (hrows : w'.artifacts = w.artifacts) : CenterInv sha T w' where
  row := by
    intro row hrow
    rw [hrows] at hrow
    rw [fileOf_congr hfiles]
    exact h.row row hrow
  short := by
    rw [fileOf_congr hfiles]
    exact h.short

theorem Later.same (hfiles : w'.files = w.files)
    (hrows : w'.artifacts = w.artifacts) : Later T w w' where
  rows := by
    intro row hrow
    exact ⟨row, by rwa [hrows], Nat.le_refl _⟩
  agrees := by
    intro n h
    rwa [fileOf_congr hfiles]

end Same

variable {message : EnvelopeMessage} {v v₁ v₂ : View}

variable (message) in
/-- A call that touches neither files nor rows is within every contract. -/
theorem own_of_untouched {q : ProjectionReq} {r : q.Resp}
    (hq : touches q = false) (h₁ : Others sha T v v₁)
    (h₂ : centerSem sha q v₁ r v₂) :
    Own sha T message q v₁ v₂ ∧ v₂.1.files = v₁.1.files ∧
      v₂.1.artifacts = v₁.1.artifacts ∧ v₂.2 = v.2 := by
  obtain ⟨⟨o, ho⟩, hplaced⟩ := h₂
  have hsame := performCenter_untouched sha hq o v₁.1
  rw [ho] at hsame
  have hnone : writeOffset q = none := by
    cases q <;> first | rfl | cases hq
  refine ⟨⟨h₁.1.same hsame.1 hsame.2, .same hsame.1 hsame.2, ?_,
    fun _ _ => hsame⟩, hsame.1, hsame.2, ?_⟩
  · intro offset index hoffset
    rw [hnone] at hoffset
    cases hoffset
  · rw [hplaced, hnone, Option.none_or, h₁.2.2]

theorem advanceCursor_own {site : InstanceId} {stream : SyncStream}
    {sequence : Nat} {now : Instant} :
    Consumer sha T message (advanceCursor site stream sequence now)
      (fun _ _ => True) v := by
  intro v₁ h₁ r v₂ h₂
  refine ⟨(own_of_untouched message rfl h₁ h₂).1, ?_⟩
  cases r <;> exact trivial

theorem passesCursor_own {site : InstanceId} {stream : SyncStream}
    {sequence : Nat} :
    Consumer sha T message (passesCursor site stream sequence)
      (fun _ _ => True) v := by
  intro v₁ h₁ r v₂ h₂
  refine ⟨(own_of_untouched message rfl h₁ h₂).1, ?_⟩
  cases r with
  | error e => exact trivial
  | ok cursor =>
      cases cursor with
      | none => exact trivial
      | some cursor =>
          obtain ⟨-, -, value, -⟩ := cursor
          cases value <;> exact trivial

/-! ## Writing a row -/

/-- The row after an update that the file bears out. -/
theorem update_own {uploaded offset : Nat} {state : ArtifactState}
    {now : Instant} (hsize : T.file.length = T.artifact.sizeBytes)
    (hplaced : v.2 = some offset) (hprogress : Progress T uploaded)
    (hagrees : Agree uploaded (fileOf T v.1) T.file)
    (hready : state = .ready → uploaded = T.artifact.sizeBytes ∧
      sha T.file = T.artifact.sha256) :
    Consumer sha T message
      (orThrow (call (.updateArtifact T.artifact.id uploaded state now))
        CenterProjectionError.artifact) (fun _ _ => True) v := by
  intro v₁ h₁ r v₂ h₂
  obtain ⟨hinv, hlater, hkeep⟩ := h₁
  obtain ⟨⟨o, ho⟩, hplaced₂⟩ := h₂
  have hagrees := hlater.agrees uploaded hagrees
  have habsorbed : v₂.2 = none → v₂.1.files = v₁.1.files ∧
      v₂.1.artifacts = v₁.1.artifacts := by
    intro hnone
    rw [hplaced₂, hkeep, hplaced] at hnone
    cases hnone
  have hsame : v₂.1 = v₁.1 → Own sha T message
      (.updateArtifact T.artifact.id uploaded state now) v₁ v₂ := by
    intro heq
    refine ⟨by rw [heq]; exact hinv, by rw [heq]; exact .refl _, ?_,
      fun _ => habsorbed⟩
    intro offset index hoffset
    cases hoffset
  refine ⟨?_, by cases r <;> exact trivial⟩
  simp only [performCenter] at ho
  split at ho
  · exact hsame (congrArg Prod.snd ho).symm
  · split at ho
    · next t hupdate =>
        have hw₂ : { v₁.1 with artifacts := t } = v₂.1 := congrArg Prod.snd ho
        obtain ⟨row, hrow, hopen, hback, hbound, -, rfl⟩ :=
          updateArtifact_ok hupdate
        have hrowInv := hinv.row row hrow
        have hfile : fileOf T v₂.1 = fileOf T v₁.1 := by
          rw [← hw₂]
          rfl
        have hid : row.id = T.artifact.id := Table.key_of_find hrow
        have hfind : v₂.1.artifacts.find T.artifact.id = some { row with
            uploadedBytes := uploaded, state, updatedAt := now } := by
          rw [← hw₂, Table.find_replace, if_pos ⟨hid, by rw [hrow]; rfl⟩]
        refine ⟨⟨?_, by rw [hfile]; exact hinv.short⟩, ⟨?_, ?_⟩, ?_,
          fun _ => habsorbed⟩
        · intro row' hrow'
          rw [hfind] at hrow'
          cases hrow'
          rw [hfile]
          refine ⟨hrowInv.size, hrowInv.cap, hrowInv.digest, hprogress,
            hrowInv.size ▸ hbound, hagrees, ?_⟩
          intro hstate
          obtain ⟨hall, hdigest⟩ := hready hstate
          rw [hall] at hagrees
          exact ⟨hagrees.eq hinv.short hsize, hdigest⟩
        · intro row' hrow'
          rw [hrow] at hrow'
          cases hrow'
          exact ⟨_, hfind, hback⟩
        · intro n h
          rwa [hfile]
        · intro offset index hoffset
          cases hoffset
    · exact hsame (congrArg Prod.snd ho).symm

/-- What a read row says of the artifact and of the file. -/
structure Known (T : Setup) (artifact : Artifact) (w : CenterStore) : Prop where
  size : artifact.sizeBytes = T.artifact.sizeBytes
  cap : T.artifact.sizeBytes ≤ artifactMaxSizeBytes
  digest : artifact.sha256 = T.artifact.sha256
  progress : Progress T artifact.uploadedBytes
  agrees : Agree artifact.uploadedBytes (fileOf T w) T.file

theorem Known.later {artifact : Artifact} {w w' : CenterStore}
    (h : Known T artifact w) (hlater : Later T w w') : Known T artifact w' :=
  ⟨h.size, h.cap, h.digest, h.progress, hlater.agrees _ h.agrees⟩

theorem findArtifact_own :
    Consumer sha T message
      (orThrow (call (.findArtifact T.artifact.id))
        CenterProjectionError.artifact)
      (fun r v' => v'.2 = v.2 ∧ Later T v.1 v'.1 ∧
        ∀ artifact, r = .ok (some artifact) → Known T artifact v'.1) v := by
  intro v₁ h₁ r v₂ h₂
  obtain ⟨hown, hfiles, hrows, hplaced⟩ :=
    own_of_untouched message rfl h₁ h₂
  refine ⟨hown, ?_⟩
  have hlater := h₁.2.1.trans hown.later
  obtain ⟨⟨o, ho⟩, -⟩ := h₂
  simp only [performCenter] at ho
  cases r with
  | error e => exact ⟨hplaced, hlater, fun _ h => (by cases h)⟩
  | ok found =>
      refine ⟨hplaced, hlater, fun artifact h => ?_⟩
      cases h
      split at ho
      · cases congrArg Prod.fst ho
      · obtain ⟨row, hrow, heq⟩ := findArtifact_ok (congrArg Prod.fst ho)
        have hinv := hown.inv.row row (by rw [hrows]; exact hrow)
        rw [heq] at hinv
        exact ⟨hinv.size, hinv.cap, hinv.digest, hinv.progress, hinv.agrees⟩

/-- The digest that decides is the digest of the site's file. -/
theorem finalizeArtifact_own {offset : Nat} {now : Instant}
    (hsize : T.file.length = T.artifact.sizeBytes)
    (hplaced : v.2 = some offset)
    (hprogress : Progress T T.artifact.sizeBytes)
    (hagrees : Agree T.artifact.sizeBytes (fileOf T v.1) T.file) :
    Consumer sha T message
      (finalizeArtifact T.artifact.id T.artifact.sizeBytes now)
      (fun _ _ => True) v := by
  intro v₁ h₁ r v₂ h₂
  obtain ⟨hown, hfiles, hrows, hkeep⟩ :=
    own_of_untouched message rfl h₁ h₂
  refine ⟨hown, ?_⟩
  have hagrees := hown.later.agrees _ (h₁.2.1.agrees _ hagrees)
  have hfile : fileOf T v₂.1 = T.file := hagrees.eq hown.inv.short hsize
  obtain ⟨⟨o, ho⟩, -⟩ := h₂
  simp only [performCenter] at ho
  cases r with
  | error e => exact trivial
  | ok digest =>
      have hdigest : digest = sha T.file := by
        split at ho
        · cases congrArg Prod.fst ho
        · split at ho
          · next file hopen =>
              cases congrArg Prod.fst ho
              rw [← hfile, fileOf, hfiles, hopen]
              rfl
          · cases congrArg Prod.fst ho
      refine Safe.bindE.mpr (findArtifact_own.imp ?_)
      intro r v₃ h₃
      cases r with
      | error e => exact trivial
      | ok found =>
          cases found with
          | none => exact trivial
          | some artifact =>
              have hknown := h₃.2.2 artifact rfl
              refine update_own hsize (h₃.1.trans (hkeep.trans hplaced))
                hprogress (h₃.2.1.agrees _ hagrees) ?_
              intro hstate
              refine ⟨rfl, ?_⟩
              split at hstate
              · next heq => rw [← hdigest, heq, hknown.digest]
              · cases hstate

/-! ## Writing the file -/

section Write

variable {w : CenterStore} {offset : Nat} {data : Bytes}

/-- The center after a file write. -/
abbrev written (T : Setup) (w : CenterStore) (offset : Nat) (data : Bytes) :
    CenterStore :=
  { w with files := writeFile w.files T.artifact.id offset data }

theorem fileOf_written :
    fileOf T (written T w offset data) =
      writeAt 0 (fileOf T w) offset data := by
  simp [fileOf, writeFile]

/-- Bytes of the site's file, written where they stand there, keep everything
the row says. -/
theorem CenterInv.write (h : CenterInv sha T w)
    (hsize : T.file.length = T.artifact.sizeBytes)
    (hdata : ∀ i < data.length, data[i]? = T.file[offset + i]?)
    (hoffset : offset ≤ (fileOf T w).length)
    (hend : offset + data.length ≤ T.artifact.sizeBytes) :
    CenterInv sha T (written T w offset data) ∧
      Later T w (written T w offset data) := by
  have hkeep : ∀ n, Agree n (fileOf T w) T.file →
      Agree n (fileOf T (written T w offset data)) T.file := by
    intro n hn
    rw [fileOf_written]
    exact hn.writeAt hdata hoffset
  have hshort : (fileOf T (written T w offset data)).length ≤
      T.artifact.sizeBytes := by
    rw [fileOf_written, length_writeAt]
    exact Nat.max_le.mpr ⟨h.short, hend⟩
  refine ⟨⟨fun row hrow => ?_, hshort⟩,
    ⟨fun row hrow => ⟨row, hrow, Nat.le_refl _⟩, hkeep⟩⟩
  have hinv := h.row row hrow
  refine ⟨hinv.size, hinv.cap, hinv.digest, hinv.progress, hinv.bounded,
    hkeep _ hinv.agrees, fun hstate => ?_⟩
  obtain ⟨hfile, hdigest⟩ := hinv.ready hstate
  have hall : Agree T.artifact.sizeBytes (fileOf T w) T.file := by
    rw [hfile]
    exact fun _ _ => rfl
  exact ⟨(hkeep _ hall).eq hshort hsize, hdigest⟩

end Write

/-- A chunk has the bytes of the file from its offset on. -/
theorem getElem?_chunkAt {index i : Nat} (hi : i < (chunkAt T index).length) :
    (chunkAt T index)[i]? =
      T.file[index * T.config.artifactChunkBytes + i]? := by
  rw [chunkAt, List.length_take] at hi
  rw [chunkAt, List.getElem?_take_of_lt (by omega), List.getElem?_drop]

/-- A chunk at the stored progress: the file, then the row. -/
theorem storeChunk_own {site : InstanceId} {sequence index offset : Nat}
    {artifact : Artifact} {now : Instant} {chunk : ArtifactChunk}
    (hfit : ¬ Misfit T.config.artifactChunkBytes T.artifact.sizeBytes)
    (hsize : T.file.length = T.artifact.sizeBytes)
    (hin : index * T.config.artifactChunkBytes < T.file.length)
    (hindex : chunk.index = index) (hknown : Known T artifact v.1)
    (hoffset : offset = index * centerArtifactChunkSize)
    (hplace : offset = artifact.uploadedBytes)
    (hpos : 0 < (chunkAt T index).length)
    (hend : offset + (chunkAt T index).length ≤ artifact.sizeBytes) :
    Consumer sha T (.artifactChunk chunk)
      (storeChunk site sequence artifact T.artifact.id offset
        (chunkAt T index) now)
      (fun _ _ => True) v := by
  rw [hknown.size] at hend
  obtain ⟨hright, hprogress⟩ := place_right hfit hknown.cap hsize hin
    (hoffset ▸ hplace ▸ hknown.progress) (hoffset ▸ hend) hpos
  rw [← hoffset] at hright hprogress
  intro v₁ h₁ r v₂ h₂
  obtain ⟨hinv, hlater, hkeep⟩ := h₁
  obtain ⟨⟨o, ho⟩, hplaced⟩ := h₂
  have hagrees : Agree offset (fileOf T v₁.1) T.file := by
    rw [hplace]
    exact hlater.agrees _ hknown.agrees
  have hbelow : offset ≤ (fileOf T v₁.1).length := hagrees.length_le (by omega)
  have hdata : ∀ i < (chunkAt T index).length,
      (chunkAt T index)[i]? = T.file[offset + i]? := by
    intro i hi
    rw [getElem?_chunkAt hi, hright]
  -- a failed write has landed up to some point of the chunk
  have hown : ∀ landed,
      v₂.1 = written T v₁.1 offset ((chunkAt T index).take landed) →
      Own sha T (.artifactChunk chunk) (.writeChunkAt T.artifact.id offset
        (chunkAt T index)) v₁ v₂ := by
    intro landed heq
    have hwrite : CenterInv sha T v₂.1 ∧ Later T v₁.1 v₂.1 := by
      rw [heq]
      refine hinv.write hsize (fun i hi => ?_) hbelow ?_
      · rw [List.length_take] at hi
        rw [List.getElem?_take_of_lt (by omega), hdata i (by omega)]
      · rw [List.length_take]
        omega
    refine ⟨hwrite.1, hwrite.2, ?_, fun _ hnone => ?_⟩
    · intro offset i hoffset hi
      cases hoffset
      cases hi
      rw [hindex, hright]
    · rw [hplaced] at hnone
      cases hnone
  simp only [performCenter] at ho
  split at ho
  · next f hf =>
      refine ⟨hown o.landed (congrArg Prod.snd ho).symm, ?_⟩
      cases congrArg Prod.fst ho
      exact trivial
  · have heq : v₂.1 = written T v₁.1 offset (chunkAt T index) :=
      (congrArg Prod.snd ho).symm
    refine ⟨hown (chunkAt T index).length (by rw [heq, List.take_length]), ?_⟩
    cases congrArg Prod.fst ho
    have hdone : Agree (offset + (chunkAt T index).length) (fileOf T v₂.1)
        T.file := by
      rw [heq, fileOf_written]
      exact hagrees.extend hdata hbelow
    show Consumer sha T _ (if _ then _ else _) _ v₂
    split
    · refine Safe.bindE.mpr ((update_own hsize hplaced hprogress hdone
        fun h => (by cases h)).imp ?_)
      intro r v₃ _
      cases r with
      | error e => exact trivial
      | ok u => exact advanceCursor_own
    · next hlast =>
        have hall : offset + (chunkAt T index).length =
            T.artifact.sizeBytes := by
          rw [hknown.size] at hlast
          omega
        rw [hall] at hprogress hdone ⊢
        refine Safe.bindE.mpr ((finalizeArtifact_own hsize hplaced hprogress
          hdone).imp ?_)
        intro r v₃ _
        cases r with
        | error e => exact trivial
        | ok u => exact advanceCursor_own

theorem placeChunk_own {site : InstanceId} {sequence index : Nat}
    {artifact : Artifact} {now : Instant} {chunk : ArtifactChunk}
    (hfit : ¬ Misfit T.config.artifactChunkBytes T.artifact.sizeBytes)
    (hsize : T.file.length = T.artifact.sizeBytes)
    (hin : index * T.config.artifactChunkBytes < T.file.length)
    (hindex : chunk.index = index) (hknown : Known T artifact v.1) :
    Consumer sha T (.artifactChunk chunk)
      (placeChunk site sequence artifact T.artifact.id index (chunkAt T index)
        now) (fun _ _ => True) v := by
  unfold placeChunk
  dsimp only
  split
  · exact advanceCursor_own
  · next hempty =>
      split
      · exact advanceCursor_own
      · split
        · exact advanceCursor_own
        · next hend =>
            split
            · exact advanceCursor_own
            · split
              · exact advanceCursor_own
              · next hplace =>
                  refine storeChunk_own hfit hsize hin hindex hknown rfl
                    (Decidable.of_not_not hplace) ?_ (Nat.not_lt.mp hend)
                  rw [List.isEmpty_iff] at hempty
                  exact List.length_pos_iff.mpr hempty

/-- A manifest that decodes declares what it says, within the cap. -/
theorem decodeManifest_ok {manifest : ArtifactManifest} {now : Instant}
    {artifact : Artifact} (h : decodeManifest manifest now = .ok artifact) :
    (∃ artifactId name, manifest.artifactId = some artifactId ∧
      artifact = .new artifactId name manifest.totalBytes manifest.sha256 now) ∧
      manifest.totalBytes ≤ artifactMaxSizeBytes := by
  unfold decodeManifest at h
  split at h
  · next artifactId hid =>
      by_cases hzero : manifest.totalBytes = 0
      · rw [if_pos hzero] at h
        cases h
      · rw [if_neg hzero] at h
        by_cases hcap : artifactMaxSizeBytes < manifest.totalBytes
        · rw [if_pos hcap] at h
          cases h
        · rw [if_neg hcap] at h
          cases hname : parseLabel manifest.name with
          | error e =>
              rw [hname] at h
              cases h
          | ok name =>
              rw [hname] at h
              refine ⟨⟨artifactId, name, hid, ?_⟩, Nat.not_lt.mp hcap⟩
              dsimp only [Except.mapError, bind, Except.bind] at h
              split at h
              · cases h
              · cases h
                rfl
  · cases h

theorem declare_own {artifact : Artifact} {site : InstanceId} {now : Instant}
    {r : Except ProjectionRepositoryError Unit}
    (hnew : ∃ artifactId name, some T.artifact.id = some artifactId ∧
      artifact = .new artifactId name T.artifact.sizeBytes T.artifact.sha256
        now)
    (hcap : T.artifact.sizeBytes ≤ artifactMaxSizeBytes)
    (h₁ : Others sha T v v₁)
    (h₂ : centerSem sha (.declareArtifact artifact site) v₁ r v₂) :
    Own sha T (SiteReports.manifestOf T.artifact)
      (.declareArtifact artifact site) v₁ v₂ := by
  obtain ⟨hinv, -, -⟩ := h₁
  obtain ⟨⟨o, ho⟩, -⟩ := h₂
  have hplace : ∀ offset index,
      writeOffset (.declareArtifact artifact site) = some offset →
      chunkIndex (SiteReports.manifestOf T.artifact) = some index →
        offset = index * T.config.artifactChunkBytes := by
    intro offset index hoffset
    cases hoffset
  have habsorbed : ∀ {P : Prop},
      chunkIndex (SiteReports.manifestOf T.artifact) ≠ none → P :=
    fun h => absurd rfl h
  have hsame : v₂.1 = v₁.1 → Own sha T (SiteReports.manifestOf T.artifact)
      (.declareArtifact artifact site) v₁ v₂ := by
    intro heq
    exact ⟨by rw [heq]; exact hinv, by rw [heq]; exact .refl _, hplace,
      fun h => habsorbed h⟩
  simp only [performCenter] at ho
  split at ho
  · exact hsame (congrArg Prod.snd ho).symm
  · split at ho
    · next t hdeclare =>
        have hw₂ : { v₁.1 with artifacts := t } = v₂.1 := congrArg Prod.snd ho
        obtain ⟨artifactId, name, hid, rfl⟩ := hnew
        cases hid
        have ht := declareArtifact_ok hdeclare
        have hfile : fileOf T v₂.1 = fileOf T v₁.1 := by
          rw [← hw₂]
          rfl
        have hfind : ∀ row, v₁.1.artifacts.find T.artifact.id = some row →
            v₂.1.artifacts.find T.artifact.id = some row := by
          intro row hrow
          rw [← hw₂, ht, Table.insertNew_of_some hrow]
          exact hrow
        refine ⟨⟨?_, by rw [hfile]; exact hinv.short⟩,
          ⟨fun row hrow => ⟨row, hfind row hrow, Nat.le_refl _⟩, ?_⟩, hplace,
          fun h => habsorbed h⟩
        · intro row hrow
          rw [hfile]
          cases hstored : v₁.1.artifacts.find T.artifact.id with
          | some stored =>
              rw [hfind stored hstored] at hrow
              cases hrow
              exact hinv.row _ hstored
          | none =>
              rw [← hw₂, ht, Table.find_insertNew, if_pos ⟨rfl, hstored⟩] at hrow
              cases hrow
              exact ⟨rfl, hcap, rfl, .inl rfl, Nat.zero_le _,
                fun i hi => absurd hi (Nat.not_lt_zero i),
                fun h => (by cases h)⟩
        · intro n h
          rwa [hfile]
    · exact hsame (congrArg Prod.snd ho).symm

/-! ## Frames -/

theorem consumeArtifactChunk_own {site : InstanceId} {sequence index : Nat}
    {now : Instant}
    (hfit : ¬ Misfit T.config.artifactChunkBytes T.artifact.sizeBytes)
    (hsize : T.file.length = T.artifact.sizeBytes)
    (hin : index * T.config.artifactChunkBytes < T.file.length) :
    Consumer sha T
      (.artifactChunk ⟨some T.artifact.id, index, chunkAt T index⟩)
      (consumeArtifactChunk site sequence
        ⟨some T.artifact.id, index, chunkAt T index⟩ now)
      (fun _ _ => True) v := by
  refine Safe.bindE.mpr (passesCursor_own.imp ?_)
  intro r v₁ _
  cases r with
  | error e => exact trivial
  | ok passes =>
      cases passes with
      | false => exact trivial
      | true =>
          refine Safe.bindE.mpr (findArtifact_own.imp ?_)
          intro r v₂ h₂
          cases r with
          | error e => exact trivial
          | ok found =>
              cases found with
              | none => exact advanceCursor_own
              | some artifact =>
                  have hknown := h₂.2.2 artifact rfl
                  intro v₃ h₃ owner v₄ h₄
                  have hown := own_of_untouched
                    (.artifactChunk ⟨some T.artifact.id, index, chunkAt T index⟩)
                    rfl h₃ h₄
                  have hknown := (hknown.later h₃.2.1).later hown.1.later
                  refine ⟨hown.1, ?_⟩
                  cases owner with
                  | error e => exact trivial
                  | ok owner =>
                      show Consumer sha T _ (if _ then _ else _) _ v₄
                      split
                      · exact advanceCursor_own
                      · split
                        · exact advanceCursor_own
                        · exact placeChunk_own hfit hsize hin rfl hknown

/-- The row a manifest declares starts at no progress. -/
theorem consumeArtifactManifest_own {site : InstanceId} {sequence : Nat}
    {now : Instant} :
    Consumer sha T (SiteReports.manifestOf T.artifact)
      (consumeArtifactManifest site sequence
        { artifactId := some T.artifact.id, name := T.artifact.name
          totalBytes := T.artifact.sizeBytes, sha256 := T.artifact.sha256 }
        now)
      (fun _ _ => True) v := by
  refine Safe.bindE.mpr (passesCursor_own.imp ?_)
  intro r v₁ _
  cases r with
  | error e => exact trivial
  | ok passes =>
      cases passes with
      | false => exact trivial
      | true =>
          simp only [Bool.not_true, Bool.false_eq_true, if_false]
          split
          · exact advanceCursor_own
          · next artifact hdecode =>
              obtain ⟨hnew, hcap⟩ := decodeManifest_ok hdecode
              intro v₂ h₂ r v₃ h₃
              refine ⟨declare_own hnew hcap h₂ h₃, ?_⟩
              cases r with
              | error e => exact trivial
              | ok u => exact advanceCursor_own

/-- Consuming a frame of the artifact keeps the contract. -/
theorem onFrame_own {site : InstanceId} {sequence : Nat} {now : Instant}
    (hfit : ¬ Misfit T.config.artifactChunkBytes T.artifact.sizeBytes)
    (hframe : FrameOf T message) :
    Consumer sha T message (onFrame site sequence message now)
      (fun _ _ => True) v := by
  cases hframe with
  | manifest hsize => exact consumeArtifactManifest_own
  | chunk hsize index hin => exact consumeArtifactChunk_own hfit hsize hin

end Rutilus.Proofs.ArtifactPlace
