import Mathlib.Algebra.GroupWithZero.Nat
import Mathlib.Algebra.Order.BigOperators.Group.List
import Mathlib.Algebra.Order.Group.Nat
import Rutilus.Proofs.ArtifactUpload

/-!
# Chunks of a multiple of the center's size

For every chunk size `k * C` with `2 ≤ k` and every file that has a chunk with
the index `k`, a run in which the site distributes the file once and the center
consumes the manifest, the first chunk and the chunk `k`, without a failure. The
center writes the last one at `k * C`, the end of the first chunk. With the
general result this says for which sizes an upload is sound.
-/

namespace Rutilus.Proofs.ArtifactMisfit

open Rutilus.Domain Rutilus.Lib Rutilus.Store Rutilus.Report
open Rutilus.Report.CenterProjection Rutilus.Report.Transfer
open Rutilus.Proofs.ArtifactFrames Rutilus.Proofs.ArtifactPlace
open Rutilus.Proofs.ArtifactUpload

variable {sha : Bytes → Digest} {T : Setup} {s : State}

abbrev Steps (sha : Bytes → Digest) (T : Setup) (s t : State) : Prop :=
  Relation.ReflTransGen (Next (next sha T)) s t

/-! ## Running a program to its end -/

/-- An identity no row of the queue has. -/
def freshId (t : OutboxTable) : OutboxEntryId :=
  ⟨(t.rows.map fun row => row.id.uuid).sum + 1⟩

theorem has_freshId (t : OutboxTable) : t.has (freshId t) = false := by
  have hnone : t.find (freshId t) = none := by
    rw [Table.find_eq_none_iff]
    intro row hrow heq
    have hle : row.id.uuid ≤ (t.rows.map fun row => row.id.uuid).sum :=
      List.le_sum_of_mem (List.mem_map.mpr ⟨row, hrow, rfl⟩)
    have huuid : row.id.uuid = (freshId t).uuid := by rw [heq]
    simp only [freshId] at huuid
    omega
  rw [Table.has, hnone]
  rfl

/-- The site's calls without a failure, collecting what they queue. -/
def siteRun (sha : Bytes → Digest) (T : Setup) (q : SiteReports.ReportReq)
    (v : SiteStore × List (Nat × EnvelopeMessage)) :
    q.Resp × SiteStore × List (Nat × EnvelopeMessage) :=
  let r := performSite sha T.config.instanceId
    ⟨none, 0, freshId v.1.outbox, none⟩ q v.1
  (r.1, r.2, v.2 ++ queued q r.1)

theorem site_steps (p : SiteReports.M Unit) (hround : s.round = some p) :
    Steps sha T s { s with
      round := some (.ret (Prog.run (siteRun sha T) p (s.site, s.produced)).1)
      site := (Prog.run (siteRun sha T) p (s.site, s.produced)).2.1
      produced := (Prog.run (siteRun sha T) p (s.site, s.produced)).2.2 } := by
  induction p generalizing s with
  | ret a =>
      obtain ⟨site, round, produced, center, tasks, written⟩ := s
      cases hround
      exact .refl
  | call q k ih =>
      let r := performSite sha T.config.instanceId
        ⟨none, 0, freshId s.site.outbox, none⟩ q s.site
      have hrest := ih r.1 (s := { s with
        site := r.2, round := some (k r.1)
        produced := s.produced ++ queued q r.1 }) rfl
      refine .head ⟨.siteCall ⟨none, 0, freshId s.site.outbox, none⟩, ?_⟩ hrest
      simp only [next, hround]
      rfl

/-- The center's calls for a frame without a failure, collecting the places
written. -/
def centerRun (sha : Bytes → Digest) (message : EnvelopeMessage)
    (q : ProjectionReq) (v : CenterStore × List (Nat × Nat)) :
    q.Resp × CenterStore × List (Nat × Nat) :=
  let r := performCenter sha ⟨none, 0, ⟨0⟩⟩ q v.1
  (r.1, r.2, v.2 ++ Task.writes ⟨message, none, .ret (.ok ())⟩ q)

variable (sha T) in
theorem task_steps {message : EnvelopeMessage} {placed : Option Nat}
    (p : M Unit) (htasks : s.tasks = [⟨message, placed, p⟩]) :
    ∃ task, Steps sha T s { s with
      tasks := [task]
      center := (Prog.run (centerRun sha message) p (s.center, s.written)).2.1
      written := (Prog.run (centerRun sha message) p (s.center, s.written)).2.2 } := by
  induction p generalizing s placed with
  | ret a =>
      refine ⟨⟨message, placed, .ret a⟩, ?_⟩
      obtain ⟨site, round, produced, center, tasks, written⟩ := s
      cases htasks
      exact .refl
  | call q k ih =>
      obtain ⟨task, hsteps⟩ := ih _ (s := { s with
          center := (performCenter sha ⟨none, 0, ⟨0⟩⟩ q s.center).2
          tasks := [⟨message, (writeOffset q).or placed,
            k (performCenter sha ⟨none, 0, ⟨0⟩⟩ q s.center).1⟩]
          written := s.written ++
            Task.writes ⟨message, none, .ret (.ok ())⟩ q }) rfl
      refine ⟨task, .head ⟨.centerCall 0 ⟨none, 0, ⟨0⟩⟩, ?_⟩ hsteps⟩
      simp only [next, htasks, List.getElem?_cons_zero]
      rfl

/-- A delivered frame, consumed without a failure. -/
theorem frame_steps {i sequence : Nat} {message : EnvelopeMessage}
    (htasks : s.tasks = []) (hi : s.produced[i]? = some (sequence, message)) :
    Steps sha T s { s with
      center := (Prog.run (centerRun sha message)
        (onFrame T.config.instanceId sequence message 0)
        (s.center, s.written)).2.1
      written := (Prog.run (centerRun sha message)
        (onFrame T.config.instanceId sequence message 0)
        (s.center, s.written)).2.2 } := by
  obtain ⟨task, hsteps⟩ := task_steps sha T
    (s := { s with tasks := [⟨message, none, onFrame T.config.instanceId
      sequence message 0⟩] }) _ rfl
  refine .head ⟨.deliver i 0, ?_⟩ (hsteps.tail ⟨.centerCrash, ?_⟩)
  · simp only [next, hi, htasks, List.nil_append]
  · simp only [next]
    obtain ⟨site, round, produced, center, tasks, written⟩ := s
    cases htasks
    rfl

/-! ## What a distribution without a failure queues -/

/-- With room left, an enqueue takes the next sequence. -/
theorem enqueue_fresh {t : OutboxTable} {instanceId : InstanceId}
    {message : EnvelopeMessage} {now : Instant} {n : Nat}
    (hmax : maximumSequence t instanceId = n) (hroom : (n : Int) < maxSequence) :
    ∃ entry t', enqueueOutboxEntry t (freshId t) instanceId message now =
        .ok (entry, t') ∧ entry.sequence = n + 1 ∧
      maximumSequence t' instanceId = n + 1 := by
  have hid := has_freshId t
  have henqueue : enqueueOutboxEntry t (freshId t) instanceId message now =
      .ok ((outboxRowOf (freshId t) instanceId (n + 1) message now).entry,
        t.insertNew (outboxRowOf (freshId t) instanceId (n + 1) message now)) := by
    unfold enqueueOutboxEntry
    dsimp only
    rw [hmax, if_neg (by omega), if_neg (by omega), hid]
    rfl
  refine ⟨_, _, henqueue, rfl, ?_⟩
  obtain ⟨sequence, -, habove, hentry, -, hrows⟩ := enqueueOutboxEntry_ok henqueue
  have hsequence : (n : Int) + 1 = sequence :=
    congrArg OutboxEntry.sequence hentry
  subst hsequence
  have hmax : (((t.insertNew (outboxRowOf (freshId t) instanceId (n + 1) message
      now)).rows.filter fun row => row.entry.instanceId = instanceId).map
        fun row => row.entry.sequence).max? = some ((n : Int) + 1) := by
    rw [List.max?_eq_some_iff, hrows]
    constructor
    · refine List.mem_map.mpr ⟨outboxRowOf (freshId t) instanceId (n + 1)
        message now, List.mem_filter.mpr ⟨List.mem_append_right _
          (List.mem_singleton_self _), ?_⟩, rfl⟩
      exact decide_eq_true rfl
    · intro b hb
      obtain ⟨row, hrow, rfl⟩ := List.mem_map.mp hb
      obtain ⟨hrow, hinstance⟩ := List.mem_filter.mp hrow
      rcases List.mem_append.mp hrow with hrow | hrow
      · have := habove row hrow (of_decide_eq_true hinstance)
        omega
      · rw [List.mem_singleton.mp hrow]
        exact le_rfl
  rw [maximumSequence, hmax]
  rfl

variable {w : SiteStore} {ps : List (Nat × EnvelopeMessage)}

/-- What was queued stays at the front of what is. -/
theorem run_queued_before {α : Type} (p : Prog SiteReports.reportSig α)
    (v : SiteStore × List (Nat × EnvelopeMessage)) :
    v.2 <+: (Prog.run (siteRun sha T) p v).2.2 := by
  induction p generalizing v with
  | ret a => exact List.prefix_refl _
  | call q k ih =>
      exact (List.prefix_append v.2 _).trans
        (ih (siteRun sha T q v).1 (siteRun sha T q v).2)

theorem run_enqueue {message : EnvelopeMessage} {n : Nat}
    (hmax : maximumSequence w.outbox T.config.instanceId = n)
    (hroom : (n : Int) < maxSequence) :
    ∃ entry w', Prog.run (siteRun sha T)
        (SiteReports.enqueueOutboxEntry T.config message) (w, ps) =
          (.ok entry, w', ps ++ [(n + 1, message)]) ∧
      maximumSequence w'.outbox T.config.instanceId = (n + 1 : Nat) ∧
      w'.files = w.files := by
  obtain ⟨entry, t', henqueue, hsequence, hmax'⟩ :=
    @enqueue_fresh _ _ message 0 n hmax hroom
  refine ⟨entry, { w with outbox := t' }, ?_, by exact_mod_cast hmax', rfl⟩
  have hcall : siteRun sha T
      (.outbox (.enqueue T.config.instanceId message 0)) (w, ps ++ []) =
        (.ok entry, { w with outbox := t' }, ps ++ [(n + 1, message)]) := by
    simp [siteRun, performSite, runOutbox, henqueue, answered, queued, hsequence]
  show ((siteRun sha T (.outbox (.enqueue T.config.instanceId message 0))
      (w, ps ++ [])).1.mapError SiteReports.ReportError.outbox,
    (siteRun sha T (.outbox (.enqueue T.config.instanceId message 0))
      (w, ps ++ [])).2) = _
  rw [hcall]
  rfl

/-- The frames of chunks: the sequences count up from `n + 1`, the indices
from `start`. -/
def chunkFrames (T : Setup) (n start : Nat) (chunks : List Bytes) :
    List (Nat × EnvelopeMessage) :=
  chunks.mapIdx fun i data =>
    (n + 1 + i, .artifactChunk ⟨some T.artifact.id, start + i, data⟩)

theorem run_enqueueChunks {ledger : List OutboxEntryId} {n start : Nat}
    {chunks : List Bytes}
    (hmax : maximumSequence w.outbox T.config.instanceId = n)
    (hroom : ((n + chunks.length : Nat) : Int) ≤ maxSequence)
    (hindex : start + chunks.length ≤ SiteReports.maxU32) :
    (Prog.run (siteRun sha T) (SiteReports.enqueueChunks T.config T.artifact.id
      ledger start chunks) (w, ps)).2.2 = ps ++ chunkFrames T n start chunks := by
  induction chunks generalizing ledger n start w ps with
  | nil => simp [chunkFrames, SiteReports.enqueueChunks]
  | cons data chunks ih =>
      rw [List.length_cons] at hroom hindex
      let message : EnvelopeMessage :=
        .artifactChunk ⟨some T.artifact.id, start, data⟩
      obtain ⟨entry, w', hrun, hmax', -⟩ :
          ∃ entry w', Prog.run (siteRun sha T)
            (SiteReports.enqueueOutboxEntry T.config message).run (w, ps) =
              (.ok entry, w', ps ++ [(n + 1, message)]) ∧ _ ∧ _ :=
        run_enqueue hmax (by omega)
      have hrest : (Prog.run (siteRun sha T) (SiteReports.enqueueChunks T.config
          T.artifact.id (ledger ++ [entry.id]) (start + 1) chunks)
          (w', ps ++ [(n + 1, message)])).2.2 =
            (ps ++ [(n + 1, message)]) ++ chunkFrames T (n + 1) (start + 1)
              chunks := ih hmax' (by omega) (by omega)
      rw [SiteReports.enqueueChunks, if_neg (by omega), Prog.run_bind, hrun]
      refine hrest.trans ?_
      rw [List.append_assoc, chunkFrames, chunkFrames, List.mapIdx_cons]
      refine congrArg (ps ++ ·) (congrArg ((n + 1, message) :: ·) ?_)
      refine List.mapIdx_eq_mapIdx_iff.mpr fun i hi => ?_
      rw [show n + 1 + 1 + i = n + 1 + (i + 1) by omega,
        show start + 1 + i = start + (i + 1) by omega]

/-- The chunks the reader cuts are all there. -/
theorem readChunks_some {c fuel i : Nat} {rest : Bytes} (hc : 0 < c)
    (hi : i * c < rest.length) (hfuel : i < fuel) :
    (SiteReports.readChunks c fuel rest)[i]? =
      some ((rest.drop (i * c)).take c) := by
  induction fuel generalizing rest i with
  | zero => omega
  | succ fuel ih =>
      have hlen : (rest.take c).length = min c rest.length := List.length_take
      have hne : (rest.take c).isEmpty = false := by
        rw [List.isEmpty_eq_false_iff, ← List.length_pos_iff]
        omega
      rw [SiteReports.readChunks, hne]
      simp only [Bool.false_eq_true, if_false]
      cases i with
      | zero =>
          rw [Nat.zero_mul, List.drop_zero]
          split <;> rfl
      | succ i =>
          rw [Nat.succ_mul] at hi
          rw [if_neg (by omega), List.getElem?_cons_succ, ih _ (by omega),
            List.drop_drop, Nat.succ_mul, Nat.add_comm c]
          rw [List.length_drop]
          omega

/-- What the reader hands over of a file of the declared length. -/
theorem readArtifact_chunks {file : Bytes} {digest : Digest} {c : Nat} :
    (SiteReports.readArtifact sha (some file) file.length digest c none).1 =
      SiteReports.readChunks c (file.length + 1) file := by
  simp only [SiteReports.readArtifact, ne_eq, not_true_eq_false, if_false]
  split
  · rfl
  · split <;> rfl

theorem run_enqueueSet {chunks : List Bytes}
    {result : Except SiteReports.ArtifactReadFailure Unit}
    (hne : chunks ≠ [])
    (hmax : maximumSequence w.outbox T.config.instanceId = 0)
    (hroom : chunks.length ≤ SiteReports.maxU32) :
    (1, SiteReports.manifestOf T.artifact) :: chunkFrames T 1 0 chunks <+:
      (Prog.run (siteRun sha T) (SiteReports.enqueueSet T.config T.artifact
        chunks result) (w, [])).2.2 := by
  have hU32 : SiteReports.maxU32 = 4294967295 := rfl
  have hmaxSequence : maxSequence = 9223372036854775807 := rfl
  cases chunks with
  | nil => exact absurd rfl hne
  | cons data rest =>
      obtain ⟨manifest, w', hrun, hmax', -⟩ :
          ∃ entry w', Prog.run (siteRun sha T)
            (SiteReports.enqueueOutboxEntry T.config
              (SiteReports.manifestOf T.artifact)).run (w, []) =
              (.ok entry, w', [] ++ [(0 + 1, SiteReports.manifestOf
                T.artifact)]) ∧ _ ∧ _ :=
        run_enqueue hmax (by omega)
      have hrest : (Prog.run (siteRun sha T) (SiteReports.enqueueChunks T.config
          T.artifact.id [manifest.id] 0 (data :: rest))
          (w', [(1, SiteReports.manifestOf T.artifact)])).2.2 =
            [(1, SiteReports.manifestOf T.artifact)] ++
              chunkFrames T 1 0 (data :: rest) :=
        run_enqueueChunks hmax' (by omega) (by omega)
      rw [SiteReports.enqueueSet, Prog.run_bind, hrun]
      show _ <+: (Prog.run (siteRun sha T) (SiteReports.enqueueChunks T.config
        T.artifact.id [manifest.id] 0 (data :: rest) >>= _)
        (w', [(1, SiteReports.manifestOf T.artifact)])).2.2
      rw [Prog.run_bind]
      refine List.IsPrefix.trans ?_ (run_queued_before _ _)
      rw [hrest]
      exact List.prefix_refl _

theorem run_distribute {chunks : List Bytes}
    (hlen : T.file.length = T.artifact.sizeBytes)
    (hchunks : chunks = SiteReports.readChunks T.config.artifactChunkBytes
      (T.file.length + 1) T.file) (hne : chunks ≠ [])
    (hroom : chunks.length ≤ SiteReports.maxU32) :
    (1, SiteReports.manifestOf T.artifact) :: chunkFrames T 1 0 chunks <+:
      (Prog.run (siteRun sha T) (SiteReports.distributeArtifact T.config 1
        T.artifact) ((initial T).site, [])).2.2 := by
  have hretire : Prog.run (siteRun sha T)
      (SiteReports.retirePendingArtifactEntries T.config 1 T.artifact.id)
      ((initial T).site, []) = (.ok (), (initial T).site, []) := rfl
  let read := SiteReports.readArtifact sha (some T.file) T.artifact.sizeBytes
    T.artifact.sha256 T.config.artifactChunkBytes none
  have hread : Prog.run (siteRun sha T) (SiteReports.call (.readArtifact
      T.artifact.id T.artifact.sizeBytes T.artifact.sha256
      T.config.artifactChunkBytes)) ((initial T).site, []) =
        (read, (initial T).site, []) := by
    simp [Prog.run, siteRun, performSite, initial, read, queued]
  have hfirst : read.1 = chunks := by
    rw [hchunks, ← @readArtifact_chunks sha T.file T.artifact.sha256, hlen]
  rw [SiteReports.distributeArtifact, Prog.run_bindE, hretire]
  dsimp only
  rw [Prog.run_bindE, Prog.run_liftE, hread]
  dsimp only
  rw [Prog.run_bindE, Prog.run_liftE, hfirst]
  exact (run_enqueueSet hne rfl hroom).trans (run_queued_before _ _)

/-! ## What the center does with the frames -/

/-- The row of an upload under way. -/
def rowAt (T : Setup) (uploaded : Nat) : ArtifactRow :=
  { id := T.artifact.id, name := T.artifact.name
    sizeBytes := T.artifact.sizeBytes, sha256 := T.artifact.sha256
    state := .uploading, uploadedBytes := uploaded, createdAt := 0
    updatedAt := 0, siteId := some T.config.instanceId }

/-- The center in the middle of an upload. -/
structure Midway (T : Setup) (w : CenterStore) (uploaded processed : Nat) :
    Prop where
  row : w.artifacts.find T.artifact.id = some (rowAt T uploaded)
  cursor : getSyncCursor w.cursors T.config.instanceId .artifact =
    some ⟨T.config.instanceId, .artifact, some processed, 0⟩

/-- The center after a stored chunk. -/
def stored (T : Setup) (w : CenterStore) (offset sequence : Nat)
    (data : Bytes) : CenterStore :=
  { w with
    files := writeFile w.files T.artifact.id offset data
    artifacts := w.artifacts.replace (rowAt T (offset + data.length))
    cursors := setSyncCursor w.cursors
      ⟨T.config.instanceId, .artifact, some sequence, 0⟩ }

theorem midway_stored {w : CenterStore}
    {uploaded processed offset sequence : Nat} {data : Bytes}
    (h : Midway T w uploaded processed) :
    Midway T (stored T w offset sequence data) (offset + data.length)
      sequence where
  row := by
    have hid : (rowAt T (offset + data.length)).id = T.artifact.id := rfl
    rw [stored, Table.find_replace, if_pos ⟨hid, by rw [h.row]; rfl⟩]
  cursor := by
    rw [stored, getSyncCursor_set]
    exact if_pos rfl

/-- A chunk that continues the progress is stored where the progress stands. -/
theorem run_chunk {w : CenterStore} {ws : List (Nat × Nat)} {data : Bytes}
    {offset processed sequence index : Nat}
    (h : Midway T w offset processed) (hsequence : processed < sequence)
    (hoffset : offset = index * centerArtifactChunkSize)
    (hdata : 0 < data.length) (hend : offset + data.length < T.artifact.sizeBytes)
    (hcap : T.artifact.sizeBytes ≤ artifactMaxSizeBytes) :
    Prog.run (centerRun sha (.artifactChunk ⟨some T.artifact.id, index, data⟩))
        (onFrame T.config.instanceId sequence
          (.artifactChunk ⟨some T.artifact.id, index, data⟩) 0) (w, ws) =
      (.ok (), stored T w offset sequence data, ws ++ [(index, offset)]) := by
  have hcapValue : artifactMaxSizeBytes = 2147483648 := rfl
  have hU64 : maxU64 = 18446744073709551615 := rfl
  have hinteger : maxInteger = 9223372036854775807 := rfl
  have hempty : data.isEmpty = false := by
    rw [List.isEmpty_eq_false_iff, ← List.length_pos_iff]
    exact hdata
  let artifact : Artifact :=
    { Artifact.new T.artifact.id T.artifact.name T.artifact.sizeBytes
        T.artifact.sha256 0 with
      uploadedBytes := offset
      progress := by
        show offset ≤ T.artifact.sizeBytes
        omega
      complete := by
        intro h
        cases h }
  have hfind : findArtifact w.artifacts T.artifact.id =
      .ok (some artifact) := by
    have hle : ¬ T.artifact.sizeBytes < offset := by omega
    rw [findArtifact, h.row]
    simp [mapStoredArtifact, Artifact.tryFromParts, rowAt, hle, artifact,
      Artifact.new, Except.mapError, Except.map]
  have hsite : findArtifactSite w.artifacts T.artifact.id =
      some T.config.instanceId := by
    rw [findArtifactSite, h.row]
    rfl
  have hgrows : ¬ offset + data.length < offset := by omega
  have hover : ¬ offset + data.length ≤ offset := by omega
  have hbound : ¬ T.artifact.sizeBytes < offset + data.length := by omega
  have hplace : placeChunk T.config.instanceId sequence artifact T.artifact.id
      index data 0 = storeChunk T.config.instanceId sequence artifact
        T.artifact.id offset data 0 := by
    have hfits : ¬ maxU64 < offset + data.length := by omega
    simp [placeChunk, ← hoffset, hempty, hfits, hbound, hover, artifact,
      Artifact.new]
  have hupdate : updateArtifact w.artifacts T.artifact.id
      (offset + data.length) .uploading 0 =
        .ok ((), w.artifacts.replace (rowAt T (offset + data.length))) := by
    have hfits : ¬ maxInteger < offset + data.length := by omega
    rw [updateArtifact, h.row]
    simp [rowAt, ArtifactState.isTerminal, hgrows, hbound, hfits]
  have hpasses : Prog.run (centerRun sha (.artifactChunk ⟨some T.artifact.id,
      index, data⟩)) (passesCursor T.config.instanceId .artifact sequence)
        (w, ws) = (.ok true, w, ws) := by
    rw [passesCursor, Prog.run_bindE, run_orThrow]
    simp only [Prog.run, centerRun, performCenter, h.cursor, Except.mapError]
    simp only [pure, ExceptT.pure, ExceptT.mk, Prog.run, Task.writes,
      chunkIndex, writeOffset, hsequence, decide_true, List.append_nil]
  rw [onFrame, consumeArtifactChunk, Prog.run_bindE, hpasses]
  simp only [Bool.not_true, Bool.false_eq_true, if_false, Prog.run_bindE,
    run_orThrow, Prog.run, centerRun, performCenter, hfind, hsite,
    Except.mapError, ne_eq, not_true_eq_false]
  rw [show artifact.state = .uploading from rfl, hplace]
  have hshort : offset + data.length < artifact.sizeBytes := hend
  simp only [ArtifactState.isTerminal, Bool.false_eq_true, if_false, storeChunk,
    Prog.run_bindE, run_orThrow, Prog.run, centerRun, performCenter,
    Except.mapError, if_pos hshort, hupdate, advanceCursor]
  simp only [Task.writes, chunkIndex, writeOffset, List.append_nil, stored]

/-- The first manifest declares its row. -/
theorem run_manifest {ws : List (Nat × Nat)} {sequence : Nat}
    (hname : parseLabel T.artifact.name = .ok T.artifact.name)
    (hpos : 0 < T.artifact.sizeBytes)
    (hcap : T.artifact.sizeBytes ≤ artifactMaxSizeBytes)
    (hdigest : T.artifact.sha256.length = 32) :
    ∃ w, Prog.run (centerRun sha (SiteReports.manifestOf T.artifact))
        (onFrame T.config.instanceId sequence
          (SiteReports.manifestOf T.artifact) 0) (.empty, ws) =
          (.ok (), w, ws) ∧
      Midway T w 0 sequence ∧ w.files = fun _ => none := by
  have hcapValue : artifactMaxSizeBytes = 2147483648 := rfl
  have hinteger : maxInteger = 9223372036854775807 := rfl
  let artifact := Artifact.new T.artifact.id T.artifact.name
    T.artifact.sizeBytes T.artifact.sha256 0
  have hdecode : decodeManifest
      { artifactId := some T.artifact.id, name := T.artifact.name
        totalBytes := T.artifact.sizeBytes, sha256 := T.artifact.sha256 } 0 =
      .ok artifact := by
    have hzero : T.artifact.sizeBytes ≠ 0 := by omega
    have hfits : ¬ artifactMaxSizeBytes < T.artifact.sizeBytes := by omega
    simp [decodeManifest, hname, hzero, hfits, hdigest, artifact,
      Except.mapError, bind, Except.bind, pure, Except.pure]
  have hdeclare : declareArtifact CenterStore.empty.artifacts artifact
      (some T.config.instanceId) =
        .ok ((), CenterStore.empty.artifacts.insertNew (rowAt T 0)) := by
    have hfits : ¬ maxInteger < T.artifact.sizeBytes := by omega
    simp [declareArtifact, CenterStore.empty, Table.has, artifact,
      Artifact.new, hfits, artifactRowOf, rowAt]
  have hcursor : getSyncCursor CenterStore.empty.cursors T.config.instanceId
      .artifact = none := rfl
  let w : CenterStore :=
    { CenterStore.empty with
      artifacts := CenterStore.empty.artifacts.insertNew (rowAt T 0)
      cursors := setSyncCursor CenterStore.empty.cursors
        ⟨T.config.instanceId, .artifact, some sequence, 0⟩ }
  refine ⟨w, ?_, ⟨?_, ?_⟩, rfl⟩
  · simp only [SiteReports.manifestOf, onFrame, consumeArtifactManifest,
      passesCursor, Prog.run_bindE, run_orThrow, Prog.run, centerRun,
      performCenter, hcursor, Except.mapError, pure, ExceptT.pure, ExceptT.mk,
      Bool.not_true, Bool.false_eq_true, if_false, hdecode, hdeclare,
      advanceCursor]
    simp only [Task.writes, chunkIndex, List.append_nil, w]
  · rw [Table.find_insertNew]
    exact if_pos ⟨rfl, rfl⟩
  · rw [getSyncCursor_set]
    exact if_pos rfl

/-! ## The run -/

variable {c n k : Nat}

theorem length_readChunks_le {fuel : Nat} {rest : Bytes} :
    (SiteReports.readChunks c fuel rest).length ≤ fuel := by
  induction fuel generalizing rest with
  | zero => exact Nat.le_refl 0
  | succ fuel ih =>
      simp only [SiteReports.readChunks]
      split
      · exact Nat.zero_le _
      · split
        · exact Nat.le_add_left 1 fuel
        · exact Nat.succ_le_succ ih

/-- The frame of a chunk among what was queued. -/
theorem chunk_queued {chunks : List Bytes} {i : Nat} {data : Bytes}
    {frames : List (Nat × EnvelopeMessage)}
    (hframes : (1, SiteReports.manifestOf T.artifact) ::
      chunkFrames T 1 0 chunks <+: frames) (hi : chunks[i]? = some data) :
    frames[i + 1]? = some (1 + 1 + i, .artifactChunk
      ⟨some T.artifact.id, 0 + i, data⟩) := by
  have hlt : i < chunks.length := (List.getElem?_eq_some_iff.mp hi).1
  obtain ⟨rest, rfl⟩ := hframes
  rw [List.getElem?_append_left, List.getElem?_cons_succ, chunkFrames,
    List.getElem?_mapIdx, hi]
  · rfl
  · simp only [List.length_cons, chunkFrames, List.length_mapIdx]
    omega

/-- A distribution without a failure, before any delivery. -/
theorem exists_distributed {chunks : List Bytes}
    (hlen : T.file.length = T.artifact.sizeBytes)
    (hchunks : chunks = SiteReports.readChunks T.config.artifactChunkBytes
      (T.file.length + 1) T.file) (hne : chunks ≠ [])
    (hroom : chunks.length ≤ SiteReports.maxU32) :
    ∃ s, Reachable sha T s ∧ s.center = .empty ∧ s.tasks = [] ∧
      s.written = [] ∧
      (1, SiteReports.manifestOf T.artifact) :: chunkFrames T 1 0 chunks <+:
        s.produced := by
  let round := SiteReports.distributeArtifact T.config 1 T.artifact
  let s : State := { initial T with round := some round }
  have hs : Reachable sha T s := .step (.init rfl) ⟨.distribute 1, rfl⟩
  exact ⟨_, hs.steps (site_steps _ rfl), rfl, rfl, rfl,
    run_distribute hlen hchunks hne hroom⟩

/-- The bytes at the end of the chunk `0` are those of the chunk `k`. -/
theorem getElem?_overwritten {files : ArtifactId → Option Bytes}
    {id : ArtifactId} {first last : Bytes}
    (hfiles : files id = none) (hlast : 0 < last.length) :
    ((writeFile (writeFile files id 0 first) id first.length last id).getD
      [])[first.length]? = last[0]? := by
  simp only [writeFile, if_true, hfiles, Option.getD_some, Option.getD_none]
  rw [getElem?_writeAt_of_mem (Nat.le_refl _) (by omega), Nat.sub_self]

/-- One distribution and three deliveries: the manifest, the chunk `0` and the
chunk `k`, which is written where the chunk `0` ends. -/
theorem misplaced (hcount : T.config.artifactChunkBytes = c)
    (hsize : T.artifact.sizeBytes = n) (hlen : T.file.length = n)
    (hk : 2 ≤ k) (hc : c = k * centerArtifactChunkSize) (hn : k * c < n)
    (hcap : n ≤ artifactMaxSizeBytes) :
    ∃ s, Reachable sha T s ∧ (k, c) ∈ s.written ∧
      ∃ row, s.center.artifacts.find T.artifact.id = some row ∧
        c < row.uploadedBytes ∧
        (fileOf T s.center)[c]? = T.file[k * c]? := by
  have hcapValue : artifactMaxSizeBytes = 2147483648 := rfl
  have hU32 : SiteReports.maxU32 = 4294967295 := rfl
  have hpos : 0 < c := by
    rw [hc]
    exact Nat.mul_pos (by omega) (by decide)
  have hfar : c + c ≤ k * c := by
    have := Nat.mul_le_mul_right c hk
    omega
  let chunks := SiteReports.readChunks c (T.file.length + 1) T.file
  have hchunk : ∀ i, i * c < n →
      chunks[i]? = some ((T.file.drop (i * c)).take c) := by
    intro i hi
    refine readChunks_some hpos (by omega) ?_
    have := Nat.le_mul_of_pos_right i hpos
    omega
  obtain ⟨first, hfirst, hfirstLength⟩ :
      ∃ first, chunks[0]? = some first ∧ first.length = c := by
    refine ⟨_, hchunk 0 (by omega), ?_⟩
    rw [List.length_take, List.length_drop]
    omega
  obtain ⟨last, hlast, hlastByte, hlastLength⟩ :
      ∃ last, chunks[k]? = some last ∧ last[0]? = T.file[k * c]? ∧
        c + last.length < n := by
    refine ⟨_, hchunk k hn, ?_, ?_⟩
    · rw [List.getElem?_take_of_lt hpos, List.getElem?_drop]
      rfl
    · rw [List.length_take, List.length_drop]
      omega
  have hlastPos : 0 < last.length := by
    rw [List.getElem?_eq_getElem (show k * c < T.file.length by omega)] at hlastByte
    exact (List.getElem?_eq_some_iff.mp hlastByte).1
  have hne : chunks ≠ [] := by
    intro h
    rw [h] at hfirst
    cases hfirst
  obtain ⟨s, hs, hcenter, htasks, hwritten, hframes⟩ :=
    @exists_distributed sha T chunks (by omega) (by rw [hcount]) hne
      (length_readChunks_le.trans (by omega))
  have hmanifest : s.produced[0]? =
      some (1, SiteReports.manifestOf T.artifact) := by
    obtain ⟨rest, hrest⟩ := hframes
    rw [← hrest]
    rfl
  -- the manifest
  obtain ⟨w, hrun, hmid, hfiles⟩ :=
    @run_manifest sha T [] 1 T.name_parsed (by omega) (by omega)
      T.digest_length
  have hs := hs.steps (frame_steps htasks hmanifest)
  rw [hcenter, hwritten, hrun] at hs
  -- the chunk 0
  have hrun := @run_chunk sha T w [] first 0 1 (1 + 1 + 0) (0 + 0) hmid
    (by omega) (by omega) (by omega) (by omega) (by omega)
  have hmid := @midway_stored T w 0 1 0 (1 + 1 + 0) first hmid
  have hs := hs.steps (frame_steps htasks (chunk_queued hframes hfirst))
  rw [hrun] at hs
  -- the chunk k, at the same place as the chunk 1 of the center
  rw [Nat.zero_add, hfirstLength] at hmid
  have hrun := @run_chunk sha T _ ([] ++ [(0 + 0, 0)]) last c (1 + 1 + 0)
    (1 + 1 + k) (0 + k) hmid (by omega) (by rw [Nat.zero_add, hc]) hlastPos
    (by omega) (by omega)
  have hmid := @midway_stored T _ c _ c (1 + 1 + k) last hmid
  have hs := hs.steps (frame_steps htasks (chunk_queued hframes hlast))
  rw [hrun] at hs
  refine ⟨_, hs, ?_, _, hmid.row, ?_, ?_⟩
  · simp
  · exact Nat.lt_add_of_pos_right hlastPos
  · rw [← hlastByte, ← hfirstLength]
    exact getElem?_overwritten (by rw [hfiles]) hlastPos

/-! ## Which uploads are sound -/

theorem misfit_not_inPlace (hlen : T.file.length = T.artifact.sizeBytes)
    (h : Misfit T.config.artifactChunkBytes T.artifact.sizeBytes) :
    ¬ InPlace sha T := by
  obtain ⟨k, hk, hc, hn, hcap⟩ := h
  intro h
  obtain ⟨s, hs, hwritten, -⟩ :=
    @misplaced sha T _ _ k rfl rfl hlen hk hc hn hcap
  have hplace : T.config.artifactChunkBytes =
      k * T.config.artifactChunkBytes := (h s hs).1 _ hwritten
  have hpos : 0 < T.config.artifactChunkBytes := by
    rw [hc]
    exact Nat.mul_pos (by omega) (by decide)
  have := Nat.mul_le_mul_right T.config.artifactChunkBytes hk
  omega

/-- A file of `n` bytes, cut in chunks of `c`, that tells the bytes of the chunk
`k` and later from the ones before. -/
def misfitSetup (c n k : Nat) : Setup where
  config := ⟨⟨1⟩, 0, c⟩
  artifact := .new ⟨1⟩ "a" n (List.replicate 32 0) 0
  file := List.replicate (k * c) 0 ++ List.replicate (n - k * c) 1
  name_parsed := by
    show parseLabel "a" = .ok "a"
    decide
  digest_length := rfl

theorem length_file (hn : k * c < n) : (misfitSetup c n k).file.length = n := by
  simp only [misfitSetup, List.length_append, List.length_replicate]
  omega

/-- The bytes before the chunk `k`. -/
theorem file_before {i : Nat} (hi : i < k * c) :
    (misfitSetup c n k).file[i]? = some 0 := by
  simp only [misfitSetup]
  rw [List.getElem?_append_left (by simpa using hi)]
  simp [hi]

/-- The bytes from it on. -/
theorem file_after {i : Nat} (hi : k * c ≤ i) (hlt : i < n) :
    (misfitSetup c n k).file[i]? = some 1 := by
  simp only [misfitSetup]
  rw [List.getElem?_append_right (by simpa using hi)]
  simp only [List.length_replicate]
  rw [List.getElem?_replicate, if_pos (by omega)]

/-- Every chunk of an upload is placed where it belongs exactly if the upload
fits. -/
theorem chunks_inPlace_iff (sha : Bytes → Digest) (T : Setup) :
    InPlace sha T ↔ ¬ (T.file.length = T.artifact.sizeBytes ∧
      Misfit T.config.artifactChunkBytes T.artifact.sizeBytes) := by
  constructor
  · rintro h ⟨hlen, hmisfit⟩
    exact misfit_not_inPlace hlen hmisfit h
  · exact inPlace_of_fits

/-- Chunks of 2 MiB and a file of 4 MiB and a byte. -/
theorem double_chunks_misplaced :
    ¬ InPlace (fun _ => List.replicate 32 0)
      (misfitSetup (2 * centerArtifactChunkSize)
        (2 * (2 * centerArtifactChunkSize) + 1) 2) :=
  misfit_not_inPlace (length_file (Nat.lt_succ_self _))
    ⟨2, Nat.le_refl 2, rfl, Nat.lt_succ_self _, by decide⟩

/-- The stored prefix of such a file is wrong. -/
theorem misfitSetup_unsound (hk : 2 ≤ k)
    (hc : c = k * centerArtifactChunkSize) (hn : k * c < n)
    (hcap : n ≤ artifactMaxSizeBytes) :
    ¬ Sound sha (misfitSetup c n k) := by
  intro h
  obtain ⟨s, hs, -, row, hrow, hup, hbyte⟩ :=
    @misplaced sha (misfitSetup c n k) c n k rfl rfl (length_file hn) hk hc hn
      hcap
  have hpos : 0 < c := by
    rw [hc]
    exact Nat.mul_pos (by omega) (by decide)
  have hfar : c < k * c := by
    have := Nat.mul_le_mul_right c hk
    omega
  have hagree := agree_iff_take.mpr ((h s hs).1 row hrow).1
  have heq := hagree c hup
  rw [hbyte, file_after (Nat.le_refl _) hn, file_before hfar] at heq
  cases heq

/-- Every upload of a declared size at a chunk size is sound exactly if the two
do not misfit. -/
theorem uploads_sound_iff (sha : Bytes → Digest) (chunkBytes sizeBytes : Nat) :
    (∀ T : Setup, T.config.artifactChunkBytes = chunkBytes →
      T.artifact.sizeBytes = sizeBytes → Sound sha T) ↔
      ¬ Misfit chunkBytes sizeBytes := by
  constructor
  · rintro h ⟨k, hk, hc, hn, hcap⟩
    exact misfitSetup_unsound hk hc hn hcap
      (h (misfitSetup chunkBytes sizeBytes k) rfl rfl)
  · rintro hfit T rfl rfl
    exact sound_of_fits fun h => hfit h.2

/-- Chunks of 2 MiB and a file of 4 MiB and a byte. -/
theorem double_chunks_unsound :
    ¬ Sound (fun _ => List.replicate 32 0)
      (misfitSetup (2 * centerArtifactChunkSize)
        (2 * (2 * centerArtifactChunkSize) + 1) 2) :=
  misfitSetup_unsound (Nat.le_refl 2) rfl (Nat.lt_succ_self _) (by decide)

end Rutilus.Proofs.ArtifactMisfit
