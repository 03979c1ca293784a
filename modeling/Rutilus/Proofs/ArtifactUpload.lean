import Rutilus.Proofs.ArtifactPlace

/-!
# An upload over whole runs

The invariant of `ArtifactPlace`, carried through every run of a transfer: what
a distribution queues are frames of the artifact, every consumer is within its
contract, and so the center's copy agrees with the site's file up to the stored
progress. The only exception are sizes that misfit; for these a run shows the
wrong bytes in the file and the progress past them.
-/

namespace Rutilus.Proofs.ArtifactUpload

open Rutilus.Domain Rutilus.Lib Rutilus.Store Rutilus.Report
open Rutilus.Report.CenterProjection Rutilus.Report.Transfer
open Rutilus.Proofs.ArtifactFrames Rutilus.Proofs.ArtifactPlace

variable {sha : Bytes → Digest} {T : Setup}

/-- No chunk of the file can land in the wrong place. A file of another than
the declared length is never cut. -/
def Fits (T : Setup) : Prop :=
  ¬ (T.file.length = T.artifact.sizeBytes ∧
    Misfit T.config.artifactChunkBytes T.artifact.sizeBytes)

/-! ## The invariant of a transfer -/

structure SysInv (sha : Bytes → Digest) (T : Setup) (s : State) : Prop where
  file : s.site.files T.artifact.id = some T.file
  round : ∀ p, s.round = some p → Round sha T p (fun _ _ => True) s.site
  produced : ∀ p ∈ s.produced, FrameOf T p.2
  center : CenterInv sha T s.center
  tasks : ∀ task ∈ s.tasks, FrameOf T task.message ∧
    Consumer sha T task.message task.rest (fun _ _ => True)
      (s.center, task.placed)
  written : ∀ p ∈ s.written, p.2 = p.1 * T.config.artifactChunkBytes

variable (sha) in
theorem performSite_files {instanceId : InstanceId} (o : SiteOracle)
    (q : SiteReports.ReportReq) (w : SiteStore) :
    (performSite sha instanceId o q w).2.files = w.files := by
  obtain ⟨fault, clock, entryId, readFailure⟩ := o
  cases q <;> first | rfl | (cases fault <;> rfl)

theorem SysInv.init : SysInv sha T (initial T) where
  file := by simp [initial]
  round := by intro p hp; cases hp
  produced := by intro p hp; cases hp
  center :=
    { row := by intro row hrow; cases hrow
      short := Nat.zero_le _ }
  tasks := by intro task htask; cases htask
  written := by intro p hp; cases hp

variable {s t : State}

/-- The site moves; the center does not notice. -/
theorem SysInv.site (h : SysInv sha T s) {site : SiteStore}
    {round : Option (SiteReports.M Unit)}
    {produced : List (Nat × EnvelopeMessage)}
    (hfile : site.files T.artifact.id = some T.file)
    (hround : ∀ p, round = some p → Round sha T p (fun _ _ => True) site)
    (hproduced : ∀ p ∈ produced, FrameOf T p.2) :
    SysInv sha T { s with site, round, produced } :=
  ⟨hfile, hround, hproduced, h.center, h.tasks, h.written⟩

theorem SysInv.siteCall (h : SysInv sha T s) {o : SiteOracle}
    {q : SiteReports.ReportReq}
    {k : q.Resp → Prog SiteReports.reportSig (Except SiteReports.ReportError Unit)}
    (hround : s.round = some (.call q k)) :
    SysInv sha T { s with
      site := (performSite sha T.config.instanceId o q s.site).2
      round := some (k (performSite sha T.config.instanceId o q s.site).1)
      produced := s.produced ++
        queued q (performSite sha T.config.instanceId o q s.site).1 } := by
  obtain ⟨hqueues, hrest⟩ := h.round _ hround s.site h.file _ _ ⟨o, rfl⟩
  refine h.site ?_ ?_ ?_
  · rw [performSite_files]
    exact h.file
  · intro p hp
    cases hp
    exact hrest
  · intro p hp
    rcases List.mem_append.mp hp with hp | hp
    · exact h.produced p hp
    · unfold queued at hp
      split at hp
      · rw [List.mem_singleton] at hp
        subst hp
        exact hqueues _ _ _ rfl
      · cases hp

/-- The others rely on the step of one consumer. -/
theorem SysInv.centerCall (h : SysInv sha T s) {o : CenterOracle} {j : Nat}
    {message : EnvelopeMessage} {placed : Option Nat} {q : ProjectionReq}
    {k : q.Resp → Prog projectionSig (Except CenterProjectionError Unit)}
    (hj : s.tasks[j]? = some ⟨message, placed, .call q k⟩) :
    let r := performCenter sha o q s.center
    let task : Task := ⟨message, placed, .call q k⟩
    SysInv sha T { s with
        center := r.2
        tasks := s.tasks.set j (task.after q (k r.1))
        written := s.written ++ task.writes q } ∧
      Own sha T message q (s.center, placed)
        (r.2, (task.after q (k r.1)).placed) := by
  intro r task
  obtain ⟨hframe, hsafe⟩ := h.tasks _ (List.mem_of_getElem? hj)
  have hrefl : Others sha T (s.center, placed) (s.center, placed) :=
    ⟨h.center, .refl _, rfl⟩
  obtain ⟨hown, hrest⟩ := hsafe (s.center, placed) hrefl r.1
    (r.2, (task.after q (k r.1)).placed) ⟨⟨o, rfl⟩, rfl⟩
  refine ⟨⟨h.file, h.round, h.produced, hown.inv, ?_, ?_⟩, hown⟩
  · intro other hother
    rcases List.mem_or_eq_of_mem_set hother with hother | rfl
    · obtain ⟨hframe', hsafe'⟩ := h.tasks other hother
      refine ⟨hframe', hsafe'.stable ?_ (fun _ _ => trivial)
        ⟨hown.inv, hown.later, rfl⟩⟩
      intro a b c hab hbc
      exact ⟨hbc.1, hab.2.1.trans hbc.2.1, hbc.2.2.trans hab.2.2⟩
    · exact ⟨hframe, hrest⟩
  · intro p hp
    rcases List.mem_append.mp hp with hp | hp
    · exact h.written p hp
    · unfold Task.writes at hp
      split at hp
      · next index offset hindex hoffset =>
          rw [List.mem_singleton] at hp
          subst hp
          exact hown.place offset index hoffset hindex
      · cases hp

theorem SysInv.of_next (hfit : Fits T) (h : SysInv sha T s) {l : Label} (hl : next sha T s l = some t) :
    SysInv sha T t ∧ Later T s.center t.center := by
  cases l with
  | distribute passes =>
      simp only [next] at hl
      split at hl
      · cases hl
      · cases hl
        refine ⟨h.site h.file ?_ h.produced, .refl _⟩
        intro p hp
        cases hp
        exact distributeArtifact_round passes
  | siteCall o =>
      simp only [next] at hl
      split at hl
      · next q k hround =>
          cases hl
          exact ⟨h.siteCall hround, .refl _⟩
      · cases hl
  | siteStop =>
      cases hl
      exact ⟨h.site h.file (fun p hp => (by cases hp)) h.produced, .refl _⟩
  | queue fault entryId q =>
      cases hl
      refine ⟨h.site h.file (fun p hp => ?_) h.produced, .refl _⟩
      exact (h.round p hp).stable (fun _ hbc => hbc) (fun _ _ => trivial)
        h.file
  | deliver i now =>
      simp only [next] at hl
      split at hl
      · cases hl
      · next sequence message hi =>
          cases hl
          refine ⟨⟨h.file, h.round, h.produced, h.center, ?_, h.written⟩,
            .refl _⟩
          intro task htask
          rcases List.mem_append.mp htask with htask | htask
          · exact h.tasks task htask
          · rw [List.mem_singleton] at htask
            subst htask
            have hframe := h.produced _ (List.mem_of_getElem? hi)
            exact ⟨hframe, onFrame_own (fun h => hfit ⟨hframe.size, h⟩) hframe⟩
  | centerCall j o =>
      simp only [next] at hl
      split at hl
      · next message placed q k hj =>
          cases hl
          obtain ⟨hinv, hown⟩ := h.centerCall (o := o) hj
          exact ⟨hinv, hown.later⟩
      · cases hl
  | centerDrop j =>
      cases hl
      refine ⟨⟨h.file, h.round, h.produced, h.center, ?_, h.written⟩, .refl _⟩
      exact fun task htask => h.tasks task (List.mem_of_mem_eraseIdx htask)
  | centerCrash =>
      cases hl
      refine ⟨⟨h.file, h.round, h.produced, h.center, ?_, h.written⟩, .refl _⟩
      intro task htask
      cases htask

theorem SysInv.of_reach (hfit : Fits T) (h : Reachable sha T s) :
    SysInv sha T s := by
  refine h.inv (P := SysInv sha T) ?_ ?_
  · rintro s rfl
    exact .init
  · rintro s t hs ⟨l, hl⟩
    exact (hs.of_next hfit hl).1

/-! ## What holds of an upload -/

/-- At every point: the file agrees with the site's up to the stored progress,
the progress is within the declared size, a ready row has the declared digest,
and no step takes progress back. -/
def Sound (sha : Bytes → Digest) (T : Setup) : Prop :=
  ∀ s, Reachable sha T s →
    (∀ row, s.center.artifacts.find T.artifact.id = some row →
      (fileOf T s.center).take row.uploadedBytes =
          T.file.take row.uploadedBytes ∧
        row.uploadedBytes ≤ T.artifact.sizeBytes ∧
        (row.state = .ready →
          sha (fileOf T s.center) = T.artifact.sha256)) ∧
    ∀ t, Next (next sha T) s t →
      ∀ row, s.center.artifacts.find T.artifact.id = some row →
        ∃ row', t.center.artifacts.find T.artifact.id = some row' ∧
          row.uploadedBytes ≤ row'.uploadedBytes

/-- At every point: the bytes of a chunk were written at its index times the
site's chunk size, and a call for a chunk that is not written leaves the files
and the rows as they are. -/
def InPlace (sha : Bytes → Digest) (T : Setup) : Prop :=
  ∀ s, Reachable sha T s →
    (∀ p ∈ s.written, p.2 = p.1 * T.config.artifactChunkBytes) ∧
    ∀ j o t task, next sha T s (.centerCall j o) = some t →
      t.tasks[j]? = some task → chunkIndex task.message ≠ none →
      task.placed = none →
        t.center.files = s.center.files ∧
          t.center.artifacts = s.center.artifacts

theorem sound_of_fits (hfit : Fits T) : Sound sha T := by
  intro s hs
  have hinv := SysInv.of_reach hfit hs
  refine ⟨fun row hrow => ?_, fun t ht row hrow => ?_⟩
  · have hrowInv := hinv.center.row row hrow
    refine ⟨agree_iff_take.mp hrowInv.agrees, hrowInv.bounded, fun hready => ?_⟩
    obtain ⟨hfile, hdigest⟩ := hrowInv.ready hready
    rw [hfile, hdigest]
  · obtain ⟨l, hl⟩ := ht
    exact (hinv.of_next hfit hl).2.rows row hrow

theorem inPlace_of_fits (hfit : Fits T) : InPlace sha T := by
  intro s hs
  have hinv := SysInv.of_reach hfit hs
  refine ⟨hinv.written, fun j o t task ht htask hindex hplaced => ?_⟩
  simp only [next] at ht
  split at ht
  · next message placed q k hj =>
      cases ht
      obtain ⟨-, hown⟩ := hinv.centerCall (o := o) hj
      have hlt : j < s.tasks.length := (List.getElem?_eq_some_iff.mp hj).1
      have heq : task = Task.after ⟨message, placed, .call q k⟩ q
          (k (performCenter sha o q s.center).1) := by
        have := htask
        rw [List.getElem?_set_self hlt] at this
        exact (Option.some.inj this).symm
      subst heq
      exact hown.absorbed hindex hplaced
  · cases ht

end Rutilus.Proofs.ArtifactUpload
